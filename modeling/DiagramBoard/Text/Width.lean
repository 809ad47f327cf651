/-
DiagramBoard.Text.Width — how many columns a text takes.

A character takes one column, a wide one two and a mark none.  Some sequences take less than the sum
of their characters: a carriage return with its line feed, emoji put together with selectors, skin
tones and joiners, and the ligatures of a few scripts.  So a text is measured from its end, and at
each character the state says what the part already measured starts with.

Main statement: printable ASCII takes one column a character (`width_ascii`).
-/
import DiagramBoard.Text.WidthClasses

namespace DiagramBoard.Text.Width

/-- What the measured part of a text starts with, as far as the character before it can tell. -/
inductive Ahead
  | other
  | lineFeed
  /-- An Arabic letter of the alef group. -/
  | alef
  /-- The Hebrew letter lamed, behind a joiner or not. -/
  | lamed (joined : Bool)
  /-- A Khmer letter that can be subscript. -/
  | subscriptLetter
  /-- The Buginese letter ya, behind a joiner or not. -/
  | ya (joined : Bool)
  /-- The Buginese vowel sign i before a joiner and ya. -/
  | vowelSignYa
  /-- A Tifinagh consonant, behind a joiner or not. -/
  | consonant (joined : Bool)
  /-- The Tifinagh consonant joiner before a consonant. -/
  | consonantJoiner
  /-- A final tone letter of Lisu. -/
  | toneLetter
  /-- The Old Turkic letter Orkhon i, behind a joiner or not. -/
  | orkhonI (joined : Bool)
  /-- The Kirat Rai vowel sign e. -/
  | vowelE
  /-- The Kirat Rai vowel sign ai. -/
  | vowelAi
  /-- A skin tone. -/
  | skinTone
  /-- A regional indicator, or several of them. -/
  | regional (several : Bool)
  /-- An emoji, or a sequence that is one. -/
  | emoji
  /-- A joiner before an emoji. -/
  | joinedEmoji
  /-- A keycap mark before a joiner and an emoji. -/
  | joinedKeycap
  /-- One regional indicator before a joiner and an emoji. -/
  | joinedRegional
  /-- Several regional indicators before a joiner and an emoji, and whether they are an even
  number. -/
  | joinedRegionals (paired : Bool)
  /-- Tag letters before the end tag of a flag that is joined to an emoji. -/
  | tagLetters (count : Nat)
  /-- Tag digits there, whatever letters come after them. -/
  | tagDigits (count : Nat)
deriving DecidableEq, Repr

/-- A selector that asks for the text, the emoji or the fullwidth form of the character before
it. -/
inductive Selector
  | none | text | emoji | fullwidth
deriving DecidableEq, Repr

/-- What the next character to the left is measured against. -/
structure State where
  ahead : Ahead := .other
  selector : Selector := .none
deriving DecidableEq, Repr

/-- Marks, default ignorables and the like. -/
def isZeroWidth (c : Char) : Bool := inRanges zeroWidthRanges c.toNat

/-- East Asian wide characters and emoji. -/
def isWide (c : Char) : Bool := inRanges wideRanges c.toNat

/-- Emoji by default, skin tones apart. -/
def isEmoji (c : Char) : Bool := inRanges emojiRanges c.toNat

/-- Characters with an emoji and a text form. -/
def isVariationBase (c : Char) : Bool := inRanges variationBaseRanges c.toNat

/-- Emoji with a narrow text form: enclosed ideographs stay wide. -/
def isTextBase (c : Char) : Bool :=
  isVariationBase c && isEmoji c && !(0x1F200 ≤ c.toNat && c.toNat ≤ 0x1F2FF)

/-- Curved quotation marks, which have a fullwidth form. -/
def isCurvedQuote (c : Char) : Bool :=
  c.toNat == 0x2018 || c.toNat == 0x2019 || c.toNat == 0x201C || c.toNat == 0x201D

/-- Skin tones. -/
def isSkinTone (c : Char) : Bool := 0x1F3FB ≤ c.toNat && c.toNat ≤ 0x1F3FF

/-- Regional indicators. -/
def isRegional (c : Char) : Bool := 0x1F1E6 ≤ c.toNat && c.toNat ≤ 0x1F1FF

/-- The letters among the tags. -/
def isTagLetter (c : Char) : Bool := 0xE0061 ≤ c.toNat && c.toNat ≤ 0xE007A

/-- The digits among the tags. -/
def isTagDigit (c : Char) : Bool := 0xE0030 ≤ c.toNat && c.toNat ≤ 0xE0039

/-- The black flag, which tags make the flag of a region. -/
def isFlagBase (c : Char) : Bool := c.toNat == 0x1F3F4

/-- Tifinagh consonants. -/
def isConsonant (c : Char) : Bool :=
  (0x2D31 ≤ c.toNat && c.toNat ≤ 0x2D65) || c.toNat == 0x2D6F

/-- Khmer letters that take the subscript form behind a coeng sign. -/
def isSubscriptLetter (c : Char) : Bool :=
  inRanges [(0x1780, 0x1782), (0x1784, 0x1787), (0x1789, 0x178C), (0x178E, 0x1793),
    (0x1795, 0x1798), (0x179B, 0x179D), (0x17A0, 0x17A0), (0x17A2, 0x17A2), (0x17A7, 0x17A7),
    (0x17AB, 0x17AC), (0x17AF, 0x17AF)] c.toNat

/-- Ignorable marks that may stand inside a ligature. -/
def isLigatureTransparent (c : Char) : Bool :=
  inRanges [(0x034F, 0x034F), (0x17B4, 0x17B5), (0x180B, 0x180D), (0x180F, 0x180F),
    (0xFE00, 0xFE0F), (0xE0100, 0xE01EF)] c.toNat

/-- Marks that joining Arabic letters may have between them. -/
def isJoiningTransparent (c : Char) : Bool :=
  isZeroWidth c && !inRanges joinBreakerRanges c.toNat

/-- The columns of a character alone, and what it is to the character before it.  Two Khmer signs
stand for several letters and are as wide as these: the vowel qaa and the sign beyyal. -/
def alone (c : Char) : Int × Ahead :=
  let n := c.toNat
  if isSkinTone c then (2, .skinTone)
  else if isRegional c then (1, .regional false)
  else if isEmoji c then (2, .emoji)
  else if n = 0x17A4 then (2, .other)
  else if n = 0x17D8 then (3, .other)
  else if isZeroWidth c then (0, .other)
  else if isWide c then (2, .other)
  else if inRanges alefRanges n then (1, .alef)
  else if n = 0x5DC then (1, .lamed false)
  else if isSubscriptLetter c then (1, .subscriptLetter)
  else if n = 0x1A10 then (1, .ya false)
  else if isConsonant c then (1, .consonant false)
  else if n = 0xA4FC || n = 0xA4FD then (1, .toneLetter)
  else if n = 0x10C03 then (1, .orkhonI false)
  else if n = 0x16D67 then (1, .vowelE)
  else if n = 0x16D68 then (1, .vowelAi)
  else (1, .other)

/-- States of a ligature that ignorable marks do not end. -/
def Ahead.isLigature : Ahead → Bool
  | .lamed _ | .ya _ | .vowelSignYa | .consonant _ | .consonantJoiner | .toneLetter | .orkhonI _
  | .subscriptLetter | .alef => true
  | _ => false

/-- States behind a joiner that belongs to an emoji. -/
def Ahead.isJoinedEmoji : Ahead → Bool
  | .joinedEmoji | .joinedKeycap => true
  | _ => false

/-- The state behind a joiner, inside a ligature.  Only alef lets no joiner in. -/
def Ahead.join : Ahead → Ahead
  | .lamed _ => .lamed true
  | .ya _ => .ya true
  | .consonant _ => .consonant true
  | .orkhonI _ => .orkhonI true
  | .alef => .other
  | ahead => ahead

/-- The state that is left when a selector turns out to have no base before it. -/
def Ahead.withoutBase (ahead : Ahead) : Ahead := if ahead.isLigature then ahead else .other

/-- The columns that a character adds in a sequence with what follows it, if it is in one. -/
def inSequence? (ahead : Ahead) (c : Char) : Option (Int × Ahead) :=
  let n := c.toNat
  match ahead with
  | .alef =>
    if inRanges lamRanges n then some (0, .other)
    else if isJoiningTransparent c then some (0, .alef)
    else none
  | .lamed true => if n = 0x5D0 then some (0, .other) else none
  | .subscriptLetter => if n = 0x17D2 then some (-1, .other) else none
  | .ya true => if n = 0x1A17 then some (0, .vowelSignYa) else none
  | .vowelSignYa => if n = 0x1A15 then some (0, .other) else none
  | .consonant joined =>
    if n = 0x2D7F then some (1, .consonantJoiner)
    else if joined && isConsonant c then some (0, .other)
    else none
  | .consonantJoiner => if isConsonant c then some (-1, .other) else none
  | .toneLetter => if 0xA4F8 ≤ n && n ≤ 0xA4FB then some (0, .other) else none
  | .orkhonI true => if n = 0x10C32 then some (0, .other) else none
  | .vowelE =>
    if n = 0x16D63 then some (0, .other)
    else if n = 0x16D67 then some (0, .vowelAi)
    else if n = 0x16D68 then some (1, .vowelE)
    else if n = 0x16D69 then some (0, .other)
    else none
  | .vowelAi => if n = 0x16D63 then some (0, .other) else none
  | .skinTone =>
    if inRanges modifierBaseRanges n then some (0, .emoji)
    else if n = 0x200D then some (0, .joinedEmoji)
    else none
  | .regional several =>
    if isRegional c then some (1, .regional true)
    else if several && n = 0x200D then some (0, .joinedEmoji)
    else none
  | .emoji => if n = 0x200D then some (0, .joinedEmoji) else none
  | .joinedEmoji =>
    if n = 0x20E3 then some (0, .joinedKeycap)
    else if isRegional c then some (1, .joinedRegional)
    else if isSkinTone c then some (0, .skinTone)
    else if n = 0xE007F then some (0, .tagLetters 0)
    else if isEmoji c then some (0, .emoji)
    else none
  | .joinedRegional => if isRegional c then some (-1, .joinedRegionals true) else none
  | .joinedRegionals paired =>
    if isRegional c then some (if paired then (3, .joinedRegionals false)
      else (-1, .joinedRegionals true))
    else if n = 0x200D then some (0, .joinedEmoji)
    else none
  | .tagLetters k =>
    if isTagLetter c && k < 6 then some (0, .tagLetters (k + 1))
    else if isTagDigit c && k ≤ 4 then some (0, .tagDigits 1)
    else if isFlagBase c && 3 ≤ k then some (0, .emoji)
    else none
  | .tagDigits k =>
    if isTagDigit c && k < 3 then some (0, .tagDigits (k + 1))
    else if isFlagBase c && k = 3 then some (0, .emoji)
    else none
  | _ => none

/-- The columns that a character adds before a measured part, and the state with it, if no selector
asks for another form of it. -/
def stepPlain (c : Char) (ahead : Ahead) : Int × State :=
  let n := c.toNat
  if n ≤ 0xA0 then
    if c = '\n' then (1, { ahead := .lineFeed })
    else if c = '\r' && ahead = .lineFeed then (0, {})
    else (1, {})
  else if n = 0xFE0F then
    (0, { ahead := if ahead.isLigature || ahead.isJoinedEmoji then ahead else .other,
          selector := .emoji })
  else if n = 0xFE0E then (0, { ahead := ahead.withoutBase, selector := .text })
  else if n = 0xFE01 then (0, { ahead := ahead.withoutBase, selector := .fullwidth })
  else if ahead.isLigature && n = 0x200D then (0, { ahead := ahead.join })
  else if ahead.isLigature && isLigatureTransparent c then (0, { ahead := ahead })
  else
    let p := (inSequence? ahead c).getD (alone c)
    (p.1, { ahead := p.2 })

/-- The columns that a character adds before a measured part, and the state with it. -/
def step (c : Char) (st : State) : Int × State :=
  match st.selector with
  | .none => stepPlain c st.ahead
  | .emoji =>
    if isVariationBase c then (if st.ahead.isJoinedEmoji then 0 else 2, { ahead := .emoji })
    else stepPlain c st.ahead.withoutBase
  | .text => if isTextBase c then (1, {}) else stepPlain c st.ahead
  | .fullwidth => if isCurvedQuote c then (2, {}) else stepPlain c st.ahead

/-- Columns and state of a text, measured from its end. -/
def measure : List Char → Int × State
  | [] => (0, {})
  | c :: r =>
    let m := measure r
    let s := step c m.2
    (m.1 + s.1, s.2)

end Width

/-- The number of columns that a text takes. -/
def displayWidth (s : List Char) : Nat := (Width.measure s).1.toNat

namespace Width

/-- Printable ASCII characters. -/
def isPrintableAscii (c : Char) : Bool := 0x20 ≤ c.toNat && c.toNat < 0x7F

theorem measure_ascii {s : List Char} (h : ∀ c ∈ s, isPrintableAscii c = true) :
    measure s = ((s.length : Int), ({} : State)) := by
  induction s with
  | nil => rfl
  | cons c r ih =>
    have hc := h c (by simp)
    simp only [isPrintableAscii, Bool.and_eq_true, decide_eq_true_eq] at hc
    have hn : c ≠ '\n' := by rintro rfl; exact absurd hc.1 (by decide)
    rw [measure, ih fun d hd => h d (by simp [hd])]
    simp [step, stepPlain, hn, show c.toNat ≤ 0xA0 by omega]

/-- Printable ASCII takes one column a character. -/
theorem width_ascii {s : List Char} (h : ∀ c ∈ s, isPrintableAscii c = true) :
    displayWidth s = s.length := by
  simp [displayWidth, measure_ascii h]

end DiagramBoard.Text.Width
