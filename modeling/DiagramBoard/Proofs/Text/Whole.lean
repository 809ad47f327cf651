/-
DiagramBoard.Proofs.Text.Whole — texts that a reader takes whole.

A writer puts names, quoted labels and keywords next to each other, and a reader has to stop where
the writer did.  Each statement below says what one reader does with `w ++ r` when `w` is what it
should take and `r` cannot continue it.

Main statements: a name is read whole (`takeSome?_append`), a quoted text up to its quote
(`cutAt?_append`), a keyword only if it is a whole word (`afterKeyword?_append_eq_none`), and
encoding keeps a text trimmed and free of quotes and line feeds (`trim_encode`, `quote_notMem_encode`,
`notMem_encode`).
-/
import DiagramBoard.Grammar.Line
import Mathlib

namespace DiagramBoard.Text

/-! ## Blank characters and word characters -/

/-- The code points of the blanks. -/
theorem toNat_of_isBlank {c : Char} (h : isBlank c = true) :
    c.toNat ∈ [0x09, 0x0A, 0x0B, 0x0C, 0x0D, 0x20, 0x85, 0xA0, 0x1680, 0x2000, 0x2001, 0x2002,
      0x2003, 0x2004, 0x2005, 0x2006, 0x2007, 0x2008, 0x2009, 0x200A, 0x2028, 0x2029, 0x202F,
      0x205F, 0x3000] := by
  simp only [isBlank, Bool.or_eq_true, Bool.and_eq_true, decide_eq_true_eq, beq_iff_eq] at h
  simp only [List.mem_cons, List.not_mem_nil, or_false]
  omega

/-- No word character is blank. -/
theorem isBlank_of_isWordChar {c : Char} (h : isWordChar c = true) : isBlank c = false := by
  by_contra hb
  have hmem := toNat_of_isBlank (Bool.not_eq_false _ ▸ hb)
  have hall : ∀ n ∈ [0x09, 0x0A, 0x0B, 0x0C, 0x0D, 0x20, 0x85, 0xA0, 0x1680, 0x2000, 0x2001, 0x2002,
      0x2003, 0x2004, 0x2005, 0x2006, 0x2007, 0x2008, 0x2009, 0x200A, 0x2028, 0x2029, 0x202F,
      0x205F, 0x3000], isWordChar (Char.ofNat n) = false := by decide +kernel
  have := hall _ hmem
  rw [Char.ofNat_toNat] at this
  simp [h] at this

/-- No character of a hyphenated name is blank. -/
theorem isBlank_of_isNameChar {c : Char} (h : isNameChar c = true) : isBlank c = false := by
  rw [isNameChar, Bool.or_eq_true, beq_iff_eq] at h
  rcases h with h | rfl
  · exact isBlank_of_isWordChar h
  · decide

theorem isNameChar_of_isWordChar {c : Char} (h : isWordChar c = true) : isNameChar c = true := by
  simp [isNameChar, h]

theorem isWordChar_of_isAlphanum {c : Char} (h : c.isAlphanum = true) : isWordChar c = true := by
  have hlt : c.toNat < 0x80 := by
    simp only [Char.isAlphanum, Char.isAlpha, Char.isUpper, Char.isLower, Char.isDigit,
      Bool.or_eq_true, Bool.and_eq_true, decide_eq_true_eq] at h
    rcases h with (⟨-, h⟩ | ⟨-, h⟩) | ⟨-, h⟩ <;>
      exact Nat.lt_of_le_of_lt (UInt32.le_iff_toNat_le.1 h) (by decide)
  rw [isWordChar, isAlphanumeric, if_pos hlt, h, Bool.true_or]

/-! ## Trimming -/

/-- A trimmed text neither starts nor ends in a blank. -/
theorem trim_eq_self_iff {s : List Char} :
    trim s = s ↔ (∀ c ∈ s.head?, isBlank c = false) ∧ (∀ c ∈ s.getLast?, isBlank c = false) := by
  constructor
  · intro h
    rw [← h]
    exact ⟨trim_head s, trim_last s⟩
  · intro h
    exact trim_eq_self h.1 h.2

/-- Blanks in front do not matter. -/
theorem trim_append_of_blank {b : List Char} (hb : ∀ c ∈ b, isBlank c = true) (s : List Char) :
    trim (b ++ s) = trim s := by
  rw [trim, trim, trimStart, trimStart, List.dropWhile_append_of_pos hb]

/-- A text of characters that are not blank is trimmed. -/
theorem trim_eq_self_of_forall {s : List Char} (h : ∀ c ∈ s, isBlank c = false) : trim s = s :=
  trim_eq_self (fun c hc => h c (List.mem_of_mem_head? hc))
    (fun c hc => h c (List.mem_of_mem_getLast? hc))

/-- A text that starts with a character that is not blank keeps it. -/
theorem trim_cons {c : Char} (hc : isBlank c = false) (s : List Char) :
    ∃ r, trim (c :: s) = c :: r := by
  have hs : trimStart (c :: s) = c :: s := trimStart_eq_self (by simpa using hc)
  obtain ⟨t, ht, hb⟩ := trimEnd_prefix_eq (c :: s)
  rw [trim, hs]
  cases he : trimEnd (c :: s) with
  | nil =>
    rw [he, List.nil_append] at ht
    rw [← ht] at hb
    simp [hc] at hb
  | cons d r =>
    rw [he, List.cons_append] at ht
    exact ⟨r, by rw [(List.cons.inj ht).1]⟩

/-- Blanks behind are taken off the end. -/
theorem trimEnd_append_of_blank {e : List Char} (he : ∀ c ∈ e, isBlank c = true) (s : List Char) :
    trimEnd (s ++ e) = trimEnd s := by
  rw [trimEnd, List.reverse_append, List.dropWhile_append_of_pos (by simpa using he), trimEnd]

/-- Behind a text that does not end in a blank, only what follows is trimmed. -/
theorem trimEnd_append {s : List Char} (h : ∀ c ∈ s.getLast?, isBlank c = false) (e : List Char) :
    trimEnd (s ++ e) = s ++ trimEnd e := by
  obtain ⟨b, he, hb⟩ := trimEnd_prefix_eq e
  conv_lhs => rw [he, ← List.append_assoc]
  rw [trimEnd_append_of_blank fun c hc => List.all_eq_true.1 hb c hc]
  refine trimEnd_eq_self ?_
  by_cases hnil : trimEnd e = []
  · rwa [hnil, List.append_nil]
  · rw [List.getLast?_append_of_ne_nil _ hnil]
    exact trimEnd_last e

/-- Blanks behind do not matter. -/
theorem trim_append_blank {e : List Char} (he : ∀ c ∈ e, isBlank c = true) (s : List Char) :
    trim (s ++ e) = trim s := by
  have hdrop : e.dropWhile isBlank = [] := List.dropWhile_eq_nil_iff.2 he
  rw [trim, trim, trimStart, List.dropWhile_append]
  split
  · rename_i hnil
    rw [hdrop, trimStart, List.isEmpty_iff.1 hnil]
  · exact trimEnd_append_of_blank he _

/-- A text is what is left of it between blanks. -/
theorem exists_eq_append_trim (s : List Char) : ∃ b e, s = b ++ trim s ++ e
    ∧ (∀ c ∈ b, isBlank c = true) ∧ ∀ c ∈ e, isBlank c = true := by
  obtain ⟨e, hs, he⟩ := trimEnd_prefix_eq (trimStart s)
  refine ⟨s.takeWhile isBlank, e, ?_, fun c hc => List.mem_takeWhile_imp hc,
    fun c hc => List.all_eq_true.1 he c hc⟩
  rw [List.append_assoc, trim, ← hs, trimStart, List.takeWhile_append_dropWhile]

/-- A text with something other than blanks is not trimmed to nothing. -/
theorem trim_ne_nil {c : Char} {s : List Char} (hc : c ∈ s) (hb : isBlank c = false) : trim s ≠ [] := by
  intro hnil
  obtain ⟨b, e, hs, hbs, hes⟩ := exists_eq_append_trim s
  rw [hnil, List.append_nil] at hs
  rw [hs, List.mem_append] at hc
  rcases hc with hc | hc
  · simp [hbs c hc] at hb
  · simp [hes c hc] at hb

/-- The parts of a text that trimming takes off. -/
theorem trim_sublist (s : List Char) : (trim s).Sublist s := by
  obtain ⟨b, e, hs, -, -⟩ := exists_eq_append_trim s
  conv_rhs => rw [hs]
  exact (List.sublist_append_right b _).trans (List.sublist_append_left _ e)

/-! ## Classes and literals -/

/-- A class is taken up to the first character outside it. -/
theorem takeSome?_append {p : Char → Bool} {w r : List Char} (hne : w ≠ [])
    (hw : ∀ c ∈ w, p c = true) (hr : ∀ c ∈ r.head?, p c = false) :
    takeSome? p (w ++ r) = some (w, r) := by
  rw [takeSome?_eq_some]
  have h1 : r.takeWhile p = [] := by
    cases r with
    | nil => rfl
    | cons c r => simp [hr c (by simp)]
  have h2 : r.dropWhile p = r := by
    cases r with
    | nil => rfl
    | cons c r => simp [hr c (by simp)]
  rw [List.takeWhile_append_of_pos hw, List.dropWhile_append_of_pos hw, h1, h2]
  simp [hne]

/-- What a class takes belongs to it, and it stops only in front of something else. -/
theorem forall_of_takeSome? {p : Char → Bool} {s w r : List Char}
    (h : takeSome? p s = some (w, r)) :
    w ≠ [] ∧ (∀ c ∈ w, p c = true) ∧ (∀ c ∈ r.head?, p c = false) := by
  obtain ⟨hne, rfl, rfl⟩ := takeSome?_eq_some.1 h
  refine ⟨hne, fun c hc => List.all_eq_true.1 List.all_takeWhile c hc, ?_⟩
  clear h hne
  induction s with
  | nil => simp
  | cons c s ih =>
    by_cases hc : p c = true
    · simpa [hc] using ih
    · simp [hc]

/-- Nothing of a class is taken if the first character is outside it. -/
theorem takeSome?_eq_none {p : Char → Bool} {s : List Char} (h : ∀ c ∈ s.head?, p c = false) :
    takeSome? p s = none := by
  cases s with
  | nil => rfl
  | cons c s => simp [takeSome?, h c (by simp)]

/-- A text is cut at the first occurrence of a literal. -/
theorem cutAt?_append {c : Char} {l w r : List Char} (h : c ∉ w) :
    cutAt? (c :: l) (w ++ (c :: l ++ r)) = some (w, r) := by
  induction w with
  | nil =>
    have : List.isPrefixOf? (c :: l) (c :: (l ++ r)) = some r := isPrefixOf?_eq_some.2 rfl
    simp [cutAt?, this]
  | cons d w ih =>
    have hd : (c == d) = false := by simpa using fun e => h (by simp [e])
    have hw : c ∉ w := fun m => h (List.mem_cons_of_mem _ m)
    rw [List.cons_append, cutAt?, isPrefixOf?_cons, hd]
    simpa using ih hw

/-- What a text holds in front of the first occurrence of a character does not have it. -/
theorem notMem_of_cutAt? {c : Char} {s w r : List Char} (h : cutAt? [c] s = some (w, r)) :
    c ∉ w := by
  induction s generalizing w with
  | nil => simp [cutAt?] at h
  | cons d s ih =>
    rw [cutAt?, isPrefixOf?_cons] at h
    by_cases hd : c = d
    · have hp : List.isPrefixOf? ([] : List Char) s = some s := rfl
      simp only [hd, beq_self_eq_true, if_true, hp, Option.some.injEq, Prod.mk.injEq] at h
      simp [← h.1]
    · simp only [beq_iff_eq, hd, if_false] at h
      obtain ⟨⟨w', r'⟩, hp, heq⟩ := Option.map_eq_some_iff.1 h
      obtain ⟨rfl, rfl⟩ : d :: w' = w ∧ r' = r := by simpa using heq
      simp [hd, ih hp]

/-! ## Quotes -/

theorem beforeLast?_append (c : Char) (w : List Char) : beforeLast? c (w ++ [c]) = some w := by
  simp [beforeLast?]

theorem beforeLast?_eq_some {c : Char} {s w : List Char} (h : beforeLast? c s = some w) :
    s = w ++ [c] := by
  unfold beforeLast? at h
  split at h
  · rename_i hl
    obtain rfl := Option.some.inj h
    exact (List.dropLast_append_getLast? c hl).symm
  · simp at h

/-- One pair of quotes comes off. -/
theorem stripQuotes_quoted (w : List Char) : stripQuotes ('"' :: (w ++ ['"'])) = w := by
  simp [stripQuotes, beforeLast?_append]

/-- A text without quotes keeps all of itself. -/
theorem stripQuotes_eq_self {s : List Char} (h : '"' ∉ s) : stripQuotes s = s := by
  cases s with
  | nil => rfl
  | cons c s =>
    have : c ≠ '"' := fun e => h (by simp [e])
    unfold stripQuotes
    split
    · rename_i heq
      exact absurd (List.cons.inj heq).1 this
    · rfl

/-- Taking quotes off takes nothing else off. -/
theorem stripQuotes_sublist (s : List Char) : (stripQuotes s).Sublist s := by
  unfold stripQuotes
  split
  · rename_i r
    cases hb : beforeLast? '"' r with
    | none => simp
    | some w =>
      rw [beforeLast?_eq_some hb]
      simp
  · exact List.Sublist.refl _

/-! ## Keywords -/

/-- A keyword at the start of another name is no keyword there. -/
theorem afterKeyword?_append_eq_none {k : String} {w r : List Char}
    (hne : w ≠ k.toList) (hk : ∀ c ∈ k.toList, isNameChar c = true)
    (hw : ∀ c ∈ w, isNameChar c = true) (hr : ∀ c ∈ r.head?, isNameChar c = false) :
    afterKeyword? k (w ++ r) = none := by
  unfold afterKeyword?
  cases ha : after? k (w ++ r) with
  | none => rfl
  | some t =>
    rw [after?_eq_some] at ha
    rcases List.append_eq_append_iff.1 ha with ⟨a, hka, hra⟩ | ⟨a, hwa, hta⟩
    · -- the keyword goes on where the name has ended
      cases a with
      | nil => exact absurd (by simpa using hka.symm) hne
      | cons c a =>
        have h1 := hk c (by simp [hka])
        have h2 := hr c (by simp [hra])
        simp [h1] at h2
    · cases a with
      | nil => exact absurd (by simpa using hwa) hne
      | cons c a =>
        have := isBlank_of_isNameChar (hw c (by simp [hwa]))
        simp [hta, this]

/-- A keyword in front of something that is neither blank nor the end is no keyword there. -/
theorem afterKeyword?_cons_eq_none {k : String} {c : Char} (hc : isBlank c = false)
    (r : List Char) : afterKeyword? k (k.toList ++ c :: r) = none := by
  simp [afterKeyword?, hc]

/-- A keyword alone. -/
theorem afterKeyword?_self (k : String) : afterKeyword? k k.toList = some [] := by
  have := after?_append k []
  rw [List.append_nil] at this
  simp [afterKeyword?, this]

/-- A keyword, a space and more. -/
theorem afterKeyword?_space (k : String) (r : List Char) :
    afterKeyword? k (k.toList ++ ' ' :: r) = some (trimStart r) := by
  have : isBlank ' ' = true := by decide
  simp [afterKeyword?, this, trimStart]

/-- A keyword is read only where its letters stand. -/
theorem afterKeyword?_eq_some {k : String} {s t : List Char} (h : afterKeyword? k s = some t) :
    (s = k.toList ∧ t = []) ∨
      ∃ c r, isBlank c = true ∧ s = k.toList ++ c :: r ∧ t = trimStart (c :: r) := by
  unfold afterKeyword? at h
  split at h
  · rename_i ha
    left
    rw [after?_eq_some] at ha
    exact ⟨by simpa using ha, (Option.some.inj h).symm⟩
  · rename_i c r ha
    right
    rw [after?_eq_some] at ha
    by_cases hb : isBlank c = true
    · rw [if_pos hb] at h
      exact ⟨c, r, hb, ha, (Option.some.inj h).symm⟩
    · simp [hb] at h
  · simp at h

end DiagramBoard.Text

namespace DiagramBoard.Text.Entity

/-! ## Entities -/

/-- The characters of the two entities. -/
def entityChars : List Char := ['#', '3', '5', ';', 'q', 'u', 'o', 't']

theorem encodeChar_ne_nil (c : Char) : encodeChar c ≠ [] := by
  unfold encodeChar
  split
  · simp
  · split <;> simp

theorem mem_encodeChar {c d : Char} (h : c ∈ encodeChar d) :
    c ∈ entityChars ∨ (c = d ∧ d ≠ '"') := by
  unfold encodeChar at h
  split at h
  · left
    have hsub : "#35;".toList ⊆ entityChars := by decide
    exact hsub h
  · split at h
    · left
      have hsub : "#quot;".toList ⊆ entityChars := by decide
      exact hsub h
    · rename_i h2
      right
      obtain rfl := List.mem_singleton.1 h
      exact ⟨rfl, h2⟩

/-- An encoded text has the characters of the text and those of the two entities. -/
theorem mem_encode {c : Char} {s : List Char} (h : c ∈ encode s) :
    c ∈ entityChars ∨ (c ∈ s ∧ c ≠ '"') := by
  obtain ⟨d, hd, hc⟩ := List.mem_flatMap.1 h
  rcases mem_encodeChar hc with h | ⟨rfl, hne⟩
  · exact .inl h
  · exact .inr ⟨hd, hne⟩

/-- An encoded text can stand in quotes. -/
theorem quote_notMem_encode (s : List Char) : '"' ∉ encode s := by
  intro h
  rcases mem_encode h with h | ⟨-, h⟩
  · simp [entityChars] at h
  · exact h rfl

/-- Encoding adds no character but those of the entities. -/
theorem notMem_encode {c : Char} {s : List Char} (hc : c ∉ entityChars) (h : c ∉ s) :
    c ∉ encode s := by
  intro hm
  rcases mem_encode hm with hm | ⟨hm, -⟩
  · exact hc hm
  · exact h hm

/-- Decoding adds no character but the double quote. -/
theorem mem_decode {c : Char} {s : List Char} (h : c ∈ decode s) : c ∈ s ∨ c = '"' := by
  fun_induction decode s with
  | case1 r ih =>
    rcases List.mem_cons.1 h with rfl | h
    · exact .inr rfl
    · exact (ih h).imp_left fun h => by simp [h]
  | case2 r ih =>
    rcases List.mem_cons.1 h with rfl | h
    · simp
    · exact (ih h).imp_left fun h => by simp [h]
  | case3 d r _ _ ih =>
    rcases List.mem_cons.1 h with rfl | h
    · simp
    · exact (ih h).imp_left fun h => by simp [h]
  | case4 => simp at h

theorem notMem_decode {c : Char} {s : List Char} (hc : c ≠ '"') (h : c ∉ s) : c ∉ decode s := by
  intro hm
  rcases mem_decode hm with hm | hm
  · exact h hm
  · exact hc hm

@[simp] theorem encode_eq_nil {s : List Char} : encode s = [] ↔ s = [] := by
  cases s with
  | nil => simp
  | cons c s => simp [encodeChar_ne_nil]

@[simp] theorem decode_eq_nil {s : List Char} : decode s = [] ↔ s = [] := by
  fun_cases decode s <;> simp

theorem encode_append (s t : List Char) : encode (s ++ t) = encode s ++ encode t := by
  simp [encode]

theorem isBlank_of_mem_entities {c : Char} (h : c ∈ entityChars) : isBlank c = false := by
  simp only [entityChars, List.mem_cons, List.not_mem_nil, or_false] at h
  rcases h with rfl | rfl | rfl | rfl | rfl | rfl | rfl | rfl <;> decide

theorem encode_of_blank {s : List Char} (h : ∀ c ∈ s, isBlank c = true) : encode s = s := by
  induction s with
  | nil => rfl
  | cons c s ih =>
    have hne : c ≠ '#' ∧ c ≠ '"' := by
      constructor <;> rintro rfl <;> exact absurd (h _ List.mem_cons_self) (by decide)
    rw [encode_cons, encodeChar, if_neg hne.1, if_neg hne.2,
      ih fun d hd => h d (List.mem_cons_of_mem _ hd)]
    rfl

/-- An encoded character starts and ends in itself or in a character of an entity. -/
theorem isBlank_of_mem_encodeChar {c d : Char} (hd : isBlank d = false) (h : c ∈ encodeChar d) :
    isBlank c = false := by
  rcases mem_encodeChar h with h | ⟨rfl, -⟩
  · exact isBlank_of_mem_entities h
  · exact hd

theorem isBlank_head?_encode {s : List Char} (h : ∀ c ∈ s.head?, isBlank c = false) :
    ∀ c ∈ (encode s).head?, isBlank c = false := by
  cases s with
  | nil => simp
  | cons d s =>
    rw [encode_cons, List.head?_append_of_ne_nil _ (encodeChar_ne_nil d)]
    exact fun c hc => isBlank_of_mem_encodeChar (h d rfl) (List.mem_of_mem_head? hc)

theorem isBlank_getLast?_encode {s : List Char} (h : ∀ c ∈ s.getLast?, isBlank c = false) :
    ∀ c ∈ (encode s).getLast?, isBlank c = false := by
  rcases List.eq_nil_or_concat s with rfl | ⟨s', d, rfl⟩
  · simp
  · rw [List.concat_eq_append, encode_append, encode_cons, encode_nil, List.append_nil,
      List.getLast?_append_of_ne_nil _ (encodeChar_ne_nil d)]
    exact fun c hc => isBlank_of_mem_encodeChar (h d (by simp)) (List.mem_of_mem_getLast? hc)

/-- Encoding leaves the blanks in front of a text alone. -/
theorem trimStart_encode (s : List Char) : trimStart (encode s) = encode (trimStart s) := by
  have hblank : ∀ c ∈ s.takeWhile isBlank, isBlank c = true := fun c hc =>
    List.mem_takeWhile_imp hc
  calc trimStart (encode s)
      = trimStart (s.takeWhile isBlank ++ encode (trimStart s)) := by
        conv_lhs => rw [← List.takeWhile_append_dropWhile (p := isBlank) (l := s), encode_append,
          encode_of_blank hblank]
        rfl
    _ = encode (trimStart s) := by
        rw [trimStart, List.dropWhile_append_of_pos hblank]
        exact trimStart_eq_self (isBlank_head?_encode (head?_dropWhile_isBlank s))

/-- Encoding leaves the blanks behind a text alone. -/
theorem trimEnd_encode (s : List Char) : trimEnd (encode s) = encode (trimEnd s) := by
  obtain ⟨e, hs, he⟩ := trimEnd_prefix_eq s
  have hblank : ∀ c ∈ e, isBlank c = true := fun c hc => List.all_eq_true.1 he c hc
  calc trimEnd (encode s)
      = trimEnd (encode (trimEnd s) ++ e) := by
        conv_lhs => rw [hs, encode_append, encode_of_blank hblank]
    _ = encode (trimEnd s) := by
        rw [trimEnd_append_of_blank hblank]
        exact trimEnd_eq_self (isBlank_getLast?_encode (trimEnd_last s))

/-- Encoding leaves the blanks around a text alone. -/
theorem trim_encode_eq (s : List Char) : trim (encode s) = encode (trim s) := by
  rw [trim, trimStart_encode, trimEnd_encode, trim]

/-- Encoding keeps a text trimmed. -/
theorem trim_encode {s : List Char} (h : trim s = s) : trim (encode s) = encode s := by
  rw [trim_encode_eq, h]

theorem head?_decode {c : Char} {s : List Char} (h : c ∈ (decode s).head?) :
    c = '"' ∨ c ∈ s.head? := by
  fun_cases decode s with
  | case1 r =>
    simp only [decode, List.head?_cons, Option.mem_some_iff] at h
    exact .inl h.symm
  | case2 r =>
    simp only [decode, List.head?_cons, Option.mem_some_iff] at h
    exact .inr (by simpa using h)
  | case3 d r h1 h2 => simp_all [decode]
  | case4 => simp [decode] at h

/-- A decoded text ends in a decoded character or as the text did. -/
theorem getLast?_cons_decode {c d : Char} {r s : List Char} (hs : s.getLast? = r.getLast? ∨ r = [])
    (ih : c ∈ (decode r).getLast? → c = '"' ∨ c = '#' ∨ c ∈ r.getLast?)
    (hd : d = '"' ∨ d = '#' ∨ d ∈ s.getLast? ∨ r ≠ [])
    (h : c ∈ (d :: decode r).getLast?) : c = '"' ∨ c = '#' ∨ c ∈ s.getLast? := by
  by_cases hr : r = []
  · subst hr
    simp only [decode, List.getLast?_singleton, Option.mem_some_iff] at h
    subst h
    simpa using hd
  · have hn : decode r ≠ [] := fun e => hr (decode_eq_nil.1 e)
    rw [List.getLast?_cons_of_ne_nil hn] at h
    rw [hs.resolve_right hr]
    exact ih h

theorem getLast?_decode {c : Char} {s : List Char} (h : c ∈ (decode s).getLast?) :
    c = '"' ∨ c = '#' ∨ c ∈ s.getLast? := by
  fun_induction decode s with
  | case1 r ih =>
    refine getLast?_cons_decode ?_ ih (.inl rfl) h
    cases r <;> simp
  | case2 r ih =>
    refine getLast?_cons_decode ?_ ih (.inr (.inl rfl)) h
    cases r <;> simp
  | case3 d r _ _ ih =>
    refine getLast?_cons_decode ?_ ih ?_ h
    · cases r <;> simp
    · cases r <;> simp
  | case4 => simp at h

/-- Decoding keeps a text trimmed. -/
theorem trim_decode {s : List Char} (h : trim s = s) : trim (decode s) = decode s := by
  rw [trim_eq_self_iff] at h ⊢
  constructor
  · intro c hc
    rcases head?_decode hc with rfl | hc
    · decide
    · exact h.1 c hc
  · intro c hc
    rcases getLast?_decode hc with rfl | rfl | hc
    · decide
    · decide
    · exact h.2 c hc

end DiagramBoard.Text.Entity
