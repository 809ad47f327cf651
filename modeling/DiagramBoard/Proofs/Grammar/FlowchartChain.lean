/-
DiagramBoard.Proofs.Grammar.FlowchartChain — chains of links in every spelling.

A link is written as a token, perhaps with a label between bars, or with its label between two
tokens.  A label between two tokens ends at the first closing token, and the closing token with a
head is looked for in all of the rest of the line before the one without.  So a headless link with
its label inside takes everything up to a later head of its own stroke for its label.  This is the
only thing that goes wrong: a token without blanks is found within one of the parts between blanks
(`infix_append_iff`), and only the links hold heads (`holdsHead_tail`).

Main statements: a link is read whole (`link?_token`, `link?_inside`), or takes a later head for its
own (`link?_captured`), and so a chain is read as what it says exactly if no link takes the head of
a later one (`statement?_text_iff`).
-/
import DiagramBoard.Proofs.Grammar.Flowchart

namespace DiagramBoard.Text

/-! ## Occurrences of a literal -/

/-- A text cannot be cut at a literal exactly if the literal does not occur in it. -/
theorem cutAt?_eq_none_iff {k : List Char} (hk : k ≠ []) (s : List Char) :
    cutAt? k s = none ↔ ¬ k <:+: s := by
  induction s with
  | nil => simpa [cutAt?] using hk
  | cons c s ih =>
    rw [cutAt?, List.infix_cons_iff]
    cases hp : k.isPrefixOf? (c :: s) with
    | some t =>
      rw [isPrefixOf?_eq_some] at hp
      simp [hp]
    | none =>
      have hprefix : ¬ k <+: c :: s := by
        rintro ⟨t, ht⟩
        rw [isPrefixOf?_eq_some.2 ht.symm] at hp
        simp at hp
      simp [ih, hprefix]

/-- A literal does not reach over a character that it does not have. -/
theorem infix_append_iff {k a r : List Char} (hr : ∀ c ∈ r.head?, c ∉ k) :
    k <:+: a ++ r ↔ k <:+: a ∨ k <:+: r := by
  constructor
  · rintro ⟨s, t, h⟩
    rcases List.append_eq_append_iff.1 h with ⟨u, hu, -⟩ | ⟨u, hu, hru⟩
    · exact .inl ⟨s, u, hu.symm⟩
    · rcases List.append_eq_append_iff.1 hu with ⟨v, hv, hvk⟩ | ⟨v, -, hvk⟩
      · -- the literal starts in the first part, so it ends there as well
        cases u with
        | nil => exact .inl ⟨s, [], by rw [List.append_nil, hu, List.append_nil]⟩
        | cons c u =>
          refine absurd ?_ (hr c (by rw [hru]; rfl))
          rw [hvk]
          simp
      · exact .inr ⟨v, t, by rw [hru, hvk]⟩
  · rintro (h | h)
    · exact h.trans (List.prefix_append a r).isInfix
    · exact h.trans (List.suffix_append a r).isInfix

end DiagramBoard.Text

namespace DiagramBoard.Grammar.Flowchart

open Text
open Writer.Flowchart (markedChars isPlainLabel labelText)

/-! ## Spellings -/

/-- A label of letters, digits and spaces between them. -/
structure IsPhrase (l : List Char) : Prop where
  ne_nil : l ≠ []
  trimmed : trim l = l
  chars : ∀ c ∈ l, isAlphanumeric c = true ∨ c = ' '

/-- The token that opens a link with its label inside. -/
def Stroke.opening : Stroke → String
  | .normal => "--"
  | .dashed => "-."
  | .thick => "=="

/-- The token that closes a link with its label inside, with a head or without one. -/
def Stroke.closing : Stroke → Bool → String
  | .normal, true => "-->"
  | .normal, false => "---"
  | .dashed, true => ".->"
  | .dashed, false => ".-"
  | .thick, true => "==>"
  | .thick, false => "==="

/-- How a link is written. -/
inductive Spelling
  /-- As a token, perhaps with a label between bars, which may stand behind a space. -/
  | token (token : String × Link) (bar : Option (Bool × String))
  /-- With its label between two tokens, with a head or without one. -/
  | inside (stroke : Stroke) (headed : Bool) (label : String)

namespace Spelling

/-- Whether a link is written with one of the tokens and with a plain label. -/
def IsWritten : Spelling → Prop
  | token t bar => t ∈ arrowTokens ∧ ∀ b ∈ bar, IsPhrase b.2.toList
  | inside _ _ l => IsPhrase l.toList

/-- A label between bars. -/
def barText : Option (Bool × String) → List Char
  | none => []
  | some (spaced, l) => (if spaced then [' '] else []) ++ '|' :: (l.toList ++ ['|'])

/-- The text of a link. -/
def text : Spelling → List Char
  | token t bar => t.1.toList ++ barText bar
  | inside stroke headed l =>
    stroke.opening.toList ++ ' ' :: (l.toList ++ ' ' :: (stroke.closing headed).toList)

/-- The link that is written. -/
def link : Spelling → Link
  | token t bar => t.2.labelled (bar.map (·.2))
  | inside stroke headed l => (if headed then Link.arrow stroke else Link.headless stroke).labelled l

/-- The stroke whose head a link is taken to end with, wherever it stands behind the link. -/
def seeks? : Spelling → Option Stroke
  | token _ _ => none
  | inside stroke headed _ => if headed then none else some stroke

/-- Whether the text of a link holds the head that a link of a stroke ends with.  The shortest
arrow is too short for that. -/
def holdsHead (stroke : Stroke) : Spelling → Bool
  | token t _ => t.1 ≠ "->" && t.2.endHead = .arrow && t.2.stroke = stroke
  | inside stroke' headed _ => headed && stroke' = stroke

end Spelling

/-! ## Labels -/

instance (l : List Char) : Decidable (IsPhrase l) :=
  decidable_of_iff (l ≠ [] ∧ trim l = l ∧ (l.all fun c => isAlphanumeric c || c = ' ') = true)
    ⟨fun h => ⟨h.1, h.2.1, by simpa using h.2.2⟩,
      fun h => ⟨h.ne_nil, h.trimmed, by simpa using h.chars⟩⟩

instance (p : Spelling) : Decidable p.IsWritten :=
  match p with
  | .token t bar => inferInstanceAs (Decidable (t ∈ arrowTokens ∧ ∀ b ∈ bar, IsPhrase b.2.toList))
  | .inside _ _ l => inferInstanceAs (Decidable (IsPhrase l.toList))

theorem IsPhrase.notMem {l : List Char} (h : IsPhrase l) {c : Char} (hc : isAlphanumeric c = false)
    (hs : c ≠ ' ') : c ∉ l := by
  intro hm
  rcases h.chars c hm with h | h
  · rw [hc] at h
    exact absurd h (by decide)
  · exact hs h

theorem IsPhrase.isPlainLabel {l : List Char} (h : IsPhrase l) : isPlainLabel l = true := by
  have hmarked : (markedChars.all fun c => !isAlphanumeric c && c ≠ ' ') = true := by decide
  have hany : (l.any fun c => markedChars.contains c) = false := by
    rw [List.any_eq_false]
    intro c hc hm
    have hout := List.all_eq_true.1 hmarked c (by simpa using hm)
    simp only [Bool.and_eq_true, Bool.not_eq_true', decide_eq_true_eq] at hout
    exact h.notMem hout.1 hout.2 hc
  rw [Writer.Flowchart.isPlainLabel, hany]
  simp [h.ne_nil, h.trimmed]

theorem IsPhrase.exists_cons {l : List Char} (h : IsPhrase l) :
    ∃ c t, l = c :: t ∧ isAlphanumeric c = true := by
  obtain ⟨c, t, rfl⟩ := List.exists_cons_of_ne_nil h.ne_nil
  refine ⟨c, t, rfl, ?_⟩
  rcases h.chars c List.mem_cons_self with hc | rfl
  · exact hc
  · have := (trim_eq_self_iff.1 h.trimmed).1 ' ' rfl
    exact absurd this (by decide)

/-- A label between two tokens is read without the space behind it. -/
theorem linkLabel_phrase {l : String} (h : IsPhrase l.toList) :
    linkLabel (l.toList ++ [' ']) = some l := by
  have htrim : trim (l.toList ++ [' ']) = trim l.toList :=
    trim_append_blank (by simp only [List.mem_singleton, forall_eq]; decide) l.toList
  have hlabel := linkLabel_encode (l := l) (h.trimmed.symm ▸ h.ne_nil)
  rw [encode_eq_self (h.notMem (by decide) (by decide)) (h.notMem (by decide) (by decide))] at hlabel
  rw [linkLabel, htrim, ← linkLabel, hlabel, trimmed, h.trimmed, String.ofList_toList]

/-- A label between bars is read whole. -/
theorem barLabel?_phrase {l : String} (h : IsPhrase l.toList) (r : List Char) :
    barLabel? ('|' :: (l.toList ++ '|' :: r)) = some (some l, r) := by
  have htext : labelText true l = l.toList := by
    rw [labelText, h.isPlainLabel]
    rfl
  have hbar := barLabel?_labelText (l := l) (h.trimmed.symm ▸ h.ne_nil) true r
  rwa [htext, trimmed, h.trimmed, String.ofList_toList] at hbar

/-! ## Links as tokens -/

theorem exists_cons_arrowToken {t : String × Link} (ht : t ∈ arrowTokens) :
    ∃ c u, t.1.toList = c :: u ∧ c ∈ ['<', '-', '='] := by
  simp only [arrowTokens, List.mem_cons, List.not_mem_nil, or_false] at ht
  rcases ht with rfl | rfl | rfl | rfl | rfl | rfl | rfl | rfl | rfl | rfl | rfl | rfl <;>
    exact ⟨_, _, rfl, by decide⟩

/-- The text of a link starts with none of the characters that go on with a node group. -/
theorem Spelling.exists_cons {p : Spelling} (h : p.IsWritten) :
    ∃ c t, p.text = c :: t ∧ c ∈ ['<', '-', '='] := by
  cases p with
  | token t bar =>
    obtain ⟨c, u, hu, hc⟩ := exists_cons_arrowToken h.1
    exact ⟨c, u ++ barText bar, by rw [text, hu, List.cons_append], hc⟩
  | inside stroke headed l => cases stroke <;> exact ⟨_, _, rfl, by decide⟩

/-- A link that is written as a token is read whole. -/
theorem link?_token {t : String × Link} {bar : Option (Bool × String)}
    (h : (Spelling.token t bar).IsWritten) {r : List Char}
    (hr : ∀ c ∈ r.head?, isSpace c = false ∧ c ≠ '|') :
    link? ((Spelling.token t bar).text ++ ' ' :: r)
      = some ((Spelling.token t bar).link, ' ' :: r) := by
  obtain ⟨ht, hbar⟩ := h
  cases bar with
  | none =>
    rw [Spelling.text, Spelling.barText, List.append_nil, link?_arrowToken ht (.inl rfl),
      optionally_of_none (spacedBarLabel?_space_eq_none hr)]
    rfl
  | some b =>
    obtain ⟨spaced, l⟩ := b
    have hlabel : spacedBarLabel? ((if spaced then [' '] else []) ++ '|' :: (l.toList
        ++ '|' :: ' ' :: r)) = some (some l, ' ' :: r) :=
      (spacedBarLabel?_eq spaced _).trans (barLabel?_phrase (hbar _ rfl) (' ' :: r))
    -- the token ends at the space or at the bar
    obtain ⟨c, u, hu, hc⟩ : ∃ c u, (if spaced then [' '] else []) ++ '|' :: (l.toList
        ++ '|' :: ' ' :: r) = c :: u ∧ (c = ' ' ∨ c = '|') := by
      cases spaced with
      | true => exact ⟨_, _, rfl, .inl rfl⟩
      | false => exact ⟨_, _, rfl, .inr rfl⟩
    have htext : (Spelling.token t (some (spaced, l))).text ++ ' ' :: r = t.1.toList ++ c :: u := by
      simp [Spelling.text, Spelling.barText, ← hu]
    rw [hu] at hlabel
    rw [htext, link?_arrowToken ht hc, optionally_of_some hlabel]
    rfl

/-! ## Links with their labels inside -/

/-- The two links of a stroke with a label inside, in the order in which they are tried. -/
def Stroke.labelTokens (stroke : Stroke) : List (String × String × Link) :=
  [(stroke.opening, stroke.closing true, .arrow stroke),
    (stroke.opening, stroke.closing false, .headless stroke)]

theorem labelTokens_eq : labelTokens
    = Stroke.normal.labelTokens ++ (Stroke.dashed.labelTokens ++ Stroke.thick.labelTokens) := rfl

/-- Where the token of one stroke opens a link, no other stroke is read. -/
theorem findSome?_labelTokens_eq_none (stroke : Stroke) {stroke' : Stroke} (h : stroke' ≠ stroke)
    (r : List Char) :
    (stroke'.labelTokens.findSome? fun t =>
      labelledLink? t.1 t.2.1 t.2.2 (stroke.opening.toList ++ ' ' :: r)) = none := by
  have hafter : after? stroke'.opening (stroke.opening.toList ++ ' ' :: r) = none := by
    cases stroke <;> cases stroke' <;> first | exact absurd rfl h | rfl
  simp [Stroke.labelTokens, labelledLink?, hafter]

/-- Where the token of a stroke opens a link, the link with a head is tried first, then the one
without. -/
theorem findSome?_labelTokens (stroke : Stroke) (r : List Char) :
    (labelTokens.findSome? fun t =>
        labelledLink? t.1 t.2.1 t.2.2 (stroke.opening.toList ++ ' ' :: r))
      = (labelledLink? stroke.opening (stroke.closing true) (.arrow stroke)
          (stroke.opening.toList ++ ' ' :: r)).or
        (labelledLink? stroke.opening (stroke.closing false) (.headless stroke)
          (stroke.opening.toList ++ ' ' :: r)) := by
  have hnone := fun (stroke' : Stroke) (h : stroke' ≠ stroke) =>
    findSome?_labelTokens_eq_none stroke h r
  have hown : (labelTokens.findSome? fun t =>
        labelledLink? t.1 t.2.1 t.2.2 (stroke.opening.toList ++ ' ' :: r))
      = stroke.labelTokens.findSome? fun t =>
        labelledLink? t.1 t.2.1 t.2.2 (stroke.opening.toList ++ ' ' :: r) := by
    rw [labelTokens_eq, List.findSome?_append, List.findSome?_append]
    cases stroke with
    | normal => rw [hnone .dashed (by decide), hnone .thick (by decide), Option.or_none, Option.or_none]
    | dashed => rw [hnone .normal (by decide), hnone .thick (by decide), Option.or_none, Option.none_or]
    | thick => rw [hnone .normal (by decide), hnone .dashed (by decide), Option.none_or, Option.none_or]
  rw [hown, Stroke.labelTokens, List.findSome?_cons, List.findSome?_cons, List.findSome?_nil]
  cases labelledLink? stroke.opening (stroke.closing true) (.arrow stroke) _ <;>
    cases labelledLink? stroke.opening (stroke.closing false) (.headless stroke) _ <;> rfl

/-- A plain label inside a link is what stands before the closing token. -/
theorem labelledLink?_opening (stroke : Stroke) (closing : String) (link : Link) {l : String}
    (hl : IsPhrase l.toList) (r : List Char) :
    labelledLink? stroke.opening closing link (stroke.opening.toList ++ ' ' :: (l.toList ++ r))
      = (cutAfterSome? closing.toList (l.toList ++ r)).map fun p =>
        (link.labelled (linkLabel p.1), p.2) := by
  obtain ⟨c, t, hct, hc⟩ := hl.exists_cons
  have hword : isWordChar c = true := by rw [isWordChar, hc, Bool.true_or]
  have hskip : skipSomeSpaces? (' ' :: (l.toList ++ r)) = some (l.toList ++ r) := by
    refine skipSomeSpaces?_space ?_
    rw [hct]
    simpa using isSpace_of_isBlank_eq_false (isBlank_of_isWordChar hword)
  rw [labelledLink?, after?_append, Option.bind_some, hskip, Option.bind_some]

/-- A closing token starts with a character that no plain label has. -/
theorem Stroke.closing_cons (stroke : Stroke) (headed : Bool) :
    ∃ d ds, (stroke.closing headed).toList = d :: ds ∧ isAlphanumeric d = false ∧ d ≠ ' ' := by
  cases stroke <;> cases headed <;> exact ⟨_, _, rfl, by decide, by decide⟩

/-- The part in front of a closing token is not empty where a plain label stands there. -/
theorem cutAfterSome?_label (stroke : Stroke) (headed : Bool) {l : String} (hl : IsPhrase l.toList)
    (r : List Char) : cutAfterSome? (stroke.closing headed).toList (l.toList ++ r)
      = cutAt? (stroke.closing headed).toList (l.toList ++ r) := by
  obtain ⟨d, ds, hds, hd, -⟩ := stroke.closing_cons headed
  obtain ⟨c, t, hct, hc⟩ := hl.exists_cons
  have hne : (d == c) = false := by
    rw [beq_eq_false_iff_ne]
    rintro rfl
    rw [hc] at hd
    exact absurd hd (by decide)
  rw [cutAfterSome?, hct, List.cons_append, hds, cutAt?, isPrefixOf?_cons, hne]
  simp only [Bool.false_eq_true, if_false]
  cases cutAt? (d :: ds) (t ++ r) <;> rfl

/-- A plain label in front of its own closing token ends there. -/
theorem cutAt?_closing (stroke : Stroke) (headed : Bool) {l : String} (hl : IsPhrase l.toList)
    (r : List Char) :
    cutAt? (stroke.closing headed).toList
        (l.toList ++ ' ' :: ((stroke.closing headed).toList ++ r)) = some (l.toList ++ [' '], r) := by
  obtain ⟨d, ds, hds, hd, hspace⟩ := stroke.closing_cons headed
  have hnotMem : d ∉ l.toList ++ [' '] := by
    rw [List.mem_append, List.mem_singleton, not_or]
    exact ⟨hl.notMem hd hspace, hspace⟩
  have hcut := cutAt?_append (l := ds) (r := r) hnotMem
  rw [← hds] at hcut
  rw [← hcut]
  simp

/-! ## Heads in a text -/

/-- Whether a text holds the closing token with the head of a stroke. -/
def HoldsHead (stroke : Stroke) (s : List Char) : Prop := (stroke.closing true).toList <:+: s

theorem not_holdsHead {s : List Char} (stroke : Stroke) (h : '>' ∉ s) : ¬ HoldsHead stroke s := by
  have hmem : '>' ∈ (stroke.closing true).toList := by cases stroke <;> decide
  exact fun hs => h (hs.subset hmem)

/-- A head stands in one of the parts of a text that a space or a bar separates. -/
theorem holdsHead_append_iff (stroke : Stroke) {a r : List Char}
    (hr : ∀ c ∈ r.head?, c = ' ' ∨ c = '|') :
    HoldsHead stroke (a ++ r) ↔ HoldsHead stroke a ∨ HoldsHead stroke r := by
  refine infix_append_iff fun c hc => ?_
  rcases hr c hc with rfl | rfl <;> cases stroke <;> decide

theorem holdsHead_cons_iff (stroke : Stroke) {c : Char} (hc : c = ' ' ∨ c = '|') (r : List Char) :
    HoldsHead stroke (c :: r) ↔ HoldsHead stroke r := by
  rw [HoldsHead, List.infix_cons_iff, or_iff_right]
  · rfl
  · rintro ⟨t, ht⟩
    rcases hc with rfl | rfl <;> cases stroke <;> exact absurd (List.cons.inj ht).1 (by decide)

theorem not_holdsHead_label (stroke : Stroke) {l : List Char} (hl : IsPhrase l) :
    ¬ HoldsHead stroke l :=
  not_holdsHead stroke (hl.notMem (by decide) (by decide))

theorem holdsHead_inside_iff (stroke : Stroke) (stroke' : Stroke) (headed : Bool) {l : List Char}
    (hl : IsPhrase l) {r : List Char} (hr : ∀ c ∈ r.head?, c = ' ') :
    HoldsHead stroke (l ++ ' ' :: ((stroke'.closing headed).toList ++ r))
      ↔ (headed = true ∧ stroke' = stroke) ∨ HoldsHead stroke r := by
  have hclosing : HoldsHead stroke (stroke'.closing headed).toList ↔ headed = true ∧ stroke' = stroke := by
    unfold HoldsHead
    cases stroke <;> cases stroke' <;> cases headed <;> decide
  rw [holdsHead_append_iff stroke (by simp), holdsHead_cons_iff stroke (.inl rfl),
    holdsHead_append_iff stroke fun c hc => .inl (hr c hc), hclosing,
    or_iff_right (not_holdsHead_label stroke hl)]

theorem link?_inside {stroke : Stroke} {headed : Bool} {l : String} (hl : IsPhrase l.toList)
    {r : List Char} (hr : ∀ c ∈ r.head?, c = ' ') (hhead : headed = false → ¬ HoldsHead stroke r) :
    link? ((Spelling.inside stroke headed l).text ++ r)
      = some ((Spelling.inside stroke headed l).link, r) := by
  have htext : (Spelling.inside stroke headed l).text ++ r = stroke.opening.toList ++ ' ' ::
      (l.toList ++ ' ' :: ((stroke.closing headed).toList ++ r)) := by simp [Spelling.text]
  have hcut := cutAt?_closing stroke headed hl r
  rw [htext, link?, findSome?_labelTokens, labelledLink?_opening _ _ _ hl,
    labelledLink?_opening _ _ _ hl, cutAfterSome?_label _ _ hl, cutAfterSome?_label _ _ hl]
  cases headed with
  | true =>
    rw [hcut]
    simp [linkLabel_phrase hl, Spelling.link]
  | false =>
    -- there is no head to be found before
    have hnone : cutAt? (stroke.closing true).toList
        (l.toList ++ ' ' :: ((stroke.closing false).toList ++ r)) = none := by
      have hne : (stroke.closing true).toList ≠ [] := by cases stroke <;> decide
      refine (cutAt?_eq_none_iff hne _).2 fun h => ?_
      rcases (holdsHead_inside_iff stroke stroke false hl hr).1 h with ⟨h, -⟩ | h
      · exact absurd h (by decide)
      · exact hhead rfl h
    rw [hnone, hcut]
    simp [linkLabel_phrase hl, Spelling.link]

/-- A headless link with its label inside takes a later head of its stroke for its own. -/
theorem link?_captured {stroke : Stroke} {l : String} (hl : IsPhrase l.toList) {r : List Char}
    (hr : ∀ c ∈ r.head?, c = ' ') (hhead : HoldsHead stroke r) :
    ∃ k t, link? ((Spelling.inside stroke false l).text ++ r) = some (k, t) ∧ k.endHead = .arrow := by
  have htext : (Spelling.inside stroke false l).text ++ r = stroke.opening.toList ++ ' ' ::
      (l.toList ++ ' ' :: ((stroke.closing false).toList ++ r)) := by simp [Spelling.text]
  have hsome : cutAt? (stroke.closing true).toList
      (l.toList ++ ' ' :: ((stroke.closing false).toList ++ r)) ≠ none := by
    have hne : (stroke.closing true).toList ≠ [] := by cases stroke <;> decide
    rw [Ne, cutAt?_eq_none_iff hne, not_not]
    exact (holdsHead_inside_iff stroke stroke false hl hr).2 (.inr hhead)
  obtain ⟨p, hp⟩ := Option.ne_none_iff_exists'.1 hsome
  rw [htext, link?, findSome?_labelTokens, labelledLink?_opening _ _ _ hl,
    cutAfterSome?_label _ _ hl, hp]
  exact ⟨_, _, rfl, rfl⟩

/-- Whether the text of a link holds a head can be told from its spelling. -/
theorem Spelling.holdsHead_text {p : Spelling} (h : p.IsWritten) (stroke : Stroke) :
    HoldsHead stroke p.text ↔ p.holdsHead stroke = true := by
  cases p with
  | token t bar =>
    obtain ⟨ht, hbar⟩ := h
    have hhead : ∀ c ∈ (barText bar).head?, c = ' ' ∨ c = '|' := by
      rcases bar with - | ⟨- | -, l⟩ <;> simp [barText]
    have hlabel : ¬ HoldsHead stroke (barText bar) := by
      refine not_holdsHead stroke fun hm => ?_
      rcases bar with - | ⟨spaced, l⟩
      · simp [barText] at hm
      · have hl : '>' ∉ l.toList := (hbar _ rfl).notMem (by decide) (by decide)
        cases spaced <;> simp [barText, hl] at hm
    have htoken : HoldsHead stroke t.1.toList ↔ (token t bar).holdsHead stroke = true := by
      simp only [arrowTokens, List.mem_cons, List.not_mem_nil, or_false] at ht
      unfold HoldsHead
      rcases ht with rfl | rfl | rfl | rfl | rfl | rfl | rfl | rfl | rfl | rfl | rfl | rfl <;>
        cases stroke <;> simp only [holdsHead] <;> decide
    rw [text, holdsHead_append_iff stroke hhead, or_iff_left hlabel, htoken]
  | inside stroke' headed l =>
    have hopening : ¬ HoldsHead stroke stroke'.opening.toList :=
      not_holdsHead stroke (by cases stroke' <;> decide)
    have hinside := holdsHead_inside_iff stroke stroke' headed h (r := []) (by simp)
    rw [List.append_nil] at hinside
    rw [text, holdsHead_append_iff stroke (by simp), or_iff_right hopening,
      holdsHead_cons_iff stroke (.inl rfl), hinside,
      or_iff_left (not_holdsHead stroke (by simp))]
    simp [holdsHead]

/-! ## Node groups -/

/-- Ids behind ampersands. -/
def joinedText (ids : List String) : List Char :=
  ids.flatMap fun id => ' ' :: '&' :: ' ' :: id.toList

/-- Ids joined by ampersands. -/
def groupText : List String → List Char
  | [] => []
  | id :: ids => id.toList ++ joinedText ids

/-- Nodes that are mentioned by their ids alone. -/
def bareGroup (ids : List String) : List NodeMention := ids.map fun id => { id := id }

/-- Whether ids can be written as a node group. -/
structure IsGroup (ids : List String) : Prop where
  ne_nil : ids ≠ []
  isId : ∀ id ∈ ids, IsId id.toList

instance (ids : List String) : Decidable (IsGroup ids) :=
  decidable_of_iff (ids ≠ [] ∧ ∀ id ∈ ids, id.toList ≠ [] ∧ takeId false id.toList = (id.toList, []))
    ⟨fun h => ⟨h.1, fun id hid => ⟨(h.2 id hid).1, (h.2 id hid).2⟩⟩,
      fun h => ⟨h.ne_nil, fun id hid => ⟨(h.isId id hid).ne_nil, (h.isId id hid).takeId_eq⟩⟩⟩

/-- What may stand behind a node group: nothing, or something behind a space that is no
ampersand. -/
structure EndsGroup (r : List Char) : Prop where
  head : ∀ c ∈ r.head?, c = ' '
  skipped : ∀ c ∈ (skipSpaces r).head?, c ≠ '&'

theorem head_joinedText (ids : List String) {r : List Char} (hr : ∀ c ∈ r.head?, c = ' ') :
    ∀ c ∈ (joinedText ids ++ r).head?, c = ' ' := by
  cases ids with
  | nil => exact hr
  | cons id ids => simp [joinedText]

theorem node?_spaced {id : String} (h : IsId id.toList) {r : List Char} (hr : ∀ c ∈ r.head?, c = ' ') :
    node? (id.toList ++ r) = some ({ id := id }, r) := by
  have hnode := node?_bare (r := r) h fun c hc => by
    rw [hr c hc]
    exact ⟨by decide, by decide⟩
  rwa [String.ofList_toList] at hnode

theorem joinedNodes_of_some {s r : List Char} {n : NodeMention} (h : joinedNode? s = some (n, r)) :
    joinedNodes s = (n :: (joinedNodes r).1, (joinedNodes r).2) := by
  rw [joinedNodes]
  split
  · rename_i hj
    rw [h] at hj
    simp at hj
  · rename_i n' r' hj
    rw [h] at hj
    obtain ⟨rfl, rfl⟩ := Prod.mk.inj (Option.some.inj hj)
    rfl

/-- The ids behind ampersands are read one after the other. -/
theorem joinedNodes_text {ids : List String} (h : ∀ id ∈ ids, IsId id.toList) {r : List Char}
    (hr : EndsGroup r) : joinedNodes (joinedText ids ++ r) = (bareGroup ids, r) := by
  induction ids with
  | nil => exact joinedNodes_of_none (joinedNode?_eq_none hr.skipped)
  | cons id ids ih =>
    have hid := h id List.mem_cons_self
    have hamp : after? "&" ('&' :: ' ' :: (id.toList ++ (joinedText ids ++ r)))
        = some (' ' :: (id.toList ++ (joinedText ids ++ r))) := rfl
    have hjoined : joinedNode? (' ' :: '&' :: ' ' :: (id.toList ++ (joinedText ids ++ r)))
        = some ({ id := id }, joinedText ids ++ r) := by
      rw [joinedNode?, skipSpaces_space (by simp [isSpace]), hamp, Option.bind_some,
        skipSpaces_space (hid.isName.isSpace_head _)]
      exact node?_spaced hid (head_joinedText ids hr.head)
    have htext : joinedText (id :: ids) ++ r
        = ' ' :: '&' :: ' ' :: (id.toList ++ (joinedText ids ++ r)) := by simp [joinedText]
    rw [htext, joinedNodes_of_some hjoined, ih fun other ho => h other (List.mem_cons_of_mem _ ho)]
    rfl

/-- A node group is read whole. -/
theorem nodeGroup?_text {ids : List String} (h : IsGroup ids) {r : List Char} (hr : EndsGroup r) :
    nodeGroup? (groupText ids ++ r) = some (bareGroup ids, r) := by
  cases ids with
  | nil => exact absurd rfl h.ne_nil
  | cons id ids =>
    have hjoined := joinedNodes_text (fun other ho => h.isId other (List.mem_cons_of_mem _ ho)) hr
    have hnode := node?_spaced (h.isId id List.mem_cons_self) (head_joinedText ids hr.head)
    rw [nodeGroup?, groupText, List.append_assoc, hnode, Option.map_some]
    dsimp only
    rw [hjoined]
    rfl

theorem not_holdsHead_groupText (stroke : Stroke) {ids : List String}
    (h : ∀ id ∈ ids, IsId id.toList) : ¬ HoldsHead stroke (groupText ids) := by
  have hid : ∀ id ∈ ids, '>' ∉ id.toList := fun id hid hm =>
    absurd ((h id hid).isName.isNameChar _ hm) (by decide)
  refine not_holdsHead stroke fun hm => ?_
  cases ids with
  | nil => simp [groupText] at hm
  | cons id ids =>
    rcases List.mem_append.1 hm with hm | hm
    · exact hid id List.mem_cons_self hm
    · obtain ⟨other, ho, hm⟩ := List.mem_flatMap.1 hm
      have hother := hid other (List.mem_cons_of_mem _ ho)
      simp [hother] at hm

/-! ## Chains -/

/-- Node groups with a spelled link before each but the first. -/
structure SpelledChain where
  first : List String
  next : List (Spelling × List String)

namespace SpelledChain

/-- Whether all parts of a chain can be written. -/
structure IsWritten (c : SpelledChain) : Prop where
  first : IsGroup c.first
  next : ∀ p ∈ c.next, p.1.IsWritten ∧ IsGroup p.2

/-- The links of a chain and the node groups behind them, each behind a space. -/
def tailText (next : List (Spelling × List String)) : List Char :=
  next.flatMap fun p => ' ' :: (p.1.text ++ ' ' :: groupText p.2)

/-- A chain as it is written. -/
def text (c : SpelledChain) : List Char := groupText c.first ++ tailText c.next

/-- What links and the node groups behind them say. -/
def tailMeaning (next : List (Spelling × List String)) : List (Link × List NodeMention) :=
  next.map fun p => (p.1.link, bareGroup p.2)

/-- What a chain says. -/
def meaning (c : SpelledChain) : Statement := ⟨bareGroup c.first, tailMeaning c.next⟩

/-- Whether no link takes the head of a later one for its own. -/
def IsApart (next : List (Spelling × List String)) : Prop :=
  next.Pairwise fun p q => ∀ stroke ∈ p.1.seeks?, q.1.holdsHead stroke = false

instance (next : List (Spelling × List String)) : Decidable (IsApart next) :=
  inferInstanceAs (Decidable (next.Pairwise fun p q =>
    ∀ stroke ∈ p.1.seeks?, q.1.holdsHead stroke = false))

variable {next : List (Spelling × List String)}

theorem tailText_cons (p : Spelling × List String) (next : List (Spelling × List String)) :
    tailText (p :: next) = ' ' :: (p.1.text ++ ' ' :: (groupText p.2 ++ tailText next)) := by
  simp [tailText]

theorem endsGroup_tailText (h : ∀ p ∈ next, p.1.IsWritten ∧ IsGroup p.2) :
    EndsGroup (tailText next) := by
  cases next with
  | nil => exact ⟨by simp [tailText], by simp [tailText, skipSpaces]⟩
  | cons p next =>
    obtain ⟨c, t, ht, hc⟩ := Spelling.exists_cons (h p List.mem_cons_self).1
    have hchars : isSpace c = false ∧ c ≠ '&' := by
      simp only [List.mem_cons, List.not_mem_nil, or_false] at hc
      rcases hc with rfl | rfl | rfl <;> exact ⟨by decide, by decide⟩
    rw [tailText_cons, ht]
    refine ⟨by simp, ?_⟩
    rw [skipSpaces_space (by simp [hchars.1])]
    simp [hchars.2]

/-- What stands behind the space behind a link starts with an id. -/
theorem head_groupText {ids : List String} (h : IsGroup ids) (r : List Char) :
    ∀ c ∈ (groupText ids ++ r).head?, isSpace c = false ∧ c ≠ '|' := by
  cases ids with
  | nil => exact absurd rfl h.ne_nil
  | cons id ids =>
    obtain ⟨c, t, ht, hc⟩ := (h.isId id List.mem_cons_self).exists_cons
    rw [groupText, ht]
    intro b hb
    obtain rfl : c = b := by simpa using hb
    refine ⟨isSpace_of_isBlank_eq_false (isBlank_of_isWordChar hc), ?_⟩
    rintro rfl
    exact absurd hc (by decide)

/-- Behind a link the heads are those of the later links. -/
theorem holdsHead_behind {ids : List String} (hgroup : IsGroup ids) (stroke : Stroke)
    (h : ∀ p ∈ next, p.1.IsWritten ∧ IsGroup p.2) :
    HoldsHead stroke (' ' :: (groupText ids ++ tailText next)) ↔ HoldsHead stroke (tailText next) := by
  have hhead : ∀ c ∈ (tailText next).head?, c = ' ' ∨ c = '|' := fun c hc =>
    .inl ((endsGroup_tailText h).head c hc)
  rw [holdsHead_cons_iff stroke (.inl rfl), holdsHead_append_iff stroke hhead,
    or_iff_right (not_holdsHead_groupText stroke hgroup.isId)]

/-- Behind a node group the heads are those of the links. -/
theorem holdsHead_tail (h : ∀ p ∈ next, p.1.IsWritten ∧ IsGroup p.2) (stroke : Stroke) :
    HoldsHead stroke (tailText next) ↔ ∃ p ∈ next, p.1.holdsHead stroke = true := by
  induction next with
  | nil => simpa [tailText] using not_holdsHead stroke (by simp)
  | cons p next ih =>
    obtain ⟨⟨hlink, hgroup⟩, hnext⟩ := List.forall_mem_cons.1 h
    rw [tailText_cons, holdsHead_cons_iff stroke (.inl rfl), holdsHead_append_iff stroke (by simp),
      holdsHead_behind hgroup stroke hnext, Spelling.holdsHead_text hlink, ih hnext,
      List.exists_mem_cons_iff]

/-- A link that takes none of the later heads for its own is read whole. -/
theorem link?_text {spelling : Spelling} {ids : List String} (hlink : spelling.IsWritten)
    (hgroup : IsGroup ids) (hnext : ∀ q ∈ next, q.1.IsWritten ∧ IsGroup q.2)
    (hapart : ∀ q ∈ next, ∀ stroke ∈ spelling.seeks?, q.1.holdsHead stroke = false) :
    link? (spelling.text ++ ' ' :: (groupText ids ++ tailText next))
      = some (spelling.link, ' ' :: (groupText ids ++ tailText next)) := by
  cases spelling with
  | token t bar => exact link?_token hlink (head_groupText hgroup _)
  | inside stroke headed l =>
    refine link?_inside hlink (by simp) ?_
    rintro rfl hhead
    obtain ⟨q, hq, hholds⟩ :=
      (holdsHead_tail hnext stroke).1 ((holdsHead_behind hgroup stroke hnext).1 hhead)
    rw [hapart q hq stroke rfl] at hholds
    exact absurd hholds (by decide)

/-- A link that takes a later head for its own is read as another one. -/
theorem link?_text_of_holdsHead {spelling : Spelling} {ids : List String} (hlink : spelling.IsWritten)
    (hgroup : IsGroup ids) (hnext : ∀ q ∈ next, q.1.IsWritten ∧ IsGroup q.2)
    {q : Spelling × List String} (hq : q ∈ next) {stroke : Stroke} (hs : stroke ∈ spelling.seeks?)
    (hholds : q.1.holdsHead stroke = true) :
    ∃ k t, link? (spelling.text ++ ' ' :: (groupText ids ++ tailText next)) = some (k, t)
      ∧ k ≠ spelling.link := by
  obtain ⟨l, rfl⟩ : ∃ l, spelling = .inside stroke false l := by
    rcases spelling with ⟨t, bar⟩ | ⟨stroke', headed, l⟩
    · cases hs
    · cases headed with
      | true => cases hs
      | false =>
        obtain rfl := Option.some.inj hs
        exact ⟨l, rfl⟩
  have hhead := (holdsHead_behind hgroup stroke hnext).2
    ((holdsHead_tail hnext stroke).2 ⟨q, hq, hholds⟩)
  obtain ⟨k, t, hk, harrow⟩ := link?_captured hlink (by simp) hhead
  refine ⟨k, t, hk, ?_⟩
  rintro rfl
  simp [Spelling.link, Link.headless, Link.labelled] at harrow

/-- The first link of a chain is the one that its text starts with. -/
theorem exists_link?_of_chain? {s t : List Char} {l : Link} {ns : List NodeMention}
    {rest : List (Link × List NodeMention)} (h : chain? s = some ((l, ns) :: rest, t)) :
    ∃ r, link? (skipSpaces s) = some (l, r) := by
  rw [chain?] at h
  split at h
  · simp at h
  · rename_i l' r hl
    split at h
    · simp at h
    · obtain ⟨p, -, heq⟩ := Option.map_eq_some_iff.1 h
      obtain rfl : l' = l := (Prod.mk.inj (List.cons.inj (Prod.mk.inj heq).1).1).1
      exact ⟨r, hl⟩

/-- Links and the node groups behind them are read as what they say exactly if no link takes the
head of a later one for its own. -/
theorem chain?_tailText_iff (h : ∀ p ∈ next, p.1.IsWritten ∧ IsGroup p.2) :
    chain? (tailText next) = some (tailMeaning next, []) ↔ IsApart next := by
  induction next with
  | nil => exact iff_of_true chain?_nil List.Pairwise.nil
  | cons p next ih =>
    obtain ⟨⟨hlink, hgroup⟩, hnext⟩ := List.forall_mem_cons.1 h
    obtain ⟨spelling, ids⟩ := p
    obtain ⟨c, t, ht, hc⟩ := Spelling.exists_cons hlink
    have hskip : skipSpaces (tailText ((spelling, ids) :: next))
        = spelling.text ++ ' ' :: (groupText ids ++ tailText next) := by
      have hspace : isSpace c = false := by
        simp only [List.mem_cons, List.not_mem_nil, or_false] at hc
        rcases hc with rfl | rfl | rfl <;> decide
      rw [tailText_cons]
      exact skipSpaces_space (by simp [ht, hspace])
    rw [IsApart, List.pairwise_cons]
    by_cases hapart : ∀ q ∈ next, ∀ stroke ∈ spelling.seeks?, q.1.holdsHead stroke = false
    · have hread := link?_text hlink hgroup hnext hapart
      rw [← hskip] at hread
      have hnodes : nodeGroup? (skipSpaces (' ' :: (groupText ids ++ tailText next)))
          = some (bareGroup ids, tailText next) := by
        rw [skipSpaces_space fun c hc => (head_groupText hgroup _ c hc).1]
        exact nodeGroup?_text hgroup (endsGroup_tailText hnext)
      rw [chain?_cons hread hnodes, and_iff_right hapart, ← IsApart, ← ih hnext]
      constructor
      · intro hchain
        obtain ⟨rest, hrest, heq⟩ := Option.map_eq_some_iff.1 hchain
        obtain ⟨htail, hend⟩ := Prod.mk.inj heq
        rw [hrest]
        exact congrArg some (Prod.ext (List.cons.inj htail).2 hend)
      · intro hchain
        rw [hchain]
        rfl
    · refine iff_of_false (fun hchain => ?_) fun hall => hapart hall.1
      push Not at hapart
      obtain ⟨q, hq, stroke, hs, hholds⟩ := hapart
      obtain ⟨k, t, hk, hne⟩ :=
        link?_text_of_holdsHead hlink hgroup hnext hq hs (by simpa using hholds)
      obtain ⟨r, hr⟩ := exists_link?_of_chain? hchain
      rw [hskip, hk] at hr
      exact hne (Prod.mk.inj (Option.some.inj hr)).1

/-- A chain is read as what it says exactly if no link takes the head of a later one for its own. -/
theorem statement?_text_iff {c : SpelledChain} (h : c.IsWritten) :
    statement? c.text = some (c.meaning, []) ↔ IsApart c.next := by
  rw [statement?, text, nodeGroup?_text h.first (endsGroup_tailText h.next), Option.bind_some,
    ← chain?_tailText_iff h.next]
  constructor
  · intro hstmt
    obtain ⟨next, hnext, heq⟩ := Option.map_eq_some_iff.1 hstmt
    obtain ⟨hmeaning, hend⟩ := Prod.mk.inj heq
    exact hnext.trans (congrArg some (Prod.ext (Statement.mk.inj hmeaning).2 hend))
  · intro hnext
    rw [hnext]
    rfl

/-- A chain of links in many spellings, none of which takes the head of a later one. -/
def mixedChain : SpelledChain :=
  { first := ["A", "B"]
    next := [(.inside .normal true "yes 1", ["C"]), (.inside .dashed false "maybe", ["D", "E"]),
      (.token ("->", .arrow .normal) (some (true, "no")), ["F"]),
      (.inside .thick false "then", ["G"]), (.token ("<-->", .both .normal) none, ["H"])] }

/-- A chain of many spellings is read whole. -/
theorem statement?_mixedChain :
    mixedChain.text
        = "A & B -- yes 1 --> C -. maybe .- D & E -> |no| F == then === G <--> H".toList
      ∧ statement? mixedChain.text = some (mixedChain.meaning, []) := by
  have hwritten : mixedChain.IsWritten := ⟨by decide, by decide⟩
  exact ⟨by decide, (statement?_text_iff hwritten).2 (by decide)⟩

/-- A chain whose first link is followed by a head of its stroke. -/
def takenChain : SpelledChain :=
  { first := ["A"]
    next := [(.inside .normal false "x", ["B"]), (.token ("-->", .arrow .normal) none, ["C"])] }

/-- The first link takes the head of the second one, and the node between them is lost. -/
theorem not_statement?_takenChain :
    takenChain.text = "A -- x --- B --> C".toList
      ∧ statement? takenChain.text ≠ some (takenChain.meaning, []) := by
  have hwritten : takenChain.IsWritten := ⟨by decide, by decide⟩
  exact ⟨by decide, fun h => absurd ((statement?_text_iff hwritten).1 h) (by decide)⟩

end SpelledChain

end DiagramBoard.Grammar.Flowchart
