/-
DiagramBoard.Proofs.Grammar.Words — names, separators and labels as the grammars read them.

A written line is a row of names, separators, tokens and labels.  What a name or a label must be so
that it comes back out of such a line is stated here once for all grammars.

Main statements: a word is read up to the first character outside it (`word?_append`), a text in
quotes up to its closing quote (`quoted?_append`), and a tidy label behind a colon is that label
again (`quotableLabel_encode`).
-/
import DiagramBoard.Proofs.Grammar.Lines

namespace DiagramBoard.Text

/-- A literal whose characters belong to a class is found at the start of a text only within the
part that belongs to the class. -/
theorem after?_append_of_class {k : String} {p : Char → Bool} {w r : List Char}
    (hk : ∀ c ∈ k.toList, p c = true) (hr : ∀ c ∈ r.head?, p c = false) :
    after? k (w ++ r) = (after? k w).map (· ++ r) := by
  cases hw : after? k w with
  | some t =>
    rw [after?_eq_some] at hw
    simp [hw]
  | none =>
    cases ha : after? k (w ++ r) with
    | none => rfl
    | some t =>
      rw [after?_eq_some] at ha
      rcases List.append_eq_append_iff.1 ha with ⟨a, hka, hra⟩ | ⟨a, hwa, -⟩
      · cases a with
        | nil =>
          have : after? k w = some [] := after?_eq_some.2 (by simp [hka])
          rw [hw] at this
          simp at this
        | cons c a =>
          have h1 := hk c (by simp [hka])
          have h2 := hr c (by simp [hra])
          simp [h1] at h2
      · have : after? k w = some a := after?_eq_some.2 hwa
        rw [hw] at this
        simp at this

/-! ## Separators -/

theorem skipSpaces_eq_self {s : List Char} (h : ∀ c ∈ s.head?, isSpace c = false) :
    skipSpaces s = s := by
  cases s with
  | nil => rfl
  | cons c s => simp [skipSpaces, h c (by simp)]

theorem skipSpaces_space {s : List Char} (h : ∀ c ∈ s.head?, isSpace c = false) :
    skipSpaces (' ' :: s) = s := by
  have hs : isSpace ' ' = true := by decide
  rw [skipSpaces, List.dropWhile_cons_of_pos hs]
  exact skipSpaces_eq_self h

theorem skipSomeSpaces?_space {s : List Char} (h : ∀ c ∈ s.head?, isSpace c = false) :
    skipSomeSpaces? (' ' :: s) = some s := by
  have hs : ∀ c ∈ [' '], isSpace c = true := by simp [isSpace]
  have := takeSome?_append (p := isSpace) (by simp) hs h
  simp only [List.singleton_append] at this
  simp [skipSomeSpaces?, this]

theorem skipSomeSpaces?_eq_none {s : List Char} (h : ∀ c ∈ s.head?, isSpace c = false) :
    skipSomeSpaces? s = none := by
  simp [skipSomeSpaces?, takeSome?_eq_none h]

theorem isSpace_of_isBlank_eq_false {c : Char} (h : isBlank c = false) : isSpace c = false := by
  by_contra hs
  have := isBlank_of_isSpace (Bool.not_eq_false _ ▸ hs)
  simp [h] at this

/-! ## Joined texts -/

theorem trim_space (s : List Char) : trim (' ' :: s) = trim s := by
  have hb : isBlank ' ' = true := by decide
  simp [trim, trimStart, hb]

/-- A text is trimmed if it starts and ends in parts that do not start or end in blanks. -/
theorem trim_append_eq_self {s t : List Char} (hs : s ≠ [])
    (h1 : ∀ c ∈ s.head?, isBlank c = false) (ht : t ≠ [])
    (h2 : ∀ c ∈ t.getLast?, isBlank c = false) : trim (s ++ t) = s ++ t := by
  refine trim_eq_self ?_ ?_
  · rwa [List.head?_append_of_ne_nil _ hs]
  · rwa [List.getLast?_append_of_ne_nil _ ht]

end DiagramBoard.Text

namespace DiagramBoard.Grammar

open Text

/-! ## Words -/

/-- A word: letters, digits and low lines. -/
structure IsWord (w : List Char) : Prop where
  ne_nil : w ≠ []
  isWordChar : ∀ c ∈ w, Text.isWordChar c = true

/-- A hyphenated name. -/
structure IsName (w : List Char) : Prop where
  ne_nil : w ≠ []
  isNameChar : ∀ c ∈ w, Text.isNameChar c = true

theorem IsWord.isName {w : List Char} (h : IsWord w) : IsName w :=
  ⟨h.ne_nil, fun c hc => isNameChar_of_isWordChar (h.isWordChar c hc)⟩

theorem IsName.isBlank {w : List Char} (h : IsName w) : ∀ c ∈ w, isBlank c = false :=
  fun c hc => isBlank_of_isNameChar (h.isNameChar c hc)

/-- A name without a hyphen is a word. -/
theorem IsName.isWord {w : List Char} (h : IsName w) (hyphen : '-' ∉ w) : IsWord w := by
  refine ⟨h.ne_nil, fun c hc => ?_⟩
  have := h.isNameChar c hc
  rw [Text.isNameChar, Bool.or_eq_true, beq_iff_eq] at this
  rcases this with this | rfl
  · exact this
  · exact absurd hc hyphen

theorem IsName.lineFeed_notMem {w : List Char} (h : IsName w) : '\n' ∉ w := by
  intro hm
  have := h.isNameChar _ hm
  revert this
  decide

theorem IsName.head {w : List Char} (h : IsName w) : ∀ c ∈ w.head?, Text.isBlank c = false :=
  fun c hc => h.isBlank c (List.mem_of_mem_head? hc)

theorem IsName.last {w : List Char} (h : IsName w) : ∀ c ∈ w.getLast?, Text.isBlank c = false :=
  fun c hc => h.isBlank c (List.mem_of_mem_getLast? hc)

/-- A name starts with a name character, whatever follows it. -/
theorem IsName.exists_cons {w : List Char} (h : IsName w) :
    ∃ c w', w = c :: w' ∧ Text.isNameChar c = true := by
  cases w with
  | nil => exact absurd rfl h.ne_nil
  | cons c w' => exact ⟨c, w', rfl, h.isNameChar c List.mem_cons_self⟩

theorem IsWord.exists_cons {w : List Char} (h : IsWord w) :
    ∃ c w', w = c :: w' ∧ Text.isWordChar c = true := by
  cases w with
  | nil => exact absurd rfl h.ne_nil
  | cons c w' => exact ⟨c, w', rfl, h.isWordChar c List.mem_cons_self⟩

/-- A name in front of something else does not start with a space. -/
theorem IsName.isSpace_head {w : List Char} (h : IsName w) (r : List Char) :
    ∀ c ∈ (w ++ r).head?, isSpace c = false := by
  obtain ⟨c, w', rfl, hc⟩ := h.exists_cons
  simpa using isSpace_of_isBlank_eq_false (isBlank_of_isNameChar hc)

theorem word?_append {w r : List Char} (hw : IsWord w)
    (hr : ∀ c ∈ r.head?, Text.isWordChar c = false) : word? (w ++ r) = some (w, r) :=
  takeSome?_append hw.ne_nil hw.isWordChar hr

theorem name?_append {w r : List Char} (hw : IsName w)
    (hr : ∀ c ∈ r.head?, Text.isNameChar c = false) : name? (w ++ r) = some (w, r) :=
  takeSome?_append hw.ne_nil hw.isNameChar hr

theorem isWord_of_word? {s w r : List Char} (h : word? s = some (w, r)) : IsWord w :=
  let hw := forall_of_takeSome? h
  ⟨hw.1, hw.2.1⟩

theorem isName_of_name? {s w r : List Char} (h : name? s = some (w, r)) : IsName w :=
  let hw := forall_of_takeSome? h
  ⟨hw.1, hw.2.1⟩

theorem isWord_iff {w : List Char} : IsWord w ↔ word? w = some (w, []) :=
  ⟨fun h => by simpa using word?_append (r := []) h (by simp), isWord_of_word?⟩

theorem isName_iff {w : List Char} : IsName w ↔ name? w = some (w, []) :=
  ⟨fun h => by simpa using name?_append (r := []) h (by simp), isName_of_name?⟩

instance (w : List Char) : Decidable (IsWord w) := decidable_of_iff' _ isWord_iff

instance (w : List Char) : Decidable (IsName w) := decidable_of_iff' _ isName_iff

/-- No word starts with a character that is no word character. -/
theorem word?_cons_eq_none {c : Char} (hc : Text.isWordChar c = false) (r : List Char) :
    word? (c :: r) = none :=
  takeSome?_eq_none (by simpa using hc)

/-! ## Quotes -/

/-- A text in quotes is read up to its closing quote. -/
theorem quoted?_append {w : List Char} (hw : '"' ∉ w) (r : List Char) :
    quoted? ('"' :: (w ++ '"' :: r)) = some (w, r) := by
  have h : after? "\"" ('"' :: (w ++ '"' :: r)) = some (w ++ '"' :: r) := after?_eq_some.2 rfl
  rw [quoted?, h]
  exact cutAt?_append (l := []) hw

theorem quoted?_eq_none {s : List Char} (h : ∀ c ∈ s.head?, c ≠ '"') : quoted? s = none := by
  cases s with
  | nil => rfl
  | cons c s =>
    have hc : '"' ≠ c := Ne.symm (h c (by simp))
    have : after? "\"" (c :: s) = none := by
      show List.isPrefixOf? ['"'] (c :: s) = none
      simp [isPrefixOf?_cons, hc]
    simp [quoted?, this]

/-- The parts of a text that starts with a quoted one. -/
theorem append_of_quoted? {s w r : List Char} (h : quoted? s = some (w, r)) :
    s = '"' :: (w ++ '"' :: r) ∧ '"' ∉ w := by
  obtain ⟨t, ht, hr⟩ := Option.bind_eq_some_iff.1 h
  rw [after?_eq_some] at ht
  refine ⟨?_, notMem_of_cutAt? hr⟩
  rw [ht, append_of_cutAt? hr]
  simp

theorem optionally_of_none {β : Type} {read? : List Char → Option (β × List Char)} {s : List Char}
    (h : read? s = none) : optionally read? s = (none, s) := by
  simp [optionally, h]

theorem optionally_of_some {β : Type} {read? : List Char → Option (β × List Char)} {s r : List Char}
    {b : β} (h : read? s = some (b, r)) : optionally read? s = (some b, r) := by
  simp [optionally, h]

/-! ## Labels -/

/-- A label on one line that neither starts nor ends in blanks and is not empty. -/
structure IsTidy (l : List Char) : Prop where
  ne_nil : l ≠ []
  trimmed : trim l = l
  lineFeed_notMem : '\n' ∉ l

/-- A label on one line that says something. -/
structure IsLegible (l : List Char) : Prop where
  trim_ne_nil : trim l ≠ []
  lineFeed_notMem : '\n' ∉ l

theorem IsTidy.isLegible {l : List Char} (h : IsTidy l) : IsLegible l :=
  ⟨h.trimmed.symm ▸ h.ne_nil, h.lineFeed_notMem⟩

instance (l : List Char) : Decidable (IsTidy l) :=
  decidable_of_iff (l ≠ [] ∧ trim l = l ∧ '\n' ∉ l)
    ⟨fun h => ⟨h.1, h.2.1, h.2.2⟩, fun h => ⟨h.ne_nil, h.trimmed, h.lineFeed_notMem⟩⟩

theorem IsTidy.head {l : List Char} (h : IsTidy l) : ∀ c ∈ l.head?, isBlank c = false :=
  (trim_eq_self_iff.1 h.trimmed).1

theorem IsTidy.last {l : List Char} (h : IsTidy l) : ∀ c ∈ l.getLast?, isBlank c = false :=
  (trim_eq_self_iff.1 h.trimmed).2

/-- An encoded label is as tidy as the label. -/
theorem IsTidy.encode {l : List Char} (h : IsTidy l) : IsTidy (Entity.encode l) :=
  ⟨by simpa using h.ne_nil, Entity.trim_encode h.trimmed,
    Entity.notMem_encode (by decide) h.lineFeed_notMem⟩

/-- A name is tidy. -/
theorem IsName.isTidy {w : List Char} (h : IsName w) : IsTidy w :=
  ⟨h.ne_nil, trim_eq_self_of_forall h.isBlank, h.lineFeed_notMem⟩

/-- What is read behind a colon is the label that was written there. -/
theorem quotableLabel_encode {l : String} (h : IsTidy l.toList) :
    quotableLabel (' ' :: Entity.encode l.toList) = some l := by
  have ht : trim (' ' :: Entity.encode l.toList) = Entity.encode l.toList := by
    rw [trim_space, h.encode.trimmed]
  rw [quotableLabel, ht, stripQuotes_eq_self (Entity.quote_notMem_encode _),
    Entity.decode_encode, nonEmpty?, if_neg h.ne_nil, String.ofList_toList]

/-- A text in quotes has no blanks around it. -/
theorem trim_quoted (w : List Char) : trim ('"' :: (w ++ ['"'])) = '"' :: (w ++ ['"']) := by
  have hq : isBlank '"' = false := by decide
  exact trim_append_eq_self (s := '"' :: w) (by simp) (by simp [hq]) (by simp) (by simp [hq])

/-- What is read behind a colon in quotes is the label that was written there, blanks included. -/
theorem quotableLabel_quoted (l : String) :
    quotableLabel (' ' :: '"' :: (Entity.encode l.toList ++ ['"']))
      = if l.toList = [] then none else some l := by
  rw [quotableLabel, trim_space, trim_quoted, stripQuotes_quoted, Entity.decode_encode, nonEmpty?,
    String.ofList_toList]

theorem quotableLabel_space (s : List Char) : quotableLabel (' ' :: s) = quotableLabel s := by
  rw [quotableLabel, trim_space, quotableLabel]

/-- What is read behind a colon without regard to quotes is the label that was written there. -/
theorem plainLabel_encode {l : String} (h : IsTidy l.toList) :
    plainLabel (' ' :: Entity.encode l.toList) = some l := by
  rw [plainLabel, trim_space, h.encode.trimmed, Entity.decode_encode, nonEmpty?, if_neg h.ne_nil,
    String.ofList_toList]

/-- A label behind a colon is not empty. -/
theorem quotableLabel_ne_nil {s : List Char} {l : String} (h : quotableLabel s = some l) :
    l.toList ≠ [] := by
  unfold quotableLabel nonEmpty? at h
  split at h
  · simp at h
  · rename_i hne
    rw [← Option.some.inj h, String.toList_ofList]
    exact hne

/-- A label behind a colon has no line feed if its line has none. -/
theorem lineFeed_notMem_of_quotableLabel {s : List Char} {l : String} (hs : '\n' ∉ s)
    (h : quotableLabel s = some l) : '\n' ∉ l.toList := by
  unfold quotableLabel nonEmpty? at h
  split at h
  · simp at h
  · rw [← Option.some.inj h, String.toList_ofList]
    refine Entity.notMem_decode (by decide) fun hm => hs ?_
    exact (trim_sublist s).subset ((stripQuotes_sublist _).subset hm)

/-- A label that is read without regard to quotes is tidy. -/
theorem isTidy_of_plainLabel {s : List Char} {l : String} (hs : '\n' ∉ s)
    (h : plainLabel s = some l) : IsTidy l.toList := by
  unfold plainLabel nonEmpty? at h
  split at h
  · simp at h
  · rename_i hne
    rw [← Option.some.inj h, String.toList_ofList]
    exact ⟨hne, Entity.trim_decode (trim_trim s),
      Entity.notMem_decode (by decide) fun hm => hs ((trim_sublist s).subset hm)⟩

/-! ## What readers take and leave is part of their text -/

theorem subset_of_after? {k : String} {s t : List Char} (h : after? k s = some t) : t ⊆ s := by
  rw [after?_eq_some] at h
  rw [h]
  exact List.subset_append_right _ _

theorem subset_of_takeSome? {p : Char → Bool} {s w t : List Char}
    (h : takeSome? p s = some (w, t)) : w ⊆ s ∧ t ⊆ s := by
  rw [append_of_takeSome? h]
  exact ⟨List.subset_append_left _ _, List.subset_append_right _ _⟩

theorem skipSpaces_subset (s : List Char) : skipSpaces s ⊆ s :=
  (List.dropWhile_sublist _).subset

theorem subset_of_skipSomeSpaces? {s t : List Char} (h : skipSomeSpaces? s = some t) : t ⊆ s := by
  obtain ⟨⟨w, t'⟩, hw, rfl⟩ := Option.map_eq_some_iff.1 h
  exact (subset_of_takeSome? hw).2

theorem subset_of_cutAt? {k s w t : List Char} (h : cutAt? k s = some (w, t)) : w ⊆ s ∧ t ⊆ s := by
  rw [append_of_cutAt? h, List.append_assoc]
  exact ⟨List.subset_append_left _ _, fun c hc => by simp [hc]⟩

theorem subset_of_quoted? {s w t : List Char} (h : quoted? s = some (w, t)) : w ⊆ s ∧ t ⊆ s := by
  rw [(append_of_quoted? h).1]
  exact ⟨fun c hc => by simp [hc], fun c hc => by simp [hc]⟩

theorem of_token? {β : Type} {tokens : List (String × β)} {s r : List Char} {b : β}
    (h : token? tokens s = some (b, r)) : r ⊆ s ∧ b ∈ tokens.map (·.2) := by
  obtain ⟨t, ht, h⟩ := List.exists_of_findSome?_eq_some h
  obtain ⟨r', hr, heq⟩ := Option.map_eq_some_iff.1 h
  obtain ⟨rfl, rfl⟩ := Prod.mk.inj heq
  exact ⟨subset_of_after? hr, List.mem_map_of_mem ht⟩

theorem subset_of_token? {β : Type} {tokens : List (String × β)} {s r : List Char} {b : β}
    (h : token? tokens s = some (b, r)) : r ⊆ s :=
  (of_token? h).1

theorem optionally_subset {β : Type} {read? : List Char → Option (β × List Char)}
    (h : ∀ {s b r}, read? s = some (b, r) → r ⊆ s) (s : List Char) : (optionally read? s).2 ⊆ s := by
  unfold optionally
  split
  · exact h ‹_›
  · exact List.Subset.refl s

theorem optionally_eq_some {β : Type} {read? : List Char → Option (β × List Char)} {s : List Char}
    {b : β} (h : (optionally read? s).1 = some b) : ∃ r, read? s = some (b, r) := by
  unfold optionally at h
  split at h
  · rename_i b' r hr
    obtain rfl : b' = b := by simpa using h
    exact ⟨r, hr⟩
  · simp at h

theorem subset_of_textAfterColon? {s t : List Char} (h : textAfterColon? s = some (some t)) :
    t ⊆ s := by
  unfold textAfterColon? at h
  split at h
  · obtain rfl : _ = t := by simpa using h
    exact List.subset_cons_self _ _
  · split at h <;> simp at h

theorem trim_subset (s : List Char) : trim s ⊆ s := (trim_sublist s).subset

theorem stripQuotes_subset (s : List Char) : stripQuotes s ⊆ s := (stripQuotes_sublist s).subset

/-- A label behind a colon is not empty and has no line feed if its line has none. -/
theorem of_textAfterColon?_bind {s : List Char} {x : Option (List Char)} {l : String}
    (hs : '\n' ∉ s) (hx : textAfterColon? s = some x) (h : l ∈ x.bind quotableLabel) :
    l.toList ≠ [] ∧ '\n' ∉ l.toList := by
  obtain ⟨t, rfl, ht⟩ := Option.bind_eq_some_iff.1 h
  exact ⟨quotableLabel_ne_nil ht,
    lineFeed_notMem_of_quotableLabel (fun hm => hs (subset_of_textAfterColon? hx hm)) ht⟩

end DiagramBoard.Grammar
