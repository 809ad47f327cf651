/-
DiagramBoard.Text.Search — prefixes, suffixes and first occurrences in a text.

Texts are lists of characters and a reader is a function to what is left of its text.  Each reader
below comes with the equation that puts what it took and what it left back together, and with the
length of the rest, which is what makes a loop over a reader end.
-/
import DiagramBoard.Text.Blank

namespace DiagramBoard.Text

/-- What follows a literal at the start of a text. -/
def after? (literal : String) (s : List Char) : Option (List Char) :=
  literal.toList.isPrefixOf? s

/-- Whether a text starts with a literal. -/
def startsWith (literal : String) (s : List Char) : Bool :=
  literal.toList.isPrefixOf s

/-- What precedes a character at the end of a text. -/
def beforeLast? (c : Char) (s : List Char) : Option (List Char) :=
  if s.getLast? = some c then some s.dropLast else none

/-- The longest start of a text whose characters all belong to a class, and the rest, if there is a
character in the start. -/
def takeSome? (p : Char → Bool) (s : List Char) : Option (List Char × List Char) :=
  match s.takeWhile p with
  | [] => none
  | w => some (w, s.dropWhile p)

/-- A text without the spaces and tabs it starts with. -/
def skipSpaces (s : List Char) : List Char := s.dropWhile isSpace

/-- As `skipSpaces`, for at least one space or tab. -/
def skipSomeSpaces? (s : List Char) : Option (List Char) :=
  (takeSome? isSpace s).map (·.2)

/-- What precedes the first occurrence of a literal, and what follows it. -/
def cutAt? (literal : List Char) : List Char → Option (List Char × List Char)
  | [] => none
  | c :: r =>
    match literal.isPrefixOf? (c :: r) with
    | some t => some ([], t)
    | none => (cutAt? literal r).map fun p => (c :: p.1, p.2)

/-- As `cutAt?`, where the part before the first occurrence is not empty. -/
def cutAfterSome? (literal : List Char) (s : List Char) : Option (List Char × List Char) :=
  match cutAt? literal s with
  | some (c :: w, t) => some (c :: w, t)
  | _ => none

/-- A text without the one pair of double quotes around it. -/
def stripQuotes (s : List Char) : List Char :=
  match s with
  | '"' :: r => (beforeLast? '"' r).getD s
  | _ => s

/-- What follows a keyword that is a whole word at the start of a text, without leading blanks. -/
def afterKeyword? (word : String) (s : List Char) : Option (List Char) :=
  match after? word s with
  | some [] => some []
  | some (c :: r) => if isBlank c then some (trimStart (c :: r)) else none
  | none => none

/-- ASCII letters in lower case, everything else as it is. -/
def lowerAscii (s : List Char) : List Char := s.map Char.toLower

/-! ## What a reader takes and leaves -/

theorem isPrefixOf?_cons (c d : Char) (l s : List Char) :
    (c :: l).isPrefixOf? (d :: s) = if c == d then l.isPrefixOf? s else none := rfl

theorem isPrefixOf?_eq_some {l s t : List Char} : l.isPrefixOf? s = some t ↔ s = l ++ t := by
  induction l generalizing s with
  | nil =>
    change some s = some t ↔ _
    simp
  | cons c l ih =>
    cases s with
    | nil =>
      change none = some t ↔ _
      simp
    | cons d s =>
      rw [isPrefixOf?_cons]
      by_cases h : c = d
      · simp [h, ih]
      · simp [h, Ne.symm h]

theorem after?_eq_some {l : String} {s t : List Char} :
    after? l s = some t ↔ s = l.toList ++ t :=
  isPrefixOf?_eq_some

@[simp] theorem after?_append (l : String) (t : List Char) :
    after? l (l.toList ++ t) = some t :=
  after?_eq_some.2 rfl

theorem takeSome?_eq_some {p : Char → Bool} {s w t : List Char} :
    takeSome? p s = some (w, t) ↔ w ≠ [] ∧ w = s.takeWhile p ∧ t = s.dropWhile p := by
  unfold takeSome?
  split
  · rename_i h
    rw [h]
    exact ⟨fun hn => (Option.some_ne_none _ hn.symm).elim, fun hw => absurd hw.2.1 hw.1⟩
  · rename_i w' hw
    simp only [Option.some.injEq, Prod.mk.injEq]
    constructor
    · rintro ⟨rfl, rfl⟩
      exact ⟨hw, rfl, rfl⟩
    · rintro ⟨-, rfl, rfl⟩
      exact ⟨rfl, rfl⟩

theorem append_of_takeSome? {p : Char → Bool} {s w t : List Char}
    (h : takeSome? p s = some (w, t)) : s = w ++ t := by
  obtain ⟨-, rfl, rfl⟩ := takeSome?_eq_some.1 h
  exact (List.takeWhile_append_dropWhile).symm

theorem append_of_cutAt? {l s w t : List Char} (h : cutAt? l s = some (w, t)) :
    s = w ++ l ++ t := by
  induction s generalizing w t with
  | nil => simp [cutAt?] at h
  | cons c r ih =>
    rw [cutAt?] at h
    split at h
    · rename_i t' ht
      obtain ⟨rfl, rfl⟩ : [] = w ∧ t' = t := by simpa using h
      simpa using isPrefixOf?_eq_some.1 ht
    · obtain ⟨⟨w', t'⟩, hp, heq⟩ := Option.map_eq_some_iff.1 h
      obtain ⟨rfl, rfl⟩ : c :: w' = w ∧ t' = t := by simpa using heq
      simp [ih hp]

theorem append_of_cutAfterSome? {l s w t : List Char} (h : cutAfterSome? l s = some (w, t)) :
    s = w ++ l ++ t ∧ w ≠ [] := by
  unfold cutAfterSome? at h
  split at h
  · rename_i c w' t' hc
    obtain ⟨rfl, rfl⟩ : c :: w' = w ∧ t' = t := by simpa using h
    exact ⟨append_of_cutAt? hc, by simp⟩
  · simp at h

/-! ## The length of the rest -/

theorem length_of_after? {l : String} {s t : List Char} (h : after? l s = some t) :
    t.length ≤ s.length := by
  simp [after?_eq_some.1 h]

theorem length_dropWhile_le (p : Char → Bool) (s : List Char) :
    (s.dropWhile p).length ≤ s.length :=
  (List.dropWhile_sublist p).length_le

theorem length_skipSpaces_le (s : List Char) : (skipSpaces s).length ≤ s.length :=
  length_dropWhile_le isSpace s

theorem length_of_takeSome? {p : Char → Bool} {s w t : List Char}
    (h : takeSome? p s = some (w, t)) : t.length < s.length := by
  obtain ⟨hw, -, -⟩ := takeSome?_eq_some.1 h
  have := List.length_pos_iff.2 hw
  rw [append_of_takeSome? h, List.length_append]
  omega

theorem length_of_skipSomeSpaces? {s t : List Char} (h : skipSomeSpaces? s = some t) :
    t.length ≤ s.length := by
  obtain ⟨⟨w, t'⟩, hw, rfl⟩ := Option.map_eq_some_iff.1 h
  exact Nat.le_of_lt (length_of_takeSome? hw)

theorem length_of_cutAt? {l s w t : List Char} (h : cutAt? l s = some (w, t)) :
    t.length ≤ s.length := by
  rw [append_of_cutAt? h]
  simp only [List.length_append]
  omega

theorem length_of_cutAfterSome? {l s w t : List Char} (h : cutAfterSome? l s = some (w, t)) :
    t.length ≤ s.length := by
  rw [(append_of_cutAfterSome? h).1]
  simp only [List.length_append]
  omega

end DiagramBoard.Text
