/-
DiagramBoard.Text.Blank — blank characters, and the words and trimmed lines they leave.

A blank is a character with the Unicode property White_Space; there are twenty-five.  Only the
grammars' inner separators are narrower (`isSpace`: a space or a tab).

Main statements: trimming keeps a text that neither starts nor ends in a blank (`trim_eq_self`),
and a trimmed text is such a text (`trim_head`, `trim_last`).
-/

namespace DiagramBoard.Text

/-- The characters with the property White_Space. -/
def isBlank (c : Char) : Bool :=
  let n := c.toNat
  (0x09 ≤ n && n ≤ 0x0D) || n == 0x20 || n == 0x85 || n == 0xA0 || n == 0x1680
    || (0x2000 ≤ n && n ≤ 0x200A) || n == 0x2028 || n == 0x2029 || n == 0x202F || n == 0x205F
    || n == 0x3000

/-- The separators inside a line: space and tab. -/
def isSpace (c : Char) : Bool := c == ' ' || c == '\t'

theorem isBlank_of_isSpace {c : Char} (h : isSpace c = true) : isBlank c = true := by
  simp only [isSpace, Bool.or_eq_true, beq_iff_eq] at h
  rcases h with rfl | rfl <;> decide

/-- A text without the blanks it starts with. -/
def trimStart (s : List Char) : List Char := s.dropWhile isBlank

/-- A text without the blanks it ends with. -/
def trimEnd (s : List Char) : List Char := (s.reverse.dropWhile isBlank).reverse

/-- A text without the blanks around it. -/
def trim (s : List Char) : List Char := trimEnd (trimStart s)

/-- The first word of a text: its characters between blanks. -/
def firstWord (s : List Char) : List Char := (trimStart s).takeWhile fun c => !isBlank c

/-- What follows the first word. -/
def afterFirstWord (s : List Char) : List Char := (trimStart s).dropWhile fun c => !isBlank c

/-- What separates a text from its line feeds: the lines, without a last empty one. -/
def lines : List Char → List (List Char)
  | [] => []
  | c :: r =>
    if c = '\n' then [] :: lines r
    else match lines r with
      | [] => [[c]]
      | l :: ls => (c :: l) :: ls

/-- Lines joined by a separator. -/
def join (separator : List Char) : List (List Char) → List Char
  | [] => []
  | [l] => l
  | l :: ls => l ++ separator ++ join separator ls

/-! ## Trimming -/

@[simp] theorem trim_nil : trim [] = [] := rfl

theorem trimStart_eq_self {s : List Char} (h : ∀ c ∈ s.head?, isBlank c = false) :
    trimStart s = s := by
  cases s with
  | nil => rfl
  | cons c r => simp [trimStart, h c (by simp)]

theorem trimEnd_eq_self {s : List Char} (h : ∀ c ∈ s.getLast?, isBlank c = false) :
    trimEnd s = s := by
  have : s.reverse.dropWhile isBlank = s.reverse :=
    trimStart_eq_self (s := s.reverse) (by simpa using h)
  simp [trimEnd, this]

/-- A text that neither starts nor ends in a blank is its own trimmed form. -/
theorem trim_eq_self {s : List Char} (hd : ∀ c ∈ s.head?, isBlank c = false)
    (tl : ∀ c ∈ s.getLast?, isBlank c = false) : trim s = s := by
  rw [trim, trimStart_eq_self hd, trimEnd_eq_self tl]

theorem head?_dropWhile_isBlank (s : List Char) :
    ∀ c ∈ (s.dropWhile isBlank).head?, isBlank c = false := by
  induction s with
  | nil => simp
  | cons c r ih =>
    intro x hx
    by_cases hc : isBlank c = true
    · rw [List.dropWhile_cons_of_pos hc] at hx
      exact ih x hx
    · rw [List.dropWhile_cons_of_neg hc] at hx
      simp only [List.head?_cons, Option.mem_some_iff] at hx
      simpa [← hx] using hc

/-- What is left after trimming the end does not end in a blank. -/
theorem trimEnd_last (s : List Char) : ∀ c ∈ (trimEnd s).getLast?, isBlank c = false := by
  simpa [trimEnd] using head?_dropWhile_isBlank s.reverse

theorem trimEnd_prefix_eq (s : List Char) : ∃ t, s = trimEnd s ++ t ∧ t.all isBlank = true := by
  refine ⟨(s.reverse.takeWhile isBlank).reverse, ?_, ?_⟩
  · rw [trimEnd, ← List.reverse_append, List.takeWhile_append_dropWhile, List.reverse_reverse]
  · simp only [List.all_reverse]
    simp

/-- A trimmed text does not end in a blank. -/
theorem trim_last (s : List Char) : ∀ c ∈ (trim s).getLast?, isBlank c = false :=
  trimEnd_last _

/-- A trimmed text does not start with a blank. -/
theorem trim_head (s : List Char) : ∀ c ∈ (trim s).head?, isBlank c = false := by
  intro c hc
  obtain ⟨t, ht, -⟩ := trimEnd_prefix_eq (trimStart s)
  refine head?_dropWhile_isBlank s c ?_
  change c ∈ (trimStart s).head?
  rw [ht]
  cases h : trimEnd (trimStart s) with
  | nil => simp [trim, h] at hc
  | cons x xs => simpa [trim, h] using hc

/-- Trimming twice is trimming once. -/
@[simp] theorem trim_trim (s : List Char) : trim (trim s) = trim s :=
  trim_eq_self (trim_head s) (trim_last s)

end DiagramBoard.Text
