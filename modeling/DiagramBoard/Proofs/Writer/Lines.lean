/-
DiagramBoard.Proofs.Writer.Lines — the pieces that the writers of several grammars share.

Main statements: the indentation of a line does not matter (`trim_indent`), and a label behind a
colon is read as the label it was written for (`textAfterColon?_colonLabel`).
-/
import DiagramBoard.Proofs.Grammar.Words
import DiagramBoard.Writer.Class

namespace DiagramBoard.Writer

open Text Grammar

/-! ## Indentation -/

theorem isBlank_of_mem_indent : ∀ c ∈ indent, isBlank c = true := by
  simp [indent, isBlank]

/-- Indentation is no part of a line. -/
theorem trim_indent (s : List Char) : trim (indent ++ s) = trim s :=
  trim_append_of_blank isBlank_of_mem_indent s

/-! ## Labels behind a colon -/

theorem colonLabel_some (l : String) :
    colonLabel (some l) = ' ' :: ':' :: ' ' :: Entity.encode l.toList := by
  simp [colonLabel]

/-- The end of a line says what its label is. -/
theorem textAfterColon?_colonLabel {label : Option String} (h : ∀ l ∈ label, IsTidy l.toList) :
    (textAfterColon? (skipSpaces (colonLabel label))).map (·.bind quotableLabel) = some label := by
  cases label with
  | none => rfl
  | some l =>
    rw [colonLabel_some, skipSpaces_space (by simp [isSpace])]
    simp [textAfterColon?, quotableLabel_encode (h l rfl)]

theorem isWordChar_head_colonLabel (label : Option String) :
    ∀ c ∈ (colonLabel label).head?, isWordChar c = false := by
  have : isWordChar ' ' = false := by decide
  cases label <;> simp [colonLabel, this]

theorem lineFeed_notMem_colonLabel {label : Option String} (h : ∀ l ∈ label, '\n' ∉ l.toList) :
    '\n' ∉ colonLabel label := by
  cases label with
  | none => simp [colonLabel]
  | some l =>
    have := Entity.notMem_encode (c := '\n') (by decide) (h l rfl)
    simp [colonLabel, this]

/-- A line that ends in a tidy label, or in what does not end in a blank, does not end in a blank. -/
theorem isBlank_last_colonLabel {s : List Char} {label : Option String}
    (hlast : ∀ c ∈ s.getLast?, isBlank c = false) (h : ∀ l ∈ label, IsTidy l.toList) :
    ∀ c ∈ (s ++ colonLabel label).getLast?, isBlank c = false := by
  cases label with
  | none => simpa [colonLabel] using hlast
  | some l =>
    have htidy := (h l rfl).encode
    have hsplit : s ++ colonLabel (some l) = (s ++ [' ', ':', ' ']) ++ Entity.encode l.toList := by
      simp [colonLabel_some]
    rw [hsplit, List.getLast?_append_of_ne_nil _ htidy.ne_nil]
    exact htidy.last

/-! ## Directions -/

theorem content_directionLines (direction : Direction) :
    ∀ l ∈ directionLines direction, '\n' ∉ l ∧ IsContent (trim l) := by
  intro l hl
  unfold directionLines at hl
  split at hl
  · simp at hl
  · obtain rfl := List.mem_singleton.1 hl
    cases direction <;> exact ⟨by decide, isContent_cons (by decide) _⟩

end DiagramBoard.Writer
