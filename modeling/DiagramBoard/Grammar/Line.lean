/-
DiagramBoard.Grammar.Line — the lines of a text that carry content, and readers they share.

A line counts when it is neither blank nor a comment (`%%`) nor inside the front matter, a block
between two `---` lines ahead of all content.  It is read without the blanks around it and keeps its
number in the text.

Main statements: no content line is blank (`text_ne_nil`), and every reader leaves no more than it
was given.
-/
import DiagramBoard.Text.Alphanumeric
import DiagramBoard.Text.Entity

namespace DiagramBoard.Grammar

open Text

/-- A trimmed line and its number, counted from one. -/
structure Line where
  number : Nat
  text : List Char
deriving DecidableEq, Repr

/-- The content among lines that are numbered from `n` on, inside the front matter or not and after
some content or not. -/
def contentFrom (n : Nat) (inside started : Bool) : List (List Char) → List Line
  | [] => []
  | raw :: rest =>
    let text := trim raw
    if text = "---".toList && (inside || !started) then contentFrom (n + 1) (!inside) started rest
    else if inside || text = [] || startsWith "%%" text then
      contentFrom (n + 1) inside started rest
    else ⟨n, text⟩ :: contentFrom (n + 1) inside true rest

/-- The lines of a text that carry content. -/
def contentLines (text : List Char) : List Line := contentFrom 1 false false (lines text)

theorem text_ne_nil_of_mem_contentFrom {l : Line} {ls : List (List Char)} {n : Nat} {i s : Bool}
    (h : l ∈ contentFrom n i s ls) : l.text ≠ [] := by
  fun_induction contentFrom n i s ls with
  | case1 => simp at h
  | case2 _ _ _ _ _ _ _ ih => exact ih h
  | case3 _ _ _ _ _ _ _ _ ih => exact ih h
  | case4 _ _ _ _ _ _ _ hb ih =>
    rcases List.mem_cons.1 h with rfl | h
    · intro hn
      exact hb (by simp_all)
    · exact ih h

/-- No content line is blank. -/
theorem text_ne_nil {l : Line} {text : List Char} (h : l ∈ contentLines text) : l.text ≠ [] :=
  text_ne_nil_of_mem_contentFrom h

/-! ## Shared readers -/

/-- A word of letters, digits and low lines. -/
def word? (s : List Char) : Option (List Char × List Char) := takeSome? isWordChar s

/-- A name: a word with hyphens. -/
def name? (s : List Char) : Option (List Char × List Char) := takeSome? isNameChar s

/-- A reader that may fail, without taking anything then. -/
def optionally {β : Type} (read? : List Char → Option (β × List Char)) (s : List Char) :
    Option β × List Char :=
  match read? s with
  | some (b, r) => (some b, r)
  | none => (none, s)

/-- A literal, if it comes first, and what follows. -/
def literal? (literal : String) (s : List Char) : Option (Unit × List Char) :=
  (after? literal s).map fun r => ((), r)

/-- A text in double quotes. -/
def quoted? (s : List Char) : Option (List Char × List Char) :=
  (after? "\"" s).bind (cutAt? ['"'])

/-- What follows a colon up to the end of the line, if there is a colon; without one nothing but
blanks may follow. -/
def textAfterColon? (s : List Char) : Option (Option (List Char)) :=
  match s with
  | ':' :: r => some (some r)
  | _ => if trim s = [] then some none else none

/-- A text, unless it is empty. -/
def nonEmpty? (s : List Char) : Option String :=
  if s = [] then none else some (String.ofList s)

/-- A label as it is written behind a colon: trimmed, with its entities read. -/
def plainLabel (s : List Char) : Option String := nonEmpty? (Entity.decode (trim s))

/-- As `plainLabel`, in quotes or not. -/
def quotableLabel (s : List Char) : Option String :=
  nonEmpty? (Entity.decode (stripQuotes (trim s)))

/-- The meaning of the first of some tokens that a text starts with. -/
def token? {β : Type} (tokens : List (String × β)) (s : List Char) : Option (β × List Char) :=
  tokens.findSome? fun t => (after? t.1 s).map fun r => (t.2, r)

theorem length_optionally_le {β : Type} {read? : List Char → Option (β × List Char)}
    (h : ∀ {s b r}, read? s = some (b, r) → r.length ≤ s.length) (s : List Char) :
    (optionally read? s).2.length ≤ s.length := by
  unfold optionally
  split
  · rename_i hr
    exact h hr
  · exact Nat.le_refl _

theorem length_of_token? {β : Type} {tokens : List (String × β)} {s r : List Char} {b : β}
    (h : token? tokens s = some (b, r)) : r.length ≤ s.length := by
  obtain ⟨t, -, ht⟩ := List.exists_of_findSome?_eq_some h
  obtain ⟨r', hr, heq⟩ := Option.map_eq_some_iff.1 ht
  obtain ⟨-, rfl⟩ : t.2 = b ∧ r' = r := by simpa using heq
  exact length_of_after? hr

theorem length_of_quoted? {s w r : List Char} (h : quoted? s = some (w, r)) :
    r.length ≤ s.length := by
  obtain ⟨t, ht, hr⟩ := Option.bind_eq_some_iff.1 h
  exact Nat.le_trans (length_of_cutAt? hr) (length_of_after? ht)

end DiagramBoard.Grammar
