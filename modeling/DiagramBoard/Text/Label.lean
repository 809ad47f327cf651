/-
DiagramBoard.Text.Label — the two spellings of a text of several lines.

In a diagram a line of a label ends in a line feed or in one of the tags `<br>`, `<br/>` and
`<br />`, in any letter case; on a board it ends in a line feed.

Main statements: the lines of a label and the breaks between them give the label back
(`rejoin_split`).
-/
import DiagramBoard.Text.Search

namespace DiagramBoard.Text.Label

/-- Whether two characters spell the name of the tag. -/
def isTagName (b r : Char) : Bool := (b == 'b' || b == 'B') && (r == 'r' || r == 'R')

/-- The length of the break that a text starts with, zero for none. -/
def breakLength : List Char → Nat
  | '\n' :: _ => 1
  | '<' :: b :: r :: '>' :: _ => if isTagName b r then 4 else 0
  | '<' :: b :: r :: '/' :: '>' :: _ => if isTagName b r then 5 else 0
  | '<' :: b :: r :: ' ' :: '/' :: '>' :: _ => if isTagName b r then 6 else 0
  | _ => 0

/-- The first line of a label, and every later line behind the break before it. -/
def split (s : List Char) : List Char × List (List Char × List Char) :=
  match s with
  | [] => ([], [])
  | c :: r =>
    match breakLength (c :: r) with
    | 0 =>
      let p := split r
      (c :: p.1, p.2)
    | n + 1 =>
      let p := split (r.drop n)
      ([], ((c :: r).take (n + 1), p.1) :: p.2)
termination_by s.length
decreasing_by
  · simp
  · simp only [List.length_drop, List.length_cons]; omega

/-- A label put together from its first line and its later ones. -/
def rejoin (p : List Char × List (List Char × List Char)) : List Char :=
  p.1 ++ p.2.flatMap fun q => q.1 ++ q.2

/-- The lines that a label shows. -/
def lines (label : List Char) : List (List Char) :=
  let p := split label
  p.1 :: p.2.map (·.2)

/-- A label as the text of a board element. -/
def toCanvas (label : List Char) : List Char := join ['\n'] (lines label)

/-- The text of a board element as a label: blanks at the end of a line are dropped. -/
def ofCanvas (text : List Char) : List Char :=
  join "<br/>".toList ((Text.lines text).map trimEnd)

/-! ## Splitting loses nothing -/

theorem split_nil : split [] = ([], []) := by rw [split]

theorem split_cons_of_zero {c : Char} {r : List Char} (h : breakLength (c :: r) = 0) :
    split (c :: r) = (c :: (split r).1, (split r).2) := by
  rw [split, h]

theorem split_cons_of_succ {c : Char} {r : List Char} {n : Nat}
    (h : breakLength (c :: r) = n + 1) :
    split (c :: r) =
      ([], ((c :: r).take (n + 1), (split (r.drop n)).1) :: (split (r.drop n)).2) := by
  rw [split, h]

/-- The lines of a label and the breaks between them give the label back. -/
theorem rejoin_split (s : List Char) : rejoin (split s) = s := by
  fun_induction split s with
  | case1 => rfl
  | case2 c r _ _ ih =>
    simpa [rejoin] using ih
  | case3 c r n _ _ ih =>
    simp only [rejoin, List.nil_append, List.flatMap_cons, List.append_assoc] at ih ⊢
    rw [ih, List.take_succ_cons, List.cons_append, List.take_append_drop]

end DiagramBoard.Text.Label
