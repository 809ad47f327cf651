/-
DiagramBoard.Diagram.Member — the one-line form of a class member.

A member is written with the mark of its visibility in front and a `$` for static and a `*` for
abstract behind.  It is read the same way, the marks at the end in any order and number, with blanks
between them.  A member with an opening parenthesis is a method.

Main statement: what reading peels from the end are marks and blanks only (`peel_suffix`).
-/
import DiagramBoard.Diagram.Basic
import DiagramBoard.Text.Blank

namespace DiagramBoard.Member

open Text

/-- A member on one line. -/
def shown (m : Member) : List Char :=
  m.visibility.toList.map Visibility.mark ++ m.text.toList
    ++ (if m.isStatic then ['$'] else []) ++ (if m.isAbstract then ['*'] else [])

/-- What is left of a member after the marks at its end, which stand at the start of the reversed
text, and which of the two marks there were. -/
structure Peeled where
  reversed : List Char
  isStatic : Bool := false
  isAbstract : Bool := false

/-- Another mark found: static. -/
def Peeled.static (p : Peeled) : Peeled := { p with isStatic := true }

/-- Another mark found: abstract. -/
def Peeled.abstract (p : Peeled) : Peeled := { p with isAbstract := true }

/-- Takes the marks off the end of a member, given in reverse. -/
def peel (reversed : List Char) : Peeled :=
  match reversed with
  | '$' :: r => (peel (r.dropWhile isBlank)).static
  | '*' :: r => (peel (r.dropWhile isBlank)).abstract
  | r => { reversed := r }
termination_by reversed.length
decreasing_by
  all_goals
    have := (List.dropWhile_sublist isBlank (l := r)).length_le
    simp only [List.length_cons]
    omega

/-- Reads a member and whether it is a method; nothing but marks is no member. -/
def parse? (line : List Char) : Option (Member × Bool) :=
  let s := trim line
  let visibility := s.head?.bind Visibility.ofMark?
  let body := if visibility.isSome then trimStart (s.drop 1) else s
  let peeled := peel body.reverse
  if peeled.reversed = [] then none
  else
    some ({ text := String.ofList peeled.reversed.reverse
            visibility := visibility
            isStatic := peeled.isStatic
            isAbstract := peeled.isAbstract },
      peeled.reversed.contains '(')

/-- The members on the lines of a text; lines that are none are left out. -/
def parseLines (text : List Char) : List Member :=
  (Text.lines text).filterMap fun line => (parse? line).map (·.1)

theorem peel_suffix_step {r : List Char} {p : Peeled} {mark : Char}
    (hmark : mark = '$' ∨ mark = '*')
    (ih : ∃ marks, r.dropWhile isBlank = marks ++ p.reversed
      ∧ ∀ c ∈ marks, c = '$' ∨ c = '*' ∨ isBlank c = true) :
    ∃ marks, mark :: r = marks ++ p.reversed
      ∧ ∀ c ∈ marks, c = '$' ∨ c = '*' ∨ isBlank c = true := by
  obtain ⟨marks, h, hm⟩ := ih
  refine ⟨mark :: (r.takeWhile isBlank ++ marks), ?_, ?_⟩
  · rw [List.cons_append, List.append_assoc, ← h, List.takeWhile_append_dropWhile]
  · intro c hc
    rcases List.mem_cons.1 hc with rfl | hc
    · exact hmark.imp_right .inl
    · rcases List.mem_append.1 hc with hc | hc
      · exact .inr (.inr (List.all_eq_true.1 List.all_takeWhile c hc))
      · exact hm c hc

/-- What reading takes off the end of a member are marks and blanks. -/
theorem peel_suffix (reversed : List Char) :
    ∃ marks, reversed = marks ++ (peel reversed).reversed
      ∧ ∀ c ∈ marks, c = '$' ∨ c = '*' ∨ isBlank c = true := by
  fun_induction peel reversed with
  | case1 r ih => exact peel_suffix_step (.inl rfl) ih
  | case2 r ih => exact peel_suffix_step (.inr rfl) ih
  | case3 r => exact ⟨[], by simp, by simp⟩

end DiagramBoard.Member
