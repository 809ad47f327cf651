/-
DiagramBoard.Scalar — the numbers that coordinates, sizes and styles are made of.

A board file holds binary64 numbers, and every size is computed in them.  The formulas only need
arithmetic, an order and decimal constants, so they are written for any `Scalar`: a running program
uses `Float`, and a statement about the geometry itself reads the same definitions at `Rat`.

Where the two kinds of number differ (a number that is not equal to itself, a negative zero) the
operations below say what happens.
-/

namespace DiagramBoard

/-- Numbers with arithmetic, an order that may be partial, and decimal constants. -/
class Scalar (α : Type) extends Add α, Sub α, Mul α, Div α, Neg α, LT α, LE α, BEq α, NatCast α,
    OfScientific α where
  /-- Strict order is decidable. -/
  decLt : (a b : α) → Decidable (a < b)
  /-- Weak order is decidable. -/
  decLe : (a b : α) → Decidable (a ≤ b)
  /-- The nearest whole number, a half going away from zero. -/
  round : α → α
  /-- Whether the number can be written down: neither infinite nor undefined. -/
  isFinite : α → Bool

namespace Scalar

variable {α : Type} [Scalar α]

instance (a b : α) : Decidable (a < b) := Scalar.decLt a b

instance (a b : α) : Decidable (a ≤ b) := Scalar.decLe a b

/-- A numeral is the cast of its natural number. -/
instance (priority := low) (n : Nat) : OfNat α n := ⟨(n : α)⟩

instance : Inhabited α := ⟨0⟩

/-- The number of an integer. -/
def ofInt : Int → α
  | .ofNat n => (n : α)
  | .negSucc n => -((n + 1 : Nat) : α)

/-- The larger of two numbers; one that differs from itself loses, and a tie takes the second. -/
def larger (a b : α) : α :=
  if b < a then a else if b == b then b else a

/-- The smaller of two numbers; one that differs from itself loses, and a tie takes the second. -/
def smaller (a b : α) : α :=
  if a < b then a else if b == b then b else a

/-- The distance from zero, which is never a negative zero. -/
def abs (a : α) : α :=
  if a ≤ 0 then 0 - a else a

/-- One with the sign of `a`.  A zero has the sign of its reciprocal, where that has one. -/
def sign (a : α) : α :=
  if 0 < a then 1
  else if a < 0 then -1
  else if 0 < 1 / a then 1
  else if 1 / a < 0 then -1
  else a

/-- The sum of a list, from the left. -/
def sum (xs : List α) : α :=
  xs.foldl (· + ·) 0

end Scalar

/-- Binary64 numbers, as board files hold them. -/
instance : Scalar Float where
  natCast := Float.ofNat
  decLt := inferInstance
  decLe := inferInstance
  round := Float.round
  isFinite := Float.isFinite

/-- Whether a rational is at least half a unit above the whole number below it. -/
private def upperHalf (q : Rat) : Bool :=
  decide (q.num.natAbs % q.den * 2 ≥ q.den)

/-- Exact numbers. -/
instance : Scalar Rat where
  decLt := inferInstance
  decLe := inferInstance
  round q :=
    let whole : Int := (q.num.natAbs / q.den + if upperHalf q then 1 else 0 : Nat)
    if q.num < 0 then ((-whole : Int) : Rat) else (whole : Rat)
  isFinite _ := true

namespace Scalar

/-- The larger of two exact numbers is no smaller than the first. -/
theorem le_larger_left (a b : Rat) : a ≤ larger a b := by
  unfold larger
  split
  · exact Rat.le_refl
  · rename_i h
    simpa using Rat.not_lt.1 h

/-- The larger of two exact numbers is no smaller than the second. -/
theorem le_larger_right (a b : Rat) : b ≤ larger a b := by
  unfold larger
  split
  · exact Rat.le_of_lt (by assumption)
  · simp

end Scalar

end DiagramBoard
