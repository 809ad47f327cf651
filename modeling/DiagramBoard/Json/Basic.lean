/-
DiagramBoard.Json.Basic — JSON values, as scenes and elements are written in them.

A number written as an integer stays one; every other number is a scalar.  A record keeps its fields
in a list: reading puts them in the order of their names, each name once, and `Fields.insert` keeps
that order.

Main statements: what was put under a name is found there (`Fields.get?_insert_self`), and nothing
else changes (`Fields.get?_insert_of_ne`).
-/
import DiagramBoard.Scalar

namespace DiagramBoard

/-- JSON values over a type of numbers. -/
inductive Json (α : Type)
  | null
  | bool (b : Bool)
  | int (n : Int)
  | real (x : α)
  | text (s : String)
  | list (items : List (Json α))
  | record (fields : List (String × Json α))
deriving Inhabited

namespace Json

/-- Named values. -/
abbrev Fields (α : Type) := List (String × Json α)

variable {α : Type}

section Equality

variable [BEq α]

mutual

/-- Whether two values are the same.  An integer is never a scalar, even of equal size. -/
def same : Json α → Json α → Bool
  | .null, .null => true
  | .bool a, .bool b => a == b
  | .int a, .int b => a == b
  | .real a, .real b => a == b
  | .text a, .text b => a == b
  | .list a, .list b => sameItems a b
  | .record a, .record b => sameFields a b
  | _, _ => false

/-- Whether two lists hold the same values. -/
def sameItems : List (Json α) → List (Json α) → Bool
  | [], [] => true
  | a :: as, b :: bs => same a b && sameItems as bs
  | _, _ => false

/-- Whether two lists hold the same names and values. -/
def sameFields : List (String × Json α) → List (String × Json α) → Bool
  | [], [] => true
  | (k, a) :: as, (l, b) :: bs => k == l && same a b && sameFields as bs
  | _, _ => false

end

instance : BEq (Json α) := ⟨same⟩

end Equality

/-- A number, or null where it cannot be written. -/
def ofScalar [Scalar α] (x : α) : Json α :=
  if Scalar.isFinite x then .real x else .null

namespace Fields

/-- The value under a name. -/
def get? (name : String) (fields : Fields α) : Option (Json α) :=
  fields.lookup name

/-- The fields with a value under a name, in the order of the names. -/
def insert (name : String) (value : Json α) : Fields α → Fields α
  | [] => [(name, value)]
  | (n, v) :: r =>
    if name < n then (name, value) :: (n, v) :: r
    else if name = n then (name, value) :: r
    else (n, v) :: insert name value r

/-- The fields of a list in the order of their names; the last value of a name counts. -/
def ofList (fields : List (String × Json α)) : Fields α :=
  fields.foldl (fun acc f => acc.insert f.1 f.2) []

/-- The first fields overridden by the second. -/
def override (fields newer : Fields α) : Fields α :=
  newer.foldl (fun acc f => acc.insert f.1 f.2) fields

/-- The fields whose names are not among some given ones. -/
def without (names : List String) (fields : Fields α) : Fields α :=
  fields.filter fun f => !names.contains f.1

@[simp] theorem get?_nil (name : String) : get? name ([] : Fields α) = none := rfl

theorem get?_cons (name n : String) (v : Json α) (r : Fields α) :
    get? name ((n, v) :: r) = if name = n then some v else get? name r := by
  by_cases h : name = n
  · simp [get?, h]
  · have : (name == n) = false := by simpa using h
    simp [get?, List.lookup_cons, h, this]

/-- What was put under a name is found there. -/
@[simp] theorem get?_insert_self (name : String) (value : Json α) (fields : Fields α) :
    get? name (insert name value fields) = some value := by
  induction fields with
  | nil => simp [insert, get?_cons]
  | cons f r ih =>
    obtain ⟨n, v⟩ := f
    rw [insert]
    split
    · simp [get?_cons]
    · split
      · simp [get?_cons]
      · rename_i h
        simp [get?_cons, h, ih]

/-- Putting a value under a name leaves the other names alone. -/
theorem get?_insert_of_ne {name other : String} (h : other ≠ name) (value : Json α)
    (fields : Fields α) : get? other (insert name value fields) = get? other fields := by
  induction fields with
  | nil => simp [insert, get?_cons, h]
  | cons f r ih =>
    obtain ⟨n, v⟩ := f
    rw [insert]
    split
    · simp [get?_cons, h]
    · split
      · rename_i h'
        subst h'
        simp [get?_cons, h]
      · simp [get?_cons, ih]

end Fields

end Json

end DiagramBoard
