/-
DiagramBoard.Json.Decode — reading typed data out of JSON values.

A decoder takes a value to a datum if the value has the right form.  A record may be written with
its names, in any order and with others beside them, or as the list of its values in the order of
the record's definition; in a list only fields with a default may be left out, from the end.
-/
import DiagramBoard.Json.Basic

namespace DiagramBoard.Json

variable {α β : Type}

/-- A text. -/
def text? : Json α → Option String
  | .text s => some s
  | _ => none

/-- A truth value. -/
def bool? : Json α → Option Bool
  | .bool b => some b
  | _ => none

/-- A number, written as an integer or not. -/
def scalar? [Scalar α] : Json α → Option α
  | .int n => some (Scalar.ofInt n)
  | .real x => some x
  | _ => none

/-- A natural number below a bound, written as an integer. -/
def nat? (bound : Nat) : Json α → Option Nat
  | .int (.ofNat n) => if n < bound then some n else none
  | _ => none

/-- Numbers of 32 bits. -/
def word32? : Json α → Option Nat := nat? (Nat.pow 2 32)

/-- Numbers of 64 bits. -/
def word64? : Json α → Option Nat := nat? (Nat.pow 2 64)

/-- A list, each item decoded. -/
def list? (decode : Json α → Option β) : Json α → Option (List β)
  | .list items => items.mapM decode
  | _ => none

/-- A datum, or null for none. -/
def nullable? (decode : Json α → Option β) : Json α → Option (Option β)
  | .null => some none
  | v => (decode v).map some

/-- One of a list of names, alone or as the only field of a record, with null. -/
def named? (find : String → Option β) : Json α → Option β
  | .text s => find s
  | .record [(s, .null)] => find s
  | _ => none

/-- The fields of a record, by name or in the order of `names`, the first `needed` of them at
least. -/
def fields? (names : List String) (needed : Nat) : Json α → Option (Fields α)
  | .record fields => some fields
  | .list items =>
    if needed ≤ items.length && items.length ≤ names.length then some (names.zip items) else none
  | _ => none

namespace Fields

/-- A field that has to be there. -/
def required? (decode : Json α → Option β) (name : String) (fields : Fields α) : Option β :=
  (fields.get? name).bind decode

/-- A field that may be missing or null. -/
def optional? (decode : Json α → Option β) (name : String) (fields : Fields α) :
    Option (Option β) :=
  match fields.get? name with
  | none => some none
  | some v => nullable? decode v

/-- A field that has a value when it is missing. -/
def defaulted? (decode : Json α → Option β) (value : β) (name : String) (fields : Fields α) :
    Option β :=
  match fields.get? name with
  | none => some value
  | some v => decode v

end Fields

/-- The field of a datum that may be absent. -/
def optionalField (encode : β → Json α) (name : String) : Option β → Fields α
  | none => []
  | some b => [(name, encode b)]

end DiagramBoard.Json
