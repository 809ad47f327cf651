/-
DiagramBoard.Json.Pointer — JSON pointers: reading a value at a path and changing one.

A pointer is empty, for the whole value, or a slash before each step.  In a step `~1` stands for a
slash and `~0` for a tilde.  A step names a field of a record or numbers an item of a list, and a
number has no sign and no leading zero.
-/
import DiagramBoard.Json.Basic

namespace DiagramBoard.Json.Pointer

/-- A step with its two escapes read, the slash first. -/
def unescapeSlash : List Char → List Char
  | '~' :: '1' :: r => '/' :: unescapeSlash r
  | c :: r => c :: unescapeSlash r
  | [] => []

@[inherit_doc unescapeSlash]
def unescapeTilde : List Char → List Char
  | '~' :: '0' :: r => '~' :: unescapeTilde r
  | c :: r => c :: unescapeTilde r
  | [] => []

/-- The parts of a text between slashes. -/
def splitSlashes : List Char → List (List Char)
  | [] => [[]]
  | c :: r =>
    if c = '/' then [] :: splitSlashes r
    else match splitSlashes r with
      | [] => [[c]]
      | w :: ws => (c :: w) :: ws

/-- The steps of a pointer, if it is one. -/
def steps? (pointer : String) : Option (List String) :=
  match pointer.toList with
  | [] => some []
  | '/' :: r =>
    some ((splitSlashes r).map fun w => String.ofList (unescapeTilde (unescapeSlash w)))
  | _ => none

/-- The number that a step is, if it is one. -/
def index? (step : String) : Option Nat :=
  let cs := step.toList
  if cs.isEmpty || !cs.all Char.isDigit || (cs.head? = some '0' && cs.length ≠ 1) then none
  else some (cs.foldl (fun n d => n * 10 + (d.toNat - '0'.toNat)) 0)

variable {α : Type}

/-- The value one step below another. -/
def child? (v : Json α) (step : String) : Option (Json α) :=
  match v with
  | .record fields => fields.lookup step
  | .list items => (index? step).bind fun i => items[i]?
  | _ => none

/-- The value at a path. -/
def getSteps? (v : Json α) : List String → Option (Json α)
  | [] => some v
  | s :: r => (child? v s).bind fun w => getSteps? w r

/-- The value at a pointer. -/
def get? (pointer : String) (v : Json α) : Option (Json α) :=
  (steps? pointer).bind (getSteps? v)

/-- A value with the part at a path changed, or as it was where there is no such part. -/
def modifySteps (f : Json α → Json α) (v : Json α) : List String → Json α
  | [] => f v
  | s :: r =>
    match v, child? v s with
    | .record fields, some w => .record (Fields.insert s (modifySteps f w r) fields)
    | .list items, some w =>
      match index? s with
      | some i => .list (items.set i (modifySteps f w r))
      | none => v
    | v, _ => v

/-- A record with a field put under a name; anything else as it was. -/
def put (name : String) (new : Json α) : Json α → Json α
  | .record fields => .record (Fields.insert name new fields)
  | v => v

/-- A value with the last step of a pointer put into the record that the other steps lead to. -/
def set (pointer : String) (new : Json α) (v : Json α) : Json α :=
  match steps? pointer with
  | none => v
  | some ss =>
    match ss.getLast? with
    | none => v
    | some name => modifySteps (put name new) v ss.dropLast

end DiagramBoard.Json.Pointer
