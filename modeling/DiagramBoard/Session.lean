/-
DiagramBoard.Session — a board that is worked on, by texts and by hand, as the JSON of its elements.

Between two steps there is nothing but the JSON of the board; what is no element stays in it until
the board is next drawn.

Main statement: a text that is no diagram leaves the board as it is (`feed_of_error`).
-/
import DiagramBoard.Board.Describe
import DiagramBoard.Json.Ordered
import DiagramBoard.Json.Pointer
import DiagramBoard.Reconcile

namespace DiagramBoard

/-- The JSON values of a board. -/
structure Session (α : Type) where
  values : List (Json α) := []

namespace Session

variable {α : Type}

/-! ## By hand -/

/-- The board with more values. -/
def add (values : List (Json α)) (s : Session α) : Session α :=
  ⟨s.values ++ values.map Json.ordered⟩

/-- Whether a value has a text at a pointer. -/
def hasText (pointer text : String) (v : Json α) : Bool :=
  match Json.Pointer.get? pointer v with
  | some (.text s) => s = text
  | _ => false

/-- The number of the first value that has a text at a pointer. -/
def find? (pointer text : String) (s : Session α) : Option Nat :=
  s.values.findIdx? (hasText pointer text)

/-- A value with other values put at some pointers. -/
def edited (changes : Json.Fields α) (v : Json α) : Json α :=
  changes.foldl (fun v change => Json.Pointer.set change.1 change.2 v) v

/-- The board with a value edited. -/
def edit (index : Nat) (changes : Json.Fields α) (s : Session α) : Session α :=
  ⟨s.values.modify index (edited changes)⟩

/-- The board without a value. -/
def remove (index : Nat) (s : Session α) : Session α := ⟨s.values.eraseIdx index⟩

/-! ## By texts -/

variable [Scalar α]

/-- The items of a board. -/
def items (s : Session α) : List (Item α) := s.values.filterMap Item.ofJson?

/-- The elements of a board. -/
def elements (s : Session α) : List (Element α) := s.items.map (·.element)

/-- The board of some items, as they are written. -/
def ofItems (items : List (Item α)) : Session α := ⟨items.map fun i => i.encode.ordered⟩

/-- The board brought up to date with a text. -/
def reconcile (options : ReconcileOptions α) (text : String) (s : Session α) :
    Except SyntaxError (Session α) :=
  (DiagramBoard.reconcile options text s.items).map ofItems

/-- The board after a text, which leaves it as it is if it is no diagram. -/
def feed (options : ReconcileOptions α) (text : String) (s : Session α) : Session α :=
  match s.reconcile options text with
  | .ok next => next
  | .error _ => s

/-- A text that is no diagram leaves the board as it is. -/
theorem feed_of_error {options : ReconcileOptions α} {text : String} {s : Session α}
    {e : SyntaxError} (h : (Diagram.parse text : Except SyntaxError (Diagram α)) = .error e) :
    s.feed options text = s := by
  simp [feed, reconcile, DiagramBoard.reconcile, h, Except.map]

end Session

end DiagramBoard
