/-
DiagramBoard.Board.Item — elements together with the JSON they were read from.

While an element is what its JSON says, it is written as that JSON, field for field; as soon as it
differs it is written from its fields.

Main statement: an item that was read is written as it was read (`encode_ofJson`), provided that the
element is equal to itself.
-/
import DiagramBoard.Board.Encoding

namespace DiagramBoard

/-- An element and the JSON it was read from, if it was. -/
structure Item (α : Type) where
  element : Element α
  origin : Option (Json α) := none
deriving Inhabited

namespace Item

variable {α : Type} [Scalar α]

/-- An item that was not read. -/
def drawn (e : Element α) : Item α := { element := e }

/-- The item of a JSON value, if it is an element. -/
def ofJson? (v : Json α) : Option (Item α) :=
  (Element.decode? v).map fun e => { element := e, origin := some v }

/-- The JSON that an item was read from, while it still says what the element is. -/
def unchangedOrigin? (i : Item α) : Option (Json α) :=
  i.origin.filter fun v => match Element.decode? v with
    | some e => e == i.element
    | none => false

/-- An item as JSON. -/
def encode (i : Item α) : Json α := i.unchangedOrigin?.getD i.element.encode

/-- The item with its element changed. -/
def modify (f : Element α → Element α) (i : Item α) : Item α := { i with element := f i.element }

/-- The values that may be elements: a list, or the list of a scene. -/
def candidates : Json α → List (Json α)
  | .list values => values
  | .record fields => match Json.Fields.get? "elements" fields with
    | some (.list values) => values
    | _ => []
  | _ => []

/-- The items of a list of elements or of a scene.  What is no element is left out. -/
def listOfJson (v : Json α) : List (Item α) := (candidates v).filterMap ofJson?

/-- An item that was read is written as it was read. -/
theorem encode_ofJson {v : Json α} {i : Item α} (h : ofJson? v = some i)
    (hself : (i.element == i.element) = true) : i.encode = v := by
  obtain ⟨e, he, rfl⟩ := Option.map_eq_some_iff.1 h
  simp only at hself
  simp [encode, unchangedOrigin?, he, hself, Option.filter]

end Item

end DiagramBoard
