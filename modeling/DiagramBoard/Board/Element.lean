/-
DiagramBoard.Board.Element — the elements of a board.

An element has the fields that drawing and reading diagrams need; all other fields of its JSON are
kept as they are.  Its metadata say which part of which diagram it shows.

Two elements are equal if all their fields are, with numbers compared as numbers.
-/
import DiagramBoard.Diagram.Basic
import DiagramBoard.Json.Basic

namespace DiagramBoard

/-- The kinds of element.  `other` holds no name of the six kinds before it. -/
inductive ElementKind
  | rectangle | ellipse | diamond | arrow | line | text
  | other (name : String)
deriving DecidableEq, Repr, Inhabited

namespace ElementKind

/-- The name of a kind. -/
def name : ElementKind → String
  | rectangle => "rectangle"
  | ellipse => "ellipse"
  | diamond => "diamond"
  | arrow => "arrow"
  | line => "line"
  | text => "text"
  | other name => name

/-- The kind of a name. -/
def ofName : String → ElementKind
  | "rectangle" => rectangle
  | "ellipse" => ellipse
  | "diamond" => diamond
  | "arrow" => arrow
  | "line" => line
  | "text" => text
  | name => other name

/-- Whether elements of a kind can hold the label of a node. -/
def isContainer : ElementKind → Bool
  | rectangle | ellipse | diamond => true
  | _ => false

/-- No kind is lost in its name. -/
@[simp] theorem name_ofName (name : String) : (ofName name).name = name := by
  unfold ofName
  split <;> rfl

end ElementKind

/-- What an element is for its diagram, where its shape does not tell. -/
inductive Tag
  | classContainer | classAttributes | classMethods | classSeparator | lifeline | sequenceMessage
deriving DecidableEq, Repr, Inhabited

namespace Tag

/-- The name of a tag. -/
def name : Tag → String
  | classContainer => "class-container"
  | classAttributes => "class-attributes"
  | classMethods => "class-methods"
  | classSeparator => "class-separator"
  | lifeline => "lifeline"
  | sequenceMessage => "sequence-message"

/-- The tag of a name. -/
def ofName? : String → Option Tag
  | "class-container" => some classContainer
  | "class-attributes" => some classAttributes
  | "class-methods" => some classMethods
  | "class-separator" => some classSeparator
  | "lifeline" => some lifeline
  | "sequence-message" => some sequenceMessage
  | _ => none

@[simp] theorem ofName?_name (t : Tag) : ofName? t.name = some t := by
  cases t <;> rfl

end Tag

/-- What an element shows. -/
structure Metadata (α : Type) where
  nodeId : Option String := none
  edgeId : Option String := none
  id : Option String := none
  shape : Option String := none
  /-- The name of a tag, known or not. -/
  tag : Option String := none
  /-- The node that a part of a class belongs to. -/
  ownerId : Option String := none
  /-- The participant that a lifeline belongs to. -/
  participantId : Option String := none
  source : Option String := none
  target : Option String := none
  diagram : Option String := none
  direction : Option String := none
  /-- All other fields. -/
  extra : Json.Fields α := []
deriving BEq, Inhabited

/-- An element that belongs to another: a label or an arrow. -/
structure BoundElement where
  id : String
  kind : ElementKind
deriving DecidableEq, Repr, Inhabited

/-- Where an end of an arrow is fixed. -/
structure Binding (α : Type) where
  elementId : String
  focus : α
  gap : α
deriving BEq, Repr, Inhabited

/-- How corners are rounded. -/
structure Roundness (α : Type) where
  kind : Nat
  value : Option α := none
deriving BEq, Repr, Inhabited

/-- An element. -/
structure Element (α : Type) where
  id : String
  kind : ElementKind
  x : α
  y : α
  width : α
  height : α
  angle : α
  strokeColor : Option String := none
  backgroundColor : Option String := none
  fillStyle : Option String := none
  strokeWidth : Option α := none
  strokeStyle : Option String := none
  roughness : Option α := none
  opacity : Option α := none
  seed : Option Nat := none
  /-- A word that counts changes; after its largest value it starts again at 0. -/
  version : Option UInt64 := none
  versionNonce : Option Nat := none
  isDeleted : Bool := false
  groupIds : List String := []
  boundElements : Option (List BoundElement) := none
  locked : Bool := false
  roundness : Option (Roundness α) := none
  /-- The points of an arrow or line, from its own place on. -/
  points : Option (List (Point α)) := none
  startBinding : Option (Binding α) := none
  endBinding : Option (Binding α) := none
  startArrowhead : Option String := none
  endArrowhead : Option String := none
  text : Option String := none
  originalText : Option String := none
  fontSize : Option α := none
  fontFamily : Option Nat := none
  textAlign : Option String := none
  verticalAlign : Option String := none
  containerId : Option String := none
  lineHeight : Option α := none
  metadata : Option (Metadata α) := none
  /-- All other fields. -/
  extra : Json.Fields α := []
deriving BEq, Inhabited

namespace Metadata

variable {α : Type}

/-- Metadata that hold a tag only. -/
def tagged (tag : Tag) : Metadata α := { tag := some tag.name }

end Metadata

namespace Binding

variable {α : Type} [Scalar α]

/-- A binding to the middle of an element, at the gap of drawn arrows. -/
def onto (elementId : String) : Binding α := ⟨elementId, 0, 1⟩

end Binding

namespace Roundness

variable {α : Type}

/-- The roundness whose radius adapts to the size. -/
def adaptive : Roundness α := { kind := 3 }

end Roundness

namespace Element

variable {α : Type}

/-- The known tag of an element. -/
def tag? (e : Element α) : Option Tag :=
  (e.metadata.bind (·.tag)).bind Tag.ofName?

/-- Whether the metadata of an element say that it shows a part of a diagram. -/
def carriesIdentity (e : Element α) : Bool :=
  match e.metadata with
  | none => false
  | some m => m.nodeId.isSome || m.edgeId.isSome || m.id.isSome || (m.tag.bind Tag.ofName?).isSome

/-- The text of an element, or else its text before any wrapping. -/
def textContent (e : Element α) : String :=
  match e.text with
  | some t => if t = "" then e.originalText.getD "" else t
  | none => e.originalText.getD ""

/-- The box of an element. -/
def box (e : Element α) : Box α := ⟨e.x, e.y, e.width, e.height⟩

/-- An element at a box. -/
def placeAt (e : Element α) (b : Box α) : Element α :=
  { e with x := b.x, y := b.y, width := b.width, height := b.height }

variable [Scalar α]

/-- An element of a kind, without anything else. -/
def bare (id : String) (kind : ElementKind) : Element α :=
  { id := id, kind := kind, x := 0, y := 0, width := 0, height := 0, angle := 0 }

/-- A point of an element as a point of the board. -/
def onBoard (e : Element α) (p : Point α) : Point α := ⟨e.x + p.x, e.y + p.y⟩

/-- The first and the last point of an element, as points of the board. -/
def endpoints (e : Element α) : Point α × Point α :=
  let points := e.points.getD []
  let first := points.head?.getD ⟨0, 0⟩
  let last := points.getLast?.getD first
  (e.onBoard first, e.onBoard last)

end Element

end DiagramBoard
