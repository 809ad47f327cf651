/-
DiagramBoard.Diagram.Basic — diagrams: nodes joined by edges, some of them in groups.

A diagram says what is drawn and not where: a node has a place only after a layout or when it was
read from a board.  Style hints are sparse; a field is set only where a node or edge differs from
the board.
-/
import DiagramBoard.Scalar

namespace DiagramBoard

/-! ## Kinds, shapes and heads -/

/-- The direction in which ranks follow each other. -/
inductive Direction
  | down | right | left | up
deriving DecidableEq, Repr, Inhabited

namespace Direction

/-- The name of a direction in a diagram. -/
def name : Direction → String
  | down => "TD"
  | right => "LR"
  | left => "RL"
  | up => "BT"

/-- The direction of a name, written as it is. -/
def ofName? : String → Option Direction
  | "TD" => some down
  | "LR" => some right
  | "RL" => some left
  | "BT" => some up
  | _ => none

/-- The direction of a word in any letter case; `TB` is another word for `TD`. -/
def ofWord? (word : String) : Option Direction :=
  let upper := String.ofList (word.toList.map Char.toUpper)
  if upper = "TB" then some down else ofName? upper

/-- No direction is lost in its name. -/
@[simp] theorem ofWord?_name (d : Direction) : ofWord? d.name = some d := by
  cases d <;> decide

/-- Whether ranks follow each other downwards or upwards. -/
def isVertical : Direction → Bool
  | down | up => true
  | right | left => false

/-- Whether ranks follow each other towards smaller coordinates. -/
def isReversed : Direction → Bool
  | left | up => true
  | down | right => false

end Direction

/-- The kinds of diagram. -/
inductive DiagramKind
  | flowchart | sequence | classes | state | er | gantt | mindmap | c4
deriving DecidableEq, Repr, Inhabited

namespace DiagramKind

/-- The name of a kind. -/
def name : DiagramKind → String
  | flowchart => "flowchart"
  | sequence => "sequence"
  | classes => "class"
  | state => "state"
  | er => "er"
  | gantt => "gantt"
  | mindmap => "mindmap"
  | c4 => "c4"

/-- The kind of a name. -/
def ofName? : String → Option DiagramKind
  | "flowchart" => some flowchart
  | "sequence" => some sequence
  | "class" => some classes
  | "state" => some state
  | "er" => some er
  | "gantt" => some gantt
  | "mindmap" => some mindmap
  | "c4" => some c4
  | _ => none

/-- No kind is lost in its name. -/
@[simp] theorem ofName?_name (k : DiagramKind) : ofName? k.name = some k := by
  cases k <;> rfl

/-- Whether nodes have members. -/
def isClassLike : DiagramKind → Bool
  | classes | er => true
  | _ => false

end DiagramKind

/-- The outlines of nodes. -/
inductive Shape
  | rectangle | rounded | diamond | circle | stadium | hexagon | parallelogram
deriving DecidableEq, Repr, Inhabited

namespace Shape

/-- The name of a shape. -/
def name : Shape → String
  | rectangle => "rectangle"
  | rounded => "rounded"
  | diamond => "diamond"
  | circle => "circle"
  | stadium => "stadium"
  | hexagon => "hexagon"
  | parallelogram => "parallelogram"

/-- The shape of a name. -/
def ofName? : String → Option Shape
  | "rectangle" => some rectangle
  | "rounded" => some rounded
  | "diamond" => some diamond
  | "circle" => some circle
  | "stadium" => some stadium
  | "hexagon" => some hexagon
  | "parallelogram" => some parallelogram
  | _ => none

/-- No shape is lost in its name. -/
@[simp] theorem ofName?_name (s : Shape) : ofName? s.name = some s := by
  cases s <;> rfl

end Shape

/-- What an edge ends in. -/
inductive ArrowHead
  | none | arrow | bar | dot | triangle | triangleOutline | diamond | diamondOutline
deriving DecidableEq, Repr, Inhabited

namespace ArrowHead

/-- The name of a head. -/
def name : ArrowHead → String
  | none => "none"
  | arrow => "arrow"
  | bar => "bar"
  | dot => "dot"
  | triangle => "triangle"
  | triangleOutline => "triangle_outline"
  | diamond => "diamond"
  | diamondOutline => "diamond_outline"

/-- The head of a name. -/
def ofName? : String → Option ArrowHead
  | "none" => some none
  | "arrow" => some arrow
  | "bar" => some bar
  | "dot" => some dot
  | "triangle" => some triangle
  | "triangle_outline" => some triangleOutline
  | "diamond" => some diamond
  | "diamond_outline" => some diamondOutline
  | _ => Option.none

/-- The name of a head on a board, where no head has no name. -/
def canvasName : ArrowHead → Option String
  | none => Option.none
  | head => some head.name

/-- The head of a name on a board.  Circles are dots, and any unknown name is a plain arrow. -/
def ofCanvasName : Option String → ArrowHead
  | Option.none => none
  | some "bar" => bar
  | some "dot" | some "circle" | some "circle_outline" => dot
  | some "triangle" => triangle
  | some "triangle_outline" => triangleOutline
  | some "diamond" => diamond
  | some "diamond_outline" => diamondOutline
  | some _ => arrow

/-- Only the absence of a head is lost on a board as a name. -/
theorem ofCanvasName_canvasName (head : ArrowHead) : ofCanvasName head.canvasName = head := by
  cases head <;> rfl

end ArrowHead

/-- How lines are drawn. -/
inductive StrokeStyle
  | solid | dashed | dotted
deriving DecidableEq, Repr, Inhabited

namespace StrokeStyle

/-- The name of a stroke style. -/
def name : StrokeStyle → String
  | solid => "solid"
  | dashed => "dashed"
  | dotted => "dotted"

/-- The stroke style of a name. -/
def ofName? : String → Option StrokeStyle
  | "solid" => some solid
  | "dashed" => some dashed
  | "dotted" => some dotted
  | _ => none

/-- No stroke style is lost in its name. -/
@[simp] theorem ofName?_name (s : StrokeStyle) : ofName? s.name = some s := by
  cases s <;> rfl

end StrokeStyle

/-- How areas are filled. -/
inductive FillStyle
  | hachure | crossHatch | solid | zigzag
deriving DecidableEq, Repr, Inhabited

namespace FillStyle

/-- The name of a fill style. -/
def name : FillStyle → String
  | hachure => "hachure"
  | crossHatch => "cross-hatch"
  | solid => "solid"
  | zigzag => "zigzag"

/-- The fill style of a name. -/
def ofName? : String → Option FillStyle
  | "hachure" => some hachure
  | "cross-hatch" => some crossHatch
  | "solid" => some solid
  | "zigzag" => some zigzag
  | _ => none

end FillStyle

/-! ## Geometry -/

/-- A box by its upper left corner and its size. -/
structure Box (α : Type) where
  x : α
  y : α
  width : α
  height : α
deriving BEq, Repr, Inhabited

/-- A point of the board. -/
structure Point (α : Type) where
  x : α
  y : α
deriving BEq, Repr, Inhabited

namespace Box

variable {α : Type} [Scalar α]

/-- The right edge. -/
def right (b : Box α) : α := b.x + b.width

/-- The lower edge. -/
def bottom (b : Box α) : α := b.y + b.height

/-- The horizontal centre. -/
def centerX (b : Box α) : α := b.x + b.width / 2

/-- The vertical centre. -/
def centerY (b : Box α) : α := b.y + b.height / 2

/-- The centre. -/
def center (b : Box α) : Point α := ⟨b.centerX, b.centerY⟩

/-- Whether two boxes are no further apart than a margin, in both directions. -/
def overlaps (a b : Box α) (margin : α) : Bool :=
  !(a.right + margin < b.x || b.right + margin < a.x
    || a.bottom + margin < b.y || b.bottom + margin < a.y)

end Box

/-! ## Style hints -/

/-- The ways in which a node or edge differs from the style of its board. -/
structure StyleHints (α : Type) where
  strokeColor : Option String := none
  backgroundColor : Option String := none
  fillStyle : Option FillStyle := none
  strokeWidth : Option α := none
  strokeStyle : Option StrokeStyle := none
  roughness : Option α := none
  opacity : Option α := none
  fontSize : Option α := none
  fontFamily : Option Nat := none
deriving BEq, Repr, Inhabited

namespace StyleHints

variable {α : Type}

/-- Whether no hint is set. -/
def isEmpty (s : StyleHints α) : Bool :=
  s.strokeColor.isNone && s.backgroundColor.isNone && s.fillStyle.isNone && s.strokeWidth.isNone
    && s.strokeStyle.isNone && s.roughness.isNone && s.opacity.isNone && s.fontSize.isNone
    && s.fontFamily.isNone

/-- Hints where any is set. -/
def nonEmpty? (s : StyleHints α) : Option (StyleHints α) :=
  if s.isEmpty then none else some s

/-- The hint of a stroke style alone. -/
def stroke (style : StrokeStyle) : StyleHints α := { strokeStyle := some style }

/-- The hint of a stroke width alone. -/
def width (w : α) : StyleHints α := { strokeWidth := some w }

end StyleHints

/-! ## Members -/

/-- Who may use a member. -/
inductive Visibility
  | everyone | ownClass | subclasses | samePackage
deriving DecidableEq, Repr, Inhabited

namespace Visibility

/-- The mark in front of a member. -/
def mark : Visibility → Char
  | .everyone => '+'
  | .ownClass => '-'
  | .subclasses => '#'
  | .samePackage => '~'

/-- The visibility of a mark. -/
def ofMark? : Char → Option Visibility
  | '+' => some .everyone
  | '-' => some .ownClass
  | '#' => some .subclasses
  | '~' => some .samePackage
  | _ => none

@[simp] theorem ofMark?_mark (v : Visibility) : ofMark? v.mark = some v := by
  cases v <;> rfl

end Visibility

/-- An attribute or a method of a class, or an attribute of an entity. -/
structure Member where
  text : String
  visibility : Option Visibility := none
  isStatic : Bool := false
  isAbstract : Bool := false
deriving DecidableEq, Repr, Inhabited

/-- The members of a class. -/
structure Sections where
  attributes : List Member := []
  methods : List Member := []
deriving DecidableEq, Repr, Inhabited

namespace Sections

/-- All members, the attributes first. -/
def members (s : Sections) : List Member := s.attributes ++ s.methods

end Sections

/-! ## Diagrams -/

/-- A node. -/
structure Node (α : Type) where
  id : String
  label : String
  shape : Shape := .rectangle
  /-- The group that the node was first mentioned in. -/
  group : Option String := none
  /-- The node's place, once it has one. -/
  box : Option (Box α) := none
  style : Option (StyleHints α) := none
  sections : Option Sections := none
  /-- Where the lifeline of a participant ends. -/
  lifelineEnd : Option α := none
deriving BEq, Repr, Inhabited

/-- An edge from a node to a node. -/
structure Edge (α : Type) where
  id : String
  source : String
  target : String
  label : Option String := none
  startHead : ArrowHead := .none
  endHead : ArrowHead := .arrow
  style : Option (StyleHints α) := none
  /-- The way of a routed edge, through points of the board. -/
  points : Option (List (Point α)) := none
deriving BEq, Repr, Inhabited

/-- A group of nodes. -/
structure Group where
  id : String
  label : String
  children : List String := []
deriving DecidableEq, Repr, Inhabited

/-- A diagram. -/
structure Diagram (α : Type) where
  kind : DiagramKind := .flowchart
  direction : Direction := .down
  nodes : List (Node α) := []
  edges : List (Edge α) := []
  groups : List Group := []
deriving BEq, Repr, Inhabited

namespace Edge

variable {α : Type}

/-- The id of an edge between two nodes. -/
def pairId (source target : String) : String := source ++ "->" ++ target

/-- The stroke style, solid unless a hint says otherwise. -/
def strokeStyle (e : Edge α) : StrokeStyle :=
  (e.style.bind (·.strokeStyle)).getD .solid

/-- Whether the line has gaps. -/
def isDashed (e : Edge α) : Bool := e.strokeStyle ≠ .solid

end Edge

namespace Diagram

variable {α : Type}

/-- The ids of the nodes, in order. -/
def nodeIds (d : Diagram α) : List String := d.nodes.map (·.id)

/-- The first node with an id. -/
def node? (d : Diagram α) (id : String) : Option (Node α) := d.nodes.find? (·.id = id)

/-- Whether some node has an id. -/
def hasNode (d : Diagram α) (id : String) : Bool := d.nodes.any (·.id = id)

/-- The diagram with the first node of an id changed. -/
def modifyNode (d : Diagram α) (id : String) (f : Node α → Node α) : Diagram α :=
  let rec change : List (Node α) → List (Node α)
    | [] => []
    | n :: ns => if n.id = id then f n :: ns else n :: change ns
  { d with nodes := change d.nodes }

/-- The diagram with a node for an id, a new one if there is none. -/
def ensureNode (d : Diagram α) (node : Node α) : Diagram α :=
  if d.hasNode node.id then d else { d with nodes := d.nodes ++ [node] }

/-- The diagram with an edge added. -/
def addEdge (d : Diagram α) (edge : Edge α) : Diagram α :=
  { d with edges := d.edges ++ [edge] }

end Diagram

end DiagramBoard
