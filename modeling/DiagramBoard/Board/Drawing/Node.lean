/-
DiagramBoard.Board.Drawing.Node — the elements that show a node.

A node is drawn as a container with its label in the middle, a participant with a lifeline too.  A
node with members is a class: its container holds a title, a line, the attributes, another line and
the methods.

Main statements: the first element of a node is its container (`head_drawNode`), and a class is
drawn with six elements (`length_classDrawing`).
-/
import DiagramBoard.Board.Drawing.Pen
import DiagramBoard.Board.Identity

namespace DiagramBoard

/-- The kind of element that a shape is drawn as. -/
def Shape.elementKind : Shape → ElementKind
  | .diamond => .diamond
  | .circle | .stadium | .hexagon => .ellipse
  | .rectangle | .rounded | .parallelogram => .rectangle

/-- The elements of a node: those that show it already, and new ids for the others. -/
def Node.elementIds (id : String) (known : Option NodeElements) : NodeElements :=
  { container := (known.map (·.container)).getD (Board.derivedId "node" id)
    text := some ((known.bind (·.text)).getD (Board.derivedId "text" id))
    lifeline := known.bind (·.lifeline) }

/-- The elements of a node. -/
structure NodeDrawing (α : Type) where
  container : Element α
  label : Element α
  /-- The lifeline of a participant, or the lines and members of a class. -/
  parts : List (Element α)

/-- All elements of a node, its container first. -/
def NodeDrawing.elements {α : Type} (d : NodeDrawing α) : List (Element α) :=
  d.container :: d.label :: d.parts

namespace Pen

variable {α : Type} [Scalar α]

/-- The size of a box around a label. -/
def labelBox (size : Size α) : Box α :=
  ⟨0, 0, Scalar.larger 120 (size.width + 40), Scalar.larger 60 (size.height + 20)⟩

/-- The roundness of the container of a shape. -/
def roundnessOf : Shape → Option (Roundness α)
  | .rounded | .stadium => some .adaptive
  | _ => none

/-- What the container of a node says about it. -/
def nodeMetadata (p : Pen α) (n : Node α) : Metadata α :=
  { p.heading with nodeId := some n.id, shape := some n.shape.name }

/-- The lifeline of a participant, from its box down to a height. -/
def lifeline (p : Pen α) (id : String) (n : Node α) (box : Box α) (lowest : α) : Element α :=
  let length := Scalar.larger (lowest - box.bottom) 0
  let line := (p.styled id .line none).placeAt ⟨box.centerX, box.bottom, 1, length⟩
  let metadata : Metadata α := .tagged .lifeline
  { line with
    points := some [⟨0, 0⟩, ⟨0, length⟩]
    strokeStyle := some StrokeStyle.dashed.name
    strokeWidth := some 1
    opacity := some 50
    locked := true
    metadata := some { metadata with participantId := some n.id } }

/-! ## Nodes without members -/

/-- The elements of a node without members. -/
def plainDrawing (p : Pen α) (n : Node α) (ids : NodeElements) : NodeDrawing α :=
  let size := Layout.textSize n.label.toList (p.fontSize n.style)
  let box := n.box.getD (labelBox size)
  let groups := n.group.toList
  let textId := ids.text.getD (Board.derivedId "text" n.id)
  let outline := (p.styled ids.container n.shape.elementKind n.style).placeAt box
  let container := { outline with
    roundness := roundnessOf n.shape
    groupIds := groups
    metadata := some (p.nodeMetadata n)
    boundElements := some [⟨textId, .text⟩] }
  let text := p.label textId n.label n.style ids.container
  let label := { text with
    x := box.centerX - size.width / 2
    y := box.centerY - size.height / 2
    groupIds := groups }
  let lifelines := n.lifelineEnd.map fun bottom =>
    p.lifeline (ids.lifeline.getD (Board.derivedId "lifeline" n.id)) n box bottom
  { container := container, label := label, parts := lifelines.toList }

/-! ## Classes -/

/-- The text of some members, a line for each. -/
def memberText (members : List Member) : String :=
  String.ofList (Text.join ['\n'] (members.map (·.shown)))

/-- A text, or a blank for none. -/
def orBlank (text : String) : String := if text = "" then " " else text

/-- A member text, its size and the height of its section. -/
structure Section (α : Type) where
  text : String
  size : Size α
  height : α

/-- The section of some members. -/
def sectionOf (members : List Member) (fontSize : α) : Section α :=
  let text := memberText members
  let size := Layout.textSize (orBlank text).toList fontSize
  { text := orBlank text, size := size, height := Scalar.larger 20 size.height }

/-- The size of member fonts, smaller than that of the title. -/
def memberFont (p : Pen α) (n : Node α) : α := p.fontSize n.style * 0.9

/-- The width of a class: that of its node's box, but at least that of its members. -/
def classWidth (n : Node α) (attributes methods : Section α) : α :=
  let given := (n.box.map (·.width)).getD 200
  Scalar.larger (Scalar.larger given (attributes.size.width + 10 * 2)) (methods.size.width + 10 * 2)

/-- The height of the header of a class. -/
def headerHeight (title : Size α) : α := Scalar.larger 40 (title.height + 10 * 2)

/-- The box of a class. -/
def classBox (n : Node α) (header : α) (attributes methods : Section α) : Box α :=
  let fitted := header + attributes.height + methods.height + 10 * 2
  { x := (n.box.map (·.x)).getD 0
    y := (n.box.map (·.y)).getD 0
    width := classWidth n attributes methods
    height := (n.box.map (·.height)).getD fitted }

/-- A part of a class, which is in the groups of the class. -/
def segment (p : Pen α) (n : Node α) (groups : List String) (id : String) (tag : Tag)
    (kind : ElementKind) : Element α :=
  let plain := p.styled id kind none
  let metadata : Metadata α := .tagged tag
  { plain with
    strokeColor := some (p.strokeColor n.style)
    groupIds := groups
    metadata := some { metadata with ownerId := some n.id } }

/-- A line across a class. -/
def separator (p : Pen α) (n : Node α) (groups : List String) (ordinal : String) (x y width : α) :
    Element α :=
  let id := Board.derivedId (Tag.classSeparator.name ++ "-" ++ ordinal) n.id
  let line := (p.segment n groups id .classSeparator .line).placeAt ⟨x, y, width, 1⟩
  { line with points := some [⟨0, 0⟩, ⟨width, 0⟩], locked := true }

/-- The text of a section of a class. -/
def memberLines (p : Pen α) (n : Node α) (groups : List String) (tag : Tag) (s : Section α)
    (x y : α) : Element α :=
  let plain := p.segment n groups (Board.derivedId tag.name n.id) tag .text
  let text := written s.text (p.memberFont n) (p.fontFamily n.style)
    (plain.placeAt ⟨x, y, s.size.width, s.size.height⟩)
  { text with textAlign := some "left", verticalAlign := some "top" }

/-- The elements of a class. -/
def classDrawing (p : Pen α) (n : Node α) (sections : Sections) (ids : NodeElements) :
    NodeDrawing α :=
  let attributes := sectionOf sections.attributes (p.memberFont n)
  let methods := sectionOf sections.methods (p.memberFont n)
  let titleSize := Layout.textSize n.label.toList (p.fontSize n.style)
  let header := headerHeight titleSize
  let box := classBox n header attributes methods
  let groups := n.group.toList ++ [ids.container]
  let titleId := ids.text.getD (Board.derivedId "text" n.id)
  let outline := (p.styled ids.container .rectangle n.style).placeAt box
  let metadata := p.nodeMetadata n
  let container := { outline with
    groupIds := groups
    metadata := some { metadata with tag := some Tag.classContainer.name }
    boundElements := some [⟨titleId, .text⟩] }
  let text := p.label titleId n.label n.style ids.container
  let title := { text with
    x := box.centerX - titleSize.width / 2
    y := box.y + 10
    verticalAlign := some "top"
    groupIds := groups }
  let firstLine := box.y + header
  let attributesTop := firstLine + 5
  let secondLine := attributesTop + attributes.height + 10
  let methodsTop := secondLine + 5
  { container := container
    label := title
    parts :=
      [p.separator n groups "1" box.x firstLine box.width,
        p.memberLines n groups .classAttributes attributes (box.x + 10) attributesTop,
        p.separator n groups "2" box.x secondLine box.width,
        p.memberLines n groups .classMethods methods (box.x + 10) methodsTop] }

/-! ## All nodes -/

/-- The elements of a node, with members or without. -/
def nodeDrawing (p : Pen α) (n : Node α) (ids : NodeElements) : NodeDrawing α :=
  match n.sections with
  | none => p.plainDrawing n ids
  | some sections => p.classDrawing n sections ids

/-- The elements of a node, its container first. -/
def drawNode (p : Pen α) (n : Node α) (ids : NodeElements) : List (Element α) :=
  (p.nodeDrawing n ids).elements

/-- A class is drawn with six elements. -/
theorem length_classDrawing (p : Pen α) (n : Node α) (sections : Sections) (ids : NodeElements) :
    (p.classDrawing n sections ids).elements.length = 6 := rfl

/-- A node without members is drawn with two elements, and with a third one for a lifeline. -/
theorem length_plainDrawing (p : Pen α) (n : Node α) (ids : NodeElements) :
    (p.plainDrawing n ids).elements.length = 2 + n.lifelineEnd.toList.length := by
  cases h : n.lifelineEnd <;> simp [plainDrawing, NodeDrawing.elements, h]

/-- The first element of a node is its container. -/
theorem head_drawNode (p : Pen α) (n : Node α) (ids : NodeElements) :
    ((p.drawNode n ids).head?.map (·.id)) = some ids.container := by
  unfold drawNode nodeDrawing
  split <;> rfl

end Pen

end DiagramBoard
