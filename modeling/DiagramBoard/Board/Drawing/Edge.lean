/-
DiagramBoard.Board.Drawing.Edge — the elements that show an edge.

An edge with a way of its own, a message of a sequence, is an arrow along that way.  Any other edge
is an arrow on the line between the centres of two containers, from border to border, and is bound
to both.
-/
import DiagramBoard.Board.Drawing.Pen
import DiagramBoard.Board.Identity

namespace DiagramBoard

/-- The elements of an edge: those that show it already, and a new arrow if there is none. -/
def Edge.elementIds (id : String) (known : Option EdgeElements) : EdgeElements :=
  { arrow := (known.map (·.arrow)).getD (Board.derivedId "arrow" id)
    text := known.bind (·.text) }

/-- The elements of an edge. -/
structure EdgeDrawing (α : Type) where
  arrow : Element α
  label : Option (Element α) := none

/-- All elements of an edge, its arrow first. -/
def EdgeDrawing.elements {α : Type} (d : EdgeDrawing α) : List (Element α) :=
  d.arrow :: d.label.toList

namespace Box

variable {α : Type} [Scalar α]

/-- Where the ray from the centre of a box towards a point leaves the box; the centre, if the point
is the centre. -/
def borderPoint (b : Box α) (target : Point α) : Point α :=
  let dx := target.x - b.centerX
  let dy := target.y - b.centerY
  let halfWidth := b.width / 2
  let halfHeight := b.height / 2
  if dx == 0 && dy == 0 then b.center
  else if !(dx == 0) && decide (Scalar.abs dy * halfWidth ≤ Scalar.abs dx * halfHeight) then
    let side := Scalar.sign dx
    ⟨b.centerX + side * halfWidth, b.centerY + side * halfWidth * dy / dx⟩
  else
    let side := Scalar.sign dy
    ⟨b.centerX + side * halfHeight * dx / dy, b.centerY + side * halfHeight⟩

end Box

namespace Pen

variable {α : Type} [Scalar α]

/-- The way of an arrow. -/
structure Way (α : Type) where
  start : Point α
  finish : Point α
  /-- The points on the way, from the start on. -/
  points : List (Point α)
  /-- The containers that the arrow is bound to. -/
  bindings : Option (Binding α × Binding α) := none
  /-- How far the label is above the line. -/
  lift : α

/-- The way along points of the board. -/
def routed (first last : Point α) (points : List (Point α)) : Way α :=
  { start := first
    finish := last
    points := points.map fun p => ⟨p.x - first.x, p.y - first.y⟩
    lift := 20 }

/-- The straight way between two containers. -/
def straight (source target : Element α) : Way α :=
  let start := source.box.borderPoint target.box.center
  let finish := target.box.borderPoint source.box.center
  { start := start
    finish := finish
    points := [⟨0, 0⟩, ⟨finish.x - start.x, finish.y - start.y⟩]
    bindings := some (.onto source.id, .onto target.id)
    lift := 0 }

/-- The way of an edge: its own if it has one of two points at least. -/
def wayOf (e : Edge α) (source target : Element α) : Way α :=
  match e.points with
  | some (first :: second :: rest) =>
    routed first (rest.getLastD second) (first :: second :: rest)
  | _ => straight source target

/-- The extent of a way in one direction; that of a way without bindings is never zero. -/
def extent (isBound : Bool) (start finish : α) : α :=
  let distance := Scalar.abs (finish - start)
  if !isBound && distance == 0 then 1 else distance

/-- The arrow of an edge along a way. -/
def arrow (p : Pen α) (e : Edge α) (way : Way α) (id : String) : Element α :=
  let isBound := way.bindings.isSome
  let plain := p.styled id .arrow e.style
  { plain with
    x := way.start.x
    y := way.start.y
    width := extent isBound way.start.x way.finish.x
    height := extent isBound way.start.y way.finish.y
    points := some way.points
    startBinding := way.bindings.map (·.1)
    endBinding := way.bindings.map (·.2)
    startArrowhead := e.startHead.canvasName
    endArrowhead := e.endHead.canvasName
    metadata := some
      { edgeId := some e.id
        source := some e.source
        target := some e.target
        tag := if isBound then none else some Tag.sequenceMessage.name }
    extra := plain.extra.insert "lastCommittedPoint" .null }

/-- The label of an edge, in the middle of its way. -/
def arrowLabel (p : Pen α) (e : Edge α) (label : String) (way : Way α) (textId arrowId : String) :
    Element α :=
  let text := p.label textId label e.style arrowId
  { text with
    x := (way.start.x + way.finish.x) / 2 - text.width / 2
    y := (way.start.y + way.finish.y) / 2 - text.height / 2 - way.lift }

/-- The arrow and the label of an edge between two containers. -/
def edgeDrawing (p : Pen α) (e : Edge α) (source target : Element α) (ids : EdgeElements) :
    EdgeDrawing α :=
  let way := wayOf e source target
  let arrow := p.arrow e way ids.arrow
  match e.label with
  | none => { arrow := arrow }
  | some label =>
    let textId := ids.text.getD (Board.derivedId "text" e.id)
    { arrow := { arrow with boundElements := some [⟨textId, .text⟩] }
      label := some (p.arrowLabel e label way textId ids.arrow) }

/-- The elements of an edge between two containers. -/
def drawEdge (p : Pen α) (e : Edge α) (source target : Element α) (ids : EdgeElements) :
    List (Element α) :=
  (p.edgeDrawing e source target ids).elements

end Pen

end DiagramBoard
