/-
DiagramBoard.Board.Drawing — diagrams drawn as elements.

The elements of all nodes come first and those of the edges after them.  A container lists the
arrows that are bound to it.  Parts that a board shows already keep the ids of their elements.

Main statement: attaching arrows changes no ids (`map_id_attachArrows`).
-/
import DiagramBoard.Board.Drawing.Edge
import DiagramBoard.Board.Drawing.Node

namespace DiagramBoard

namespace Element

variable {α : Type}

/-- Whether an end of an arrow is bound to an element. -/
def bindsTo (arrow : Element α) (id : String) : Bool :=
  arrow.startBinding.any (·.elementId = id) || arrow.endBinding.any (·.elementId = id)

/-- What belongs to an element, together with an arrow if that is bound to it. -/
def bindArrow (id : String) (bound : List BoundElement) (arrow : Element α) : List BoundElement :=
  if arrow.bindsTo id && !bound.any (·.id = arrow.id) then bound ++ [⟨arrow.id, .arrow⟩] else bound

/-- A container with the arrows that are bound to it in place of those that were. -/
def withArrows (arrows : List (Element α)) (e : Element α) : Element α :=
  if e.kind.isContainer then
    let others := (e.boundElements.getD []).filter (·.kind ≠ .arrow)
    let bound := arrows.foldl (bindArrow e.id) others
    { e with boundElements := if bound.isEmpty then none else some bound }
  else e

@[simp] theorem withArrows_id (arrows : List (Element α)) (e : Element α) :
    (e.withArrows arrows).id = e.id := by
  unfold withArrows
  split <;> rfl

end Element

namespace Board

variable {α : Type}

/-- The container among some elements that shows a node. -/
def containerOf? (elements : List (Element α)) (nodeId : String) : Option (Element α) :=
  elements.find? fun e => e.kind.isContainer && e.metadata.any (·.nodeId = some nodeId)

/-- Elements with the arrows that are bound to them. -/
def attachArrows (arrows nodes : List (Element α)) : List (Element α) :=
  nodes.map (Element.withArrows arrows)

/-- Attaching arrows changes no ids. -/
theorem map_id_attachArrows (arrows nodes : List (Element α)) :
    (attachArrows arrows nodes).map (·.id) = nodes.map (·.id) := by
  simp [attachArrows, Function.comp_def]

end Board

namespace Pen

variable {α : Type} [Scalar α]

/-- The elements of all nodes. -/
def drawNodes (p : Pen α) (known : Identity) (nodes : List (Node α)) : List (Element α) :=
  nodes.flatMap fun n => p.drawNode n (Node.elementIds n.id (known.node? n.id))

/-- The elements of all edges between the containers of drawn nodes. -/
def drawEdges (p : Pen α) (known : Identity) (drawn : List (Element α)) (edges : List (Edge α)) :
    List (Element α) :=
  edges.flatMap fun e =>
    match Board.containerOf? drawn e.source, Board.containerOf? drawn e.target with
    | some source, some target =>
      p.drawEdge e source target (Edge.elementIds e.id (known.edge? e.id))
    | _, _ => []

/-- The elements of the nodes and edges of a diagram. -/
def draw (p : Pen α) (known : Identity) (d : Diagram α) : List (Element α) :=
  let nodes := p.drawNodes known d.nodes
  let arrows := p.drawEdges known nodes d.edges
  Board.attachArrows arrows nodes ++ arrows

end Pen

/-- The elements of a diagram in the style of a board; what is known already keeps its ids. -/
def Diagram.draw {α : Type} [Scalar α] (board : BoardStyle α) (known : Identity) (d : Diagram α) :
    List (Element α) :=
  (Pen.forDiagram board d).draw known d

end DiagramBoard
