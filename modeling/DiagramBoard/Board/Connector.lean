/-
DiagramBoard.Board.Connector — arrows read as edges.

An end of an arrow is the node that the arrow's metadata name, on the board or not, or else the node
of the container that the end is bound to.  In a sequence diagram a loose end belongs to the nearest
participant, if that is near enough.  An arrow with an end that nothing tells is no edge.
-/
import DiagramBoard.Board.Container

namespace DiagramBoard

/-- An arrow whose ends are told. -/
structure Connector (α : Type) where
  source : String
  target : String
  element : Element α
  label : Option (Element α)

namespace Board

variable {α : Type} [Scalar α]

/-- How far a loose end may be from the middle of a participant that it belongs to. -/
def snapDistance : α := 40

/-- The nearer of two nodes, the first one if they are equally near. -/
def nearer (best : Option (String × α)) (next : String × α) : Option (String × α) :=
  match best with
  | none => some next
  | some b => if next.2 < b.2 then some next else some b

/-- The id of the node of the nearest participant, if it is near enough. -/
def nearestParticipant? (containers : List (Container α)) (x : α) : Option String :=
  let distances := containers.map fun c => (c.nodeId, Scalar.abs (x - c.element.box.centerX))
  ((distances.filter fun d => d.2 < snapDistance).foldl nearer none).map (·.1)

/-- The node at an end of an arrow: the one that its metadata name, or else that of the container it
is bound to. -/
def fixedEnd? (containers : List (Container α)) (named : Option String)
    (binding : Option (Binding α)) : Option String :=
  named.or (binding.bind fun b => nodeOfElement? containers b.elementId)

/-- The node at an end of an arrow, which may be loose in a sequence diagram. -/
def end? (kind : DiagramKind) (containers : List (Container α)) (named : Option String)
    (binding : Option (Binding α)) (x : α) : Option String :=
  match fixedEnd? containers named binding with
  | some id => some id
  | none => if kind = .sequence then nearestParticipant? containers x else none

/-- The arrow that an element is, if both its ends can be told. -/
def connector? (kind : DiagramKind) (live : List (Element α)) (containers : List (Container α))
    (e : Element α) : Option (Connector α) := do
  let (first, last) := e.endpoints
  let source ← end? kind containers (e.metadata.bind (·.source)) e.startBinding first.x
  let target ← end? kind containers (e.metadata.bind (·.target)) e.endBinding last.x
  return { source := source, target := target, element := e, label := labelOf? live e.id }

/-- The arrows among the live elements whose ends can be told. -/
def connectors (kind : DiagramKind) (live : List (Element α)) (containers : List (Container α)) :
    List (Connector α) :=
  (live.filter (·.kind = .arrow)).filterMap (connector? kind live containers)

end Board

namespace Connector

variable {α : Type}

/-- The id of the edge that an arrow shows. -/
def edgeId (c : Connector α) : String :=
  ((c.element.metadata.bind fun m => m.edgeId.or m.id)).getD (Edge.pairId c.source c.target)

/-- The elements of the edge. -/
def elements (c : Connector α) : EdgeElements :=
  { arrow := c.element.id, text := c.label.map (·.id) }

variable [Scalar α]

/-- The edge that an arrow shows. -/
def edge (c : Connector α) : Edge α :=
  { id := c.edgeId
    source := c.source
    target := c.target
    label := Board.labelText? c.label
    startHead := .ofCanvasName c.element.startArrowhead
    endHead := .ofCanvasName c.element.endArrowhead
    style := c.element.shownHints.nonEmpty? }

end Connector

end DiagramBoard
