/-
DiagramBoard.Board.Reading — boards read as diagrams.

Containers are nodes, arrows are edges, and elements that are grouped together are a group of nodes.
What kind of diagram a board shows is said by the metadata of its containers and by what is drawn: a
class has segments, a sequence has lifelines and messages.  Beside the diagram, reading finds out
which elements show which part of it.

Main statements: different nodes of the diagram have different ids (`nodup_nodeIds_read`), and every
edge joins nodes (`hasNode_of_mem_edges_read`).
-/
import DiagramBoard.Board.Connector
import DiagramBoard.Diagram.Prune

namespace DiagramBoard

namespace Board

/-- The diagram that a board shows and the elements of its parts. -/
structure Reading (α : Type) where
  diagram : Diagram α
  identity : Identity

variable {α : Type}

/-! ## The kind of diagram -/

/-- The kind of diagram that the metadata say, a flowchart if none. -/
def namedKind (live : List (Element α)) : DiagramKind :=
  ((heading? live).bind fun m => m.diagram.bind DiagramKind.ofName?).getD .flowchart

/-- The direction that the metadata say, downwards if none. -/
def namedDirection (live : List (Element α)) : Direction :=
  ((heading? live).bind fun m => m.direction.bind Direction.ofWord?).getD .down

/-- The participant that an element is the lifeline of, if that is a node. -/
def lifelineOf? (containers : List (Container α)) (e : Element α) : Option String :=
  if e.tag? = some .lifeline then
    (e.metadata.bind (·.participantId)).filter fun p => containers.any (·.nodeId = p)
  else none

/-- Whether an element shows that the diagram is a sequence. -/
def showsSequence (containers : List (Container α)) (e : Element α) : Bool :=
  e.tag? = some .sequenceMessage || (lifelineOf? containers e).isSome

/-- The kind of diagram that a board shows. -/
def shownKind (live : List (Element α)) (containers : List (Container α)) : DiagramKind :=
  let kind := namedKind live
  if live.any (showsSequence containers) then .sequence
  else if !kind.isClassLike && containers.any (·.sections.isSome) then .classes
  else kind

/-! ## Groups -/

/-- The groups that nodes are in, each with a node in it, in the order of the board. -/
def memberships (live : List (Element α)) (containers : List (Container α)) :
    List (String × String) :=
  live.flatMap fun e => match nodeOfElement? containers e.id with
    | none => []
    | some node => e.groupIds.map fun g => (g, node)

/-- The groups of a board that have more than one member. -/
def groupsOf (memberships : List (String × String)) : List Group :=
  let groups := (memberships.map (·.1)).eraseDups.map fun g =>
    ({ id := g, label := g, children := (memberships.filter (·.1 = g)).map (·.2) } : Group)
  groups.filter fun g => 2 ≤ g.children.length

/-- The first of some groups that a node is in. -/
def groupOf? (groups : List Group) (node : String) : Option String :=
  (groups.find? (·.children.contains node)).map (·.id)

/-! ## The diagram -/

/-- The table with a lifeline entered, if the element is one. -/
def enterLifeline (containers : List (Container α)) (t : Identity) (e : Element α) : Identity :=
  match lifelineOf? containers e with
  | none => t
  | some p =>
    match t.node? p with
    | none => t
    | some elements => t.insertNode p { elements with lifeline := some e.id }

variable [Scalar α]

/-- The diagram that live elements show, before anything is dropped. -/
def shownDiagram (live : List (Element α)) (containers : List (Container α)) : Diagram α :=
  let kind := shownKind live containers
  let groups := groupsOf (memberships live containers)
  { kind := kind
    direction := namedDirection live
    nodes := containers.map fun c => { c.node with group := groupOf? groups c.nodeId }
    edges := (connectors kind live containers).map (·.edge)
    groups := groups }

/-- The elements that show the parts of the diagram. -/
def shownIdentity (live : List (Element α)) (containers : List (Container α)) : Identity :=
  let nodes := containers.foldl (fun t c => t.insertNode c.nodeId c.elements) ({} : Identity)
  let lifelines := live.foldl (enterLifeline containers) nodes
  (connectors (shownKind live containers) live containers).foldl
    (fun t c => t.insertEdge c.edgeId c.elements) lifelines

/-- Reads a board. -/
def read (elements : List (Element α)) : Reading α :=
  let alive := live elements
  let containers := containers alive
  { diagram := (shownDiagram alive containers).prune
    identity := shownIdentity alive containers }

/-- The diagram that a board shows. -/
def diagram (elements : List (Element α)) : Diagram α := (read elements).diagram

/-- Different nodes that a board shows have different ids. -/
theorem nodup_nodeIds_read (elements : List (Element α)) :
    (read elements).diagram.nodeIds.Nodup := by
  rw [read, Diagram.nodeIds_prune, Diagram.nodeIds, shownDiagram, List.map_map]
  exact nodup_containers (live elements)

/-- Every edge that a board shows joins nodes. -/
theorem hasNode_of_mem_edges_read {elements : List (Element α)} {e : Edge α}
    (h : e ∈ (read elements).diagram.edges) :
    (read elements).diagram.hasNode e.source = true
      ∧ (read elements).diagram.hasNode e.target = true :=
  Diagram.hasNode_of_mem_edges_prune h

end Board

end DiagramBoard
