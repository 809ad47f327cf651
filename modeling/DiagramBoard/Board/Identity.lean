/-
DiagramBoard.Board.Identity — which elements of a board show which part of a diagram.

A node is shown by a container and, where it has them, a label, a lifeline and the segments of a
class; an edge by an arrow and perhaps a label.  The table leads from a part to its elements and
from an element to its part, its owner.

Main statements: a part owns its elements as soon as they are entered (`owner?_insertNode`,
`owner?_insertEdge`), and other elements keep their owners.
-/
import DiagramBoard.Table

namespace DiagramBoard

/-- The ids of the elements that show a node. -/
structure NodeElements where
  container : String
  text : Option String := none
  lifeline : Option String := none
  /-- The members of a class and the lines between them. -/
  segments : List String := []
deriving DecidableEq, Repr, Inhabited

/-- The ids of the elements that show an edge. -/
structure EdgeElements where
  arrow : String
  text : Option String := none
deriving DecidableEq, Repr, Inhabited

namespace NodeElements

/-- All ids of a node's elements. -/
def ids (n : NodeElements) : List String :=
  n.container :: (n.text.toList ++ n.lifeline.toList ++ n.segments)

end NodeElements

namespace EdgeElements

/-- All ids of an edge's elements. -/
def ids (e : EdgeElements) : List String := e.arrow :: e.text.toList

end EdgeElements

/-- Which elements show which part. -/
structure Identity where
  nodes : Table NodeElements := {}
  edges : Table EdgeElements := {}
  owners : Table String := {}
deriving Repr, Inhabited

namespace Identity

/-- The elements of a node. -/
def node? (t : Identity) (id : String) : Option NodeElements := t.nodes.get? id

/-- The elements of an edge. -/
def edge? (t : Identity) (id : String) : Option EdgeElements := t.edges.get? id

/-- The node or edge that an element shows. -/
def owner? (t : Identity) (element : String) : Option String := t.owners.get? element

/-- The number of nodes. -/
def nodeCount (t : Identity) : Nat := t.nodes.size

/-- The table with the elements of a node entered. -/
def insertNode (t : Identity) (id : String) (elements : NodeElements) : Identity :=
  { t with nodes := t.nodes.put id elements, owners := t.owners.putAll elements.ids id }

/-- The table with the elements of an edge entered. -/
def insertEdge (t : Identity) (id : String) (elements : EdgeElements) : Identity :=
  { t with edges := t.edges.put id elements, owners := t.owners.putAll elements.ids id }

@[simp] theorem node?_insertNode_self (t : Identity) (id : String) (elements : NodeElements) :
    (t.insertNode id elements).node? id = some elements := by
  simp [insertNode, node?]

@[simp] theorem edge?_insertEdge_self (t : Identity) (id : String) (elements : EdgeElements) :
    (t.insertEdge id elements).edge? id = some elements := by
  simp [insertEdge, edge?]

/-- A node owns its elements once they are entered; the others keep their owners. -/
theorem owner?_insertNode (t : Identity) (id element : String) (elements : NodeElements) :
    (t.insertNode id elements).owner? element =
      if element ∈ elements.ids then some id else t.owner? element :=
  Table.get?_putAll t.owners elements.ids id element

/-- An edge owns its elements once they are entered; the others keep their owners. -/
theorem owner?_insertEdge (t : Identity) (id element : String) (elements : EdgeElements) :
    (t.insertEdge id elements).owner? element =
      if element ∈ elements.ids then some id else t.owner? element :=
  Table.get?_putAll t.owners elements.ids id element

end Identity

end DiagramBoard
