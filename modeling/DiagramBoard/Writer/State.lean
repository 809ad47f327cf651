/-
DiagramBoard.Writer.State — state diagrams as text: the states, then the transitions.

The node of the start and end is not declared and is written `[*]`.
-/
import DiagramBoard.Grammar.State
import DiagramBoard.Writer.Class

namespace DiagramBoard.Writer.State

open Grammar.State (startEndId startEndMark)
open Text

variable {α : Type}

/-- A state as transitions mention it. -/
def reference (id : String) : List Char :=
  if id = startEndId then startEndMark.toList else id.toList

/-- The line of a state. -/
def stateLine (n : Node α) : List Char :=
  let name :=
    if n.label = n.id then n.id.toList
    else '"' :: Text.Entity.encode n.label.toList ++ "\" as ".toList ++ n.id.toList
  let stereotype := if n.shape = .diamond then " <<choice>>".toList else []
  indent ++ "state ".toList ++ name ++ stereotype

/-- The line of a transition. -/
def transitionLine (e : Edge α) : List Char :=
  indent ++ reference e.source ++ " --> ".toList ++ reference e.target ++ colonLabel e.label

/-- The lines of a state diagram below its header. -/
def body (d : Diagram α) : List (List Char) :=
  directionLines d.direction ++ (d.nodes.filter (·.id ≠ startEndId)).map stateLine
    ++ d.edges.map transitionLine

end DiagramBoard.Writer.State
