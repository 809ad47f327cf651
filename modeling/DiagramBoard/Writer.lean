/-
DiagramBoard.Writer — diagrams to diagram text.

What is written describes the same nodes, edges and labels again; it does not keep the wording of a
text that the diagram was read from.
-/
import DiagramBoard.Grammar
import DiagramBoard.Writer.Sequence
import DiagramBoard.Writer.State

namespace DiagramBoard

namespace Diagram

variable {α : Type} [Scalar α]

/-- The header line of a diagram. -/
def header (d : Diagram α) : List Char :=
  match d.kind with
  | .sequence => "sequenceDiagram".toList
  | .classes => "classDiagram".toList
  | .er => "erDiagram".toList
  | .state => "stateDiagram-v2".toList
  | .c4 => "C4Context".toList
  | .flowchart | .gantt | .mindmap => "graph ".toList ++ d.direction.name.toList

/-- The lines below the header. -/
def bodyLines (compact : Bool) (d : Diagram α) : List (List Char) :=
  match d.kind with
  | .sequence => Writer.Sequence.body d
  | .classes => Writer.Class.body d
  | .er => Writer.Entity.body d
  | .state => Writer.State.body d
  | .c4 | .flowchart | .gantt | .mindmap => Writer.Flowchart.body compact d

/-- The text of a diagram, in full or in compact form. -/
def render (compact : Bool) (d : Diagram α) : String :=
  String.ofList ((d.header :: d.bodyLines compact).flatMap fun l => l ++ ['\n'])

end Diagram

/-- Reads a diagram text and writes it in its full or compact form. -/
def format (compact : Bool) (text : String) : Except SyntaxError String :=
  (Diagram.parse text : Except SyntaxError (Diagram Float)).map (Diagram.render compact)

end DiagramBoard
