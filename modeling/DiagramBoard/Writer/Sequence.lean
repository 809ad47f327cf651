/-
DiagramBoard.Writer.Sequence — sequence diagrams as text: the participants, then the messages.
-/
import DiagramBoard.Writer.Flowchart

namespace DiagramBoard.Writer.Sequence

open Text

variable {α : Type}

/-- The line of a participant. -/
def participantLine (n : Node α) : List Char :=
  let start := indent ++ "participant ".toList ++ n.id.toList
  if n.label = n.id then start
  else start ++ " as \"".toList ++ Entity.encode n.label.toList ++ "\"".toList

/-- The token of a head; heads that messages do not have are plain arrows. -/
def headToken : ArrowHead → String
  | .none => ">"
  | .bar => "x"
  | .triangleOutline => ")"
  | _ => ">>"

/-- The line of a message. -/
def messageLine (e : Edge α) : List Char :=
  let line := if e.isDashed then "--" else "-"
  let text := match e.label with
    | some l => ": ".toList ++ Entity.encode l.toList
    | none => []
  indent ++ e.source.toList ++ line.toList ++ (headToken e.endHead).toList ++ e.target.toList
    ++ text

/-- The lines of a sequence diagram below its header. -/
def body (d : Diagram α) : List (List Char) :=
  d.nodes.map participantLine ++ d.edges.map messageLine

end DiagramBoard.Writer.Sequence
