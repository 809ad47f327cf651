/-
DiagramBoard.Writer.Class — class and entity diagrams as text.

Every class is declared, with its members between braces if it has any; then come the relations.
Heads that a relation cannot have are left out.
-/
import DiagramBoard.Diagram.Member
import DiagramBoard.Writer.Flowchart

namespace DiagramBoard.Writer

open Text

/-- The line of a direction, unless it is downwards. -/
def directionLines (direction : Direction) : List (List Char) :=
  if direction = .down then []
  else [indent ++ "direction ".toList ++ direction.name.toList]

/-- A label behind a colon. -/
def colonLabel : Option String → List Char
  | some l => " : ".toList ++ Entity.encode l.toList
  | none => []

variable {α : Type}

/-- A declaration with its members between braces, or alone where there are none. -/
def blockLines (start : List Char) (n : Node α) : List (List Char) :=
  match n.sections.map (·.members) with
  | none | some [] => [start]
  | some ms =>
    (start ++ " \x7b".toList) :: ms.map (fun m => indent ++ indent ++ m.shown)
      ++ [indent ++ "\x7d".toList]

namespace Class

/-- The lines of a class. -/
def classLines (n : Node α) : List (List Char) :=
  let label :=
    if n.label = n.id then []
    else "[\"".toList ++ Entity.encode n.label.toList ++ "\"]".toList
  blockLines (indent ++ "class ".toList ++ n.id.toList ++ label) n

/-- The head at the start of a relation. -/
def startToken (dashed : Bool) : ArrowHead → String
  | .triangle | .triangleOutline => "<|"
  | .diamond => if dashed then "" else "*"
  | .diamondOutline => if dashed then "" else "o"
  | .arrow => "<"
  | _ => ""

/-- The head at the end of a relation. -/
def endToken (dashed : Bool) : ArrowHead → String
  | .triangle | .triangleOutline => "|>"
  | .diamond => if dashed then "" else "*"
  | .diamondOutline => if dashed then "" else "o"
  | .arrow => ">"
  | _ => ""

/-- The token of a relation.  Of two heads the one at the start is kept, but for the arrow in both
directions. -/
def relationToken (e : Edge α) : String :=
  let line := if e.isDashed then ".." else "--"
  let startHead := startToken e.isDashed e.startHead
  let endHead := endToken e.isDashed e.endHead
  if startHead = "<" && endHead = ">" && !e.isDashed then "<-->"
  else if startHead = "" then line ++ endHead
  else startHead ++ line

/-- The line of a relation. -/
def relationLine (e : Edge α) : List Char :=
  indent ++ e.source.toList ++ [' '] ++ (relationToken e).toList ++ [' '] ++ e.target.toList
    ++ colonLabel e.label

/-- The lines of a class diagram below its header. -/
def body (d : Diagram α) : List (List Char) :=
  directionLines d.direction ++ d.nodes.flatMap classLines ++ d.edges.map relationLine

end Class

namespace Entity

/-- The cardinality at the start of a relation; exactly one unless the head says otherwise. -/
def startToken : ArrowHead → String
  | .dot => "|o"
  | .triangle => "\x7d|"
  | .triangleOutline => "\x7do"
  | _ => "||"

/-- The cardinality at the end of a relation. -/
def endToken : ArrowHead → String
  | .dot => "o|"
  | .triangle => "|\x7b"
  | .triangleOutline => "o\x7b"
  | _ => "||"

/-- The line of a relation, whose label may be empty but is never left out. -/
def relationLine (e : Edge α) : List Char :=
  let line := if e.isDashed then ".." else "--"
  indent ++ e.source.toList ++ [' '] ++ (startToken e.startHead).toList ++ line.toList
    ++ (endToken e.endHead).toList ++ [' '] ++ e.target.toList ++ " : \"".toList
    ++ Text.Entity.encode (e.label.getD "").toList ++ "\"".toList

/-- The lines of an entity diagram below its header. -/
def body (d : Diagram α) : List (List Char) :=
  d.nodes.flatMap (fun n => blockLines (indent ++ n.id.toList) n) ++ d.edges.map relationLine

end Entity

end DiagramBoard.Writer
