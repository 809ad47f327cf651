/-
DiagramBoard.Writer.Flowchart — flowcharts as text.

The groups come first, each with its nodes, then the nodes outside them, then the edges.  In full
form every node is declared and every label is in quotes.  In compact form a node that is its own
label in a rectangle is declared only if nothing else mentions it, and a label is in quotes only if
a reader could take one of its characters for something else.
-/
import DiagramBoard.Diagram.Basic
import DiagramBoard.Grammar.FlowchartDraft
import DiagramBoard.Text.Entity

namespace DiagramBoard.Writer

open Text

/-- The start of a line inside a diagram. -/
def indent : List Char := "  ".toList

namespace Flowchart

/-- The characters that keep a label from standing without quotes. -/
def markedChars : List Char := "\"[]()\x7b\x7d|<>#;/&".toList

/-- Whether a label can stand without quotes. -/
def isPlainLabel (label : List Char) : Bool :=
  label ≠ [] && trim label = label && !label.any fun c => markedChars.contains c

/-- A label, in quotes unless it need not be. -/
def labelText (compact : Bool) (label : String) : List Char :=
  if compact && isPlainLabel label.toList then label.toList
  else '"' :: Entity.encode label.toList ++ ['"']

/-- The brackets of a shape. -/
def bracketsOf : Shape → String × String
  | .rectangle => ("[", "]")
  | .rounded => ("(", ")")
  | .diamond => ("\x7b", "\x7d")
  | .circle => ("((", "))")
  | .stadium => ("([", "])")
  | .hexagon => ("\x7b\x7b", "\x7d\x7d")
  | .parallelogram => ("[/", "/]")

variable {α : Type}

/-- Whether a node is its own label in a rectangle. -/
def isPlainNode (n : Node α) : Bool := n.label = n.id && n.shape = .rectangle

/-- A node with its shape and label. -/
def declaration (compact : Bool) (n : Node α) : List Char :=
  let (opening, closing) := bracketsOf n.shape
  n.id.toList ++ opening.toList ++ labelText compact n.label ++ closing.toList

/-- The first line of a group. -/
def groupHeader (g : Group) : List Char :=
  let start := indent ++ "subgraph ".toList ++ g.id.toList
  if g.label = g.id then start
  else start ++ " [\"".toList ++ Entity.encode g.label.toList ++ "\"]".toList

/-- A node inside a group. -/
def groupedLine (compact : Bool) (n : Node α) : List Char :=
  indent ++ indent ++ if compact && isPlainNode n then n.id.toList else declaration compact n

/-- The lines of a group. -/
def groupLines (compact : Bool) (d : Diagram α) (g : Group) : List (List Char) :=
  groupHeader g :: (g.children.filterMap d.node?).map (groupedLine compact)
    ++ [indent ++ "end".toList]

/-- Whether some edge mentions a node. -/
def isLinked (d : Diagram α) (id : String) : Bool :=
  d.edges.any fun e => e.source = id || e.target = id

/-- Whether some group lists a node. -/
def isGrouped (d : Diagram α) (id : String) : Bool :=
  d.groups.any fun g => g.children.contains id

/-- The line of a node outside the groups, if it needs one. -/
def nodeLine? (compact : Bool) (d : Diagram α) (n : Node α) : Option (List Char) :=
  if isGrouped d n.id then none
  else if !compact || !isPlainNode n then some (indent ++ declaration compact n)
  else if isLinked d n.id then none
  else some (indent ++ n.id.toList)

variable [Scalar α]

/-- The stroke of an edge: gaps first, then thickness. -/
def strokeOf (e : Edge α) : Grammar.Flowchart.Stroke :=
  if e.isDashed then .dashed
  else match e.style.bind (·.strokeWidth) with
    | some w => if Grammar.Flowchart.Draft.thickWidth ≤ w then .thick else .normal
    | none => .normal

/-- The token of a link.  A head at the start counts only if there is one at the end. -/
def linkToken (e : Edge α) : String :=
  let both := e.startHead ≠ .none && e.endHead ≠ .none
  match strokeOf e with
  | .dashed => if both then "<-.->" else if e.endHead = .none then "-.-" else "-.->"
  | .thick => if both then "<==>" else if e.endHead = .none then "===" else "==>"
  | .normal => if both then "<-->" else if e.endHead = .none then "---" else "-->"

/-- The line of an edge. -/
def edgeLine (compact : Bool) (e : Edge α) : List Char :=
  let label := match e.label with
    | some l => '|' :: labelText compact l ++ ['|']
    | none => []
  indent ++ e.source.toList ++ [' '] ++ (linkToken e).toList ++ label ++ [' '] ++ e.target.toList

/-- The lines of a flowchart below its header. -/
def body (compact : Bool) (d : Diagram α) : List (List Char) :=
  d.groups.flatMap (groupLines compact d) ++ d.nodes.filterMap (nodeLine? compact d)
    ++ d.edges.map (edgeLine compact)

end Flowchart

end DiagramBoard.Writer
