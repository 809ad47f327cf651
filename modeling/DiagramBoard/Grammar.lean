/-
DiagramBoard.Grammar — diagram text to diagrams.

The first word of the first content line selects the grammar of the others.  Only a flowchart can
fail: the other grammars pass over what they cannot read.
-/
import DiagramBoard.Grammar.Class
import DiagramBoard.Grammar.FlowchartDraft
import DiagramBoard.Grammar.Sequence
import DiagramBoard.Grammar.State

namespace DiagramBoard

open Text

namespace Grammar

/-- The grammars. -/
inductive Header
  | sequence | classes | state | er | gantt | mindmap | c4 | flowchart
deriving DecidableEq, Repr

/-- The grammars that are selected by how the first word starts, in lower case. -/
def headerStarts : List (String × Header) :=
  [("sequencediagram", .sequence), ("classdiagram", .classes), ("statediagram", .state),
    ("erdiagram", .er), ("gantt", .gantt), ("mindmap", .mindmap), ("c4", .c4)]

/-- The grammar that a first word selects. -/
def Header.ofWord? (word : List Char) : Option Header :=
  let word := lowerAscii word
  (headerStarts.findSome? fun h => if startsWith h.1 word then some h.2 else none).or
    (if word = "graph".toList || word = "flowchart".toList then some .flowchart else none)

/-- The direction in the header of a flowchart, downwards if there is none. -/
def headerDirection (header : Line) : Except SyntaxError Direction :=
  match firstWord (afterFirstWord header.text) with
  | [] => .ok .down
  | word =>
    let name := (word.reverse.dropWhile (· == ';')).reverse
    match Direction.ofWord? (String.ofList name) with
    | some direction => .ok direction
    | none => .error ⟨some header.number, .unknownDirection word⟩

variable {α : Type} [Scalar α]

/-- The diagram below a header. -/
def parseBody (header : Line) (body : List Line) : Except SyntaxError (Diagram α) :=
  let word := firstWord header.text
  match Header.ofWord? word with
  | some .sequence => .ok (Sequence.parse body)
  | some .classes => .ok (Class.parse .classes body)
  | some .state => .ok (State.parse body)
  | some .er => .ok (Class.parse .er body)
  | some .gantt => .ok { kind := .gantt, direction := .right }
  | some .mindmap => .ok { kind := .mindmap, direction := .right }
  | some .c4 => (Flowchart.parse true body).map fun d => { d with kind := .c4 }
  | some .flowchart =>
    (headerDirection header).bind fun direction =>
      (Flowchart.parse false body).map fun d => { d with direction := direction }
  | none => .error ⟨some header.number, .unknownKind word⟩

end Grammar

/-- The diagram that a text describes.  A text without content is an empty flowchart. -/
def Diagram.parse {α : Type} [Scalar α] (text : String) : Except SyntaxError (Diagram α) :=
  match Grammar.contentLines text.toList with
  | [] => .ok {}
  | header :: body => Grammar.parseBody header body

end DiagramBoard
