/-
DiagramBoard.Grammar.Sequence — participants and the messages between them.

A line declares a participant (`participant id as Label`) or sends a message (`a->>b: text`).  Lines
that only shape the picture, and lines that are neither, say nothing.
-/
import DiagramBoard.Diagram.Basic
import DiagramBoard.Grammar.Line

namespace DiagramBoard.Grammar.Sequence

open Text

/-- What a line of a sequence diagram says. -/
inductive Item
  | participant (id : List Char) (label : Option String)
  | message (source target : List Char) (dashed : Bool) (head : ArrowHead) (text : Option String)
deriving DecidableEq, Repr

/-- The words that start a line without participants and messages. -/
def ignoredWords : List String :=
  ["Note", "note", "activate", "deactivate", "autonumber", "loop", "alt", "else", "opt", "par",
    "and", "critical", "break", "rect", "end", "title", "box"]

/-- Whether a line starts with one of them. -/
def isIgnored (text : List Char) : Bool :=
  ignoredWords.any fun w => (afterKeyword? w text).isSome

/-- The label of a participant, behind `as`. -/
def alias? (s : List Char) : Option (List Char × List Char) :=
  (skipSomeSpaces? s).bind fun r =>
    (after? "as" r).bind fun r => (skipSomeSpaces? r).map fun r => (r, [])

/-- A declaration. -/
def participant? (s : List Char) : Option Item :=
  ((after? "participant" s).or (after? "actor" s)).bind fun r =>
    (skipSomeSpaces? r).bind fun r =>
      (word? r).bind fun p =>
        let q := optionally alias? p.2
        if skipSpaces q.2 = [] then some (.participant p.1 (q.1.bind quotableLabel)) else none

/-- The heads of messages. -/
def headTokens : List (String × ArrowHead) :=
  [(">>", .arrow), (">", .none), ("x", .bar), (")", .triangleOutline)]

/-- The lines of messages, and whether they have gaps. -/
def lineTokens : List (String × Bool) := [("--", true), ("-", false)]

/-- The marks that start and end an activation with a message. -/
def activationTokens : List (String × Unit) := [("+", ()), ("-", ())]

/-- The arrow of a message. -/
def arrow? (s : List Char) : Option ((Bool × ArrowHead) × List Char) :=
  (token? lineTokens s).bind fun p =>
    (token? headTokens p.2).map fun q => ((p.1, q.1), q.2)

/-- A message. -/
def message? (s : List Char) : Option Item :=
  (word? s).bind fun source =>
    (arrow? (skipSpaces source.2)).bind fun arrow =>
      (word? (skipSpaces (optionally (token? activationTokens) arrow.2).2)).bind fun target =>
        (textAfterColon? (skipSpaces target.2)).map fun text =>
          .message source.1 target.1 arrow.1.1 arrow.1.2 (text.bind plainLabel)

/-- Reads a line, if it says anything. -/
def Item.read? (text : List Char) : Option Item :=
  if isIgnored text then none else (participant? text).or (message? text)

variable {α : Type}

/-- A participant. -/
def participantNode (id : String) (label : String) : Node α := { id := id, label := label }

/-- The message sent as number `index`. -/
def messageEdge (index : Nat) (source target : String) (dashed : Bool) (head : ArrowHead)
    (text : Option String) : Edge α :=
  { id := Edge.pairId source target ++ "_" ++ toString index
    source := source
    target := target
    label := text
    endHead := head
    style := if dashed then some (.stroke .dashed) else none }

/-- A diagram with what one more line says. -/
def apply (d : Diagram α) : Item → Diagram α
  | .participant id label =>
    let id := String.ofList id
    let label := label.getD id
    if d.hasNode id then d.modifyNode id fun n => { n with label := label }
    else d.ensureNode (participantNode id label)
  | .message source target dashed head text =>
    let source := String.ofList source
    let target := String.ofList target
    let d := (d.ensureNode (participantNode source source)).ensureNode
      (participantNode target target)
    d.addEdge (messageEdge d.edges.length source target dashed head text)

/-- The sequence diagram on the lines below a header. -/
def parse (lines : List Line) : Diagram α :=
  (lines.filterMap fun l => Item.read? l.text).foldl apply
    { kind := .sequence, direction := .right }

end DiagramBoard.Grammar.Sequence
