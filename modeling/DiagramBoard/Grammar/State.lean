/-
DiagramBoard.Grammar.State — states and the transitions between them.

A line declares a state, joins two by a transition, or describes one.  The start and the end of a
diagram, written `[*]`, are one node of their own.
-/
import DiagramBoard.Diagram.Basic
import DiagramBoard.Grammar.Line

namespace DiagramBoard.Grammar.State

open Text

/-- The id of the node for `[*]`. -/
def startEndId : String := "start_end"

/-- The label of the node for `[*]`. -/
def startEndLabel : String := "Start/End"

/-- The start or the end of a diagram, in the text. -/
def startEndMark : String := "[*]"

/-- What a line of a state diagram says. -/
inductive Item
  | declaration (id : List Char) (label : Option String) (shape : Option Shape)
  | transition (source target : List Char) (label : Option String)
  | description (id : List Char) (text : String)
deriving DecidableEq, Repr

/-- A label in quotes and the `as` behind it. -/
def labelAs? (s : List Char) : Option (List Char × List Char) :=
  (quoted? s).bind fun p =>
    (skipSomeSpaces? p.2).bind fun r =>
      (after? "as" r).bind fun r => (skipSomeSpaces? r).map fun r => (p.1, r)

/-- A stereotype, in double angle brackets. -/
def stereotype? (s : List Char) : Option (List Char × List Char) :=
  (after? "<<" s).bind (cutAfterSome? ">>".toList)

/-- The shape of a stereotype. -/
def stereotypeShape (name : List Char) : Shape :=
  if name = "choice".toList then .diamond else .rectangle

/-- A declaration: `state "Label" as id <<stereotype>> {`, with any of its parts left out but the
id. -/
def declaration? (s : List Char) : Option Item :=
  (after? "state" s).bind fun r =>
    (skipSomeSpaces? r).bind fun r =>
      let label := optionally labelAs? r
      (word? label.2).bind fun id =>
        let stereotype := optionally stereotype? (skipSpaces id.2)
        let rest := (optionally (literal? "\x7b") (skipSpaces stereotype.2)).2
        if trim rest = [] then
          some (.declaration id.1 (label.1.map fun l => String.ofList (Entity.decode l))
            (stereotype.1.map stereotypeShape))
        else none

/-- A state, or the start or end. -/
def state? (s : List Char) : Option (List Char × List Char) :=
  ((after? startEndMark s).map fun r => (startEndMark.toList, r)).or (word? s)

/-- A transition: `a --> b : label`. -/
def transition? (s : List Char) : Option Item :=
  (state? s).bind fun source =>
    (after? "-->" (skipSpaces source.2)).bind fun r =>
      (state? (skipSpaces r)).bind fun target =>
        (textAfterColon? (skipSpaces target.2)).map fun label =>
          .transition source.1 target.1 (label.bind quotableLabel)

/-- A description: `id : text`. -/
def description? (s : List Char) : Option Item :=
  (word? s).bind fun id =>
    (after? ":" (skipSpaces id.2)).map fun r =>
      .description id.1 (String.ofList (Entity.decode (trim r)))

/-- Reads a line, if it declares, joins or describes states. -/
def Item.read? (text : List Char) : Option Item :=
  if startsWith "\x7d" text || (afterKeyword? "note" text).isSome then none
  else ((declaration? text).or (transition? text)).or (description? text)

variable {α : Type}

/-- The id of a state in the text. -/
def stateId (s : List Char) : String :=
  if s = startEndMark.toList then startEndId else String.ofList s

/-- The node of a state, labelled with its id. -/
def stateNode (id : String) : Node α :=
  if id = startEndId then { id := id, label := startEndLabel, shape := .circle }
  else { id := id, label := id, shape := .rounded }

/-- The transition that is number `index` of its diagram, as an edge. -/
def transitionEdge (index : Nat) (source target : String) (label : Option String) : Edge α :=
  { id := Edge.pairId source target ++ "_" ++ toString index
    source := source
    target := target
    label := label }

/-- A diagram with what one more line says. -/
def apply (d : Diagram α) : Item → Diagram α
  | .declaration id label shape =>
    let id := stateId id
    (d.ensureNode (stateNode id)).modifyNode id fun n =>
      { n with label := label.getD n.label, shape := shape.getD n.shape }
  | .transition source target label =>
    let source := stateId source
    let target := stateId target
    let d := (d.ensureNode (stateNode source)).ensureNode (stateNode target)
    d.addEdge (transitionEdge d.edges.length source target label)
  | .description id text =>
    let id := stateId id
    (d.ensureNode (stateNode id)).modifyNode id fun n => { n with label := text }

/-- A diagram with one more line. -/
def readLine (d : Diagram α) (text : List Char) : Diagram α :=
  match afterKeyword? "direction" text with
  | some r => match Direction.ofWord? (String.ofList r) with
    | some direction => { d with direction := direction }
    | none => d
  | none => match Item.read? text with
    | some item => apply d item
    | none => d

/-- The state diagram on the lines below a header. -/
def parse (lines : List Line) : Diagram α :=
  lines.foldl (fun d l => readLine d l.text) { kind := .state }

end DiagramBoard.Grammar.State
