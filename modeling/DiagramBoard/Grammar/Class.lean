/-
DiagramBoard.Grammar.Class — classes or entities, their members and the relations between them.

A line opens a class (`class Name["Label"] {`) or an entity (`NAME {`), relates two of them, or adds
a member (`Name : member`); between the braces every line is a member.  Both kinds of diagram accept
all of these lines.
-/
import DiagramBoard.Diagram.Member
import DiagramBoard.Grammar.Line

namespace DiagramBoard.Grammar.Class

open Text

/-! ## Relations -/

/-- The heads and the line of a relation. -/
structure Relation where
  startHead : ArrowHead
  endHead : ArrowHead
  dashed : Bool
deriving DecidableEq, Repr

/-- A relation between two classes. -/
structure RelationLine where
  source : List Char
  target : List Char
  relation : Relation
  label : Option String
deriving DecidableEq, Repr

/-- The tokens of relations between classes, in the order in which they are tried. -/
def relationTokens : List (String × Relation) :=
  [("<|--", ⟨.triangle, .none, false⟩), ("<|..", ⟨.triangleOutline, .none, true⟩),
    ("--|>", ⟨.none, .triangle, false⟩), ("..|>", ⟨.none, .triangleOutline, true⟩),
    ("*--", ⟨.diamond, .none, false⟩), ("--*", ⟨.none, .diamond, false⟩),
    ("o--", ⟨.diamondOutline, .none, false⟩), ("--o", ⟨.none, .diamondOutline, false⟩),
    ("<-->", ⟨.arrow, .arrow, false⟩), ("-->", ⟨.none, .arrow, false⟩),
    ("<--", ⟨.arrow, .none, false⟩), ("..>", ⟨.none, .arrow, true⟩),
    ("<..", ⟨.arrow, .none, true⟩), ("--", ⟨.none, .none, false⟩), ("..", ⟨.none, .none, true⟩)]

/-- The head of a cardinality: a bar for exactly one, a dot for at most one, a triangle for at least
one, an outlined triangle for any number. -/
def cardinalityHead (token : List Char) : ArrowHead :=
  match token with
  | ['|', '|'] => .bar
  | ['o', '|'] | ['|', 'o'] => .dot
  | ['\x7d', '|'] | ['|', '\x7b'] => .triangle
  | ['\x7d', 'o'] | ['o', '\x7b'] => .triangleOutline
  | _ => .none

/-- Two characters of a cardinality, with braces open to one side. -/
def cardinality? (brace : Char) : List Char → Option (ArrowHead × List Char)
  | a :: b :: r =>
    let isMark := fun c => c == '|' || c == 'o' || c == brace
    if isMark a && isMark b then some (cardinalityHead [a, b], r) else none
  | _ => none

/-- The lines of relations between entities, and whether they have gaps. -/
def lineTokens : List (String × Bool) := [("--", false), ("..", true)]

/-- A multiplicity in quotes beside a relation, which says nothing here. -/
def multiplicity? (s : List Char) : Option (List Char × List Char) :=
  (quoted? s).map fun p => (p.1, skipSpaces p.2)

/-- The rest of a relation's line: nothing, or a colon and a label. -/
def relationLabel? (s : List Char) : Option (Option String) :=
  (textAfterColon? (skipSpaces s)).map fun text => text.bind quotableLabel

/-- A relation between classes. -/
def classRelation? (s : List Char) : Option RelationLine :=
  (word? s).bind fun source =>
    (token? relationTokens (optionally multiplicity? (skipSpaces source.2)).2).bind fun relation =>
      (word? (optionally multiplicity? (skipSpaces relation.2)).2).bind fun target =>
        (relationLabel? target.2).map fun label => ⟨source.1, target.1, relation.1, label⟩

/-- A relation between entities. -/
def entityRelation? (s : List Char) : Option RelationLine :=
  (name? s).bind fun source =>
    (skipSomeSpaces? source.2).bind fun r =>
      (cardinality? '\x7d' r).bind fun left =>
        (token? lineTokens left.2).bind fun line =>
          (cardinality? '\x7b' line.2).bind fun right =>
            (skipSomeSpaces? right.2).bind fun r =>
              (name? r).bind fun target =>
                (relationLabel? target.2).map fun label =>
                  ⟨source.1, target.1, ⟨left.1, right.1, line.1⟩, label⟩

/-! ## Lines -/

/-- What a line outside the braces says. -/
inductive Item
  /-- The direction of the whole diagram, if it is one. -/
  | direction (direction : Option Direction)
  /-- An annotation, which says nothing here. -/
  | remark
  /-- A class, with its label if it has one, and whether its members follow. -/
  | declaration (id : List Char) (label : Option String) (opensBlock : Bool)
  | relation (line : RelationLine)
  | member (owner text : List Char)
  /-- Anything else. -/
  | other
deriving DecidableEq, Repr

/-- A label in square brackets. -/
def bracketLabel? (s : List Char) : Option (List Char × List Char) :=
  (after? "[" s).bind (cutAt? [']'])

/-- What may follow the name of a class on its line: nothing, an opening brace, a generic parameter
or an annotation. -/
def endsHeader (rest : List Char) : Bool :=
  rest.isEmpty || startsWith "\x7b" rest || startsWith "~" rest || startsWith "<<" rest

/-- The declaration of a class, behind its keyword. -/
def classHeader? (s : List Char) : Option Item :=
  (word? s).bind fun id =>
    let label := optionally bracketLabel? id.2
    let rest := trim label.2
    if endsHeader rest then
      some (.declaration id.1
        (label.1.map fun l => String.ofList (Entity.decode (stripQuotes (trim l))))
        (startsWith "\x7b" rest))
    else none

/-- An entity and the opening brace of its attributes. -/
def entityBlock? (s : List Char) : Option Item :=
  (name? s).bind fun id =>
    if startsWith "\x7b" (skipSpaces id.2) then some (.declaration id.1 none true) else none

/-- An entity alone on its line. -/
def bareEntity? (s : List Char) : Option Item :=
  (name? s).bind fun id =>
    if trim id.2 = [] then some (.declaration id.1 none false) else none

/-- A member behind the name of its class. -/
def ownedMember? (s : List Char) : Option Item :=
  (word? s).bind fun owner =>
    (after? ":" (skipSpaces owner.2)).map fun r => .member owner.1 (trim r)

/-- Reads a line outside the braces. -/
def Item.read (text : List Char) : Item :=
  match afterKeyword? "direction" text with
  | some r => .direction (Direction.ofWord? (String.ofList r))
  | none =>
    if startsWith "<<" text then .remark
    else
      ((((((afterKeyword? "class" text).bind classHeader?).or
        (entityBlock? text)).or
        ((classRelation? text).map .relation)).or
        ((entityRelation? text).map .relation)).or
        (ownedMember? text)).or
        (bareEntity? text)
        |>.getD .other

/-! ## Diagrams -/

variable {α : Type}

/-- A class without members, labelled with its id. -/
def classNode (id : String) : Node α := { id := id, label := id, sections := some {} }

/-- Sections with a member added.  The attributes of an entity are kept as they are written. -/
def addToSections (kind : DiagramKind) (text : List Char) (s : Sections) : Sections :=
  if kind = .er then
    match trim text with
    | [] => s
    | t => { s with attributes := s.attributes ++ [{ text := String.ofList t }] }
  else match Member.parse? text with
    | none => s
    | some (m, true) => { s with methods := s.methods ++ [m] }
    | some (m, false) => { s with attributes := s.attributes ++ [m] }

/-- A diagram with a member added to a class. -/
def addMember (d : Diagram α) (owner : String) (text : List Char) : Diagram α :=
  (d.ensureNode (classNode owner)).modifyNode owner fun n =>
    { n with sections := some (addToSections d.kind text (n.sections.getD {})) }

/-- The relation that is number `index` of its diagram, as an edge. -/
def relationEdge (index : Nat) (l : RelationLine) : Edge α :=
  let source := String.ofList l.source
  let target := String.ofList l.target
  { id := Edge.pairId source target ++ "_" ++ toString index
    source := source
    target := target
    label := l.label
    startHead := l.relation.startHead
    endHead := l.relation.endHead
    style := if l.relation.dashed then some (.stroke .dashed) else none }

/-- A diagram as far as it was read, and the class whose members are being read. -/
structure Draft (α : Type) where
  diagram : Diagram α
  owner : Option String := none
deriving Inhabited

/-- A draft with what one more line says outside the braces. -/
def Draft.apply (d : Draft α) : Item → Draft α
  | .direction none | .remark | .other => d
  | .direction (some direction) =>
    { d with diagram := { d.diagram with direction := direction } }
  | .declaration id label opensBlock =>
    let id := String.ofList id
    let g := d.diagram.ensureNode (classNode id)
    let g := match label with
      | none => g
      | some l => g.modifyNode id fun n => { n with label := l }
    { diagram := g, owner := if opensBlock then some id else none }
  | .relation l =>
    let g := (d.diagram.ensureNode (classNode (String.ofList l.source))).ensureNode
      (classNode (String.ofList l.target))
    { d with diagram := g.addEdge (relationEdge g.edges.length l) }
  | .member owner text => { d with diagram := addMember d.diagram (String.ofList owner) text }

/-- A draft with one more line. -/
def Draft.readLine (d : Draft α) (text : List Char) : Draft α :=
  match d.owner with
  | some owner =>
    if startsWith "\x7d" text then { d with owner := none }
    else if startsWith "<<" text then d
    else { d with diagram := addMember d.diagram owner text }
  | none => d.apply (Item.read text)

/-- The class or entity diagram on the lines below a header. -/
def parse (kind : DiagramKind) (lines : List Line) : Diagram α :=
  (lines.foldl (fun d l => d.readLine l.text) { diagram := { kind := kind } : Draft α }).diagram

end DiagramBoard.Grammar.Class
