/-
DiagramBoard.Grammar.FlowchartDraft — from the lines of a flowchart to its diagram.

The first mention of a node decides its place and its group, the innermost subgraph open then.
Later mentions refine its label and its shape.  The first link from a node to another is their edge
and later ones are passed over.  Subgraphs left open are closed at the end, the innermost first.

Main statement: the draft of a line depends on the lines before it only (`readLines_append`).
-/
import DiagramBoard.Diagram.Prune
import DiagramBoard.Grammar.Flowchart
import DiagramBoard.SyntaxError
import DiagramBoard.Text.Lowercase

namespace DiagramBoard.Grammar.Flowchart

open Text

/-! ## Titles of subgraphs -/

/-- Whether a character starts a low line in an id made of a title: none is put at its start or
behind another. -/
def slugStep (id : List Char) (c : Char) : List Char :=
  if isAlphanumeric c then id ++ [c]
  else if id = [] || id.getLast? = some '_' then id
  else id ++ ['_']

/-- The id of a subgraph that has neither id nor title. -/
def numberedId (ordinal : Nat) : String := "subgraph_" ++ toString ordinal

/-- An id made of a title: its letters and digits in lower case, with a low line for each run of
other characters between them. -/
def slug (title : List Char) (ordinal : Nat) : String :=
  let id := (lowercase title).foldl slugStep []
  match (id.reverse.dropWhile (· == '_')).reverse with
  | [] => numberedId ordinal
  | id => String.ofList id

/-- What a text in square brackets holds. -/
def insideBrackets? (s : List Char) : Option (List Char) :=
  (after? "[" s).bind (beforeLast? ']')

/-- The id and label of a subgraph with a free title. -/
def freeTitle (title : List Char) (ordinal : Nat) : String × String :=
  (slug title ordinal, String.ofList title)

/-- The id and label of a subgraph: `id`, `id [Label]`, `"Label"` or a free title. -/
def subgraphTitle (header : List Char) (ordinal : Nat) : String × String :=
  match trim header with
  | [] => (numberedId ordinal, numberedId ordinal)
  | '"' :: r =>
    let label := Entity.decode (stripQuotes ('"' :: r))
    (slug label ordinal, String.ofList label)
  | title =>
    match id? title with
    | none => freeTitle title ordinal
    | some (id, r) =>
      match trim r with
      | [] => (String.ofList id, String.ofList id)
      | r => match insideBrackets? r with
        | some inner =>
          (String.ofList id, String.ofList (Entity.decode (stripQuotes (trim inner))))
        | none => freeTitle title ordinal

/-! ## Drafts -/

/-- A flowchart as far as it was read. -/
structure Draft (α : Type) where
  nodes : List (Node α) := []
  edges : List (Edge α) := []
  /-- The subgraphs that were closed, in that order. -/
  closed : List Group := []
  /-- The subgraphs that are open, the innermost first. -/
  opened : List Group := []
deriving Inhabited

namespace Draft

variable {α : Type}

/-- A subgraph opens. -/
def openGroup (d : Draft α) (title : List Char) : Draft α :=
  let (id, label) := subgraphTitle title (d.closed.length + d.opened.length)
  { d with opened := { id := id, label := label } :: d.opened }

/-- The innermost subgraph closes, if one is open. -/
def closeGroup (d : Draft α) : Draft α :=
  match d.opened with
  | [] => d
  | g :: gs => { d with closed := d.closed ++ [g], opened := gs }

/-- A node refined by another mention: a label other than the id counts, and a shape other than the
default one. -/
def refine (m : NodeMention) (n : Node α) : Node α :=
  { n with
    label := match m.label with
      | some l => if l = m.id then n.label else l
      | none => n.label
    shape := match m.shape with
      | some .rectangle | none => n.shape
      | some s => s }

/-- The nodes with the first one of an id refined. -/
def refineFirst (m : NodeMention) : List (Node α) → List (Node α)
  | [] => []
  | n :: ns => if n.id = m.id then refine m n :: ns else n :: refineFirst m ns

/-- A node as its first mention makes it. -/
def firstMention (m : NodeMention) (group : Option String) : Node α :=
  { id := m.id
    label := m.label.getD m.id
    shape := m.shape.getD .rectangle
    group := group }

/-- A node is mentioned. -/
def mention (d : Draft α) (m : NodeMention) : Draft α :=
  if d.nodes.any (·.id = m.id) then { d with nodes := refineFirst m d.nodes }
  else match d.opened with
    | [] => { d with nodes := d.nodes ++ [firstMention m none] }
    | g :: gs =>
      { d with
        nodes := d.nodes ++ [firstMention m (some g.id)]
        opened := { g with children := g.children ++ [m.id] } :: gs }

variable [Scalar α]

/-- The stroke width of a thick link. -/
def thickWidth : α := 4

/-- The style of an edge, from the stroke of its link. -/
def strokeHints : Stroke → Option (StyleHints α)
  | .normal => none
  | .dashed => some (.stroke .dashed)
  | .thick => some (.width thickWidth)

/-- The edge of a link between two nodes. -/
def linkEdge (link : Link) (source target : String) : Edge α :=
  { id := Edge.pairId source target
    source := source
    target := target
    label := link.label
    startHead := link.startHead
    endHead := link.endHead
    style := strokeHints link.stroke }

/-- A link joins two nodes, unless they are joined already. -/
def connect (link : Link) (d : Draft α) (source target : String) : Draft α :=
  if d.edges.any fun e => e.source = source && e.target = target then d
  else { d with edges := d.edges ++ [linkEdge link source target] }

/-- The pairs of nodes that a link joins: every node of one group with every node of the other. -/
def linkPairs (sources targets : List NodeMention) : List (String × String) :=
  sources.flatMap fun s => targets.map fun t => (s.id, t.id)

/-- The links of a chain join their node groups, one link after the other. -/
def connectChain (d : Draft α) (first : List NodeMention) :
    List (Link × List NodeMention) → Draft α
  | [] => d
  | (link, group) :: rest =>
    connectChain ((linkPairs first group).foldl (fun d p => connect link d p.1 p.2) d) group rest

/-- All nodes of a statement, in order. -/
def mentions (s : Statement) : List NodeMention := s.first ++ s.next.flatMap (·.2)

/-- A statement mentions its nodes and then joins them. -/
def apply (d : Draft α) (s : Statement) : Draft α :=
  connectChain ((mentions s).foldl mention d) s.first s.next

/-- The diagram of a draft. -/
def finish (d : Draft α) : Diagram α :=
  Diagram.prune { nodes := d.nodes, edges := d.edges, groups := d.closed ++ d.opened }

end Draft

/-! ## Lines -/

variable {α : Type} [Scalar α]

/-- A draft with one more line.  A lenient reading passes over what it cannot read. -/
def Draft.readLine (lenient : Bool) (d : Draft α) (line : Line) : Except SyntaxError (Draft α) :=
  match Item.read line.text with
  | .opening title => .ok (d.openGroup title)
  | .closing => .ok d.closeGroup
  | .directive => .ok d
  | .statement stmt => .ok (d.apply stmt)
  | .trailing rest =>
    if lenient then .ok d else .error ⟨some line.number, .unexpected rest⟩
  | .unreadable =>
    if lenient then .ok d else .error ⟨some line.number, .unreadable line.text⟩

/-- A draft with more lines, up to the first fault. -/
def Draft.readLines (lenient : Bool) (d : Draft α) : List Line → Except SyntaxError (Draft α)
  | [] => .ok d
  | l :: ls => (d.readLine lenient l).bind fun d => d.readLines lenient ls

/-- The flowchart on the lines below a header. -/
def parse (lenient : Bool) (lines : List Line) : Except SyntaxError (Diagram α) :=
  (Draft.readLines lenient {} lines).map Draft.finish

/-- Reading lines in two parts is reading them in one. -/
theorem Draft.readLines_append (lenient : Bool) (d : Draft α) (ls ms : List Line) :
    d.readLines lenient (ls ++ ms) =
      (d.readLines lenient ls).bind fun d => d.readLines lenient ms := by
  induction ls generalizing d with
  | nil => rfl
  | cons l ls ih =>
    simp only [List.cons_append, readLines]
    cases d.readLine lenient l with
    | error e => rfl
    | ok d => exact ih d

end DiagramBoard.Grammar.Flowchart
