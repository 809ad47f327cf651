/-
DiagramBoard.Proofs.Grammar.FlowchartMentions — the nodes and edges of a draft, line by line.

Every line mentions nodes and connects some of them.  A draft has the nodes that its lines mention, and
between two nodes the first edge that their connections mean.

Main statements: both for a run of lines (`mem_ids_foldl_readItem`, `find?_foldl_readItem`).
-/
import DiagramBoard.Proofs.Grammar.FlowchartDraft

namespace DiagramBoard.Grammar.Flowchart

variable {α : Type}

/-! ## Mentions -/

/-- The nodes that a line mentions. -/
def Item.mentions : Item → List NodeMention
  | .statement stmt => Draft.mentions stmt
  | _ => []

/-- A mention adds its node, unless that is there. -/
theorem mem_ids_mention {d : Draft α} {m : NodeMention} {id : String} :
    id ∈ (d.mention m).nodes.map (·.id) ↔ id ∈ d.nodes.map (·.id) ∨ id = m.id := by
  cases hany : d.nodes.any (·.id = m.id) with
  | true =>
    have hknown : m.id ∈ d.diagram.nodeIds := Diagram.hasNode_iff.1 hany
    rw [Draft.mention_of_known hany, ids_refineFirst]
    exact ⟨.inl, fun h => h.elim (fun h => h) fun h => h ▸ hknown⟩
  | false =>
    obtain ⟨group, hnodes⟩ := nodes_mention d m hany
    rw [hnodes, List.map_append, List.mem_append]
    exact or_congr Iff.rfl List.mem_singleton

theorem mem_ids_foldl_mention {ms : List NodeMention} {d : Draft α} {id : String} :
    id ∈ (ms.foldl Draft.mention d).nodes.map (·.id)
      ↔ id ∈ d.nodes.map (·.id) ∨ id ∈ ms.map (·.id) := by
  induction ms generalizing d with
  | nil => simp
  | cons m ms ih => rw [List.foldl_cons, ih, mem_ids_mention, List.map_cons, List.mem_cons, or_assoc]

theorem edges_foldl_mention (ms : List NodeMention) (d : Draft α) :
    (ms.foldl Draft.mention d).edges = d.edges :=
  List.foldlRecOn (motive := fun x : Draft α => x.edges = d.edges) _ _ rfl
    fun x hx m _ => (edges_mention x m).trans hx

variable [Scalar α]

/-! ## Links -/

/-- Two nodes and a link that joins them. -/
structure Connection where
  source : String
  target : String
  link : Link
deriving DecidableEq, Repr

namespace Connection

/-- The edge that a connection means: its label and its heads are those of the link, and the line has
gaps or is four wide if that of the link is dashed or thick. -/
def edge (c : Connection) : Edge α :=
  { id := c.source ++ "->" ++ c.target
    source := c.source
    target := c.target
    label := c.link.label
    startHead := c.link.startHead
    endHead := c.link.endHead
    style := if c.link.stroke = .dashed then some { strokeStyle := some .dashed }
      else if c.link.stroke = .thick then some { strokeWidth := some (4 : Nat) } else none }

end Connection

/-- What a chain connects, link by link: every node of the group before a link with every node of the
group behind it. -/
def connections (first : List NodeMention) (next : List (Link × List NodeMention)) :
    List Connection :=
  ((first :: next.map (·.2)).zip next).flatMap fun (sources, link, targets) =>
    sources.flatMap fun s => targets.map fun t => ⟨s.id, t.id, link⟩

/-- What a line connects. -/
def Item.connections : Item → List Connection
  | .statement stmt => Flowchart.connections stmt.first stmt.next
  | _ => []

/-- The edges that a line says. -/
def Item.links (i : Item) : List (Edge α) := i.connections.map Connection.edge

/-- A draft makes of a link between two nodes the edge that their connection means. -/
theorem linkEdge_eq (link : Link) (source target : String) :
    (Draft.linkEdge link source target : Edge α) = Connection.edge ⟨source, target, link⟩ := by
  unfold Draft.linkEdge Draft.strokeHints Connection.edge
  cases link.stroke <;> rfl

/-- A draft joins what the first link of a chain connects, and then what the others do. -/
theorem map_edge_connections_cons (first : List NodeMention) (p : Link × List NodeMention)
    (next : List (Link × List NodeMention)) :
    ((connections first (p :: next)).map Connection.edge : List (Edge α))
      = ((Draft.linkPairs first p.2).map fun q => Draft.linkEdge p.1 q.1 q.2)
        ++ (connections p.2 next).map Connection.edge := by
  have hstep : connections first (p :: next)
      = (first.flatMap fun s => p.2.map fun t => ⟨s.id, t.id, p.1⟩) ++ connections p.2 next := rfl
  rw [hstep, List.map_append]
  simp only [Draft.linkPairs, List.map_flatMap, List.map_map, Function.comp_def, linkEdge_eq]

theorem nodes_connect (link : Link) (d : Draft α) (source target : String) :
    (Draft.connect link d source target).nodes = d.nodes := by
  unfold Draft.connect
  split <;> rfl

theorem nodes_connectChain (first : List NodeMention) (next : List (Link × List NodeMention))
    (d : Draft α) : (d.connectChain first next).nodes = d.nodes :=
  Draft.connectChain_induction (P := fun x => x.nodes = d.nodes)
    (fun p _ x source target hx => (nodes_connect p.1 x source target).trans hx) first rfl

/-- The first edge between two nodes stays the first one. -/
theorem find?_connect (link : Link) (d : Draft α) (source target s t : String) :
    (Draft.connect link d source target).edges.find? (·.joins s t)
      = (d.edges.find? (·.joins s t)).or
        ([Draft.linkEdge link source target].find? (·.joins s t)) := by
  unfold Draft.connect
  split
  · rename_i hany
    cases hfind : d.edges.find? (·.joins s t) with
    | some e => rfl
    | none =>
      -- the nodes are joined already, so these are others
      have hne : (Draft.linkEdge link source target : Edge α).joins s t = false := by
        rw [← Bool.not_eq_true]
        intro hjoins
        obtain ⟨rfl, rfl⟩ := Edge.joins_iff.1 hjoins
        obtain ⟨e, he, heq⟩ := List.any_eq_true.1 hany
        exact List.find?_eq_none.1 hfind e he heq
      rw [List.find?_cons, hne]
      rfl
  · exact List.find?_append

theorem find?_foldl_connect (link : Link) (ps : List (String × String)) (d : Draft α)
    (s t : String) :
    (ps.foldl (fun d p => Draft.connect link d p.1 p.2) d).edges.find? (·.joins s t)
      = (d.edges.find? (·.joins s t)).or
        ((ps.map fun p => Draft.linkEdge link p.1 p.2).find? (·.joins s t)) := by
  induction ps generalizing d with
  | nil => exact Option.or_none.symm
  | cons p ps ih =>
    rw [List.foldl_cons, ih, find?_connect, Option.or_assoc, ← List.find?_append]
    rfl

theorem find?_connectChain (first : List NodeMention) (next : List (Link × List NodeMention))
    (d : Draft α) (s t : String) :
    (d.connectChain first next).edges.find? (·.joins s t)
      = (d.edges.find? (·.joins s t)).or
        (((connections first next).map Connection.edge).find? (·.joins s t)) := by
  induction next generalizing d first with
  | nil => exact Option.or_none.symm
  | cons p next ih =>
    rw [Draft.connectChain, ih, find?_foldl_connect, Option.or_assoc, ← List.find?_append,
      map_edge_connections_cons]

/-! ## Lines -/

theorem nodes_readItem (d : Draft α) (i : Item) :
    (d.readItem i).nodes = (i.mentions.foldl Draft.mention d).nodes := by
  cases i with
  | closing =>
    show d.closeGroup.nodes = d.nodes
    exact congrArg (·.nodes) d.diagram_closeGroup
  | statement stmt => exact nodes_connectChain stmt.first stmt.next _
  | _ => rfl

/-- A line adds an edge between two nodes unless there is one. -/
theorem find?_readItem (d : Draft α) (i : Item) (s t : String) :
    (d.readItem i).edges.find? (·.joins s t)
      = (d.edges.find? (·.joins s t)).or (i.links.find? (·.joins s t)) := by
  cases i with
  | closing =>
    have hedges : d.closeGroup.edges = d.edges := congrArg (·.edges) d.diagram_closeGroup
    show d.closeGroup.edges.find? _ = _
    rw [hedges]
    exact Option.or_none.symm
  | statement stmt =>
    show (Draft.connectChain _ stmt.first stmt.next).edges.find? _ = _
    rw [find?_connectChain, edges_foldl_mention]
    rfl
  | _ => exact Option.or_none.symm

/-- A draft has the nodes that its lines mention. -/
theorem mem_ids_foldl_readItem {items : List Item} {d : Draft α} {id : String} :
    id ∈ (items.foldl Draft.readItem d).nodes.map (·.id)
      ↔ id ∈ d.nodes.map (·.id) ∨ ∃ i ∈ items, id ∈ i.mentions.map (·.id) := by
  induction items generalizing d with
  | nil => simp
  | cons i items ih =>
    rw [List.foldl_cons, ih, nodes_readItem, mem_ids_foldl_mention, or_assoc, List.exists_mem_cons_iff]

/-- Between two nodes a draft has the first edge that its lines say. -/
theorem find?_foldl_readItem (items : List Item) (d : Draft α) (s t : String) :
    (items.foldl Draft.readItem d).edges.find? (·.joins s t)
      = (d.edges.find? (·.joins s t)).or ((items.flatMap Item.links).find? (·.joins s t)) := by
  induction items generalizing d with
  | nil => exact Option.or_none.symm
  | cons i items ih =>
    rw [List.foldl_cons, ih, find?_readItem, Option.or_assoc, ← List.find?_append]
    rfl

end DiagramBoard.Grammar.Flowchart
