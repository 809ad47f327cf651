/-
DiagramBoard.Proofs.RoundTrip.Flowchart — a flowchart, written and read again.

The groups are read first, each with its nodes, then the nodes outside them.  In compact form a
plain node that an edge mentions has no line of its own, so it comes back behind the others when its
first edge is read; the order of the nodes may change, but not the text that is written for them.

Main statements: what comes back from a written flowchart has its content (`ComesBack.sameContent`)
and is written the same (`ComesBack.body`); it is what is read from the text (`parse_render`).
-/
import DiagramBoard.Proofs.RoundTrip.FlowchartLines

namespace DiagramBoard.Grammar.Flowchart

open Text
open Writer (trim_indent)
open Writer.Flowchart (linkToken strokeOf isPlainNode groupedLine groupLines isLinked isGrouped
  nodeLine? edgeLine body)

variable {α : Type}

/-! ## Reading the groups -/

/-- A node in a group as its first mention makes it. -/
def writtenNode (group : Option String) (n : Node α) : Node α :=
  { id := n.id, label := n.label, shape := n.shape, group := group }

theorem firstMention_nodeMention (compact : Bool) (n : Node α) (group : Option String) :
    Draft.firstMention (nodeMention compact n) group = writtenNode group n := by
  unfold nodeMention
  split
  · rename_i h
    have hplain := (Bool.and_eq_true_iff.1 h).2
    simp only [isPlainNode, Bool.and_eq_true, decide_eq_true_eq] at hplain
    simp [Draft.firstMention, writtenNode, hplain.1, hplain.2]
  · rfl

theorem mention_of_notMem {compact : Bool} {d : Draft α} {n : Node α}
    (hn : n.id ∉ d.nodes.map (·.id)) : d.mention (nodeMention compact n) = match d.opened with
      | [] => { d with nodes := d.nodes ++ [writtenNode none n] }
      | g :: gs =>
        { d with
          nodes := d.nodes ++ [writtenNode (some g.id) n]
          opened := { g with children := g.children ++ [n.id] } :: gs } := by
  have hany : d.nodes.any (·.id = (nodeMention compact n).id) = false := by
    rw [nodeMention_id]
    exact Bool.eq_false_iff.2 fun hknown => hn ((Diagram.hasNode_iff (d := d.diagram)).1 hknown)
  cases ho : d.opened with
  | nil => rw [Draft.mention_of_nil hany ho, firstMention_nodeMention, ho]
  | cons g gs => rw [Draft.mention_of_cons hany ho, firstMention_nodeMention, nodeMention_id]

/-- The nodes that come back inside the groups. -/
def groupedNodes (d : Diagram α) (gs : List Group) : List (Node α) :=
  gs.flatMap fun g => (membersOf d g).map (writtenNode (some g.id))

theorem ids_groupedNodes {d : Diagram α} {gs : List Group}
    (hids : ∀ g ∈ gs, (membersOf d g).map (·.id) = g.children) :
    (groupedNodes d gs).map (·.id) = gs.flatMap (·.children) := by
  induction gs with
  | nil => rfl
  | cons g gs ih =>
    have hg := hids g List.mem_cons_self
    have ih := ih fun x hx => hids x (List.mem_cons_of_mem _ hx)
    simp only [groupedNodes] at ih
    simp only [groupedNodes, List.flatMap_cons, List.map_append, List.map_map, ih, ← hg]
    rfl

/-- A node that is mentioned by its id alone. -/
def bareNode (id : String) : Node α := { id := id, label := id }

theorem refineFirst_bare (id : String) (ns : List (Node α)) :
    Draft.refineFirst { id := id } ns = ns :=
  refineFirst_eq_self fun _ _ _ => rfl

/-- A mention of an id alone adds a node if the id is new. -/
theorem mention_bare {d : Draft α} (ho : d.opened = []) (hnodup : (d.nodes.map (·.id)).Nodup)
    (id : String) : ∃ ids : List String, d.mention { id := id } = { d with nodes := d.nodes ++ ids.map bareNode }
      ∧ (∀ x ∈ ids, x = id) ∧ ((d.nodes ++ ids.map bareNode : List (Node α)).map (·.id)).Nodup
      ∧ id ∈ (d.nodes ++ ids.map bareNode : List (Node α)).map (·.id) := by
  cases hany : d.nodes.any (·.id = id) with
  | true =>
    have hknown : id ∈ d.diagram.nodeIds := Diagram.hasNode_iff.1 hany
    refine ⟨[], ?_, by simp, by simpa using hnodup, by rwa [List.map_nil, List.append_nil]⟩
    rw [Draft.mention_of_known hany, refineFirst_bare]
    simp
  | false =>
    have hnew : id ∉ d.diagram.nodeIds := fun hmem =>
      Bool.eq_false_iff.1 hany (Diagram.hasNode_iff.2 hmem)
    refine ⟨[id], ?_, by simp, ?_, by simp [bareNode]⟩
    · rw [Draft.mention_of_nil hany ho]
      rfl
    · rw [List.map_append]
      refine List.nodup_append.2 ⟨hnodup, by simp, ?_⟩
      rintro a ha b hb rfl
      obtain rfl : a = id := List.mem_singleton.1 hb
      exact hnew ha

variable [Scalar α]

theorem readItem_nodeItem (compact : Bool) (d : Draft α) (n : Node α) :
    d.readItem (nodeItem compact n) = d.mention (nodeMention compact n) := rfl

/-- New nodes inside a group become its children. -/
theorem foldl_groupedItems {compact : Bool} {ns : List (Node α)} (d : Draft α) (g : Group)
    (gs : List Group) (ho : d.opened = g :: gs)
    (hnodup : (d.nodes.map (·.id) ++ ns.map (·.id)).Nodup) :
    (ns.map (nodeItem compact)).foldl Draft.readItem d
      = { d with
          nodes := d.nodes ++ ns.map (writtenNode (some g.id))
          opened := { g with children := g.children ++ ns.map (·.id) } :: gs } := by
  induction ns generalizing d g with
  | nil => simp [← ho]
  | cons n ns ih =>
    have hnew : n.id ∉ d.nodes.map (·.id) := fun hm =>
      (List.nodup_append.1 hnodup).2.2 _ hm _ (by simp) rfl
    rw [List.map_cons, List.foldl_cons, readItem_nodeItem, mention_of_notMem hnew, ho]
    dsimp only
    rw [ih _ _ rfl (by simpa [writtenNode] using hnodup)]
    simp

/-- New nodes outside the groups are added. -/
theorem foldl_nodeItems (compact : Bool) (ns : List (Node α)) (d : Draft α) (ho : d.opened = [])
    (hnodup : (d.nodes.map (·.id) ++ ns.map (·.id)).Nodup) :
    (ns.map (nodeItem compact)).foldl Draft.readItem d
      = { d with nodes := d.nodes ++ ns.map (writtenNode none) } := by
  induction ns generalizing d with
  | nil => simp
  | cons n ns ih =>
    have hnew : n.id ∉ d.nodes.map (·.id) := fun hm =>
      (List.nodup_append.1 hnodup).2.2 _ hm _ (by simp) rfl
    have hstep : d.mention (nodeMention compact n)
        = { d with nodes := d.nodes ++ [writtenNode none n] } := by
      rw [mention_of_notMem hnew, ho]
    rw [List.map_cons, List.foldl_cons, readItem_nodeItem, hstep,
      ih { d with nodes := d.nodes ++ [writtenNode none n] } ho
        (by simpa [writtenNode] using hnodup)]
    simp

/-- The lines of a group whose nodes are new add the group and its nodes. -/
theorem foldl_groupItems {compact : Bool} {d : Diagram α} {g : Group} (hw : IsId g.id.toList)
    (hids : (membersOf d g).map (·.id) = g.children) (draft : Draft α) (ho : draft.opened = [])
    (hnodup : (draft.nodes.map (·.id) ++ g.children).Nodup) :
    (groupItems compact d g).foldl Draft.readItem draft
      = { draft with
          nodes := draft.nodes ++ (membersOf d g).map (writtenNode (some g.id))
          closed := draft.closed ++ [g] } := by
  have hopen : draft.readItem (.opening (groupTitle g))
      = { draft with opened := [{ id := g.id, label := g.label }] } := by
    simp [Draft.readItem, Draft.openGroup, subgraphTitle_groupTitle hw, ho]
  rw [groupItems, List.cons_append, List.foldl_cons, List.foldl_append, hopen,
    foldl_groupedItems _ { id := g.id, label := g.label } [] rfl (by rwa [hids])]
  simp [Draft.readItem, Draft.closeGroup, hids, ho]

/-- The lines of groups whose nodes are new add the groups and their nodes. -/
theorem foldl_allGroupItems (compact : Bool) {d : Diagram α} {gs : List Group}
    (hw : ∀ g ∈ gs, IsId g.id.toList) (hids : ∀ g ∈ gs, (membersOf d g).map (·.id) = g.children)
    (draft : Draft α) (ho : draft.opened = [])
    (hnodup : (draft.nodes.map (·.id) ++ gs.flatMap (·.children)).Nodup) :
    (gs.flatMap (groupItems compact d)).foldl Draft.readItem draft
      = { draft with
          nodes := draft.nodes ++ groupedNodes d gs
          closed := draft.closed ++ gs } := by
  induction gs generalizing draft with
  | nil => simp [groupedNodes]
  | cons g gs ih =>
    have hg := hids g List.mem_cons_self
    rw [List.flatMap_cons, ← List.append_assoc] at hnodup
    have hfirst := (List.nodup_append.1 hnodup).1
    have hmap : ((membersOf d g).map (writtenNode (some g.id))).map (·.id) = g.children := by
      rw [← hg, List.map_map]
      rfl
    rw [List.flatMap_cons, List.foldl_append,
      foldl_groupItems (hw g List.mem_cons_self) hg draft ho hfirst,
      ih (fun x hx => hw x (List.mem_cons_of_mem _ hx))
        (fun x hx => hids x (List.mem_cons_of_mem _ hx)) { draft with
          nodes := draft.nodes ++ (membersOf d g).map (writtenNode (some g.id))
          closed := draft.closed ++ [g] } ho]
    · simp [groupedNodes]
    · rwa [List.map_append, hmap]

/-! ## Reading the edges -/

/-- An edge as it comes back. -/
def writtenEdge (e : Edge α) : Edge α :=
  Draft.linkEdge ((tokenLink e).labelled e.label) e.source e.target

/-- What a draft outside all groups becomes when more edges are read, whose nodes may be new. -/
structure Links (es : List (Edge α)) (d d' : Draft α) : Prop where
  edges : d'.edges = d.edges ++ es.map writtenEdge
  closed : d'.closed = d.closed
  opened : d'.opened = []
  nodes : ∃ ids : List String, d'.nodes = d.nodes ++ ids.map bareNode
    ∧ ∀ id ∈ ids, ∃ e ∈ es, e.source = id ∨ e.target = id
  nodup : (d'.nodes.map (·.id)).Nodup
  ends : ∀ e ∈ es, e.source ∈ d'.nodes.map (·.id) ∧ e.target ∈ d'.nodes.map (·.id)

/-- The line of an edge adds the edge and those of its nodes that are new. -/
theorem links_edgeStatement {d : Draft α} {e : Edge α} (ho : d.opened = [])
    (hnodup : (d.nodes.map (·.id)).Nodup) (hnew : (e.source, e.target) ∉ d.diagram.joined) :
    Links [e] d (d.readItem (.statement (edgeStatement e))) := by
  obtain ⟨ids₁, h₁, hall₁, hnodup₁, hmem₁⟩ := mention_bare ho hnodup e.source
  obtain ⟨ids₂, h₂, hall₂, hnodup₂, hmem₂⟩ := mention_bare
    (d := { d with nodes := d.nodes ++ ids₁.map bareNode }) ho hnodup₁ e.target
  have hmentions : (Draft.mentions (edgeStatement e)).foldl Draft.mention d
      = { d with nodes := d.nodes ++ (ids₁ ++ ids₂).map bareNode } := by
    show (d.mention { id := e.source }).mention { id := e.target } = _
    rw [h₁, h₂]
    simp
  have hany : ¬((d.edges.any fun x => decide (x.source = e.source) && decide (x.target = e.target))
      = true) := by
    rw [List.any_eq_true]
    rintro ⟨x, hx, heq⟩
    simp only [Bool.and_eq_true, decide_eq_true_eq] at heq
    exact hnew (List.mem_map.2 ⟨x, hx, Prod.ext heq.1 heq.2⟩)
  have hread : d.readItem (.statement (edgeStatement e))
      = { d with
          nodes := d.nodes ++ (ids₁ ++ ids₂).map bareNode
          edges := d.edges ++ [writtenEdge e] } := by
    show Draft.connectChain ((Draft.mentions (edgeStatement e)).foldl Draft.mention d) _ _ = _
    rw [hmentions]
    show Draft.connect _ _ e.source e.target = _
    rw [Draft.connect, if_neg hany]
    rfl
  rw [hread]
  refine ⟨rfl, rfl, ho, ⟨ids₁ ++ ids₂, rfl, fun id hid => ⟨e, List.mem_singleton_self e, ?_⟩⟩, ?_, ?_⟩
  · rcases List.mem_append.1 hid with hid | hid
    · exact .inl (hall₁ id hid).symm
    · exact .inr (hall₂ id hid).symm
  · simpa using hnodup₂
  · intro x hx
    obtain rfl := List.mem_singleton.1 hx
    refine ⟨?_, by simpa using hmem₂⟩
    have : x.source ∈ (d.nodes ++ ids₁.map bareNode ++ ids₂.map bareNode : List (Node α)).map (·.id) := by
      rw [List.map_append]
      exact List.mem_append_left _ hmem₁
    simpa using this

/-- The lines of edges that join different nodes add these edges and those of their nodes that are
new. -/
theorem links_edgeItems {es : List (Edge α)} (d : Draft α) (ho : d.opened = [])
    (hnodup : (d.nodes.map (·.id)).Nodup)
    (hnew : (d.diagram.joined ++ es.map fun e => (e.source, e.target)).Nodup) :
    Links es d ((es.map fun e => Item.statement (edgeStatement e)).foldl Draft.readItem d) := by
  induction es generalizing d with
  | nil => exact ⟨by simp, rfl, ho, ⟨[], by simp, by simp⟩, hnodup, by simp⟩
  | cons e es ih =>
    have hfirst : (e.source, e.target) ∉ d.diagram.joined := fun hm =>
      (List.nodup_append.1 hnew).2.2 _ hm _ (by simp) rfl
    have h₁ := links_edgeStatement (e := e) ho hnodup hfirst
    set d₁ := d.readItem (.statement (edgeStatement e)) with hd₁
    have hjoined : d₁.diagram.joined = d.diagram.joined ++ [(e.source, e.target)] := by
      rw [Diagram.joined, Draft.diagram, h₁.edges, List.map_append]
      rfl
    have h₂ := ih d₁ h₁.opened h₁.nodup (by rw [hjoined]; simpa using hnew)
    obtain ⟨ids₁, hnodes₁, hall₁⟩ := h₁.nodes
    obtain ⟨ids₂, hnodes₂, hall₂⟩ := h₂.nodes
    rw [List.map_cons, List.foldl_cons, ← hd₁]
    refine ⟨by rw [h₂.edges, h₁.edges]; simp, by rw [h₂.closed, h₁.closed], h₂.opened,
      ⟨ids₁ ++ ids₂, by rw [hnodes₂, hnodes₁]; simp, fun id hid => ?_⟩, h₂.nodup, fun x hx => ?_⟩
    · rcases List.mem_append.1 hid with hid | hid
      · obtain ⟨x, hx, hor⟩ := hall₁ id hid
        exact ⟨x, by simp [List.mem_singleton.1 hx], hor⟩
      · obtain ⟨x, hx, hor⟩ := hall₂ id hid
        exact ⟨x, List.mem_cons_of_mem _ hx, hor⟩
    · rcases List.mem_cons.1 hx with rfl | hx
      · obtain ⟨h1, h2⟩ := h₁.ends x List.mem_cons_self
        rw [hnodes₂, List.map_append]
        exact ⟨List.mem_append_left _ h1, List.mem_append_left _ h2⟩
      · exact h₂.ends x hx

/-! ## The flowchart that comes back -/

/-- What comes back of a flowchart: its groups with their nodes, the nodes that stand alone, those
nodes that only edges mention, and its edges. -/
structure ComesBack (compact : Bool) (d d' : Diagram α) : Prop where
  groups : d'.groups = d.groups
  edges : d'.edges = d.edges.map writtenEdge
  nodes : ∃ ids : List String, d'.nodes = groupedNodes d d.groups
      ++ (d.nodes.filter (standsAlone compact d)).map (writtenNode none) ++ ids.map bareNode
    ∧ ∀ id ∈ ids, isLinked d id = true
  nodup_nodeIds : d'.nodeIds.Nodup
  ends : ∀ e ∈ d.edges, e.source ∈ d'.nodeIds ∧ e.target ∈ d'.nodeIds

variable {compact : Bool} {d d' : Diagram α}

/-- The items of a flowchart make a draft that holds what comes back of it. -/
theorem comesBack_foldl (h : IsWritable compact d) :
    ((bodyItems compact d).foldl Draft.readItem ({} : Draft α)).opened = []
      ∧ ComesBack compact d ((bodyItems compact d).foldl Draft.readItem ({} : Draft α)).diagram := by
  have hids : ∀ g ∈ d.groups, (membersOf d g).map (·.id) = g.children := fun g hg =>
    ids_membersOf h.nodup_nodeIds (h.children g hg)
  have hnodup := nodup_alone h
  have hgrouped := ids_groupedNodes hids
  set alone := d.nodes.filter (standsAlone compact d) with halone
  have hgroups := foldl_allGroupItems compact
    (fun g hg => (h.group g hg).1) hids {} rfl (by simpa using h.nodup_children)
  have hnodes := foldl_nodeItems compact alone
    { nodes := groupedNodes d d.groups, closed := d.groups : Draft α } rfl (by rwa [hgrouped])
  have hdraft : (d.groups.flatMap (groupItems compact d) ++ alone.map (nodeItem compact)).foldl
        Draft.readItem ({} : Draft α)
      = { nodes := groupedNodes d d.groups ++ alone.map (writtenNode none), closed := d.groups } := by
    rw [List.foldl_append, hgroups]
    simpa using hnodes
  have hlinks := links_edgeItems
    { nodes := groupedNodes d d.groups ++ alone.map (writtenNode none), closed := d.groups : Draft α }
    rfl (by
      have hmap : (alone.map (writtenNode none)).map (·.id) = alone.map (·.id) := by
        rw [List.map_map]
        rfl
      rwa [List.map_append, hgrouped, hmap]) (by
      have := h.nodup_joined
      simpa [Draft.diagram, Diagram.joined] using this)
  rw [bodyItems, List.foldl_append, hdraft]
  refine ⟨hlinks.opened, ⟨?_, hlinks.edges.trans (List.nil_append _), ?_, hlinks.nodup, hlinks.ends⟩⟩
  · rw [Draft.diagram, hlinks.closed, hlinks.opened, List.append_nil]
  · obtain ⟨ids, hids, hall⟩ := hlinks.nodes
    refine ⟨ids, hids, fun id hid => ?_⟩
    obtain ⟨e, he, hor⟩ := hall id hid
    exact List.any_eq_true.2 ⟨e, he, by simpa using hor⟩

omit [Scalar α] in
/-- A node without a line of its own is plain. -/
theorem isPlainNode_of_unlined {m : Node α} (hgrouped : isGrouped d m.id = false)
    (halone : standsAlone compact d m = false) : isPlainNode m = true := by
  rw [standsAlone, hgrouped] at halone
  cases hplain : isPlainNode m with
  | true => rfl
  | false => simp [hplain] at halone

/-- A node that comes back from edges alone has no line of its own, so it is plain. -/
theorem ComesBack.exists_plain (hd : IsWritable compact d) (h : ComesBack compact d d')
    {ids : List String} (hnodes : d'.nodes = groupedNodes d d.groups
      ++ (d.nodes.filter (standsAlone compact d)).map (writtenNode none) ++ ids.map bareNode)
    {id : String} (hid : id ∈ ids) (hlinked : isLinked d id = true) :
    ∃ m ∈ d.nodes, m.id = id ∧ isPlainNode m = true := by
  have hnodup := h.nodup_nodeIds
  rw [Diagram.nodeIds, hnodes, List.map_append, List.map_append,
    ids_groupedNodes fun g hg => ids_membersOf hd.nodup_nodeIds (hd.children g hg)] at hnodup
  obtain ⟨e, he, hor⟩ := List.any_eq_true.1 hlinked
  have hmem : id ∈ d.nodeIds := by
    simp only [Bool.or_eq_true, decide_eq_true_eq] at hor
    rcases hor with rfl | rfl
    · exact (hd.ends e he).1
    · exact (hd.ends e he).2
  obtain ⟨m, hm, rfl⟩ := List.mem_map.1 hmem
  have hnew : m.id ∉ d.groups.flatMap (·.children)
      ++ ((d.nodes.filter (standsAlone compact d)).map (writtenNode none)).map (·.id) := by
    intro hx
    refine (List.nodup_append.1 hnodup).2.2 _ hx m.id ?_ rfl
    exact List.mem_map.2 ⟨bareNode m.id, List.mem_map_of_mem hid, rfl⟩
  rw [List.mem_append, not_or] at hnew
  have hgrouped : isGrouped d m.id = false :=
    Bool.eq_false_iff.2 fun hg => hnew.1 (isGrouped_iff.1 hg)
  have halone : standsAlone compact d m = false := by
    refine Bool.eq_false_iff.2 fun hs => hnew.2 ?_
    exact List.mem_map.2 ⟨_, List.mem_map_of_mem (List.mem_filter.2 ⟨hm, hs⟩), rfl⟩
  exact ⟨m, hm, rfl, isPlainNode_of_unlined hgrouped halone⟩

/-- Every node that comes back is written like a node of the flowchart. -/
theorem ComesBack.exists_alike (hd : IsWritable compact d) (h : ComesBack compact d d')
    {n : Node α} (hn : n ∈ d'.nodes) : ∃ m ∈ d.nodes, Alike n m := by
  obtain ⟨ids, hnodes, hlinked⟩ := h.nodes
  rw [hnodes] at hn
  rcases List.mem_append.1 hn with hn | hn
  · rcases List.mem_append.1 hn with hn | hn
    · obtain ⟨g, -, hn⟩ := List.mem_flatMap.1 hn
      obtain ⟨m, hm, rfl⟩ := List.mem_map.1 hn
      exact ⟨m, (mem_membersOf hm).1, rfl, rfl, rfl⟩
    · obtain ⟨m, hm, rfl⟩ := List.mem_map.1 hn
      exact ⟨m, (List.mem_filter.1 hm).1, rfl, rfl, rfl⟩
  · obtain ⟨id, hid, rfl⟩ := List.mem_map.1 hn
    obtain ⟨m, hm, rfl, hplain⟩ := h.exists_plain hd hnodes hid (hlinked id hid)
    simp only [isPlainNode, Bool.and_eq_true, decide_eq_true_eq] at hplain
    exact ⟨m, hm, rfl, hplain.1.symm, hplain.2.symm⟩

/-- Every node of the flowchart comes back. -/
theorem ComesBack.mem_nodeIds (hd : IsWritable compact d) (h : ComesBack compact d d')
    {n : Node α} (hn : n ∈ d.nodes) : n.id ∈ d'.nodeIds := by
  obtain ⟨ids, hnodes, -⟩ := h.nodes
  have hids : d'.nodeIds = d.groups.flatMap (·.children)
      ++ (d.nodes.filter (standsAlone compact d)).map (·.id) ++ ids := by
    have h1 : ((d.nodes.filter (standsAlone compact d)).map (writtenNode none)).map (·.id)
        = (d.nodes.filter (standsAlone compact d)).map (·.id) := by
      rw [List.map_map]
      rfl
    have h2 : (ids.map bareNode : List (Node α)).map (·.id) = ids := by
      rw [List.map_map]
      exact List.map_id _
    rw [Diagram.nodeIds, hnodes, List.map_append, List.map_append, h1, h2,
      ids_groupedNodes fun g hg => ids_membersOf hd.nodup_nodeIds (hd.children g hg)]
  rw [hids]
  by_cases hg : isGrouped d n.id = true
  · exact List.mem_append_left _ (List.mem_append_left _ (isGrouped_iff.1 hg))
  · by_cases hs : standsAlone compact d n = true
    · refine List.mem_append_left _ (List.mem_append_right _ ?_)
      exact List.mem_map.2 ⟨n, List.mem_filter.2 ⟨hn, hs⟩, rfl⟩
    · have hlinked : isLinked d n.id = true := by
        rw [standsAlone] at hs
        simp only [hg] at hs
        cases hl : isLinked d n.id with
        | true => rfl
        | false => simp [hl] at hs
      obtain ⟨e, he, hor⟩ := List.any_eq_true.1 hlinked
      simp only [Bool.or_eq_true, decide_eq_true_eq] at hor
      rw [← hids]
      rcases hor with hor | hor
      · rw [← hor]
        exact (h.ends e he).1
      · rw [← hor]
        exact (h.ends e he).2

/-- What comes back says the same. -/
theorem ComesBack.sameContent (hd : IsWritable compact d) (h : ComesBack compact d d') :
    d.SameContent d' := by
  refine .of_edges (fun p => ?_) ?_
  · simp only [Diagram.nodeLabels, List.mem_map]
    constructor
    · rintro ⟨n, hn, rfl⟩
      obtain ⟨n', hn', hid⟩ := List.mem_map.1 (h.mem_nodeIds hd hn)
      obtain ⟨m, hm, hmid, hlabel, -⟩ := h.exists_alike hd hn'
      have hmn : m = n := List.inj_on_of_nodup_map hd.nodup_nodeIds hm hn (by rw [← hmid, hid])
      exact ⟨n', hn', by rw [hid, hlabel, hmn]⟩
    · rintro ⟨n', hn', rfl⟩
      obtain ⟨m, hm, hmid, hlabel, -⟩ := h.exists_alike hd hn'
      exact ⟨m, hm, by rw [hmid, hlabel]⟩
  · rw [h.edges, List.map_map]
    rfl

/-! ## It is written the same -/

theorem ComesBack.isGrouped (h : ComesBack compact d d') (id : String) :
    isGrouped d' id = isGrouped d id := by
  rw [Writer.Flowchart.isGrouped, Writer.Flowchart.isGrouped, h.groups]

theorem ComesBack.isLinked (h : ComesBack compact d d') (id : String) :
    isLinked d' id = isLinked d id := by
  rw [Writer.Flowchart.isLinked, Writer.Flowchart.isLinked, h.edges, List.any_map]
  rfl

theorem ComesBack.nodeLine?_of_alike (h : ComesBack compact d d') {n m : Node α} (ha : Alike n m) :
    nodeLine? compact d' n = nodeLine? compact d m := by
  have hplain : isPlainNode n = isPlainNode m := by simp only [isPlainNode, ha.1, ha.2.1, ha.2.2]
  rw [nodeLine?_eq, nodeLine?_eq, standsAlone, standsAlone, h.isGrouped, h.isLinked, hplain, ha.1,
    nodeText_of_alike ha]

/-- The nodes of a group are written the same. -/
theorem ComesBack.groupLines (hd : IsWritable compact d) (h : ComesBack compact d d') {g : Group}
    (hg : g ∈ d.groups) : groupLines compact d' g = groupLines compact d g := by
  have hmembers : (g.children.filterMap d'.node?).map (groupedLine compact)
      = (g.children.filterMap d.node?).map (groupedLine compact) := by
    rw [List.map_filterMap, List.map_filterMap]
    refine List.filterMap_congr fun c hc => ?_
    obtain ⟨n, hn, rfl⟩ := List.mem_map.1 (hd.children g hg c hc)
    obtain ⟨n', hn', hid⟩ := List.mem_map.1 (h.mem_nodeIds hd hn)
    obtain ⟨m, hm, ha⟩ := h.exists_alike hd hn'
    have hmn : m = n := List.inj_on_of_nodup_map hd.nodup_nodeIds hm hn (by rw [← ha.1, hid])
    have hfind := node?_of_mem h.nodup_nodeIds hn'
    rw [hid] at hfind
    rw [hfind, node?_of_mem hd.nodup_nodeIds hn, Option.map_some, Option.map_some, ← hmn]
    show some (Writer.indent ++ Writer.indent ++ nodeText compact n') = some (Writer.indent
      ++ Writer.indent ++ nodeText compact m)
    rw [nodeText_of_alike ha]
  rw [Writer.Flowchart.groupLines, Writer.Flowchart.groupLines, hmembers]

/-- The nodes outside the groups are written the same. -/
theorem ComesBack.nodeLines (hd : IsWritable compact d) (h : ComesBack compact d d') :
    d'.nodes.filterMap (nodeLine? compact d') = d.nodes.filterMap (nodeLine? compact d) := by
  obtain ⟨ids, hnodes, -⟩ := h.nodes
  have hgrouped : (groupedNodes d d.groups).filterMap (nodeLine? compact d') = [] := by
    refine List.filterMap_eq_nil_iff.2 fun n hn => ?_
    obtain ⟨g, hg, hn⟩ := List.mem_flatMap.1 hn
    obtain ⟨m, hm, rfl⟩ := List.mem_map.1 hn
    have hgrouped := isGrouped_of_mem hg (mem_membersOf hm).2
    have ha : Alike (writtenNode (some g.id) m) m := ⟨rfl, rfl, rfl⟩
    rw [h.nodeLine?_of_alike ha, nodeLine?_eq, standsAlone, hgrouped]
    rfl
  have halone : ((d.nodes.filter (standsAlone compact d)).map (writtenNode none)).filterMap
      (nodeLine? compact d') = d.nodes.filterMap (nodeLine? compact d) := by
    have hcongr : ∀ n : Node α, nodeLine? compact d' (writtenNode none n) = nodeLine? compact d n :=
      fun n => h.nodeLine?_of_alike ⟨rfl, rfl, rfl⟩
    rw [List.filterMap_map, List.filterMap_filter]
    refine List.filterMap_congr fun n _ => ?_
    rw [Function.comp_apply, hcongr, nodeLine?_eq]
    split <;> rfl
  have hbare : (ids.map bareNode : List (Node α)).filterMap (nodeLine? compact d') = [] := by
    refine List.filterMap_eq_nil_iff.2 fun n hn => ?_
    obtain ⟨m, hm, ha⟩ := h.exists_alike hd (n := n) (by rw [hnodes]; exact List.mem_append_right _ hn)
    rw [h.nodeLine?_of_alike ha, nodeLine?_eq]
    by_cases hs : standsAlone compact d m = true
    · -- then the node would come back twice
      have hnodup := h.nodup_nodeIds
      rw [Diagram.nodeIds, hnodes, List.map_append] at hnodup
      refine absurd rfl ((List.nodup_append.1 hnodup).2.2 m.id ?_ m.id ?_)
      · refine List.mem_map.2 ⟨writtenNode none m, List.mem_append_right _ ?_, rfl⟩
        exact List.mem_map.2 ⟨m, List.mem_filter.2 ⟨hm, hs⟩, rfl⟩
      · exact List.mem_map.2 ⟨n, hn, ha.1⟩
    · rw [if_neg hs]
  rw [hnodes, List.filterMap_append, List.filterMap_append, hgrouped, halone, hbare, List.nil_append,
    List.append_nil]

theorem isDashed_linkEdge (l : Link) (s t : String) :
    (Draft.linkEdge l s t : Edge α).isDashed = decide (l.stroke = .dashed) := by
  unfold Draft.linkEdge Edge.isDashed Edge.strokeStyle
  cases l.stroke <;> rfl

theorem strokeOf_linkEdge (hthick : (Draft.thickWidth : α) ≤ Draft.thickWidth) (l : Link)
    (s t : String) : strokeOf (Draft.linkEdge l s t : Edge α) = l.stroke := by
  rw [strokeOf, isDashed_linkEdge, Draft.linkEdge]
  cases hl : l.stroke with
  | normal => rfl
  | dashed => rfl
  | thick =>
    show (if Draft.thickWidth ≤ (Draft.thickWidth : α) then Stroke.thick else Stroke.normal) = .thick
    rw [if_pos hthick]

theorem linkToken_writtenEdge (hthick : (Draft.thickWidth : α) ≤ Draft.thickWidth) (e : Edge α) :
    linkToken (writtenEdge e) = linkToken e := by
  have hstroke : strokeOf (writtenEdge e) = strokeOf e := strokeOf_linkEdge hthick _ _ _
  have hstart : (writtenEdge e).startHead
      = if e.startHead ≠ .none ∧ e.endHead ≠ .none then .arrow else .none := rfl
  have hend : (writtenEdge e).endHead = if e.endHead = .none then .none else .arrow := rfl
  rw [linkToken, linkToken, hstroke, hstart, hend]
  by_cases h1 : e.startHead = .none <;> by_cases h2 : e.endHead = .none <;> simp [h1, h2]

/-- What comes back is written the same. -/
theorem ComesBack.body (hthick : (Draft.thickWidth : α) ≤ Draft.thickWidth)
    (hd : IsWritable compact d) (h : ComesBack compact d d') : body compact d' = body compact d := by
  have hgroups : d.groups.flatMap (Writer.Flowchart.groupLines compact d')
      = d.groups.flatMap (Writer.Flowchart.groupLines compact d) :=
    List.flatMap_congr fun g hg => h.groupLines hd hg
  have hedges : d'.edges.map (edgeLine compact) = d.edges.map (edgeLine compact) := by
    rw [h.edges, List.map_map]
    refine List.map_congr_left fun e _ => ?_
    rw [Function.comp_apply, edgeLine, linkToken_writtenEdge hthick, edgeLine]
    rfl
  rw [Writer.Flowchart.body, h.groups, hgroups, h.nodeLines hd, hedges, Writer.Flowchart.body]

/-! ## Reading the text -/

/-- Whether an item is something that every reading can read. -/
def Item.IsReadable : Item → Prop
  | .trailing _ | .unreadable => False
  | _ => True

/-- Lines that can be read are read item by item. -/
theorem readLines_of_isReadable {lenient : Bool} {ls : List Line} (draft : Draft α)
    (h : ∀ l ∈ ls, (Item.read l.text).IsReadable) : Draft.readLines lenient draft ls
      = .ok ((ls.map fun l => Item.read l.text).foldl Draft.readItem draft) := by
  induction ls generalizing draft with
  | nil => rfl
  | cons l ls ih =>
    have hl := h l List.mem_cons_self
    have hstep : draft.readLine lenient l = .ok (draft.readItem (Item.read l.text)) := by
      unfold Draft.readLine
      cases hi : Item.read l.text <;> rw [hi] at hl <;> first | rfl | exact hl.elim
    rw [Draft.readLines, hstep]
    exact ih _ fun m hm => h m (List.mem_cons_of_mem _ hm)

omit [Scalar α] in
theorem isReadable_of_mem_itemsOf {opening : Group → Item} {item : Node α → Item}
    {link : Edge α → Item} (hgroup : ∀ g, (opening g).IsReadable) (hnode : ∀ n, (item n).IsReadable)
    (hedge : ∀ e, (link e).IsReadable) {i : Item} (h : i ∈ itemsOf opening item link compact d) :
    i.IsReadable := by
  rcases List.mem_append.1 h with h | h
  · rcases List.mem_append.1 h with h | h
    · obtain ⟨g, -, h⟩ := List.mem_flatMap.1 h
      rcases List.mem_append.1 h with h | h
      · rcases List.mem_cons.1 h with rfl | h
        · exact hgroup g
        · obtain ⟨n, -, rfl⟩ := List.mem_map.1 h
          exact hnode n
      · rw [List.mem_singleton.1 h]
        trivial
    · obtain ⟨n, -, rfl⟩ := List.mem_map.1 h
      exact hnode n
  · obtain ⟨e, -, rfl⟩ := List.mem_map.1 h
    exact hedge e

section Says

variable {lines : List (List Char)} {items : List Item}

/-- Lines that say something carry content. -/
theorem content_of_says (h : List.Forall₂ Says lines items) :
    ∀ l ∈ lines, '\n' ∉ l ∧ IsContent (trim l) := by
  induction h with
  | nil => simp
  | cons h _ ih => exact List.forall_mem_cons.2 ⟨⟨h.lineFeed_notMem, h.isContent⟩, ih⟩

/-- Lines are read as what they say. -/
theorem map_read_of_says (h : List.Forall₂ Says lines items) {ls : List Line}
    (hls : ls.map (·.text) = lines.map trim) : ls.map (fun l => Item.read l.text) = items := by
  have hread : lines.map (fun l => Item.read (trim l)) = items := by
    clear hls
    induction h with
    | nil => rfl
    | cons h _ ih => rw [List.map_cons, h.read, ih]
  rw [← hread, ← Function.comp_def (g := trim), ← List.map_map, ← hls, List.map_map]
  rfl

/-- Lines are read as the draft of what they say. -/
theorem parse_of_says (h : List.Forall₂ Says lines items) (hreadable : ∀ i ∈ items, i.IsReadable)
    (lenient : Bool) {ls : List Line} (hls : ls.map (·.text) = lines.map trim) :
    parse lenient ls = .ok (items.foldl Draft.readItem ({} : Draft α)).finish := by
  have hitems := map_read_of_says h hls
  have hlines : ∀ l ∈ ls, (Item.read l.text).IsReadable := fun l hl =>
    hreadable _ (hitems ▸ List.mem_map_of_mem (f := fun l : Line => Item.read l.text) hl)
  rw [parse, readLines_of_isReadable _ hlines, hitems]
  rfl

/-- The text of a flowchart is read as the draft of what its lines say. -/
theorem parse_render_of_says (hk : d.kind = .flowchart ∨ d.kind = .c4)
    (h : List.Forall₂ Says (body compact d) items) (hreadable : ∀ i ∈ items, i.IsReadable) :
    ∃ direction, (d.kind = .flowchart → direction = d.direction)
      ∧ Diagram.parse (d.render compact) = .ok { (items.foldl Draft.readItem ({} : Draft α)).finish with
        kind := d.kind, direction := direction } := by
  have hbody : d.bodyLines compact = body compact d := by
    rw [Diagram.bodyLines]
    rcases hk with hk | hk <;> rw [hk]
  obtain ⟨ls, hls, htext⟩ := Diagram.contentLines_render compact d
    (by rw [hbody]; exact content_of_says h)
  rw [hbody] at htext
  rw [Diagram.parse_of_contentLines hls, parseBody]
  rcases hk with hk | hk
  · have hparse := parse_of_says (α := α) h hreadable false htext
    have hword : Header.ofWord? (firstWord d.header) = some .flowchart
        ∧ headerDirection ⟨1, d.header⟩ = .ok d.direction := by
      rw [Diagram.header, hk]
      cases d.direction <;> exact ⟨by decide, by decide⟩
    rw [hword.1]
    dsimp only
    rw [hword.2]
    refine ⟨d.direction, fun _ => rfl, ?_⟩
    simp only [Except.bind, Except.map, hparse, hk]
    rfl
  · have hparse := parse_of_says (α := α) h hreadable true htext
    have hword : Header.ofWord? (firstWord d.header) = some .c4 := by
      rw [Diagram.header, hk]
      rfl
    rw [hword]
    refine ⟨(items.foldl Draft.readItem ({} : Draft α)).finish.direction, by simp [hk], ?_⟩
    simp only [Except.map, hparse, hk]

end Says

/-- What comes back has nothing that refers to nothing. -/
theorem ComesBack.prune (hd : IsWritable compact d) (h : ComesBack compact d d') : d'.prune = d' := by
  obtain ⟨ids, hnodes, -⟩ := h.nodes
  refine Diagram.prune_eq_self (fun e he => ?_) (fun g hg c hc => ?_) (fun g hg => ?_) fun n hn => ?_
  · rw [h.edges] at he
    obtain ⟨x, hx, rfl⟩ := List.mem_map.1 he
    exact h.ends x hx
  · rw [h.groups] at hg
    obtain ⟨n, hn, rfl⟩ := List.mem_map.1 (hd.children g hg c hc)
    exact h.mem_nodeIds hd hn
  · rw [h.groups] at hg
    exact hd.two_children g hg
  · rw [hnodes] at hn
    rcases List.mem_append.1 hn with hn | hn
    · rcases List.mem_append.1 hn with hn | hn
      · obtain ⟨g, hg, hn⟩ := List.mem_flatMap.1 hn
        obtain ⟨m, hm, rfl⟩ := List.mem_map.1 hn
        left
        show Writer.Flowchart.isGrouped d' m.id = true
        rw [h.isGrouped]
        exact isGrouped_of_mem hg (mem_membersOf hm).2
      · obtain ⟨m, -, rfl⟩ := List.mem_map.1 hn
        exact .inr rfl
    · obtain ⟨id, -, rfl⟩ := List.mem_map.1 hn
      exact .inr rfl

/-- What is read from a written flowchart. -/
theorem parse_render (hk : d.kind = .flowchart ∨ d.kind = .c4) (hd : IsWritable compact d) :
    ∃ d', (Diagram.parse (d.render compact) : Except SyntaxError (Diagram α)) = .ok d'
      ∧ d'.kind = d.kind ∧ d'.header = d.header ∧ ComesBack compact d d' := by
  have hreadable : ∀ i ∈ bodyItems compact d, i.IsReadable := by
    rw [bodyItems_eq]
    intro i hi
    refine isReadable_of_mem_itemsOf ?_ ?_ ?_ hi <;> exact fun _ => trivial
  obtain ⟨direction, hdirection, hparse⟩ := parse_render_of_says hk (says_body hd) hreadable
  obtain ⟨-, h⟩ := comesBack_foldl hd
  have hprune : ((bodyItems compact d).foldl Draft.readItem ({} : Draft α)).finish
      = ((bodyItems compact d).foldl Draft.readItem ({} : Draft α)).diagram := h.prune hd
  rw [hprune] at hparse
  refine ⟨_, hparse, rfl, ?_, ⟨h.groups, h.edges, h.nodes, h.nodup_nodeIds, h.ends⟩⟩
  rw [Diagram.header, Diagram.header]
  rcases hk with hk | hk
  · rw [hk, hdirection hk]
  · rw [hk]

end DiagramBoard.Grammar.Flowchart
