/-
DiagramBoard.Proofs.RoundTrip.Retold — flowcharts of any origin, written and read.

A flowchart need not come from a text: its groups may share nodes or list one twice and have any
texts for ids, several edges may join the same nodes, and labels may start and end in blanks.  Its
text still says what it shows.  A node that is mentioned again is mentioned as it was before, the
first of several edges between two nodes counts, and whatever a subgraph is called, it adds no node
and no edge.

Main statement: the text of a flowchart with readable ids and labels is read as one with the same
nodes and edges (`retells_of_isTellable`).
-/
import DiagramBoard.Proofs.Grammar.FlowchartMentions
import DiagramBoard.Proofs.RoundTrip

namespace DiagramBoard

variable {α : Type}

/-- Whether a diagram says what another one does: the same nodes with their labels and shapes, and
between the same nodes an edge with the label of the first one there.  Blanks around labels do not
count. -/
structure Diagram.Retells (d' d : Diagram α) : Prop where
  mem_nodeIds_iff : ∀ id, id ∈ d'.nodeIds ↔ id ∈ d.nodeIds
  nodes : ∀ n' ∈ d'.nodes, ∃ n ∈ d.nodes,
    n'.id = n.id ∧ n'.label = trimmed n.label ∧ n'.shape = n.shape
  mem_joined_iff : ∀ p, p ∈ d'.joined ↔ p ∈ d.joined
  edges : ∀ e' ∈ d'.edges, ∃ e, d.edgeBetween? e'.source e'.target = some e
    ∧ e'.label = e.label.map trimmed

namespace Grammar.Flowchart

open Text
open Writer (indent)
open Writer.Flowchart (isPlainNode isLinked isGrouped groupHeader edgeLine body)

/-- A flowchart whose text can be read. -/
structure IsTellable (d : Diagram α) : Prop where
  nodup_nodeIds : d.nodeIds.Nodup
  isId : ∀ id ∈ d.nodeIds, IsId id.toList ∧ id ≠ "subgraph" ∧ id ≠ "end"
  label : ∀ n ∈ d.nodes, IsLegible n.label.toList
  edgeLabel : ∀ e ∈ d.edges, ∀ l ∈ e.label, IsLegible l.toList
  ends : ∀ e ∈ d.edges, e.source ∈ d.nodeIds ∧ e.target ∈ d.nodeIds
  group : ∀ g ∈ d.groups, '\n' ∉ g.id.toList ∧ '\n' ∉ g.label.toList

variable {compact : Bool} {d : Diagram α} {draft : Draft α}

theorem IsTellable.isId_of_mem (h : IsTellable d) {n : Node α} (hn : n ∈ d.nodes) :
    IsId n.id.toList := (h.isId _ (Diagram.mem_nodeIds hn)).1

/-! ## The nodes of a draft -/

/-- Whether the nodes of a draft are told by those of a flowchart. -/
def IsTold (d : Diagram α) (draft : Draft α) : Prop :=
  ∀ n' ∈ draft.nodes, ∃ n ∈ d.nodes, Alike n' n.trimmed

/-- Whether a mention tells no more and no less than a node of a flowchart, where some nodes were
mentioned before: it says the whole node, or its id alone if that is enough. -/
def Tells (d : Diagram α) (known : List String) (m : NodeMention) : Prop :=
  ∃ n ∈ d.nodes, m = declaredMention n.trimmed
    ∨ m = { id := n.id } ∧ (isPlainNode n = true ∨ n.id ∈ known)

theorem Tells.mono {known known' : List String} {m : NodeMention} (h : Tells d known m)
    (hsub : known ⊆ known') : Tells d known' m := by
  obtain ⟨n, hn, hm | ⟨hm, hor⟩⟩ := h
  · exact ⟨n, hn, .inl hm⟩
  · exact ⟨n, hn, .inr ⟨hm, hor.imp_right (hsub ·)⟩⟩

/-- A node that is said again stays as it is. -/
theorem refine_of_alike {n' n : Node α} (h : Alike n' n) :
    Draft.refine (declaredMention n) n' = n' := by
  have hlabel : (Draft.refine (declaredMention n) n').label = n'.label := by
    show (if n.label = n.id then n'.label else n.label) = n'.label
    rw [h.2.1, ite_self]
  have hshape : (Draft.refine (declaredMention n) n').shape = n'.shape := by
    rw [h.2.2]
    cases hs : n.shape <;> simp [Draft.refine, declaredMention, hs, h.2.2]
  calc Draft.refine (declaredMention n) n'
      = { n' with label := (Draft.refine (declaredMention n) n').label,
                  shape := (Draft.refine (declaredMention n) n').shape } := rfl
    _ = n' := by rw [hlabel, hshape]

/-- A plain node is told by its id. -/
theorem alike_of_isPlainNode {n : Node α} (hid : IsId n.id.toList) (h : isPlainNode n = true)
    (group : Option String) :
    Alike (Draft.firstMention { id := n.id } group : Node α) n.trimmed := by
  simp only [isPlainNode, Bool.and_eq_true, decide_eq_true_eq] at h
  refine ⟨rfl, ?_, h.2.symm⟩
  show n.id = trimmed n.label
  rw [h.1, trimmed_eq_self hid.isName.isTidy]

/-- A mention of a node leaves the nodes told. -/
theorem IsTold.mention (hd : IsTellable d) (h : IsTold d draft) {m : NodeMention}
    (hm : Tells d (draft.nodes.map (·.id)) m) : IsTold d (draft.mention m) := by
  obtain ⟨n, hn, hm⟩ := hm
  have hid : m.id = n.id := by
    rcases hm with rfl | ⟨rfl, -⟩ <;> rfl
  cases hany : draft.nodes.any (·.id = m.id) with
  | true =>
    -- the node is there, and the mention adds nothing to it
    have hself : Draft.refineFirst m draft.nodes = draft.nodes := by
      refine refineFirst_eq_self fun n' hn' hsame => ?_
      rcases hm with rfl | ⟨rfl, -⟩
      · obtain ⟨k, hk, halike⟩ := h n' hn'
        obtain rfl : k = n :=
          List.inj_on_of_nodup_map hd.nodup_nodeIds hk hn (halike.1.symm.trans hsame)
        exact refine_of_alike halike
      · rfl
    intro n' hn'
    rw [Draft.mention_of_known hany, hself] at hn'
    exact h n' hn'
  | false =>
    have hnew : n.id ∉ draft.diagram.nodeIds := fun hmem =>
      Bool.eq_false_iff.1 hany (hid ▸ (Diagram.hasNode_iff (d := draft.diagram)).2 hmem)
    intro n' hn'
    obtain ⟨group, hnodes⟩ := nodes_mention draft m hany
    rw [hnodes] at hn'
    rcases List.mem_append.1 hn' with hn' | hn'
    · exact h n' hn'
    · obtain rfl := List.mem_singleton.1 hn'
      refine ⟨n, hn, ?_⟩
      rcases hm with rfl | ⟨rfl, hplain⟩
      · exact ⟨rfl, rfl, rfl⟩
      · exact alike_of_isPlainNode (hd.isId_of_mem hn) (hplain.resolve_right hnew) group

theorem IsTold.foldl_mention (hd : IsTellable d) {ms : List NodeMention} (h : IsTold d draft)
    (hms : ∀ m ∈ ms, Tells d (draft.nodes.map (·.id)) m) : IsTold d (ms.foldl Draft.mention draft) := by
  induction ms generalizing draft with
  | nil => exact h
  | cons m ms ih =>
    refine ih (h.mention hd (hms m List.mem_cons_self)) fun k hk => ?_
    exact (hms k (List.mem_cons_of_mem _ hk)).mono fun id hid => mem_ids_mention.2 (.inl hid)

variable [Scalar α]

/-- Lines that mention nodes of a flowchart leave the nodes told. -/
theorem IsTold.foldl_readItem (hd : IsTellable d) {items : List Item} (h : IsTold d draft)
    (hitems : ∀ i ∈ items, ∀ m ∈ i.mentions, Tells d (draft.nodes.map (·.id)) m) :
    IsTold d (items.foldl Draft.readItem draft) := by
  induction items generalizing draft with
  | nil => exact h
  | cons i items ih =>
    refine ih ?_ fun j hj m hm => ?_
    · intro n' hn'
      rw [nodes_readItem] at hn'
      exact h.foldl_mention hd (hitems i List.mem_cons_self) n' hn'
    · refine (hitems j (List.mem_cons_of_mem _ hj) m hm).mono fun id hid => ?_
      rw [nodes_readItem]
      exact mem_ids_foldl_mention.2 (.inl hid)

/-! ## What the text says -/

/-- The items of the text of a flowchart, be its labels tidy or not. -/
def saidItems (compact : Bool) (d : Diagram α) : List Item :=
  itemsOf (fun g => .opening (trim (groupTitle g))) (saidItem compact)
    (fun e => .statement (edgeStatement e.trimmed)) compact d

/-- The lines of a flowchart say what its items are. -/
theorem says_saidItems (h : IsTellable d) :
    List.Forall₂ Says (body compact d) (saidItems compact d) := by
  refine says_body_of_parts (fun g hg => ?_) (fun n hn _ s hs => ?_) fun e he => ?_
  · exact says_groupHeader (lineFeed_notMem_groupHeader (h.group g hg).1 (h.group g hg).2)
  · obtain ⟨hid, hne⟩ := h.isId _ (Diagram.mem_nodeIds hn)
    exact says_nodeLine ⟨hid, h.label n hn, fun _ _ => hne⟩ hs
  · obtain ⟨hs, hsub, -⟩ := h.isId _ (h.ends e he).1
    exact says_edgeLine hs (h.isId _ (h.ends e he).2).1 (h.edgeLabel e he) hsub

/-- The items before those of the edges. -/
def nodeItems (compact : Bool) (d : Diagram α) : List Item :=
  d.groups.flatMap (fun g =>
      .opening (trim (groupTitle g)) :: (membersOf d g).map (saidItem compact) ++ [.closing])
    ++ (d.nodes.filter (standsAlone compact d)).map (saidItem compact)

theorem saidItems_eq (compact : Bool) (d : Diagram α) : saidItems compact d
    = nodeItems compact d ++ d.edges.map fun e => .statement (edgeStatement e.trimmed) := rfl

/-- What a line in front of the edges is. -/
theorem of_mem_nodeItems {i : Item} (h : i ∈ nodeItems compact d) :
    i.mentions = [] ∧ (i.links : List (Edge α)) = []
      ∨ ∃ n ∈ d.nodes, i = saidItem compact n := by
  rcases List.mem_append.1 h with h | h
  · obtain ⟨g, -, h⟩ := List.mem_flatMap.1 h
    rcases List.mem_append.1 h with h | h
    · rcases List.mem_cons.1 h with rfl | h
      · exact .inl ⟨rfl, rfl⟩
      · obtain ⟨n, hn, rfl⟩ := List.mem_map.1 h
        exact .inr ⟨n, (mem_membersOf hn).1, rfl⟩
    · rw [List.mem_singleton.1 h]
      exact .inl ⟨rfl, rfl⟩
  · obtain ⟨n, hn, rfl⟩ := List.mem_map.1 h
    exact .inr ⟨n, (List.mem_filter.1 hn).1, rfl⟩

omit [Scalar α] in
/-- A node that no edge needs to mention has a line. -/
theorem saidItem_mem_nodeItems (hd : IsTellable d) {n : Node α} (hn : n ∈ d.nodes)
    (h : isGrouped d n.id = true ∨ standsAlone compact d n = true) :
    saidItem compact n ∈ nodeItems compact d := by
  rcases h with h | h
  · obtain ⟨g, hg, hc⟩ := List.any_eq_true.1 h
    refine List.mem_append_left _ (List.mem_flatMap.2 ⟨g, hg, List.mem_append_left _ ?_⟩)
    refine List.mem_cons_of_mem _ (List.mem_map_of_mem (List.mem_filterMap.2 ⟨n.id, ?_, ?_⟩))
    · simpa using hc
    · exact node?_of_mem hd.nodup_nodeIds hn
  · exact List.mem_append_right _ (List.mem_map_of_mem (List.mem_filter.2 ⟨hn, h⟩))

omit [Scalar α] in
theorem mentions_saidItem (compact : Bool) (n : Node α) :
    (saidItem compact n).mentions = [saidMention compact n] := rfl

omit [Scalar α] in
theorem saidMention_id (compact : Bool) (n : Node α) : (saidMention compact n).id = n.id := by
  unfold saidMention
  split <;> rfl

omit [Scalar α] in
theorem tells_saidMention {n : Node α} (hn : n ∈ d.nodes) (known : List String) :
    Tells d known (saidMention compact n) := by
  refine ⟨n, hn, ?_⟩
  unfold saidMention
  split
  · next h => exact .inr ⟨rfl, .inl (Bool.and_eq_true_iff.1 h).2⟩
  · exact .inl rfl

/-- The nodes that have a line of their own are mentioned in front of the edges. -/
theorem mem_ids_nodeItems (hd : IsTellable d) {n : Node α} (hn : n ∈ d.nodes)
    (h : isGrouped d n.id = true ∨ standsAlone compact d n = true) :
    n.id ∈ ((nodeItems compact d).foldl Draft.readItem ({} : Draft α)).nodes.map (·.id) := by
  refine mem_ids_foldl_readItem.2 (.inr ⟨_, saidItem_mem_nodeItems hd hn h, ?_⟩)
  rw [mentions_saidItem, List.map_singleton, saidMention_id]
  exact List.mem_singleton_self _

/-- The draft of the text of a flowchart. -/
def retoldDraft (compact : Bool) (d : Diagram α) : Draft α :=
  (saidItems compact d).foldl Draft.readItem {}

/-- The nodes of the draft are told by those of the flowchart. -/
theorem isTold_retoldDraft (hd : IsTellable d) : IsTold d (retoldDraft compact d) := by
  rw [retoldDraft, saidItems_eq, List.foldl_append]
  have hnodes : IsTold d ((nodeItems compact d).foldl Draft.readItem {}) := by
    refine IsTold.foldl_readItem hd (by simp [IsTold]) fun i hi m hm => ?_
    rcases of_mem_nodeItems hi with ⟨hnone, -⟩ | ⟨n, hn, rfl⟩
    · rw [hnone] at hm
      exact absurd hm List.not_mem_nil
    · rw [mentions_saidItem] at hm
      obtain rfl := List.mem_singleton.1 hm
      exact tells_saidMention hn _
  refine IsTold.foldl_readItem hd hnodes fun i hi m hm => ?_
  obtain ⟨e, he, rfl⟩ := List.mem_map.1 hi
  -- an edge mentions its ends by their ids, which is enough for plain nodes; the others have lines
  have hend : ∀ id ∈ d.nodeIds,
      Tells d (((nodeItems compact d).foldl Draft.readItem ({} : Draft α)).nodes.map (·.id))
        { id := id } := by
    intro id hid
    obtain ⟨n, hn, rfl⟩ := List.mem_map.1 hid
    refine ⟨n, hn, .inr ⟨rfl, ?_⟩⟩
    cases hplain : isPlainNode n with
    | true => exact .inl rfl
    | false =>
      refine .inr (mem_ids_nodeItems hd hn ?_)
      cases hgrouped : isGrouped d n.id with
      | true => exact .inl rfl
      | false => exact .inr (by simp [standsAlone, hgrouped, hplain])
  have hm : m ∈ [({ id := e.source } : NodeMention), { id := e.target }] := hm
  rcases List.mem_cons.1 hm with rfl | hm
  · exact hend _ (hd.ends e he).1
  · rw [List.mem_singleton.1 hm]
    exact hend _ (hd.ends e he).2

/-- The draft has the nodes of the flowchart. -/
theorem mem_ids_retoldDraft (hd : IsTellable d) {id : String} :
    id ∈ (retoldDraft compact d).nodes.map (·.id) ↔ id ∈ d.nodeIds := by
  constructor
  · intro h
    obtain ⟨n', hn', rfl⟩ := List.mem_map.1 h
    obtain ⟨n, hn, halike⟩ := isTold_retoldDraft hd n' hn'
    exact List.mem_map.2 ⟨n, hn, halike.1.symm⟩
  · intro h
    obtain ⟨n, hn, rfl⟩ := List.mem_map.1 h
    by_cases hline : isGrouped d n.id = true ∨ standsAlone compact d n = true
    · rw [retoldDraft, saidItems_eq, List.foldl_append]
      exact mem_ids_foldl_readItem.2 (.inl (mem_ids_nodeItems hd hn hline))
    · -- a node without a line is the end of an edge
      have hlinked : isLinked d n.id = true := by
        cases hl : isLinked d n.id with
        | true => rfl
        | false => simp [standsAlone, hl] at hline
      obtain ⟨e, he, hor⟩ := List.any_eq_true.1 hlinked
      refine mem_ids_foldl_readItem.2 (.inr ⟨.statement (edgeStatement e.trimmed), ?_, ?_⟩)
      · rw [saidItems_eq]
        exact List.mem_append_right _ (List.mem_map_of_mem he)
      · rw [Bool.or_eq_true, decide_eq_true_eq, decide_eq_true_eq] at hor
        have hends : n.id ∈ [e.source, e.target] := by
          rcases hor with hid | hid <;> simp [hid]
        exact hends

/-- Between two nodes the draft has the first edge of the flowchart. -/
theorem find?_retoldDraft (compact : Bool) (d : Diagram α) (s t : String) :
    (retoldDraft compact d).edges.find? (·.joins s t)
      = (d.edgeBetween? s t).map fun e => writtenEdge e.trimmed := by
  have hnodes : ((nodeItems compact d).flatMap Item.links : List (Edge α)) = [] := by
    rw [List.flatMap_eq_nil_iff]
    intro i hi
    rcases of_mem_nodeItems hi with ⟨-, hnone⟩ | ⟨n, -, rfl⟩
    · exact hnone
    · rfl
  have hlinks : (saidItems compact d).flatMap Item.links
      = d.edges.map fun e => writtenEdge e.trimmed := by
    have hlink : ∀ e : Edge α, Item.links (.statement (edgeStatement e.trimmed))
        = [writtenEdge e.trimmed] := fun e => congrArg ([·]) (linkEdge_eq _ _ _).symm
    rw [saidItems_eq, List.flatMap_append, hnodes, List.nil_append, List.flatMap_map]
    simp only [hlink]
    exact List.flatMap_pure_eq_map _ _
  rw [retoldDraft, find?_foldl_readItem, hlinks, List.find?_map]
  rfl

/-! ## What comes back -/

/-- The text of a flowchart is read as the draft, which refers to nothing that is not there. -/
theorem retells_finish (hd : IsTellable d) (hjoined : (retoldDraft compact d).finish.joined.Nodup)
    (kind : DiagramKind) (direction : Direction) :
    Diagram.Retells { (retoldDraft compact d).finish with kind := kind, direction := direction } d := by
  set draft := retoldDraft compact d with hdraft
  have hedges : draft.finish.edges = draft.edges := by
    refine Diagram.prunedEdges_eq_self fun e he => ?_
    have hsome : (draft.diagram.edgeBetween? e.source e.target).isSome = true :=
      Diagram.mem_joined_iff.1 (List.mem_map_of_mem he)
    rw [Diagram.edgeBetween?, Draft.diagram, hdraft, find?_retoldDraft, Option.isSome_map] at hsome
    obtain ⟨x, hx⟩ := Option.isSome_iff_exists.1 hsome
    obtain ⟨hsource, htarget⟩ := Edge.joins_iff.1 (List.find?_some hx)
    obtain ⟨h1, h2⟩ := hd.ends x (List.mem_of_find?_eq_some hx)
    exact ⟨hsource ▸ (mem_ids_retoldDraft hd).2 h1, htarget ▸ (mem_ids_retoldDraft hd).2 h2⟩
  have hbetween : ∀ s t, draft.finish.edgeBetween? s t
      = (d.edgeBetween? s t).map fun e => writtenEdge e.trimmed := fun s t => by
    rw [Diagram.edgeBetween?, hedges, hdraft, find?_retoldDraft]
  refine ⟨fun id => ?_, fun n' hn' => ?_, fun p => ?_, fun e' he' => ?_⟩
  · show id ∈ draft.finish.nodeIds ↔ _
    rw [Draft.finish, Diagram.nodeIds_prune]
    exact mem_ids_retoldDraft hd
  · obtain ⟨m, hm, rfl⟩ := List.mem_map.1 hn'
    obtain ⟨n, hn, hid, hlabel, hshape⟩ := isTold_retoldDraft hd m hm
    refine ⟨n, hn, ?_, ?_, ?_⟩
    · exact (Diagram.prunedNode_id _ m).trans hid
    · exact (label_prunedNode _ m).trans hlabel
    · refine Eq.trans ?_ hshape
      unfold Diagram.prunedNode
      split <;> rfl
  · show p ∈ draft.finish.joined ↔ _
    rw [Diagram.mem_joined_iff, Diagram.mem_joined_iff, hbetween, Option.isSome_map]
  · have hfind : draft.finish.edgeBetween? e'.source e'.target = some e' :=
      Diagram.edgeBetween?_of_nodup hjoined he'
    rw [hbetween] at hfind
    obtain ⟨e, he, rfl⟩ := Option.map_eq_some_iff.1 hfind
    exact ⟨e, he, rfl⟩

/-- The text of a flowchart with readable ids and labels is read as one that retells it. -/
theorem retells_of_isTellable (hk : d.kind = .flowchart ∨ d.kind = .c4) (hd : IsTellable d)
    (compact : Bool) : ∃ d', Diagram.parse (d.render compact) = .ok d' ∧ d'.Retells d := by
  have hreadable : ∀ i ∈ saidItems compact d, i.IsReadable := by
    intro i hi
    refine isReadable_of_mem_itemsOf ?_ ?_ ?_ hi <;> exact fun _ => trivial
  obtain ⟨direction, -, hparse⟩ := parse_render_of_says hk (says_saidItems hd) hreadable
  refine ⟨_, hparse, retells_finish hd ?_ d.kind direction⟩
  have hread : Diagram.IsRead { (retoldDraft compact d).finish with
      kind := d.kind, direction := direction } := Diagram.isRead_of_parse hparse
  have hpruned : IsPruned { (retoldDraft compact d).finish with
      kind := d.kind, direction := direction } := by
    rcases hk with hk | hk <;> rw [hk] at hread ⊢ <;> exact hread
  exact hpruned.nodup_joined

end Grammar.Flowchart

end DiagramBoard
