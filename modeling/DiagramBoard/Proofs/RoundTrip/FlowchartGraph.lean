/-
DiagramBoard.Proofs.RoundTrip.FlowchartGraph — flowcharts of any origin, written and read again.

A flowchart need not have been read from a text: it may have been read from a board, or built.  What
its text cannot hold are places, looks beyond the stroke of an edge and routes, and what would be
read as something else.  All the rest comes back, the edges and groups in their order and the nodes
in the order in which the text mentions them.

Main statement: a flowchart that its text can express is read from its full and from its compact
form (`parse_render_flowchart`).
-/
import DiagramBoard.Proofs.RoundTrip.Flowchart

namespace DiagramBoard

open Text

/-- A node without anything that a text does not say. -/
def Node.outline {α : Type} (n : Node α) : Node α :=
  { id := n.id, label := n.label, shape := n.shape, group := n.group }

namespace Grammar.Flowchart

open Writer.Flowchart (linkToken strokeOf isPlainNode isLinked isGrouped)

variable {α : Type}

/-! ## What a text can express -/

/-- An edge that a link expresses: heads, stroke and label, and nothing else. -/
structure IsLinkEdge [Scalar α] (e : Edge α) : Prop where
  id_eq : e.id = Edge.pairId e.source e.target
  heads : (e.startHead, e.endHead) ∈ [(.none, .arrow), (.none, .none), (.arrow, .arrow)]
  style : e.style ∈ [none, some (.stroke .dashed), some (.width Draft.thickWidth)]
  points : e.points = none
  isTidy : ∀ l ∈ e.label, IsTidy l.toList

/-- A flowchart that its text expresses.  Ids and labels can be read where they are written, edges
join nodes, two nodes at most once, and each group lists two nodes or more that no other group
lists. -/
structure IsExpressible [Scalar α] (d : Diagram α) : Prop where
  kind_eq : d.kind = .flowchart
  nodup_nodeIds : d.nodeIds.Nodup
  isId : ∀ n ∈ d.nodes, IsId n.id.toList ∧ n.id ≠ "subgraph" ∧ n.id ≠ "end"
  isTidy : ∀ n ∈ d.nodes, IsTidy n.label.toList
  ends : ∀ e ∈ d.edges, e.source ∈ d.nodeIds ∧ e.target ∈ d.nodeIds
  nodup_joined : d.joined.Nodup
  isLinkEdge : ∀ e ∈ d.edges, IsLinkEdge e
  title : ∀ g ∈ d.groups, IsId g.id.toList ∧ '\n' ∉ g.label.toList
  children : ∀ g ∈ d.groups, 2 ≤ g.children.length ∧ g.children.Nodup ∧ ∀ c ∈ g.children, c ∈ d.nodeIds
  disjoint : d.groups.Pairwise fun g h => g.children.Disjoint h.children
  grouped : ∀ n ∈ d.nodes, ∀ g ∈ d.groups, n.id ∈ g.children → n.group = some g.id
  ungrouped : ∀ n ∈ d.nodes, (∀ g ∈ d.groups, n.id ∉ g.children) → n.group = none

variable [Scalar α] {compact : Bool} {d d' : Diagram α}

theorem nodup_flatMap_children {gs : List Group} (hnodup : ∀ g ∈ gs, g.children.Nodup)
    (hdisjoint : gs.Pairwise fun g h => g.children.Disjoint h.children) :
    (gs.flatMap (·.children)).Nodup :=
  List.nodup_flatMap.2 ⟨hnodup, hdisjoint⟩

/-- A flowchart that its text expresses comes back from its text. -/
theorem IsExpressible.isWritable (h : IsExpressible d) (compact : Bool) : IsWritable compact d where
  nodup_nodeIds := h.nodup_nodeIds
  isId id hid := by
    obtain ⟨n, hn, rfl⟩ := List.mem_map.1 hid
    exact (h.isId n hn).1
  isTidy := h.isTidy
  label e he l hl :=
    let htidy := (h.isLinkEdge e he).isTidy l hl
    ⟨htidy.ne_nil, htidy.lineFeed_notMem⟩
  nodup_joined := h.nodup_joined
  group := h.title
  children g hg := (h.children g hg).2.2
  nodup_children := nodup_flatMap_children (fun g hg => (h.children g hg).2.1) h.disjoint
  ends := h.ends
  two_children g hg := (h.children g hg).1
  edge_isTidy e he := (h.isLinkEdge e he).isTidy
  source_ne e he := by
    obtain ⟨n, hn, hid⟩ := List.mem_map.1 (h.ends e he).1
    rw [← hid]
    exact (h.isId n hn).2.1
  bare_ne _ n hn _ _ := (h.isId n hn).2

/-! ## The edges -/

theorem strokeOf_of_style (hthick : (Draft.thickWidth : α) ≤ Draft.thickWidth) {e : Edge α}
    {stroke : Stroke} (h : e.style = Draft.strokeHints stroke) : strokeOf e = stroke := by
  have hlink : strokeOf (Draft.linkEdge ⟨e.startHead, e.endHead, stroke, e.label⟩ e.source e.target
      : Edge α) = stroke := strokeOf_linkEdge hthick _ _ _
  rw [← hlink, strokeOf, Edge.isDashed, Edge.strokeStyle, h]
  rfl

/-- The edges that links express are styled by the stroke of a link. -/
theorem exists_strokeHints {style : Option (StyleHints α)}
    (h : style ∈ [none, some (.stroke .dashed), some (.width Draft.thickWidth)]) :
    ∃ stroke, style = Draft.strokeHints stroke := by
  simp only [List.mem_cons, List.not_mem_nil, or_false] at h
  rcases h with rfl | rfl | rfl
  · exact ⟨.normal, rfl⟩
  · exact ⟨.dashed, rfl⟩
  · exact ⟨.thick, rfl⟩

/-- A link says all that its edge is. -/
theorem writtenEdge_eq_self (hthick : (Draft.thickWidth : α) ≤ Draft.thickWidth) {e : Edge α}
    (h : IsLinkEdge e) : writtenEdge e = e := by
  obtain ⟨stroke, hstyle⟩ := exists_strokeHints h.style
  have hstroke := strokeOf_of_style hthick hstyle
  have hheads := h.heads
  simp only [List.mem_cons, Prod.mk.injEq, List.not_mem_nil, or_false] at hheads
  have hlink : tokenLink e = ⟨e.startHead, e.endHead, stroke, none⟩ := by
    rw [tokenLink, hstroke]
    rcases hheads with ⟨h1, h2⟩ | ⟨h1, h2⟩ | ⟨h1, h2⟩ <;> simp [h1, h2]
  rw [writtenEdge, hlink, Link.labelled, Draft.linkEdge]
  dsimp only
  rw [← h.id_eq, ← hstyle, ← h.points]

/-! ## The nodes -/

omit [Scalar α] in
theorem writtenNode_eq_outline {group : Option String} {n : Node α} (h : n.group = group) :
    writtenNode group n = n.outline := by
  rw [writtenNode, Node.outline, h]

/-- Every node that comes back is a node of the flowchart, with its group. -/
theorem ComesBack.exists_outline (he : IsExpressible d) (h : ComesBack compact d d') {n : Node α}
    (hn : n ∈ d'.nodes) : ∃ m ∈ d.nodes, n = m.outline := by
  have hd := he.isWritable compact
  have halike := h.exists_alike hd hn
  obtain ⟨ids, hnodes, -⟩ := h.nodes
  have hnodup := h.nodup_nodeIds
  rw [Diagram.nodeIds, hnodes, List.map_append, List.map_append,
    ids_groupedNodes fun g hg => ids_membersOf hd.nodup_nodeIds (hd.children g hg)] at hnodup
  rw [hnodes] at hn
  rcases List.mem_append.1 hn with hn | hn
  · rcases List.mem_append.1 hn with hn | hn
    · obtain ⟨g, hg, hn⟩ := List.mem_flatMap.1 hn
      obtain ⟨m, hm, rfl⟩ := List.mem_map.1 hn
      obtain ⟨hm, hchild⟩ := mem_membersOf hm
      exact ⟨m, hm, writtenNode_eq_outline (he.grouped m hm g hg hchild)⟩
    · obtain ⟨m, hm, rfl⟩ := List.mem_map.1 hn
      obtain ⟨hm, halone⟩ := List.mem_filter.1 hm
      refine ⟨m, hm, writtenNode_eq_outline (he.ungrouped m hm fun g hg hchild => ?_)⟩
      rw [standsAlone, isGrouped_of_mem hg hchild] at halone
      simp at halone
  · obtain ⟨m, hm, hid, hlabel, hshape⟩ := halike
    -- no group lists a node that comes back through its edges only
    have hungrouped : ∀ g ∈ d.groups, m.id ∉ g.children := by
      intro g hg hchild
      refine (List.nodup_append.1 hnodup).2.2 m.id
        (List.mem_append_left _ (List.mem_flatMap.2 ⟨g, hg, hchild⟩)) m.id ?_ rfl
      exact List.mem_map.2 ⟨n, hn, hid⟩
    obtain ⟨id, -, rfl⟩ := List.mem_map.1 hn
    refine ⟨m, hm, ?_⟩
    rw [Node.outline, he.ungrouped m hm hungrouped, ← hid, ← hlabel, ← hshape]
    rfl

/-- The nodes that come back are the nodes of the flowchart, in the order of the text. -/
theorem ComesBack.perm_nodes (he : IsExpressible d) (h : ComesBack compact d d') :
    d'.nodes.Perm (d.nodes.map Node.outline) := by
  have hd := he.isWritable compact
  have hids : ((d.nodes.map Node.outline).map (·.id)).Nodup := by
    rw [List.map_map]
    exact he.nodup_nodeIds
  refine (List.perm_ext_iff_of_nodup (.of_map _ h.nodup_nodeIds) (.of_map _ hids)).2 fun n => ?_
  constructor
  · intro hn
    obtain ⟨m, hm, rfl⟩ := h.exists_outline he hn
    exact List.mem_map_of_mem hm
  · intro hn
    obtain ⟨m, hm, rfl⟩ := List.mem_map.1 hn
    obtain ⟨n', hn', hid⟩ := List.mem_map.1 (h.mem_nodeIds hd hm)
    obtain ⟨m', hm', rfl⟩ := h.exists_outline he hn'
    obtain rfl : m' = m := List.inj_on_of_nodup_map he.nodup_nodeIds hm' hm hid
    exact hn'

/-! ## The whole flowchart -/

omit [Scalar α] in
theorem direction_eq_of_header (hk : d.kind = .flowchart) (hk' : d'.kind = .flowchart)
    (h : d'.header = d.header) : d'.direction = d.direction := by
  rw [Diagram.header, Diagram.header, hk, hk'] at h
  have hname : d'.direction.name = d.direction.name :=
    String.toList_inj.1 (List.append_cancel_left h)
  have hword := Direction.ofWord?_name d'.direction
  rw [hname, Direction.ofWord?_name] at hword
  exact (Option.some.inj hword).symm

/-- A flowchart that its text expresses comes back from both its forms: its direction, its nodes in
some order, and its edges and groups as they are. -/
theorem parse_render_flowchart {d : Diagram Float} (h : IsExpressible d) (compact : Bool) :
    ∃ d' : Diagram Float, Diagram.parse (d.render compact) = .ok d'
      ∧ d'.kind = .flowchart ∧ d'.direction = d.direction
      ∧ d'.nodes.Perm (d.nodes.map Node.outline) ∧ d'.edges = d.edges ∧ d'.groups = d.groups := by
  obtain ⟨d', hparse, hkind, hheader, hback⟩ := parse_render (.inl h.kind_eq) (h.isWritable compact)
  have hk' : d'.kind = .flowchart := hkind.trans h.kind_eq
  refine ⟨d', hparse, hk', direction_eq_of_header h.kind_eq hk' hheader, hback.perm_nodes h, ?_,
    hback.groups⟩
  have hedges : d.edges.map writtenEdge = d.edges :=
    (List.map_congr_left fun e he => writtenEdge_eq_self (by decide) (h.isLinkEdge e he)).trans
      (List.map_id _)
  rw [hback.edges, hedges]

/-- A flowchart with a group, nodes named by keywords, a placed node and labels full of tokens. -/
def serviceFlow : Diagram Float where
  direction := .right
  nodes :=
    [{ id := "class", label := "class" },
      { id := "b-2", label := "a|b --> [\"c\"]; #35;", shape := .hexagon, group := some "style" },
      { id := "c", label := "c", group := some "style", box := some ⟨0, 0, 10, 10⟩ }]
  edges :=
    [{ id := "class->b-2"
       source := "class"
       target := "b-2"
       label := some "x; |y|"
       startHead := .arrow
       style := some (.stroke .dashed) },
      { id := "b-2->b-2", source := "b-2", target := "b-2", style := some (.width 4) }]
  groups := [{ id := "style", label := " ]", children := ["c", "b-2"] }]

theorem isExpressible_serviceFlow : IsExpressible serviceFlow where
  kind_eq := rfl
  nodup_nodeIds := by decide
  isId := by
    have hid : ∀ n ∈ serviceFlow.nodes, n.id.toList ≠ [] ∧ takeId false n.id.toList = (n.id.toList, [])
        ∧ n.id ≠ "subgraph" ∧ n.id ≠ "end" := by decide +kernel
    exact fun n hn => ⟨⟨(hid n hn).1, (hid n hn).2.1⟩, (hid n hn).2.2⟩
  isTidy := by
    have htidy : ∀ n ∈ serviceFlow.nodes, n.label.toList ≠ [] ∧ trim n.label.toList = n.label.toList
        ∧ '\n' ∉ n.label.toList := by decide +kernel
    exact fun n hn => ⟨(htidy n hn).1, (htidy n hn).2.1, (htidy n hn).2.2⟩
  ends := by decide
  nodup_joined := by decide
  isLinkEdge := by
    have hlabel : ∀ e ∈ serviceFlow.edges, ∀ l ∈ e.label, l.toList ≠ [] ∧ trim l.toList = l.toList
        ∧ '\n' ∉ l.toList := by decide +kernel
    intro e he
    refine ⟨?_, ?_, ?_, ?_, fun l hl => ⟨(hlabel e he l hl).1, (hlabel e he l hl).2.1,
      (hlabel e he l hl).2.2⟩⟩
    · revert e
      decide
    · revert e
      decide
    · simp only [serviceFlow, List.mem_cons, List.not_mem_nil, or_false] at he
      rcases he with rfl | rfl
      · exact List.mem_cons_of_mem _ List.mem_cons_self
      · exact List.mem_cons_of_mem _ (List.mem_cons_of_mem _ List.mem_cons_self)
    · simp only [serviceFlow, List.mem_cons, List.not_mem_nil, or_false] at he
      rcases he with rfl | rfl <;> rfl
  title := by
    have htitle : ∀ g ∈ serviceFlow.groups, g.id.toList ≠ []
        ∧ takeId false g.id.toList = (g.id.toList, []) ∧ '\n' ∉ g.label.toList := by decide +kernel
    exact fun g hg => ⟨⟨(htitle g hg).1, (htitle g hg).2.1⟩, (htitle g hg).2.2⟩
  children := by decide
  disjoint := by simp [serviceFlow]
  grouped := by decide
  ungrouped := by decide

theorem parse_render_serviceFlow : IsExpressible serviceFlow
    ∧ ∃ d' : Diagram Float, Diagram.parse (serviceFlow.render true) = .ok d'
      ∧ d'.kind = .flowchart ∧ d'.direction = serviceFlow.direction
      ∧ d'.nodes.Perm (serviceFlow.nodes.map Node.outline) ∧ d'.edges = serviceFlow.edges
      ∧ d'.groups = serviceFlow.groups :=
  ⟨isExpressible_serviceFlow, parse_render_flowchart isExpressible_serviceFlow true⟩

end Grammar.Flowchart

end DiagramBoard
