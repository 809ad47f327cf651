/-
DiagramBoard.Proofs.Board.DiagramReading — the diagram that is read off a picture.

The groups of a board come from its containers: every container lists the group of its node, and a
class also lists a group of its own, for the parts that move with it.  Nothing else is in that group,
so reading drops it, and what stays are the groups of the nodes.

Main statements: every node of a picture is read in its group (`groupOf?_elements`), and the diagram
that is read off a picture consists of its nodes and edges (`diagram_elements`).
-/
import DiagramBoard.Proofs.Board.Coherent
import DiagramBoard.Proofs.Board.ReadAgain

namespace DiagramBoard

open Board

variable {α : Type}

/-! ## Sequences and other kinds -/

namespace Element

/-- Whether an element is no part of a sequence, neither a lifeline nor a message. -/
structure IsStill (e : Element α) : Prop where
  isNoLifeline : e.tag? ≠ some .lifeline
  isNoMessage : e.tag? ≠ some .sequenceMessage

theorem isStill_of_metadata {e : Element α} (h : e.metadata = none) : e.IsStill :=
  ⟨by simp [tag?_of_metadata h], by simp [tag?_of_metadata h]⟩

end Element

/-- Nothing of a node is part of a sequence if none of its parts is a lifeline. -/
theorem NodePicture.isStill {kind : DiagramKind} {direction : Direction} {n : NodePicture α}
    (h : n.IsSound kind direction) (hparts : ∀ e ∈ n.parts, e.tag? ≠ some .lifeline) :
    ∀ e ∈ n.elements, e.IsStill := by
  intro e he
  rw [elements_eq, List.mem_cons, List.mem_cons] at he
  rcases he with rfl | rfl | he
  · exact ⟨h.container.isNoLifeline, h.container.isNoMessage⟩
  · exact Element.isStill_of_metadata h.label.metadata
  · obtain ⟨t, ht, hmessage⟩ := (h.parts e he).isTagged
    exact ⟨hparts e he, by simpa [ht] using hmessage⟩

/-- Nothing of an edge is part of a sequence if its arrow is no message. -/
theorem EdgePicture.isStill {e : EdgePicture α} (h : e.IsSound)
    (harrow : e.arrow.tag? ≠ some .sequenceMessage) : ∀ x ∈ e.elements, x.IsStill := by
  intro x hx
  rw [elements_eq, List.mem_cons, Option.mem_toList] at hx
  rcases hx with rfl | hx
  · exact ⟨h.arrow.isNoLifeline, harrow⟩
  · exact Element.isStill_of_metadata (h.label x hx).metadata

namespace Board

variable {alive : List (Element α)} {cs : List (Container α)}

/-- A board without lifelines and messages shows the kind that it says, unless only classes have
members. -/
theorem shownKind_eq_namedKind (hstill : ∀ e ∈ alive, e.IsStill)
    (hsections : (namedKind alive).isClassLike = false → ∀ c ∈ cs, c.sections = none) :
    shownKind alive cs = namedKind alive := by
  have hsequence : alive.any (showsSequence cs) = false := by
    rw [List.any_eq_false]
    intro e he
    simp [showsSequence, lifelineOf?, (hstill e he).isNoLifeline, (hstill e he).isNoMessage]
  rw [shownKind, hsequence]
  cases hlike : (namedKind alive).isClassLike with
  | true => rfl
  | false =>
    have hnone : cs.any (·.sections.isSome) = false := by
      rw [List.any_eq_false]
      intro c hc
      simp [hsections hlike c hc]
    simp [hnone]

/-- A board with the lifeline of a node shows a sequence. -/
theorem shownKind_of_participant {e : Element α} (he : e ∈ alive) {id : String}
    (h : e.participant? = some id) (hnode : cs.any (·.nodeId = id) = true) :
    shownKind alive cs = .sequence := by
  have hany : alive.any (showsSequence cs) = true := by
    rw [List.any_eq_true]
    refine ⟨e, he, ?_⟩
    rw [showsSequence, Element.lifelineOf?_eq, h, Option.filter_some, hnode]
    simp
  rw [shownKind, if_pos hany]

end Board

namespace Picture

/-! ## Groups -/

/-- Whether the nodes of a picture are in groups, each of several nodes, and containers are told
from other elements by their ids, and from groups where they list themselves as one. -/
structure IsGroupedBy (p : Picture α) (group : NodePicture α → Option String) : Prop where
  groupIds : ∀ n ∈ p.nodes, n.container.groupIds = (group n).toList
    ∨ n.container.groupIds = (group n).toList ++ [n.container.id]
      ∧ ∀ m ∈ p.nodes, group m ≠ some n.container.id
  ids : ∀ n ∈ p.nodes, ∀ e ∈ p.elements, e.kind.isContainer = false → e.id ≠ n.container.id
  shared : ∀ n ∈ p.nodes, ∀ g ∈ group n, ∃ m ∈ p.nodes, m.nodeId ≠ n.nodeId ∧ group m = some g

variable {p : Picture α} {group : NodePicture α → Option String}

theorem nodeOfElement?_container {n : NodePicture α} (hn : n ∈ p.nodes) :
    nodeOfElement? (p.nodes.map NodePicture.shown) n.container.id = some n.nodeId := by
  have hlast : (p.nodes.filter fun m => m.container.id = n.container.id).getLast? = some n :=
    getLast?_of_nodup p.nodup_containerIds hn
  rw [nodeOfElement?, List.filter_map, List.getLast?_map]
  exact congrArg (Option.map Container.nodeId ∘ Option.map NodePicture.shown) hlast

theorem nodeOfElement?_eq_none {id : String} (h : ∀ n ∈ p.nodes, id ≠ n.container.id) :
    nodeOfElement? (p.nodes.map NodePicture.shown) id = none := by
  have hnone : (p.nodes.map NodePicture.shown).filter (·.element.id = id) = [] := by
    rw [List.filter_map, List.map_eq_nil_iff, List.filter_eq_nil_iff]
    intro n hn
    have hne := (h n hn).symm
    simp [NodePicture.shown, hne]
  rw [nodeOfElement?, hnone]
  rfl

/-- The groups that containers list, each with its node. -/
def listed (p : Picture α) : List (String × String) :=
  p.nodes.flatMap fun n => n.container.groupIds.map fun g => (g, n.nodeId)

/-- The groups that an element lists for its node, if it shows one. -/
def listedBy (p : Picture α) (e : Element α) : List (String × String) :=
  (nodeOfElement? (p.nodes.map NodePicture.shown) e.id).toList.flatMap fun node =>
    e.groupIds.map fun g => (g, node)

theorem memberships_eq_listedBy :
    memberships p.elements (p.nodes.map NodePicture.shown) = p.elements.flatMap p.listedBy :=
  memberships_eq _ _

/-- The groups that the nodes of a picture are in are those that their containers list. -/
theorem memberships_elements (h : p.IsGroupedBy group) :
    memberships p.elements (p.nodes.map NodePicture.shown) = p.listed := by
  have hother : ∀ e ∈ p.elements, e.kind.isContainer = false → p.listedBy e = [] := by
    intro e he hkind
    rw [listedBy, nodeOfElement?_eq_none fun n hn => h.ids n hn e he hkind]
    rfl
  have hnode : ∀ n ∈ p.nodes, n.elements.flatMap p.listedBy
      = n.container.groupIds.map fun g => (g, n.nodeId) := by
    intro n hn
    have hmem : ∀ e ∈ n.elements, e ∈ p.elements := fun e he =>
      List.mem_append_left _ (List.mem_flatMap.2 ⟨n, hn, he⟩)
    have hlabel : p.listedBy n.label = [] := by
      refine hother _ (hmem _ (by simp [NodePicture.elements_eq])) ?_
      rw [(p.soundNodes n hn).label.kind]
      rfl
    have hparts : n.parts.flatMap p.listedBy = [] := by
      rw [List.flatMap_eq_nil_iff]
      intro e he
      exact hother e (hmem e (by simp [NodePicture.elements_eq, he]))
        ((p.soundNodes n hn).parts e he).isNoContainer
    rw [NodePicture.elements_eq, List.flatMap_cons, List.flatMap_cons, hlabel, hparts, listedBy,
      nodeOfElement?_container hn, Option.toList_some, List.flatMap_singleton, List.append_nil,
      List.append_nil]
  have hedges : (p.edges.flatMap EdgePicture.elements).flatMap p.listedBy = [] := by
    rw [List.flatMap_eq_nil_iff]
    intro e he
    refine hother e (List.mem_append_right _ he) ?_
    obtain ⟨x, hx, he⟩ := List.mem_flatMap.1 he
    simpa using List.filter_eq_nil_iff.1 (EdgePicture.filter_isContainer (p.soundEdges x hx)) e he
  rw [memberships_eq_listedBy, elements, List.flatMap_append, hedges, List.append_nil, List.flatMap_assoc]
  exact List.flatMap_congr hnode

/-- The nodes whose containers list a group. -/
theorem mem_children {id node : String} :
    node ∈ (p.listed.filter (·.1 = id)).map (·.2)
      ↔ ∃ n ∈ p.nodes, n.nodeId = node ∧ id ∈ n.container.groupIds := by
  simp only [List.mem_map, List.mem_filter, listed, List.mem_flatMap, decide_eq_true_eq]
  constructor
  · rintro ⟨-, ⟨⟨n, hn, g, hg, rfl⟩, rfl⟩, rfl⟩
    exact ⟨n, hn, rfl, hg⟩
  · rintro ⟨n, hn, rfl, hg⟩
    exact ⟨(id, n.nodeId), ⟨⟨n, hn, id, hg, rfl⟩, rfl⟩, rfl⟩

/-- A class is alone in the group of its parts. -/
theorem length_own_group (h : p.IsGroupedBy group) {n : NodePicture α} (hn : n ∈ p.nodes)
    (hfree : ∀ m ∈ p.nodes, group m ≠ some n.container.id) :
    (p.listed.filter (·.1 = n.container.id)).length ≤ 1 := by
  have hgroup : ∀ m ∈ p.nodes, ∀ g ∈ (group m).toList, g ≠ n.container.id := by
    rintro m hm g hg rfl
    exact hfree m hm (Option.mem_toList.1 hg)
  have hmembers : ∀ m ∈ p.nodes, m.container.id ≠ n.container.id →
      (m.container.groupIds.map fun g => (g, m.nodeId)).filter (·.1 = n.container.id) = [] := by
    intro m hm hne
    rw [List.filter_eq_nil_iff]
    intro x hx
    obtain ⟨g, hg, rfl⟩ := List.mem_map.1 hx
    have hg : g ∈ (group m).toList ∨ g = m.container.id := by
      rcases h.groupIds m hm with hids | ⟨hids, -⟩
      · exact .inl (hids ▸ hg)
      · simpa [hids] using hg
    rcases hg with hg | rfl
    · simpa using hgroup m hm g hg
    · simpa using hne
  rw [listed, filter_flatMap_of_nodup (fun m => m.container.id) p.nodup_containerIds hn hmembers]
  have hnone : ((group n).toList.map fun g => (g, n.nodeId)).filter (·.1 = n.container.id) = [] := by
    rw [List.filter_eq_nil_iff]
    intro x hx
    obtain ⟨g, hg, rfl⟩ := List.mem_map.1 hx
    simpa using hgroup n hn g hg
  rcases h.groupIds n hn with hids | ⟨hids, -⟩
  · rw [hids, hnone]
    exact Nat.zero_le 1
  · rw [hids, List.map_append, List.filter_append, hnone]
    exact List.length_filter_le _ _

/-- The groups that are read off a picture. -/
def groups (p : Picture α) : List Group :=
  groupsOf (memberships p.elements (p.nodes.map NodePicture.shown))

theorem mem_groups (h : p.IsGroupedBy group) {k : Group} (hk : k ∈ p.groups) :
    2 ≤ k.children.length ∧ k.children
      = (p.listed.filter (·.1 = k.id)).map (·.2) := by
  rw [groups, memberships_elements h] at hk
  exact mem_groupsOf hk

/-- A node is in no other group than its own. -/
theorem id_of_mem_children (h : p.IsGroupedBy group) {k : Group} (hk : k ∈ p.groups)
    {n : NodePicture α} (hn : n ∈ p.nodes) (hmem : n.nodeId ∈ k.children) :
    group n = some k.id := by
  obtain ⟨hlength, hchildren⟩ := mem_groups h hk
  rw [hchildren, mem_children] at hmem
  obtain ⟨m, hm, hid, hg⟩ := hmem
  obtain rfl : m = n := List.inj_on_of_nodup_map p.nodup_nodeIds hm hn hid
  refine Option.mem_toList.1 ?_
  rcases h.groupIds m hm with hids | ⟨hids, hfree⟩
  · exact hids ▸ hg
  · have hne : k.id ≠ m.container.id := by
      intro hown
      rw [hchildren, hown, List.length_map] at hlength
      have := length_own_group h hn hfree
      omega
    simpa [hids, hne] using hg

/-- The group of a node is one of those that are read. -/
theorem exists_mem_groups (h : p.IsGroupedBy group) {n : NodePicture α} (hn : n ∈ p.nodes)
    {g : String} (hg : group n = some g) : ∃ k ∈ p.groups, k.id = g ∧ n.nodeId ∈ k.children := by
  have hlisted : ∀ m ∈ p.nodes, group m = some g → g ∈ m.container.groupIds := by
    intro m hm hgroup
    rcases h.groupIds m hm with hids | ⟨hids, -⟩ <;> simp [hids, hgroup]
  obtain ⟨m, hm, hne, hmg⟩ := h.shared n hn g hg
  let children := (p.listed.filter (·.1 = g)).map (·.2)
  have hmem : n.nodeId ∈ children := mem_children.2 ⟨n, hn, rfl, hlisted n hn hg⟩
  have hother : m.nodeId ∈ children := mem_children.2 ⟨m, hm, rfl, hlisted m hm hmg⟩
  have hlength : 2 ≤ children.length := by
    have htwo : [m.nodeId, n.nodeId].Nodup := by simpa using hne
    have hsub : [m.nodeId, n.nodeId] ⊆ children :=
      List.cons_subset.2 ⟨hother, List.cons_subset.2 ⟨hmem, List.nil_subset _⟩⟩
    exact (List.subperm_of_subset htwo hsub).length_le
  refine ⟨{ id := g, label := g, children := children }, ?_, rfl, hmem⟩
  rw [groups, memberships_elements h, groupsOf, List.mem_filter, List.mem_map]
  refine ⟨⟨g, ?_, rfl⟩, decide_eq_true hlength⟩
  rw [List.mem_eraseDups, List.mem_map]
  exact ⟨(g, n.nodeId), List.mem_flatMap.2 ⟨n, hn, List.mem_map_of_mem (hlisted n hn hg)⟩, rfl⟩

/-- Every node is read in its group. -/
theorem groupOf?_elements (h : p.IsGroupedBy group) {n : NodePicture α} (hn : n ∈ p.nodes) :
    groupOf? p.groups n.nodeId = group n := by
  rw [groupOf?]
  cases hfind : p.groups.find? (·.children.contains n.nodeId) with
  | some k =>
    have hmem : n.nodeId ∈ k.children := by simpa using List.find?_some hfind
    exact (id_of_mem_children h (List.mem_of_find?_eq_some hfind) hn hmem).symm
  | none =>
    cases hg : group n with
    | none => rfl
    | some g =>
      obtain ⟨k, hk, -, hmem⟩ := exists_mem_groups h hn hg
      have := List.find?_eq_none.1 hfind k hk
      simp [hmem] at this

/-! ## The kind of diagram -/

/-- A picture without lifelines and messages shows the kind that it says, unless only classes have
members. -/
theorem shownKind_of_still (hne : p.nodes ≠ [])
    (hparts : ∀ n ∈ p.nodes, ∀ e ∈ n.parts, e.tag? ≠ some .lifeline)
    (harrows : ∀ e ∈ p.edges, e.arrow.tag? ≠ some .sequenceMessage)
    (hsections : p.kind.isClassLike = false → ∀ n ∈ p.nodes, n.shown.sections = none) :
    shownKind p.elements (p.nodes.map NodePicture.shown) = p.kind := by
  have hkind := namedKind_elements hne
  refine (shownKind_eq_namedKind (fun e he => ?_) fun hlike c hc => ?_).trans hkind
  · rcases List.mem_append.1 he with he | he
    · obtain ⟨n, hn, he⟩ := List.mem_flatMap.1 he
      exact NodePicture.isStill (p.soundNodes n hn) (hparts n hn) e he
    · obtain ⟨x, hx, he⟩ := List.mem_flatMap.1 he
      exact EdgePicture.isStill (p.soundEdges x hx) (harrows x hx) e he
  · obtain ⟨n, hn, rfl⟩ := List.mem_map.1 hc
    exact hsections (hkind ▸ hlike) n hn

/-- A picture with a lifeline shows a sequence. -/
theorem shownKind_of_lifeline {n : NodePicture α} (hn : n ∈ p.nodes)
    (h : n.lifeline?.isSome = true) :
    shownKind p.elements (p.nodes.map NodePicture.shown) = .sequence := by
  obtain ⟨e, he⟩ := Option.isSome_iff_exists.1 h
  rw [NodePicture.lifeline?] at he
  have hlast := List.mem_filter.1 (List.mem_of_getLast? he)
  have hmem : e ∈ p.elements :=
    List.mem_append_left _ (List.mem_flatMap.2 ⟨n, hn, by simp [NodePicture.elements_eq, hlast.1]⟩)
  refine shownKind_of_participant hmem (of_decide_eq_true hlast.2) ?_
  rw [any_container]
  exact List.any_eq_true.2 ⟨n, hn, decide_eq_true rfl⟩

/-! ## The diagram -/

variable [Scalar α]

/-- The diagram that a picture shows, with its nodes in groups. -/
def asDiagram (p : Picture α) (group : NodePicture α → Option String) : Diagram α where
  kind := p.kind
  direction := p.direction
  nodes := p.nodes.map fun n => { n.shown.node with group := group n }
  edges := p.edges.map (·.shown.edge)
  groups := p.groups

theorem hasNode_asDiagram {n : NodePicture α} (hn : n ∈ p.nodes) :
    (p.asDiagram group).hasNode n.nodeId = true := by
  rw [Diagram.hasNode, asDiagram, List.any_map, List.any_eq_true]
  exact ⟨n, hn, decide_eq_true rfl⟩

/-- Nothing of the diagram that a picture shows is dropped. -/
theorem prune_asDiagram (h : p.IsGroupedBy group)
    (hends : ∀ e ∈ p.edges, (∃ n ∈ p.nodes, n.nodeId = e.source) ∧ ∃ n ∈ p.nodes, n.nodeId = e.target) :
    (p.asDiagram group).prune = p.asDiagram group := by
  have hnode : ∀ {n}, n ∈ p.nodes → n.nodeId ∈ (p.asDiagram group).nodeIds :=
    fun hn => Diagram.hasNode_iff.1 (hasNode_asDiagram hn)
  refine Diagram.prune_eq_self (fun e he => ?_) (fun k hk c hc => ?_)
    (fun k hk => (mem_groups h hk).1) fun x hx => ?_
  · obtain ⟨x, hx, rfl⟩ := List.mem_map.1 he
    obtain ⟨⟨n, hn, hsource⟩, ⟨m, hm, htarget⟩⟩ := hends x hx
    constructor
    · show x.source ∈ _
      exact hsource ▸ hnode hn
    · show x.target ∈ _
      exact htarget ▸ hnode hm
  · rw [(mem_groups h hk).2] at hc
    obtain ⟨n, hn, rfl, -⟩ := mem_children.1 hc
    exact hnode hn
  · obtain ⟨n, hn, rfl⟩ := List.mem_map.1 hx
    cases hg : group n with
    | none => exact .inr rfl
    | some g =>
      obtain ⟨k, hk, -, hmem⟩ := exists_mem_groups h hn hg
      exact .inl (List.any_eq_true.2 ⟨k, hk, List.contains_iff_mem.2 hmem⟩)

/-- The diagram that is read off a picture with nodes consists of its nodes and edges. -/
theorem diagram_elements (hne : p.nodes ≠ []) (h : p.IsGroupedBy group)
    (hkind : shownKind p.elements (p.nodes.map NodePicture.shown) = p.kind)
    (hends : ∀ e ∈ p.edges, (∃ n ∈ p.nodes, n.nodeId = e.source) ∧ ∃ n ∈ p.nodes, n.nodeId = e.target) :
    Board.diagram p.elements =
      { kind := p.kind
        direction := p.direction
        nodes := p.nodes.map fun n => { n.shown.node with group := group n }
        edges := p.edges.map (·.shown.edge)
        groups := p.groups } := by
  have hshown : shownDiagram p.elements (p.nodes.map NodePicture.shown) = p.asDiagram group := by
    simp only [shownDiagram, hkind, namedDirection_elements hne, connectors_elements, List.map_map]
    refine congrArg (fun ns => { p.asDiagram group with nodes := ns })
      (List.map_congr_left fun n hn => ?_)
    exact congrArg (fun g => { n.shown.node with group := g }) (groupOf?_elements h hn)
  show (shownDiagram (live p.elements) (containers (live p.elements))).prune = p.asDiagram group
  rw [live_elements, containers_elements, hshown, prune_asDiagram h hends]

end Picture

end DiagramBoard
