/-
DiagramBoard.Proofs.Board.Coherent — how far the diagram of a board is coherent.

Boards come from people and from other programs: elements share an id, groups hold whatever moves
together, tags stand where they do not belong.  Nothing that is read off a board refers to a node or
a group that is not there.  Two things can still go wrong.  The members of a group are counted, not
told apart, so that a node which is listed twice makes a group of its own; and a lifeline makes the
diagram a sequence even if another container is a class.

Main statements: the diagram of every board is closed (`isClosed_diagram`), and it is coherent if and
only if neither of the two happens (`isCoherent_diagram_iff`), the first of which takes a repeated id
(`listsTwo_of_nodup`).
-/
import DiagramBoard.Proofs.Board.Containers
import DiagramBoard.Proofs.Diagram.Coherent

namespace DiagramBoard.Board

variable {α : Type} {alive : List (Element α)} {cs : List (Container α)}

/-! ## Groups -/

theorem exists_of_nodeOfElement? {id node : String} (h : nodeOfElement? cs id = some node) :
    ∃ c ∈ cs, c.element.id = id ∧ c.nodeId = node := by
  obtain ⟨c, hc, rfl⟩ := Option.map_eq_some_iff.1 h
  obtain ⟨hmem, hid⟩ := List.mem_filter.1 (List.mem_of_getLast? hc)
  exact ⟨c, hmem, of_decide_eq_true hid, rfl⟩

/-- What an element lists, each group with the node of the element. -/
def listedBy (cs : List (Container α)) (e : Element α) : List (String × String) :=
  (nodeOfElement? cs e.id).toList.flatMap fun node => e.groupIds.map fun g => (g, node)

theorem memberships_eq (alive : List (Element α)) (cs : List (Container α)) :
    memberships alive cs = alive.flatMap (listedBy cs) := by
  refine List.flatMap_congr fun e _ => ?_
  rw [listedBy]
  cases nodeOfElement? cs e.id with
  | none => rfl
  | some node => exact (List.flatMap_singleton ..).symm

theorem mem_listedBy {e : Element α} {g node : String} :
    (g, node) ∈ listedBy cs e ↔ nodeOfElement? cs e.id = some node ∧ g ∈ e.groupIds := by
  simp [listedBy]

/-- Only nodes are in groups. -/
theorem mem_nodeIds_of_mem_memberships {g node : String} (h : (g, node) ∈ memberships alive cs) :
    node ∈ cs.map (·.nodeId) := by
  rw [memberships_eq] at h
  obtain ⟨e, -, he⟩ := List.mem_flatMap.1 h
  obtain ⟨c, hc, -, rfl⟩ := exists_of_nodeOfElement? (mem_listedBy.1 he).1
  exact List.mem_map_of_mem hc

variable {ms : List (String × String)} {g : Group}

/-- A group is listed more than once, and its children are those who list it. -/
theorem mem_groupsOf (h : g ∈ groupsOf ms) :
    2 ≤ g.children.length ∧ g.children = (ms.filter (·.1 = g.id)).map (·.2) := by
  rw [groupsOf, List.mem_filter, List.mem_map] at h
  obtain ⟨⟨id, -, rfl⟩, hlength⟩ := h
  exact ⟨of_decide_eq_true hlength, rfl⟩

theorem mem_children_groupsOf (h : g ∈ groupsOf ms) {node : String} :
    node ∈ g.children ↔ (g.id, node) ∈ ms := by
  rw [(mem_groupsOf h).2]
  simp

/-- Whatever is listed more than once is a group. -/
theorem exists_mem_groupsOf {id : String} (h : 2 ≤ (ms.filter (·.1 = id)).length) :
    ∃ g ∈ groupsOf ms, g.id = id := by
  let children := (ms.filter (·.1 = id)).map (·.2)
  have hlength : 2 ≤ children.length := by rwa [List.length_map]
  refine ⟨{ id := id, label := id, children := children }, ?_, rfl⟩
  rw [groupsOf, List.mem_filter, List.mem_map]
  refine ⟨⟨id, ?_, rfl⟩, decide_eq_true hlength⟩
  obtain ⟨x, hx⟩ := List.exists_mem_of_length_pos (Nat.lt_of_lt_of_le Nat.two_pos h)
  obtain ⟨hmem, hid⟩ := List.mem_filter.1 hx
  rw [List.mem_eraseDups, List.mem_map]
  exact ⟨x, hmem, of_decide_eq_true hid⟩

/-- The group of a node lists it. -/
theorem exists_of_groupOf? {groups : List Group} {node id : String}
    (h : groupOf? groups node = some id) : ∃ g ∈ groups, g.id = id ∧ node ∈ g.children := by
  obtain ⟨g, hg, rfl⟩ := Option.map_eq_some_iff.1 h
  exact ⟨g, List.mem_of_find?_eq_some hg, rfl, by simpa using List.find?_some hg⟩

/-! ## The diagram -/

variable [Scalar α]

theorem nodeIds_shownDiagram (alive : List (Element α)) (cs : List (Container α)) :
    (shownDiagram alive cs).nodeIds = cs.map (·.nodeId) := by
  rw [Diagram.nodeIds, shownDiagram, List.map_map]
  rfl

theorem children_shownDiagram (hg : g ∈ (shownDiagram alive cs).groups) :
    ∀ c ∈ g.children, c ∈ (shownDiagram alive cs).nodeIds := by
  intro c hc
  rw [nodeIds_shownDiagram]
  exact mem_nodeIds_of_mem_memberships ((mem_children_groupsOf hg).1 hc)

theorem listed_shownDiagram {n : Node α} (hn : n ∈ (shownDiagram alive cs).nodes) {id : String}
    (hid : id ∈ n.group) : ∃ g ∈ (shownDiagram alive cs).groups, g.id = id ∧ n.id ∈ g.children := by
  obtain ⟨c, -, rfl⟩ := List.mem_map.1 hn
  exact exists_of_groupOf? hid

/-- Nothing of what a board shows is dropped, apart from edges to nothing. -/
theorem prune_shownDiagram (alive : List (Element α)) (cs : List (Container α)) :
    (shownDiagram alive cs).prune
      = { shownDiagram alive cs with edges := (shownDiagram alive cs).prunedEdges } := by
  rw [Diagram.prune, Diagram.prunedGroups_eq_self (fun g hg => children_shownDiagram hg)
    (fun g hg => (mem_groupsOf hg).1), Diagram.map_prunedNode_eq_self]
  intro n hn
  cases hgroup : n.group with
  | none => exact .inr rfl
  | some id =>
    obtain ⟨g, hg, -, hmem⟩ := listed_shownDiagram hn hgroup
    exact .inl (List.any_eq_true.2 ⟨g, hg, List.contains_iff_mem.2 hmem⟩)

/-- The diagram that a board shows. -/
theorem diagram_eq (elements : List (Element α)) :
    diagram elements = { shownDiagram (live elements) (containers (live elements)) with
      edges := (shownDiagram (live elements) (containers (live elements))).prunedEdges } :=
  prune_shownDiagram _ _

/-- Nothing that a board shows refers to a node or a group that is not there. -/
theorem isClosed_diagram (elements : List (Element α)) : (diagram elements).IsClosed where
  nodup_nodeIds := nodup_nodeIds_read elements
  ends e he := by
    obtain ⟨hsource, htarget⟩ := hasNode_of_mem_edges_read he
    exact ⟨Diagram.hasNode_iff.1 hsource, Diagram.hasNode_iff.1 htarget⟩
  children _ hg _ hc := Diagram.mem_nodeIds_of_mem_groups_prune hg hc
  listed n hn id hid := by
    rw [diagram_eq] at hn ⊢
    exact listed_shownDiagram hn hid

/-- Every node of a board has a place. -/
theorem isSome_box_of_mem_diagram {elements : List (Element α)} {n : Node α}
    (h : n ∈ (diagram elements).nodes) : n.box.isSome = true := by
  rw [diagram_eq] at h
  obtain ⟨c, -, rfl⟩ := List.mem_map.1 h
  rfl

/-! ## Coherence -/

/-- Whether every group that is listed more than once is listed by two different nodes. -/
def ListsTwo (ms : List (String × String)) : Prop :=
  ∀ id, 2 ≤ (ms.filter (·.1 = id)).length → ∃ a b, (id, a) ∈ ms ∧ (id, b) ∈ ms ∧ a ≠ b

/-- Whether no class stands beside lifelines and messages. -/
def KeepsKindsApart (alive : List (Element α)) (cs : List (Container α)) : Prop :=
  alive.any (showsSequence cs) = true → ∀ c ∈ cs, c.sections = none

omit [Scalar α] in
/-- The groups of a board have two different nodes each if and only if two list each. -/
theorem hasTwo_groupsOf_iff : (∀ g ∈ groupsOf ms, g.HasTwo) ↔ ListsTwo ms := by
  constructor
  · intro h id hlength
    obtain ⟨g, hg, rfl⟩ := exists_mem_groupsOf hlength
    obtain ⟨a, ha, b, hb, hne⟩ := h g hg
    exact ⟨a, b, (mem_children_groupsOf hg).1 ha, (mem_children_groupsOf hg).1 hb, hne⟩
  · intro h g hg
    obtain ⟨hlength, hchildren⟩ := mem_groupsOf hg
    obtain ⟨a, b, ha, hb, hne⟩ := h g.id (by rwa [hchildren, List.length_map] at hlength)
    exact ⟨a, (mem_children_groupsOf hg).2 ha, b, (mem_children_groupsOf hg).2 hb, hne⟩

omit [Scalar α] in
/-- A board on which something is a class shows classes or entities, unless it shows a sequence. -/
theorem isClassLike_shownKind_iff {c : Container α} (hc : c ∈ cs) (hsections : c.sections.isSome = true) :
    (shownKind alive cs).isClassLike = true ↔ alive.any (showsSequence cs) = false := by
  have hany : cs.any (·.sections.isSome) = true := List.any_eq_true.2 ⟨c, hc, hsections⟩
  rw [shownKind, hany]
  cases hsequence : alive.any (showsSequence cs) with
  | true => simp [DiagramKind.isClassLike]
  | false =>
    cases hlike : (namedKind alive).isClassLike with
    | true => simp [hlike]
    | false => simp [DiagramKind.isClassLike]

omit [Scalar α] in
/-- Whatever has members is part of a diagram of classes if and only if kinds are kept apart. -/
theorem isClassLike_of_sections_iff :
    (∀ c ∈ cs, c.sections.isSome = true → (shownKind alive cs).isClassLike = true)
      ↔ KeepsKindsApart alive cs := by
  constructor
  · intro h hsequence c hc
    by_contra hne
    have hsome := Option.isSome_iff_ne_none.2 hne
    have hnot := (isClassLike_shownKind_iff hc hsome).1 (h c hc hsome)
    rw [hsequence] at hnot
    exact nomatch hnot
  · intro h c hc hsome
    refine (isClassLike_shownKind_iff hc hsome).2 (Bool.eq_false_iff.2 fun hsequence => ?_)
    rw [h hsequence c hc] at hsome
    exact nomatch hsome

/-- The diagram of a board is coherent if and only if two nodes list each of its groups and no class
stands beside lifelines and messages. -/
theorem isCoherent_diagram_iff (elements : List (Element α)) : (diagram elements).IsCoherent
    ↔ ListsTwo (memberships (live elements) (containers (live elements)))
      ∧ KeepsKindsApart (live elements) (containers (live elements)) := by
  have hgroups : (∀ g ∈ (diagram elements).groups, g.HasTwo)
      ↔ ListsTwo (memberships (live elements) (containers (live elements))) := by
    rw [diagram_eq]
    exact hasTwo_groupsOf_iff
  have hsections : (∀ n ∈ (diagram elements).nodes, n.sections.isSome = true →
        (diagram elements).kind.isClassLike = true)
      ↔ KeepsKindsApart (live elements) (containers (live elements)) := by
    rw [diagram_eq, ← isClassLike_of_sections_iff]
    exact List.forall_mem_map
  rw [← hgroups, ← hsections]
  exact ⟨fun h => ⟨h.two_children, h.sections⟩,
    fun h => { isClosed_diagram elements with two_children := h.1, sections := h.2 }⟩

omit [Scalar α] in
/-- A node does not list a group twice if elements have different ids and list different groups. -/
theorem nodup_memberships (hids : (alive.map (·.id)).Nodup) (hcs : (cs.map (·.nodeId)).Nodup)
    (hgroups : ∀ e ∈ alive, e.groupIds.Nodup) : (memberships alive cs).Nodup := by
  rw [memberships_eq, List.nodup_flatMap]
  constructor
  · intro e he
    rw [listedBy]
    cases nodeOfElement? cs e.id with
    | none => exact List.nodup_nil
    | some node =>
      rw [Option.toList_some, List.flatMap_singleton]
      exact (hgroups e he).map fun a b hab => congrArg Prod.fst hab
  · refine (List.pairwise_map.1 hids).imp ?_
    rintro e f hne ⟨g, node⟩ he hf
    -- a node has one container, and that is one element
    obtain ⟨c, hc, hid, hnode⟩ := exists_of_nodeOfElement? (mem_listedBy.1 he).1
    obtain ⟨c', hc', hid', hnode'⟩ := exists_of_nodeOfElement? (mem_listedBy.1 hf).1
    obtain rfl : c = c' := List.inj_on_of_nodup_map hcs hc hc' (hnode.trans hnode'.symm)
    exact hne (hid.symm.trans hid')

omit [Scalar α] in
/-- Where elements have different ids and list different groups, two nodes list each group. -/
theorem listsTwo_of_nodup (hids : (alive.map (·.id)).Nodup) (hcs : (cs.map (·.nodeId)).Nodup)
    (hgroups : ∀ e ∈ alive, e.groupIds.Nodup) : ListsTwo (memberships alive cs) := by
  refine hasTwo_groupsOf_iff.1 fun g hg => ?_
  obtain ⟨hlength, hchildren⟩ := mem_groupsOf hg
  refine Group.hasTwo_of_nodup hlength ?_
  rw [hchildren]
  refine ((nodup_memberships hids hcs hgroups).filter _).map_on fun x hx y hy hxy => ?_
  have hx : x.1 = g.id := of_decide_eq_true (List.mem_filter.1 hx).2
  have hy : y.1 = g.id := of_decide_eq_true (List.mem_filter.1 hy).2
  exact Prod.ext (hx.trans hy.symm) hxy

/-- A box that is in one group twice. -/
def listedTwice : List (Element Float) :=
  [{ Element.bare "a" .rectangle with groupIds := ["g", "g"] }]

/-- The box alone makes a group. -/
theorem not_isCoherent_listedTwice : ¬ (diagram listedTwice).IsCoherent := by
  intro h
  have hgroups : (diagram listedTwice).groups = [⟨"g", "g", ["n_a", "n_a"]⟩] := by decide +kernel
  obtain ⟨a, ha, b, hb, hne⟩ := h.two_children ⟨"g", "g", ["n_a", "n_a"]⟩ (by simp [hgroups])
  have hchild : ∀ c ∈ ["n_a", "n_a"], c = "n_a" := by decide
  exact hne ((hchild a ha).trans (hchild b hb).symm)

/-- A class without members beside a participant's lifeline. -/
def classWithLifeline : List (Element Float) :=
  [{ Element.bare "a" .rectangle with metadata := some (.tagged .classContainer) },
   { Element.bare "l" .line with
     metadata := some { Metadata.tagged .lifeline with participantId := some "n_a" } }]

/-- The participant of a sequence has sections. -/
theorem not_isCoherent_classWithLifeline : ¬ (diagram classWithLifeline).IsCoherent := by
  rw [isCoherent_diagram_iff]
  rintro ⟨-, h⟩
  have hnone := h (by decide +kernel)
  revert hnone
  decide +kernel

end DiagramBoard.Board
