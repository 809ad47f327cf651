/-
DiagramBoard.Proofs.Diagram.Coherent — diagrams whose parts fit together.

Nodes are told apart by their ids, and whatever refers to a node or a group refers to one that is
there.  A group is worth the name if it has two different nodes, and only classes and entities have
members.

Main statements: pruning leaves a diagram alone that refers to nothing that is not there and has
groups of two children or more (`prune_eq_self`), and no group that it leaves lists anything but nodes
(`mem_nodeIds_of_mem_groups_prune`).
-/
import DiagramBoard.Proofs.Diagram.Nodes

namespace DiagramBoard

variable {α : Type}

/-- Whether a group lists two different nodes. -/
def Group.HasTwo (g : Group) : Prop := ∃ a ∈ g.children, ∃ b ∈ g.children, a ≠ b

/-- A group of two nodes lists one besides any that it lists. -/
theorem Group.HasTwo.exists_ne {g : Group} (h : g.HasTwo) (id : String) :
    ∃ c ∈ g.children, c ≠ id := by
  obtain ⟨a, ha, b, hb, hne⟩ := h
  by_cases hid : a = id
  · exact ⟨b, hb, fun he => hne (hid.trans he.symm)⟩
  · exact ⟨a, ha, hid⟩

/-- Two children that are not repeated are two nodes. -/
theorem Group.hasTwo_of_nodup {g : Group} (htwo : 2 ≤ g.children.length) (hnodup : g.children.Nodup) :
    g.HasTwo := by
  refine ⟨g.children[0], List.getElem_mem _, g.children[1], List.getElem_mem _, fun he => ?_⟩
  have := (List.Nodup.getElem_inj_iff hnodup).1 he
  omega

namespace Diagram

/-- A diagram that refers to nothing that is not there. -/
structure IsClosed (d : Diagram α) : Prop where
  nodup_nodeIds : d.nodeIds.Nodup
  ends : ∀ e ∈ d.edges, e.source ∈ d.nodeIds ∧ e.target ∈ d.nodeIds
  children : ∀ g ∈ d.groups, ∀ c ∈ g.children, c ∈ d.nodeIds
  listed : ∀ n ∈ d.nodes, ∀ id ∈ n.group, ∃ g ∈ d.groups, g.id = id ∧ n.id ∈ g.children

/-- A diagram whose parts fit together: besides, a group has two different nodes, and only classes
and entities have members. -/
structure IsCoherent (d : Diagram α) : Prop extends IsClosed d where
  two_children : ∀ g ∈ d.groups, g.HasTwo
  sections : ∀ n ∈ d.nodes, n.sections.isSome = true → d.kind.isClassLike = true

/-! ## What pruning leaves alone -/

variable {d : Diagram α}

/-- Edges stay if they join nodes. -/
theorem prunedEdges_eq_self (h : ∀ e ∈ d.edges, e.source ∈ d.nodeIds ∧ e.target ∈ d.nodeIds) :
    d.prunedEdges = d.edges := by
  refine List.filter_eq_self.2 fun e he => ?_
  rw [Bool.and_eq_true]
  exact ⟨hasNode_iff.2 (h e he).1, hasNode_iff.2 (h e he).2⟩

/-- Groups stay as they are if they list two nodes or more and nothing else. -/
theorem prunedGroups_eq_self (hchildren : ∀ g ∈ d.groups, ∀ c ∈ g.children, c ∈ d.nodeIds)
    (htwo : ∀ g ∈ d.groups, 2 ≤ g.children.length) : d.prunedGroups = d.groups := by
  have hmap : (d.groups.map fun g => { g with children := g.children.filter fun c => d.hasNode c })
      = d.groups := by
    refine (List.map_congr_left fun g hg => ?_).trans (List.map_id _)
    have : g.children.filter (fun c => d.hasNode c) = g.children :=
      List.filter_eq_self.2 fun c hc => hasNode_iff.2 (hchildren g hg c hc)
    rw [this]
    rfl
  rw [prunedGroups, hmap]
  exact List.filter_eq_self.2 fun g hg => by simpa using htwo g hg

/-- Nodes stay as they are if a group lists them or they are in none. -/
theorem map_prunedNode_eq_self {groups : List Group} {ns : List (Node α)}
    (h : ∀ n ∈ ns, (groups.any fun g => g.children.contains n.id) = true ∨ n.group = none) :
    ns.map (prunedNode groups) = ns := by
  refine (List.map_congr_left fun n hn => ?_).trans (List.map_id _)
  rw [prunedNode]
  split
  · rfl
  · rename_i hany
    rcases h n hn with hlisted | hnone
    · exact absurd hlisted hany
    · rw [← hnone]
      rfl

/-- Pruning leaves a diagram alone where nothing refers to nothing. -/
theorem prune_eq_self (hends : ∀ e ∈ d.edges, e.source ∈ d.nodeIds ∧ e.target ∈ d.nodeIds)
    (hchildren : ∀ g ∈ d.groups, ∀ c ∈ g.children, c ∈ d.nodeIds)
    (htwo : ∀ g ∈ d.groups, 2 ≤ g.children.length)
    (hgroup : ∀ n ∈ d.nodes, (d.groups.any fun g => g.children.contains n.id) = true ∨ n.group = none) :
    d.prune = d := by
  rw [prune, prunedEdges_eq_self hends, prunedGroups_eq_self hchildren htwo,
    map_prunedNode_eq_self hgroup]

/-- A group that stays lists nodes only. -/
theorem mem_nodeIds_of_mem_groups_prune {g : Group} (hg : g ∈ d.prune.groups) {c : String}
    (hc : c ∈ g.children) : c ∈ d.prune.nodeIds := by
  obtain ⟨g', -, rfl⟩ := List.mem_map.1 (List.mem_filter.1 hg).1
  rw [nodeIds_prune]
  exact hasNode_iff.1 (List.mem_filter.1 hc).2

end Diagram

end DiagramBoard
