/-
DiagramBoard.Proofs.Layout.Layers — the ranks of a diagram and its nodes in layers.

Edges are found by the ids of their ends, and only those count that join two nodes.  The ranks of a
diagram are the ranks for the predecessors that these edges make; what is known of them is said here
in terms of the edges.  Layers are what ranks make of the nodes: however a layer is ordered, it holds
the nodes of its rank.

Main statements: a predecessor is a node with an edge to another (`precedes_predecessors_iff`), every
layer holds the nodes of its rank (`forall₂_layers`), and so ranks are longest ways as far as there
are any, and layers hold every node once (`isRanking_ranks`).
-/
import DiagramBoard.Proofs.Layout.Ranks

namespace DiagramBoard

/-! ## Edges by number -/

namespace Diagram

variable {α : Type}

/-- Whether an edge of a diagram leads from node number `u` to another node, number `v`. -/
def Links (d : Diagram α) (u v : Nat) : Prop :=
  u ≠ v ∧ ∃ e ∈ d.edges, d.nodeIds[u]? = some e.source ∧ d.nodeIds[v]? = some e.target

end Diagram

namespace Layout

variable {α : Type} {ids : List String} {id : String} {i s t : Nat}

theorem getElem?_of_lastIndex? (h : lastIndex? id ids = some i) : ids[i]? = some id := by
  induction ids generalizing i with
  | nil => exact nomatch h
  | cons a r ih =>
    rw [lastIndex?] at h
    cases hr : lastIndex? id r with
    | some k =>
      rw [hr] at h
      obtain rfl : k + 1 = i := Option.some.inj h
      exact ih hr
    | none =>
      rw [hr] at h
      by_cases ha : a = id
      · obtain rfl : 0 = i := by simpa [ha] using h
        rw [ha]
        rfl
      · simp [ha] at h

theorem isSome_lastIndex? (h : id ∈ ids) : (lastIndex? id ids).isSome = true := by
  induction ids with
  | nil => exact absurd h List.not_mem_nil
  | cons a r ih =>
    rw [lastIndex?]
    cases hr : lastIndex? id r with
    | some k => rfl
    | none =>
      rcases List.mem_cons.1 h with rfl | hmem
      · simp
      · simp [hr] at ih
        exact absurd hmem ih

/-- Where ids differ, the last number of an id is its only one. -/
theorem lastIndex?_eq_some_iff (hids : ids.Nodup) :
    lastIndex? id ids = some i ↔ ids[i]? = some id := by
  refine ⟨getElem?_of_lastIndex?, fun h => ?_⟩
  obtain ⟨k, hk⟩ := Option.isSome_iff_exists.1 (isSome_lastIndex? (List.mem_of_getElem? h))
  have heq : ids[k]? = ids[i]? := (getElem?_of_lastIndex? hk).trans h.symm
  have hlt : k < ids.length := (List.getElem?_eq_some_iff.1 (getElem?_of_lastIndex? hk)).1
  rw [hk, (List.getElem?_inj hlt hids).1 heq]

theorem link?_eq_some_iff {e : Edge α} : link? ids e = some (s, t)
    ↔ s ≠ t ∧ lastIndex? e.source ids = some s ∧ lastIndex? e.target ids = some t := by
  unfold link?
  cases lastIndex? e.source ids with
  | none => simp
  | some a =>
    cases lastIndex? e.target ids with
    | none => simp
    | some b =>
      by_cases hab : a = b
      · simp only [hab, if_true, Option.some.injEq]
        constructor
        · exact nofun
        · rintro ⟨hne, rfl, rfl⟩
          exact absurd rfl hne
      · simp only [hab, if_false, Option.some.injEq, Prod.mk.injEq]
        constructor
        · rintro ⟨rfl, rfl⟩
          exact ⟨hab, rfl, rfl⟩
        · exact And.right

theorem mem_predecessorsOf {links : List (Nat × Nat)} :
    s ∈ predecessorsOf links t ↔ (s, t) ∈ links := by
  simp [predecessorsOf]

variable (d : Diagram α)

@[simp] theorem length_predecessors : (predecessors d).length = d.nodes.length := by
  simp [predecessors]

/-- The predecessors of a node are what the links to it come from. -/
theorem precedes_predecessors_iff_link? : Precedes (predecessors d) s t
    ↔ ∃ e ∈ d.edges, link? d.nodeIds e = some (s, t) := by
  have hlt : ∀ e : Edge α, link? d.nodeIds e = some (s, t) → t < d.nodes.length := fun e he => by
    have ht := getElem?_of_lastIndex? (link?_eq_some_iff.1 he).2.2
    simpa [Diagram.nodeIds] using (List.getElem?_eq_some_iff.1 ht).1
  rw [Precedes, predecessors, List.getD_eq_getElem?_getD, List.getElem?_map]
  by_cases ht : t < d.nodes.length
  · rw [List.getElem?_range ht, Option.map_some, Option.getD_some, mem_predecessorsOf,
      List.mem_filterMap]
  · rw [List.getElem?_eq_none (by simpa using ht)]
    constructor
    · exact fun h => absurd h List.not_mem_nil
    · rintro ⟨e, -, he⟩
      exact absurd (hlt e he) ht

/-- The predecessors of a node are the other nodes that edges to it come from. -/
theorem precedes_predecessors_iff {d : Diagram α} (hids : d.nodeIds.Nodup) :
    Precedes (predecessors d) s t ↔ d.Links s t := by
  simp only [precedes_predecessors_iff_link?, link?_eq_some_iff, lastIndex?_eq_some_iff hids,
    Diagram.Links]
  constructor
  · rintro ⟨e, he, hne, hs, ht⟩
    exact ⟨hne, e, he, hs, ht⟩
  · rintro ⟨hne, e, he, hs, ht⟩
    exact ⟨e, he, hne, hs, ht⟩

theorem areNodes_predecessors : AreNodes (predecessors d) := by
  intro p i hp
  obtain ⟨e, -, he⟩ := (precedes_predecessors_iff_link? d).1 hp
  have hs := getElem?_of_lastIndex? (link?_eq_some_iff.1 he).2.1
  simpa [Diagram.nodeIds] using (List.getElem?_eq_some_iff.1 hs).1

/-! ## Layers -/

section Layers

variable [Scalar α] {preds : List (List Nat)} {rs : List Nat}

/-- However a layer is ordered, it holds the nodes of its rank. -/
theorem orderLayer_perm (preds : List (List Nat)) (rs : List Nat) (places : Places) (rank : Nat) :
    (orderLayer α preds rs places rank).Perm (layer rs rank) := by
  refine ((List.mergeSort_perm _ _).map Prod.fst).trans ?_
  rw [List.map_map]
  exact (congrArg (List.Perm · _) (List.zipIdx_map_fst 0 (layer rs rank))).mpr (.refl _)

/-- Layers are ordered one after another. -/
theorem forall₂_orderFrom (preds : List (List Nat)) (rs : List Nat) (places : Places)
    (rank count : Nat) : List.Forall₂ (fun l r => l.Perm (layer rs r))
      (orderFrom α preds rs places rank count) (List.range' rank count) := by
  induction count generalizing places rank with
  | zero => exact .nil
  | succ count ih => exact .cons (orderLayer_perm preds rs places rank) (ih _ _)

/-- The number of layers: one more than the largest rank, or none without nodes. -/
def layerCount (rs : List Nat) : Nat :=
  match rs with
  | [] => 0
  | rs => rs.foldl max 0 + 1

/-- The layers hold the nodes of the ranks, from the lowest rank on. -/
theorem forall₂_layers (preds : List (List Nat)) :
    List.Forall₂ (fun l r => l.Perm (layer (ranks preds) r)) (layers α preds)
      (List.range (layerCount (ranks preds))) := by
  unfold layers layerCount
  cases hrs : ranks preds with
  | nil => exact .nil
  | cons r rs =>
    rw [List.range_eq_range']
    exact forall₂_orderFrom preds (r :: rs) [] 0 _

theorem lt_layerCount {r : Nat} (h : r ∈ rs) : r < layerCount rs := by
  have hle : ∀ (rs : List Nat) (m : Nat), m ≤ rs.foldl max m ∧ ∀ r ∈ rs, r ≤ rs.foldl max m := by
    intro rs
    induction rs with
    | nil => exact fun m => ⟨le_rfl, nofun⟩
    | cons a rs ih =>
      intro m
      obtain ⟨hm, hall⟩ := ih (max m a)
      refine ⟨(le_max_left m a).trans hm, fun r hr => ?_⟩
      rcases List.mem_cons.1 hr with rfl | hr
      · exact (le_max_right m r).trans hm
      · exact hall r hr
  cases rs with
  | nil => exact absurd h List.not_mem_nil
  | cons a rs => exact Nat.lt_succ_of_le ((hle (a :: rs) 0).2 r h)

/-- Things that are put into classes by number stay the same things. -/
theorem flatMap_filter_perm {β : Type} (key : β → Nat) (xs : List β) (count : Nat) :
    ((List.range count).flatMap fun r => xs.filter fun x => key x = r).Perm
      (xs.filter fun x => key x < count) := by
  induction count with
  | zero => simp
  | succ count ih =>
    rw [List.range_succ, List.flatMap_append, List.flatMap_singleton]
    refine (ih.append_right _).trans ?_
    have hsplit := List.filter_append_perm (fun x => decide (key x < count))
      (xs.filter fun x => key x < count + 1)
    simp only [List.filter_filter] at hsplit
    refine (List.Perm.of_eq ?_).trans hsplit
    congr 1 <;> refine List.filter_congr fun x _ => ?_
    all_goals
      rw [Bool.eq_iff_iff]
      simp
      omega

/-- The layers hold every node once. -/
theorem flatten_layers_perm (preds : List (List Nat)) :
    (layers α preds).flatten.Perm (List.range preds.length) := by
  have hperm := List.Perm.flatten_congr
    (List.forall₂_map_right_iff.2 (forall₂_layers (α := α) preds))
  rw [← List.flatMap_def] at hperm
  have hall : ((List.range (ranks preds).length).filter
      fun i => (ranks preds).getD i 0 < layerCount (ranks preds))
        = List.range preds.length := by
    rw [length_ranks, List.filter_eq_self]
    intro i hi
    refine decide_eq_true (lt_layerCount ?_)
    rw [List.getD_eq_getElem _ _ (by rw [length_ranks]; exact List.mem_range.1 hi)]
    exact List.getElem_mem _
  exact hall ▸ hperm.trans (flatMap_filter_perm _ _ _)

/-- A node is in the layer of its rank. -/
theorem getD_ranks_of_mem_layers {r : Nat} {l : List Nat} (hl : (layers α preds)[r]? = some l) :
    ∀ i ∈ l, (ranks preds).getD i 0 = r := by
  intro i hi
  have hlayers := forall₂_layers (α := α) preds
  obtain ⟨hlt, rfl⟩ := List.getElem?_eq_some_iff.1 hl
  have hperm := hlayers.get hlt (hlayers.length_eq ▸ hlt)
  have hmem := hperm.mem_iff.1 hi
  simpa [layer] using (List.mem_filter.1 hmem).2

end Layers

end Layout

/-! ## The ranks of a diagram -/

/-- Whether numbers are the ranks of the nodes of a diagram.  Edges go to higher ranks unless they
are in a cycle, every rank has its reason in the rank directly below it, so that no rank is left out,
and where there are no cycles, the rank of a node is the number of edges on the longest way to it. -/
structure Diagram.IsRanking {α : Type} (d : Diagram α) (rank : Nat → Nat) : Prop where
  lt_of_links : ∀ {u v}, d.Links u v → ¬ Relation.ReflTransGen d.Links v u → rank u < rank v
  exists_links : ∀ v < d.nodes.length, 0 < rank v → ∃ u, d.Links u v ∧ rank u + 1 = rank v
  exists_eq : ∀ v < d.nodes.length, ∀ r ≤ rank v, ∃ u < d.nodes.length, rank u = r
  lt_length : ∀ v < d.nodes.length, rank v < d.nodes.length
  isGreatest : (∀ v, ¬ Relation.TransGen d.Links v v) → ∀ v < d.nodes.length,
    IsGreatest {k | ∃ path : List Nat, path.IsChain d.Links ∧ path.getLast? = some v
      ∧ path.length = k + 1} (rank v)

/-- Whether layers hold each of `count` nodes once, in the layer of its rank. -/
structure IsLayering (count : Nat) (rank : Nat → Nat) (layers : List (List Nat)) : Prop where
  perm : layers.flatten.Perm (List.range count)
  rank_eq : ∀ {r l}, layers[r]? = some l → ∀ i ∈ l, rank i = r

open Layout

variable {α : Type} [Scalar α] {d : Diagram α}

/-- Every node of a diagram gets a rank, whatever cycles there are, and these numbers are ranks; the
layers hold every node once, in the layer of its rank. -/
theorem isRanking_ranks (hids : d.nodeIds.Nodup) :
    (∀ v < d.nodes.length, (rankTable (predecessors d)).lookup v
        = some ((ranks (predecessors d)).getD v 0))
      ∧ d.IsRanking ((ranks (predecessors d)).getD · 0)
      ∧ IsLayering d.nodes.length ((ranks (predecessors d)).getD · 0)
        (layers α (predecessors d)) := by
  have hnodes := areNodes_predecessors d
  have hlinks : Precedes (predecessors d) = d.Links :=
    funext₂ fun _ _ => propext (precedes_predecessors_iff hids)
  rw [← length_predecessors d]
  refine ⟨fun v hv => lookup_rankTable hnodes hv, ?_, flatten_layers_perm _,
    getD_ranks_of_mem_layers⟩
  constructor
  · intro u v huv hback
    rw [← hlinks] at huv hback
    exact getD_ranks_lt hnodes huv hback
  · intro v hv hpos
    rw [← length_predecessors d] at hv
    rw [← hlinks]
    exact exists_getD_ranks_eq hnodes hv hpos
  · rw [← length_predecessors d]
    exact fun v hv r hr => exists_getD_ranks_eq_of_le hnodes hv hr
  · rw [← length_predecessors d]
    exact fun v hv => getD_ranks_lt_length hnodes hv
  · intro hacyclic v hv
    rw [← length_predecessors d] at hv
    rw [← hlinks] at hacyclic ⊢
    exact isGreatest_getD_ranks hnodes hacyclic hv

/-- Three nodes in a cycle, a fourth one with an edge into the cycle, an edge to itself and one to
a node that there is not. -/
def retryLoop : Diagram Rat :=
  { nodes := ["Send", "Wait", "Retry", "Start"].map fun id => { id := id, label := id }
    edges := [("Send", "Wait"), ("Wait", "Retry"), ("Retry", "Send"), ("Start", "Send"),
      ("Start", "Start"), ("Wait", "Done")].map fun e =>
        { id := Edge.pairId e.1 e.2, source := e.1, target := e.2 } }

/-- The cycle is cut where the first node is reached again, and the edge into it is kept. -/
theorem isRanking_ranks_retryLoop :
    retryLoop.nodeIds.Nodup ∧ ranks (predecessors retryLoop) = [2, 0, 1, 0]
      ∧ retryLoop.IsRanking ([2, 0, 1, 0].getD · 0)
      ∧ IsLayering 4 ([2, 0, 1, 0].getD · 0) [[1, 3], [2], [0]] := by
  have hids : retryLoop.nodeIds.Nodup := by decide
  have hranks : ranks (predecessors retryLoop) = [2, 0, 1, 0] := by cbv
  have hlayers : layers Rat (predecessors retryLoop) = [[1, 3], [2], [0]] := by cbv
  obtain ⟨-, hranking, hlayering⟩ := isRanking_ranks hids
  rw [hranks] at hranking hlayering
  rw [hlayers] at hlayering
  exact ⟨hids, hranks, hranking, hlayering⟩

end DiagramBoard
