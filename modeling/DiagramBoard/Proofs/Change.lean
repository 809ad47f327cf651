/-
DiagramBoard.Proofs.Change — the places that nodes keep through a change.

Main statement: a node of the new diagram that was in the old one is at the place it had there
(`previousBox?_of_mem`), whether it has changed or not.
-/
import DiagramBoard.Change
import DiagramBoard.Proofs.Diagram.Nodes
import DiagramBoard.Proofs.Keyed

namespace DiagramBoard

variable {α : Type}

namespace Change

/-- In a diagram whose nodes have different ids, the last node of an id is the only one. -/
theorem lastNode?_of_nodup {nodes : List (Node α)} (h : (nodes.map (·.id)).Nodup) {n : Node α}
    (hn : n ∈ nodes) : lastNode? nodes n.id = some n := by
  rw [lastNode?, ← List.getLast?_filter]
  exact getLast?_of_nodup h hn

/-- What becomes of a node that was there before. -/
theorem nodeFate_of_mem {old : List (Node α)} (h : (old.map (·.id)).Nodup) {m n : Node α}
    (hm : m ∈ old) (hid : n.id = m.id) :
    nodeFate old n = if sameNode m n then .unchanged { n with box := m.box.or n.box }
      else .updated m n := by
  rw [nodeFate, hid, lastNode?_of_nodup h hm]

end Change

namespace DiagramChange

open Change

/-- Where everything that is looked through gives the same, something gives it. -/
theorem findSome?_of_forall {β γ : Type} {f : β → Option γ} {c : γ} {xs : List β}
    (h : ∀ x ∈ xs, f x = some c) (hne : xs ≠ []) : xs.findSome? f = some c := by
  cases xs with
  | nil => exact absurd rfl hne
  | cons x xs => rw [List.findSome?_cons, h x List.mem_cons_self]

variable {old new : Diagram α}

theorem before_of_mem_updated (hold : old.nodeIds.Nodup) {m : Node α} (hm : m ∈ old.nodes)
    {r : Replaced (Node α)} (hr : r ∈ (between old new).nodes.updated) (hid : r.after.id = m.id) :
    r.before = m := by
  simp only [between, ofNodes, ofFates, List.mem_filterMap, List.mem_map] at hr
  obtain ⟨f, ⟨n, -, rfl⟩, hf⟩ := hr
  unfold nodeFate at hf
  split at hf
  · simp [Fate.updated?] at hf
  · next b hb =>
    split at hf
    · simp [Fate.updated?] at hf
    · obtain rfl := Option.some.inj hf
      rw [hid, lastNode?_of_nodup hold hm] at hb
      exact (Option.some.inj hb).symm

theorem box_of_mem_unchanged (hold : old.nodeIds.Nodup) {m : Node α} (hm : m ∈ old.nodes)
    {b : Box α} (hb : m.box = some b) {n : Node α}
    (hn : n ∈ (between old new).nodes.unchanged) (hid : n.id = m.id) : n.box = some b := by
  simp only [between, ofNodes, ofFates, List.mem_filterMap, List.mem_map] at hn
  obtain ⟨f, ⟨k, -, rfl⟩, hf⟩ := hn
  unfold nodeFate at hf
  split at hf
  · simp [Fate.unchanged?] at hf
  · next a ha =>
    split at hf
    · obtain rfl := Option.some.inj hf
      rw [show k.id = m.id from hid, lastNode?_of_nodup hold hm] at ha
      obtain rfl := Option.some.inj ha
      simp [hb]
    · simp [Fate.unchanged?] at hf

/-- A node that was there before is at the place that it had. -/
theorem previousBox?_of_mem (hold : old.nodeIds.Nodup) {m n : Node α} (hm : m ∈ old.nodes)
    {new : Diagram α} (hn : n ∈ new.nodes) (hid : n.id = m.id) {b : Box α} (hb : m.box = some b) :
    (between old new).previousBox? n.id = some b := by
  let updated := (between old new).nodes.updated.reverse.filter fun r => r.after.id = n.id
  let unchanged := (between old new).nodes.unchanged.reverse.filter fun k => k.id = n.id
  have hupdated : ∀ r ∈ updated, r.before.box = some b := by
    intro r hr
    rw [List.mem_filter, List.mem_reverse, decide_eq_true_eq] at hr
    rw [before_of_mem_updated hold hm hr.1 (hr.2.trans hid), hb]
  have hunchanged : ∀ k ∈ unchanged, k.box = some b := by
    intro k hk
    rw [List.mem_filter, List.mem_reverse, decide_eq_true_eq] at hk
    exact box_of_mem_unchanged hold hm hb hk.1 (hk.2.trans hid)
  show (updated.findSome? (·.before.box)).or (unchanged.findSome? (·.box)) = some b
  by_cases hne : updated = []
  · -- then the node is among the unchanged ones
    have hmem : unchanged ≠ [] := by
      have hfate := nodeFate_of_mem hold hm hid
      by_cases hsame : sameNode m n = true
      · refine List.ne_nil_of_mem (a := { n with box := m.box.or n.box }) ?_
        rw [List.mem_filter, List.mem_reverse]
        refine ⟨List.mem_filterMap.2 ⟨_, List.mem_map_of_mem hn, ?_⟩, by simp⟩
        rw [hfate, if_pos hsame]
        rfl
      · refine absurd hne (List.ne_nil_of_mem (a := ⟨m, n⟩) ?_)
        rw [List.mem_filter, List.mem_reverse]
        refine ⟨List.mem_filterMap.2 ⟨_, List.mem_map_of_mem hn, ?_⟩, by simp⟩
        rw [hfate, if_neg hsame]
        rfl
    rw [hne, List.findSome?_nil, Option.none_or]
    exact findSome?_of_forall hunchanged hmem
  · rw [findSome?_of_forall hupdated hne]
    rfl

/-- The new nodes are those whose ids the old diagram does not have. -/
theorem mem_addedIds {id : String} :
    id ∈ (between old new).addedIds ↔ id ∈ new.nodeIds ∧ id ∉ old.nodeIds := by
  constructor
  · intro h
    obtain ⟨n, hn, rfl⟩ := List.mem_map.1 h
    obtain ⟨hnew, hold⟩ := mem_addedNodes.1 hn
    refine ⟨Diagram.mem_nodeIds hnew, fun hmem => ?_⟩
    obtain ⟨m, hm, hid⟩ := List.mem_map.1 hmem
    exact hold m hm hid
  · rintro ⟨hnew, hold⟩
    obtain ⟨n, hn, rfl⟩ := List.mem_map.1 hnew
    refine List.mem_map_of_mem (mem_addedNodes.2 ⟨hn, fun m hm hid => hold ?_⟩)
    exact hid ▸ Diagram.mem_nodeIds hm

end DiagramChange

end DiagramBoard
