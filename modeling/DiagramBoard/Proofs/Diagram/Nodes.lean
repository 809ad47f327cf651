/-
DiagramBoard.Proofs.Diagram.Nodes — what adding and changing nodes does to the nodes of a diagram.

Main statements: where ids are distinct, the place of an id is that of its node
(`place?_of_nodup`); the ids after each operation (`nodeIds_ensureNode`, `nodeIds_modifyNode`), the
nodes themselves (`mem_ensureNode`, `mem_modifyNode`), and the two together for a node that is new
(`modifyNode_ensureNode`).
-/
import DiagramBoard.Diagram.Basic
import DiagramBoard.Diagram.Prune
import DiagramBoard.Proofs.Keyed
import Mathlib

namespace DiagramBoard.Diagram

variable {α : Type}

theorem hasNode_iff {d : Diagram α} {id : String} : d.hasNode id = true ↔ id ∈ d.nodeIds := by
  rw [hasNode_eq, List.contains_iff_mem]

theorem mem_nodeIds {d : Diagram α} {n : Node α} (h : n ∈ d.nodes) : n.id ∈ d.nodeIds :=
  List.mem_map_of_mem h

theorem node?_of_nodup {d : Diagram α} (h : d.nodeIds.Nodup) {n : Node α} (hn : n ∈ d.nodes) :
    d.node? n.id = some n := find?_of_nodup h hn

theorem node?_eq_none_iff {d : Diagram α} {id : String} : d.node? id = none ↔ id ∉ d.nodeIds := by
  simp [node?, nodeIds]

theorem id_of_node? {d : Diagram α} {id : String} {m : Node α} (h : d.node? id = some m) :
    m.id = id := by
  simpa using List.find?_some h

theorem mem_nodeIds_of_node? {d : Diagram α} {id : String} {m : Node α} (h : d.node? id = some m) :
    id ∈ d.nodeIds := by
  by_contra hnot
  rw [node?_eq_none_iff.2 hnot] at h
  cases h

/-- Where the node with an id is. -/
def place? (d : Diagram α) (id : String) : Option (Box α) := (d.node? id).bind (·.box)

/-- Where ids are distinct, the place of an id is that of its node. -/
theorem place?_of_nodup {d : Diagram α} (h : d.nodeIds.Nodup) {n : Node α} (hn : n ∈ d.nodes) :
    d.place? n.id = n.box := by
  rw [place?, node?_of_nodup h hn, Option.bind_some]

/-! ## A node for an id -/

theorem ensureNode_of_mem {d : Diagram α} {n : Node α} (h : n.id ∈ d.nodeIds) :
    d.ensureNode n = d := by
  rw [ensureNode, if_pos (hasNode_iff.2 h)]

theorem ensureNode_of_notMem {d : Diagram α} {n : Node α} (h : n.id ∉ d.nodeIds) :
    d.ensureNode n = { d with nodes := d.nodes ++ [n] } := by
  rw [ensureNode, if_neg (fun hn => h (hasNode_iff.1 hn))]

theorem nodeIds_ensureNode (d : Diagram α) (n : Node α) :
    (d.ensureNode n).nodeIds = if n.id ∈ d.nodeIds then d.nodeIds else d.nodeIds ++ [n.id] := by
  by_cases h : n.id ∈ d.nodeIds
  · rw [ensureNode_of_mem h, if_pos h]
  · rw [ensureNode_of_notMem h, if_neg h]
    simp [nodeIds]

theorem mem_nodeIds_ensureNode {d : Diagram α} {n : Node α} {id : String} :
    id ∈ (d.ensureNode n).nodeIds ↔ id ∈ d.nodeIds ∨ id = n.id := by
  rw [nodeIds_ensureNode]
  split
  · constructor
    · exact .inl
    · rintro (h | rfl)
      · exact h
      · assumption
  · simp

theorem mem_ensureNode {d : Diagram α} {n m : Node α} (h : m ∈ (d.ensureNode n).nodes) :
    m ∈ d.nodes ∨ m = n := by
  by_cases hn : n.id ∈ d.nodeIds
  · rw [ensureNode_of_mem hn] at h
    exact .inl h
  · rw [ensureNode_of_notMem hn] at h
    simpa using h

theorem nodup_nodeIds_ensureNode {d : Diagram α} (hd : d.nodeIds.Nodup) (n : Node α) :
    (d.ensureNode n).nodeIds.Nodup := by
  rw [nodeIds_ensureNode]
  split
  · exact hd
  · rename_i h
    rw [List.nodup_append]
    refine ⟨hd, by simp, ?_⟩
    rintro a ha b hb rfl
    obtain rfl := List.mem_singleton.1 hb
    exact h ha

@[simp] theorem edges_ensureNode (d : Diagram α) (n : Node α) : (d.ensureNode n).edges = d.edges := by
  unfold ensureNode
  split <;> rfl

@[simp] theorem kind_ensureNode (d : Diagram α) (n : Node α) : (d.ensureNode n).kind = d.kind := by
  unfold ensureNode
  split <;> rfl

@[simp] theorem direction_ensureNode (d : Diagram α) (n : Node α) :
    (d.ensureNode n).direction = d.direction := by
  unfold ensureNode
  split <;> rfl

@[simp] theorem groups_ensureNode (d : Diagram α) (n : Node α) :
    (d.ensureNode n).groups = d.groups := by
  unfold ensureNode
  split <;> rfl

/-! ## A changed node -/

theorem map_id_change {id : String} {f : Node α → Node α} (hf : ∀ n, (f n).id = n.id)
    (ns : List (Node α)) : (modifyNode.change id f ns).map (·.id) = ns.map (·.id) := by
  induction ns with
  | nil => rfl
  | cons n ns ih =>
    rw [modifyNode.change]
    split
    · simp [hf]
    · simp [ih]

theorem nodeIds_modifyNode (d : Diagram α) (id : String) {f : Node α → Node α}
    (hf : ∀ n, (f n).id = n.id) : (d.modifyNode id f).nodeIds = d.nodeIds :=
  map_id_change hf d.nodes

theorem mem_change {id : String} {f : Node α → Node α} {ns : List (Node α)} {m : Node α}
    (h : m ∈ modifyNode.change id f ns) : m ∈ ns ∨ ∃ n ∈ ns, n.id = id ∧ m = f n := by
  induction ns with
  | nil => simp [modifyNode.change] at h
  | cons n ns ih =>
    rw [modifyNode.change] at h
    split at h
    · rename_i hn
      rcases List.mem_cons.1 h with rfl | h
      · exact .inr ⟨n, List.mem_cons_self, hn, rfl⟩
      · exact .inl (List.mem_cons_of_mem _ h)
    · rcases List.mem_cons.1 h with rfl | h
      · exact .inl List.mem_cons_self
      · rcases ih h with h | ⟨k, hk, hid, rfl⟩
        · exact .inl (List.mem_cons_of_mem _ h)
        · exact .inr ⟨k, List.mem_cons_of_mem _ hk, hid, rfl⟩

/-- A node of a diagram with one node changed is a node it had or the changed one. -/
theorem mem_modifyNode {d : Diagram α} {id : String} {f : Node α → Node α} {m : Node α}
    (h : m ∈ (d.modifyNode id f).nodes) : m ∈ d.nodes ∨ ∃ n ∈ d.nodes, n.id = id ∧ m = f n :=
  mem_change h

/-- Where ids are distinct, changing the first node with an id changes every one. -/
theorem change_of_nodup {id : String} {f : Node α → Node α} {ns : List (Node α)}
    (h : (ns.map (·.id)).Nodup) :
    modifyNode.change id f ns = ns.map fun n => if n.id = id then f n else n := by
  induction ns with
  | nil => rfl
  | cons n ns ih =>
    obtain ⟨hn, hns⟩ := List.nodup_cons.1 h
    rw [modifyNode.change, List.map_cons]
    split
    · next hid =>
      have hrest : ∀ m ∈ ns, (if m.id = id then f m else m) = m := by
        intro m hm
        have hne : m.id ≠ id := by
          rintro rfl
          exact hn (List.mem_map.2 ⟨m, hm, hid.symm⟩)
        exact if_neg hne
      rw [List.map_congr_left hrest, List.map_id']
    · rw [ih hns]

theorem change_append {id : String} {f : Node α → Node α} {ns : List (Node α)} {n : Node α}
    (h : id ∉ ns.map (·.id)) (hn : n.id = id) :
    modifyNode.change id f (ns ++ [n]) = ns ++ [f n] := by
  induction ns with
  | nil => simp [modifyNode.change, hn]
  | cons m ns ih =>
    have hm : m.id ≠ id := fun e => h (by simp [e])
    have hns : id ∉ ns.map (·.id) := fun hmem => h (List.mem_cons_of_mem _ hmem)
    rw [List.cons_append, modifyNode.change, if_neg hm, ih hns, List.cons_append]

/-- A new node is added with its change. -/
theorem modifyNode_ensureNode {d : Diagram α} {n : Node α} (f : Node α → Node α)
    (h : n.id ∉ d.nodeIds) :
    (d.ensureNode n).modifyNode n.id f = { d with nodes := d.nodes ++ [f n] } := by
  rw [ensureNode_of_notMem h, modifyNode]
  simp only [change_append h rfl]

/-- The last node changed, if no other has its id. -/
theorem modifyNode_append {d : Diagram α} {ns : List (Node α)} {n : Node α} (f : Node α → Node α)
    (hd : d.nodes = ns ++ [n]) (h : n.id ∉ ns.map (·.id)) :
    d.modifyNode n.id f = { d with nodes := ns ++ [f n] } := by
  rw [modifyNode, hd, change_append h rfl]

end DiagramBoard.Diagram
