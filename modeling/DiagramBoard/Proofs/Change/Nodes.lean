/-
DiagramBoard.Proofs.Change.Nodes — what becomes of every node in a change.

Where the ids of a diagram are distinct, a node of the new state has one node that it can have been
in the old one.  The four lists of a change share out the nodes of both states: none is in two of
them and none is left out.  What the lists say is also what places are carried by, although they
come there by two ways, with the node itself or with what it was before.

Main statements: the lists one by one (`added_ofNodes`, `removed_ofNodes`, `updated_ofNodes`,
`unchanged_ofNodes`), the places that are carried (`carryPlaces_between`), and all of it together
(`isExact_between`).
-/
import DiagramBoard.Proofs.Change

namespace DiagramBoard

variable {α : Type}

/-- Whether two nodes say the same, wherever they are and whatever they look like. -/
def Node.SaysSame (m n : Node α) : Prop := m.label = n.label ∧ m.shape = n.shape ∧ m.group = n.group

instance (m n : Node α) : Decidable (m.SaysSame n) :=
  inferInstanceAs (Decidable (m.label = n.label ∧ m.shape = n.shape ∧ m.group = n.group))

/-- The newer of two nodes at the place of the older one, if that has a place. -/
def Replaced.inOldPlace (r : Replaced (Node α)) : Node α :=
  { r.after with box := r.before.box.or r.after.box }

/-- The nodes that two diagrams have in common, as they were and as they are, in the order of the
newer diagram. -/
def Diagram.common (old new : Diagram α) : List (Replaced (Node α)) :=
  new.nodes.filterMap fun n => (old.node? n.id).map fun m => ⟨m, n⟩

namespace Diagram

variable {old new : Diagram α} {n : Node α}

/-- The ids that two diagrams have in common. -/
theorem map_id_common (old new : Diagram α) :
    (old.common new).map (·.after.id) = new.nodeIds.filter fun id => id ∈ old.nodeIds := by
  rw [common, List.map_filterMap, show new.nodeIds = new.nodes.map (·.id) from rfl,
    List.filter_map, ← List.filterMap_eq_map, List.filterMap_filter]
  refine List.filterMap_congr fun n _ => ?_
  cases h : old.node? n.id with
  | none => simp [node?_eq_none_iff.1 h]
  | some m => simp [mem_nodeIds_of_node? h]

/-- Of the nodes that two diagrams have in common, one at most has the id of a given node. -/
theorem filter_common_of_mem (old : Diagram α) (hnew : new.nodeIds.Nodup) (hn : n ∈ new.nodes) :
    (old.common new).filter (fun r => r.after.id = n.id)
      = ((old.node? n.id).map fun m => (⟨m, n⟩ : Replaced (Node α))).toList := by
  have hown : new.nodes.filter (fun k => k.id = n.id) = [n] := filter_of_nodup hnew hn
  rw [common, List.filter_filterMap]
  calc new.nodes.filterMap (fun k => ((old.node? k.id).map fun m => ⟨m, k⟩).filter
          fun r => r.after.id = n.id)
      = new.nodes.filterMap (fun k => if k.id = n.id then (old.node? k.id).map fun m => ⟨m, k⟩
          else none) := by
        refine List.filterMap_congr fun k _ => ?_
        by_cases hk : k.id = n.id <;> cases old.node? k.id <;> simp [Option.filter, hk]
    _ = (new.nodes.filter fun k => k.id = n.id).filterMap
          (fun k => (old.node? k.id).map fun m => ⟨m, k⟩) := by
        rw [List.filterMap_filter]
        simp only [decide_eq_true_eq]
    _ = ((old.node? n.id).map fun m => (⟨m, n⟩ : Replaced (Node α))).toList := by
        rw [hown]
        cases h : old.node? n.id <;> simp [h]

end Diagram

namespace Change

variable {old new : Diagram α}

/-! ## The lists of a change -/

/-- Where ids are distinct, there is one node that a node can have been. -/
theorem lastNode?_eq_node? (hold : old.nodeIds.Nodup) (id : String) :
    lastNode? old.nodes id = old.node? id := by
  rw [lastNode?, ← List.getLast?_filter]
  exact getLast?_filter_of_nodup Node.id hold id

theorem nodeFate_eq (hold : old.nodeIds.Nodup) (n : Node α) :
    nodeFate old.nodes n = match old.node? n.id with
      | none => .added n
      | some m =>
        if m.SaysSame n then .unchanged (Replaced.inOldPlace ⟨m, n⟩) else .updated m n := by
  rw [nodeFate, lastNode?_eq_node? hold]
  cases h : old.node? n.id with
  | none => rfl
  | some m =>
    have hsame : sameNode m n = true ↔ m.SaysSame n := by
      simp [sameNode, Node.SaysSame, Diagram.id_of_node? h, and_assoc]
    simp only [hsame]
    rfl

/-- The added nodes are those whose ids the old diagram does not have. -/
theorem added_ofNodes (hold : old.nodeIds.Nodup) :
    (ofNodes old.nodes new.nodes).added = new.nodes.filter fun n => n.id ∉ old.nodeIds := by
  show (new.nodes.map (nodeFate old.nodes)).filterMap Fate.added? = _
  rw [List.filterMap_map, ← List.filterMap_eq_filter]
  refine List.filterMap_congr fun n _ => ?_
  rw [Function.comp_apply, nodeFate_eq hold]
  cases h : old.node? n.id with
  | none => simp [Fate.added?, Diagram.node?_eq_none_iff.1 h]
  | some m =>
    have hid : n.id ∈ old.nodeIds := Diagram.mem_nodeIds_of_node? h
    by_cases hsame : m.SaysSame n <;> simp [Fate.added?, Option.guard, hid, hsame]

/-- The removed nodes are those whose ids the new diagram does not have. -/
theorem removed_ofNodes :
    (ofNodes old.nodes new.nodes).removed = old.nodes.filter fun n => n.id ∉ new.nodeIds := by
  refine List.filter_congr fun n _ => ?_
  rw [Bool.eq_iff_iff]
  simp [Diagram.nodeIds]

/-- The updated nodes are the common ones that do not say the same any more. -/
theorem updated_ofNodes (hold : old.nodeIds.Nodup) :
    (ofNodes old.nodes new.nodes).updated
      = (old.common new).filter fun r => ¬ r.before.SaysSame r.after := by
  show (new.nodes.map (nodeFate old.nodes)).filterMap Fate.updated? = _
  rw [List.filterMap_map, Diagram.common, List.filter_filterMap]
  refine List.filterMap_congr fun n _ => ?_
  rw [Function.comp_apply, nodeFate_eq hold]
  cases old.node? n.id with
  | none => rfl
  | some m => by_cases hsame : m.SaysSame n <;> simp [Fate.updated?, Option.filter, hsame]

/-- The unchanged nodes are the common ones that still say the same, at their old places. -/
theorem unchanged_ofNodes (hold : old.nodeIds.Nodup) :
    (ofNodes old.nodes new.nodes).unchanged
      = ((old.common new).filter fun r => r.before.SaysSame r.after).map Replaced.inOldPlace := by
  show (new.nodes.map (nodeFate old.nodes)).filterMap Fate.unchanged? = _
  rw [List.filterMap_map, Diagram.common, List.filter_filterMap, List.map_filterMap]
  refine List.filterMap_congr fun n _ => ?_
  rw [Function.comp_apply, nodeFate_eq hold]
  cases old.node? n.id with
  | none => rfl
  | some m => by_cases hsame : m.SaysSame n <;> simp [Fate.unchanged?, Option.filter, hsame]

end Change

namespace DiagramChange

open Change

variable {old new : Diagram α}

/-! ## Places -/

/-- The place that a change knows of a node: that of the node that it was, or else, if it has not
changed, its own. -/
theorem previousBox?_between (hold : old.nodeIds.Nodup) (hnew : new.nodeIds.Nodup) {n : Node α}
    (hn : n ∈ new.nodes) :
    (between old new).previousBox? n.id = match old.node? n.id with
      | none => none
      | some m => if m.SaysSame n then m.box.or n.box else m.box := by
  have hcommon := Diagram.filter_common_of_mem old hnew hn
  have hupdated : (between old new).nodes.updated.reverse.filter (fun r => r.after.id = n.id)
      = (((old.node? n.id).map fun m => (⟨m, n⟩ : Replaced (Node α))).toList.filter
        fun r => ¬ r.before.SaysSame r.after).reverse := by
    rw [← hcommon, between, updated_ofNodes hold, List.filter_reverse, List.filter_comm]
  have hunchanged : (between old new).nodes.unchanged.reverse.filter (fun k => k.id = n.id)
      = ((((old.node? n.id).map fun m => (⟨m, n⟩ : Replaced (Node α))).toList.filter
        fun r => r.before.SaysSame r.after).map Replaced.inOldPlace).reverse := by
    rw [← hcommon, between, unchanged_ofNodes hold, List.filter_reverse, List.filter_map,
      List.filter_comm]
    rfl
  rw [previousBox?, hupdated, hunchanged]
  cases old.node? n.id with
  | none => rfl
  | some m => by_cases hsame : m.SaysSame n <;> simp [hsame, Replaced.inOldPlace]

/-- A diagram with carried places differs in this: a node that the old diagram has as well is at
the place that it had there, if it had one. -/
theorem carryPlaces_between (hold : old.nodeIds.Nodup) (hnew : new.nodeIds.Nodup) :
    (between old new).carryPlaces new = { new with nodes := new.nodes.map fun n =>
      { n with box := (old.place? n.id).or n.box } } := by
  have hbox : ∀ n ∈ new.nodes, ((between old new).previousBox? n.id).or n.box
      = (old.place? n.id).or n.box := by
    intro n hn
    rw [previousBox?_between hold hnew hn, Diagram.place?]
    cases old.node? n.id with
    | none => rfl
    | some m =>
      show (if m.SaysSame n then m.box.or n.box else m.box).or n.box = m.box.or n.box
      split
      · rw [Option.or_assoc, Option.or_self]
      · rfl
  rw [carryPlaces]
  congr 1
  exact List.map_congr_left fun n hn => by rw [hbox n hn]

/-! ## The nodes of a change as a whole -/

/-- Whether a change says of every node what has become of it: those that were added and removed
are the differences of the two states, the others are updated if they do not say the same any more
and unchanged if they do, and the places that are carried are the old ones where there are any. -/
structure IsExact (old new : Diagram α) (c : DiagramChange α) : Prop where
  added : c.nodes.added = new.nodes.filter fun n => n.id ∉ old.nodeIds
  removed : c.nodes.removed = old.nodes.filter fun n => n.id ∉ new.nodeIds
  updated : c.nodes.updated = (old.common new).filter fun r => ¬ r.before.SaysSame r.after
  unchanged : c.nodes.unchanged
    = ((old.common new).filter fun r => r.before.SaysSame r.after).map Replaced.inOldPlace
  /-- Both lists are in the order of the new state. -/
  inOrder : (c.nodes.updated.map (·.after.id)).Sublist new.nodeIds
    ∧ (c.nodes.unchanged.map (·.id)).Sublist new.nodeIds
  /-- Both lists together have every common node, and each once. -/
  together : (c.nodes.updated.map (·.after.id) ++ c.nodes.unchanged.map (·.id)).Perm
    (new.nodeIds.filter fun id => id ∈ old.nodeIds)
  once : (c.nodes.updated.map (·.after.id) ++ c.nodes.unchanged.map (·.id)).Nodup
  carried : c.carryPlaces new = { new with nodes := new.nodes.map fun n =>
    { n with box := (old.place? n.id).or n.box } }

/-- The ids of the updated and of the unchanged nodes, as parts of the common ones. -/
theorem map_id_between (hold : old.nodeIds.Nodup) (new : Diagram α) :
    (between old new).nodes.updated.map (·.after.id)
        = ((old.common new).filter fun r => ¬ r.before.SaysSame r.after).map (·.after.id)
      ∧ (between old new).nodes.unchanged.map (·.id)
        = ((old.common new).filter fun r => r.before.SaysSame r.after).map (·.after.id) := by
  refine ⟨by rw [between, updated_ofNodes hold], ?_⟩
  rw [between, unchanged_ofNodes hold, List.map_map]
  rfl

theorem map_id_between_perm (hold : old.nodeIds.Nodup) (new : Diagram α) :
    ((between old new).nodes.updated.map (·.after.id)
      ++ (between old new).nodes.unchanged.map (·.id)).Perm
        (new.nodeIds.filter fun id => id ∈ old.nodeIds) := by
  obtain ⟨hupdated, hunchanged⟩ := map_id_between hold new
  rw [hupdated, hunchanged, ← List.map_append, ← Diagram.map_id_common]
  refine List.Perm.map _ (List.perm_append_comm.trans ?_)
  simpa using List.filter_append_perm (fun r : Replaced (Node α) => r.before.SaysSame r.after)
    (old.common new)

/-- What becomes of the nodes in a change between two diagrams. -/
theorem isExact_between (hold : old.nodeIds.Nodup) (hnew : new.nodeIds.Nodup) :
    IsExact old new (between old new) := by
  have hcommon : ((old.common new).map (·.after.id)).Sublist new.nodeIds := by
    rw [Diagram.map_id_common]
    exact List.filter_sublist
  have hordered : ∀ p : Replaced (Node α) → Bool,
      (((old.common new).filter p).map (·.after.id)).Sublist new.nodeIds := fun p =>
    (List.filter_sublist.map _).trans hcommon
  obtain ⟨hupdated, hunchanged⟩ := map_id_between hold new
  have htogether := map_id_between_perm hold new
  exact {
    added := added_ofNodes hold
    removed := removed_ofNodes
    updated := updated_ofNodes hold
    unchanged := unchanged_ofNodes hold
    inOrder := ⟨hupdated ▸ hordered _, hunchanged ▸ hordered _⟩
    together := htogether
    once := htogether.nodup_iff.2 (hnew.filter _)
    carried := carryPlaces_between hold hnew }

/-- A shop of three nodes: one at a place, one without, and one that goes. -/
def shop : Diagram Rat :=
  { nodes := [
      { id := "Cart", label := "Cart", box := some ⟨500, 40, 150, 60⟩ },
      { id := "Pay", label := "Pay" },
      { id := "Fax", label := "Fax", box := some ⟨500, 360, 150, 60⟩ }] }

/-- The shop in another order, with one node renamed, one new one, and places of its own. -/
def newShop : Diagram Rat :=
  { nodes := [
      { id := "Mail", label := "Mail", box := some ⟨0, 200, 150, 60⟩ },
      { id := "Pay", label := "Pay", box := some ⟨0, 100, 150, 60⟩ },
      { id := "Cart", label := "Basket", box := some ⟨0, 0, 150, 60⟩ }] }

/-- The renamed node goes back to its old place; the one that had none and the new one stay. -/
theorem isExact_between_shop :
    shop.nodeIds.Nodup ∧ newShop.nodeIds.Nodup ∧ IsExact shop newShop (between shop newShop)
      ∧ ((between shop newShop).carryPlaces newShop).nodes.map (·.box)
        = [some ⟨0, 200, 150, 60⟩, some ⟨0, 100, 150, 60⟩, some ⟨500, 40, 150, 60⟩] := by
  have hold : shop.nodeIds.Nodup := by decide
  have hnew : newShop.nodeIds.Nodup := by decide
  have hexact := isExact_between hold hnew
  refine ⟨hold, hnew, hexact, ?_⟩
  rw [hexact.carried]
  rfl

end DiagramChange

end DiagramBoard
