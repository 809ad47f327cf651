/-
DiagramBoard.Proofs.Layout.ListingOrder — new nodes go to the same places however nodes are listed.

New nodes are placed one after the other, and which one is next and where it goes is found by
looking through lists: of boxes, of placed nodes, of pending ones.  None of these lists matters as a
list.  Of the boxes only their outermost edges count and whether one is in the way, of the placed
nodes only which box an id has, and the pending nodes are sorted.  Two runs that agree in this much
place the same node at the same place and agree again.

Outermost edges are numbers that can be compared, so all this is about exact ones.

Main statements: one step (`newBox_congr`) and all steps (`placePending_congr`) of two runs that
agree, the runs of two listings agree (`agree_of_perm`), and so listings do not matter
(`layoutNew_perm`).
-/
import DiagramBoard.Proofs.Layout.Stable

namespace DiagramBoard

namespace Layout

/-! ## Two runs -/

/-- Whether two runs that place nodes agree: an id has the same box in both, and the boxes are the
same. -/
structure Agree {α : Type} (placed placed' : Placed α) (boxes boxes' : List (Box α)) : Prop where
  lookup_eq : ∀ id, placed.lookup id = placed'.lookup id
  mem_iff : ∀ b, b ∈ boxes ↔ b ∈ boxes'

section Neighbours

variable {α : Type} {placed placed' : Placed α} {boxes boxes' : List (Box α)}

/-- A node that is placed in both runs leaves them in agreement. -/
theorem Agree.place (h : Agree placed placed' boxes boxes') (id : String) (b : Box α) :
    Agree ((id, b) :: placed) ((id, b) :: placed') (boxes ++ [b]) (boxes' ++ [b]) where
  lookup_eq other := by
    rw [List.lookup_cons, List.lookup_cons, h.lookup_eq]
  mem_iff c := by
    rw [List.mem_append, List.mem_append, h.mem_iff]

theorem placedNeighbour?_congr (hlookup : ∀ id, placed.lookup id = placed'.lookup id)
    (edges : List (Edge α)) (id : String) :
    placedNeighbour? edges placed id = placedNeighbour? edges placed' id := by
  unfold placedNeighbour?
  simp only [hlookup]

/-- The next node depends on what is placed, but not on the list of it. -/
theorem nextPending_congr (hlookup : ∀ id, placed.lookup id = placed'.lookup id)
    (edges : List (Edge α)) (first : Node α) (rest : List (Node α)) :
    nextPending edges placed first rest = nextPending edges placed' first rest := by
  unfold nextPending
  simp only [placedNeighbour?_congr hlookup]

end Neighbours

/-! ## Extents -/

/-- Whether a choice is one of the two numbers that it is made of, and before both in an order. -/
structure Chooses (r : Rat → Rat → Prop) (choose : Rat → Rat → Rat) : Prop where
  eq_or_eq : ∀ a b, choose a b = a ∨ choose a b = b
  left : ∀ a b, r (choose a b) a
  right : ∀ a b, r (choose a b) b

theorem chooses_smaller : Chooses (· ≤ ·) Scalar.smaller where
  eq_or_eq a b := by
    unfold Scalar.smaller
    split <;> simp
  left a b := by
    unfold Scalar.smaller
    split
    · exact le_rfl
    · next h => simpa using h
  right a b := by
    unfold Scalar.smaller
    split
    · next h => exact h.le
    · simp

theorem chooses_larger : Chooses (· ≥ ·) Scalar.larger where
  eq_or_eq a b := by
    unfold Scalar.larger
    split <;> simp
  left := Scalar.le_larger_left
  right := Scalar.le_larger_right

section Extents

variable {r : Rat → Rat → Prop} {choose : Rat → Rat → Rat} {first first' : Rat}
  {rest rest' : List Rat}

/-- The extreme of some numbers is one of them and before all of them. -/
theorem extreme_mem [Std.Refl r] [IsTrans Rat r] (h : Chooses r choose) (first : Rat)
    (rest : List Rat) :
    extreme choose first rest ∈ first :: rest
      ∧ ∀ x ∈ first :: rest, r (extreme choose first rest) x := by
  induction rest generalizing first with
  | nil => exact ⟨List.mem_cons_self, fun x hx => List.mem_singleton.1 hx ▸ refl_of r _⟩
  | cons y rest ih =>
    obtain ⟨hmem, hbefore⟩ := ih (choose first y)
    have hchosen := hbefore _ List.mem_cons_self
    rw [extreme, List.foldl_cons, ← extreme]
    constructor
    · rcases List.mem_cons.1 hmem with hmem | hmem
      · rw [hmem]
        rcases h.eq_or_eq first y with heq | heq <;> rw [heq] <;> simp
      · exact List.mem_cons_of_mem _ (List.mem_cons_of_mem _ hmem)
    · intro x hx
      rcases List.mem_cons.1 hx with rfl | hx
      · exact trans_of r hchosen (h.left ..)
      · rcases List.mem_cons.1 hx with rfl | hx
        · exact trans_of r hchosen (h.right ..)
        · exact hbefore x (List.mem_cons_of_mem _ hx)

/-- Lists of the same numbers have the same extreme. -/
theorem extreme_congr [IsPartialOrder Rat r] (h : Chooses r choose)
    (hmem : ∀ x, x ∈ first :: rest ↔ x ∈ first' :: rest') :
    extreme choose first rest = extreme choose first' rest' := by
  obtain ⟨hin, hbefore⟩ := extreme_mem h first rest
  obtain ⟨hin', hbefore'⟩ := extreme_mem h first' rest'
  exact antisymm_of r (hbefore _ ((hmem _).2 hin')) (hbefore' _ ((hmem _).1 hin))

end Extents

section Boxes

variable {boxes boxes' : List (Box Rat)} (hmem : ∀ b, b ∈ boxes ↔ b ∈ boxes')
include hmem

/-- Where a box goes past all others depends on the boxes, but not on the list of them. -/
theorem pastExtent_congr (direction : Direction) (options : Options Rat) (s : Size Rat) :
    pastExtent direction options boxes s = pastExtent direction options boxes' s := by
  cases boxes with
  | nil =>
    have hnil : boxes' = [] := List.eq_nil_iff_forall_not_mem.2 fun b hb => by
      simpa using (hmem b).2 hb
    rw [hnil]
  | cons b bs =>
    cases boxes' with
    | nil => simpa using (hmem b).1 List.mem_cons_self
    | cons c cs =>
      have hedges : ∀ edge : Box Rat → Rat, ∀ x,
          x ∈ edge b :: bs.map edge ↔ x ∈ edge c :: cs.map edge := by
        intro edge x
        rw [← List.map_cons, ← List.map_cons, List.mem_map, List.mem_map]
        simp only [hmem]
      have hminX := extreme_congr chooses_smaller (hedges (·.x))
      have hminY := extreme_congr chooses_smaller (hedges (·.y))
      have hmaxX := extreme_congr chooses_larger (hedges Box.right)
      have hmaxY := extreme_congr chooses_larger (hedges Box.bottom)
      simp only [pastExtent, hminX, hminY, hmaxX, hmaxY]

theorem collides_congr (b : Box Rat) : collides b boxes = collides b boxes' := by
  rw [Bool.eq_iff_iff, collides, collides, List.any_eq_true, List.any_eq_true]
  simp only [hmem]

/-- Where a box finds room depends on the boxes, but not on the list of them. -/
theorem displace_congr (direction : Direction) (options : Options Rat) (origin : Box Rat) :
    displace direction options boxes origin = displace direction options boxes' origin := by
  rw [displace_eq, displace_eq]
  simp only [collides_congr hmem]

end Boxes

/-! ## All steps -/

section Steps

variable {d d' : Diagram Rat} {placed placed' : Placed Rat} {boxes boxes' : List (Box Rat)}
  (sizeOf : Node Rat → Size Rat) (options : Options Rat)

/-- Two runs that agree give a node the same box. -/
theorem newBox_congr (hedges : d'.edges = d.edges) (hdirection : d'.direction = d.direction)
    (h : Agree placed placed' boxes boxes') (n : Node Rat) :
    newBox d' sizeOf options placed' boxes' n = newBox d sizeOf options placed boxes n := by
  unfold newBox
  simp only [hedges, hdirection, placedNeighbour?_congr h.lookup_eq,
    pastExtent_congr h.mem_iff, displace_congr h.mem_iff]

/-- Two runs that agree give the pending nodes the same boxes, in the same order. -/
theorem placePending_congr (hedges : d'.edges = d.edges) (hdirection : d'.direction = d.direction)
    (h : Agree placed placed' boxes boxes') (pending : List (Node Rat)) :
    placePending d' sizeOf options placed' boxes' pending
      = placePending d sizeOf options placed boxes pending := by
  revert placed' boxes'
  fun_induction placePending d sizeOf options placed boxes pending with
  | case1 =>
    intro placed' boxes' _
    rw [placePending]
  | case2 placed boxes first rest next =>
    rename_i b ih
    intro placed' boxes' h
    have hnext : nextPending d'.edges placed' first rest = next := by
      rw [hedges, ← nextPending_congr h.lookup_eq]
    have hbox : newBox d' sizeOf options placed' boxes' next.1 = b :=
      newBox_congr sizeOf options hedges hdirection h next.1
    rw [placePending, hnext, hbox, ih (h.place next.1.id b)]

end Steps

/-! ## Before the first step -/

section Start

variable {α : Type}

/-- The nodes that keep their places, by id. -/
def keptPlaces (newIds : List String) (d : Diagram α) : Placed α :=
  ((d.nodes.filter fun n => !newIds.contains n.id).filterMap fun n =>
    n.box.map fun b => (n.id, b)).reverse

/-- The boxes of the nodes that keep their places. -/
def keptBoxes (newIds : List String) (d : Diagram α) : List (Box α) :=
  d.nodes.filterMap fun n => (keptPlaces newIds d).lookup n.id

/-- The nodes that are placed, in the order of their ids. -/
def pendingNodes (newIds : List String) (d : Diagram α) : List (Node α) :=
  (d.nodes.filter fun n => newIds.contains n.id).mergeSort fun a b => a.id ≤ b.id

theorem incrementalLayout_eq [Scalar α] (sizeOf : Node α → Size α) (options : Options α)
    (newIds : List String) (d : Diagram α) :
    incrementalLayout sizeOf options newIds d
      = putBoxes (placePending d sizeOf options (keptPlaces newIds d) (keptBoxes newIds d)
        (pendingNodes newIds d)) d :=
  rfl

theorem map_fst_boxes_sublist (ns : List (Node α)) :
    ((ns.filterMap fun n => n.box.map fun b => (n.id, b)).map Prod.fst).Sublist
      (ns.map (·.id)) := by
  induction ns with
  | nil => exact List.Sublist.refl _
  | cons n ns ih =>
    cases hbox : n.box with
    | none =>
      rw [List.filterMap_cons_none (by rw [hbox]; rfl), List.map_cons]
      exact ih.cons n.id
    | some b =>
      rw [List.filterMap_cons_some (by rw [hbox]; rfl), List.map_cons, List.map_cons]
      exact ih.cons_cons n.id

theorem nodup_keptPlaces {d : Diagram α} (hids : d.nodeIds.Nodup) (newIds : List String) :
    ((keptPlaces newIds d).map Prod.fst).Nodup := by
  rw [keptPlaces, List.map_reverse, List.nodup_reverse]
  exact ((map_fst_boxes_sublist _).trans (List.filter_sublist.map _)).nodup hids

variable {d d' : Diagram α} {newIds newIds' : List String}
  (hnodes : d'.nodes.Perm d.nodes) (hids : d.nodeIds.Nodup)
  (hnew : ∀ id, id ∈ newIds' ↔ id ∈ newIds)

include hnew in
theorem contains_congr (id : String) : newIds'.contains id = newIds.contains id := by
  rw [Bool.eq_iff_iff, List.contains_iff_mem, List.contains_iff_mem, hnew]

include hnodes hnew in
theorem keptPlaces_perm : (keptPlaces newIds' d').Perm (keptPlaces newIds d) := by
  unfold keptPlaces
  simp only [contains_congr hnew]
  exact (List.reverse_perm _).trans (((hnodes.filter _).filterMap _).trans
    (List.reverse_perm _).symm)

include hnodes hids hnew in
/-- The runs of two listings start in agreement. -/
theorem agree_of_perm : Agree (keptPlaces newIds d) (keptPlaces newIds' d')
    (keptBoxes newIds d) (keptBoxes newIds' d') := by
  have hlookup : ∀ id,
      (keptPlaces newIds d).lookup id = (keptPlaces newIds' d').lookup id := fun id =>
    lookup_of_perm (keptPlaces_perm hnodes hnew).symm (nodup_keptPlaces hids newIds) id
  refine ⟨hlookup, fun b => ?_⟩
  unfold keptBoxes
  simp only [hlookup]
  exact (hnodes.symm.filterMap _).mem_iff

include hnodes hids hnew in
/-- Nodes with different ids are sorted in one way only. -/
theorem pendingNodes_of_perm : pendingNodes newIds' d' = pendingNodes newIds d := by
  have hsorted : ∀ ns : List (Node α), (ns.mergeSort fun a b => a.id ≤ b.id).Pairwise
      fun a b => decide (a.id ≤ b.id) = true := fun ns =>
    List.pairwise_mergeSort
      (fun a b c hab hbc => decide_eq_true ((of_decide_eq_true hab).trans (of_decide_eq_true hbc)))
      (fun a b => by simpa using le_total a.id b.id) ns
  have hmem : ∀ n ∈ pendingNodes newIds d, n ∈ d.nodes := fun n hn =>
    (List.mem_filter.1 (List.mem_mergeSort.1 hn)).1
  have hperm : (pendingNodes newIds' d').Perm (pendingNodes newIds d) := by
    unfold pendingNodes
    simp only [contains_congr hnew]
    exact (List.mergeSort_perm _ _).trans ((hnodes.filter _).trans (List.mergeSort_perm _ _).symm)
  refine List.Perm.eq_of_pairwise (fun a b ha hb hab hba => ?_) (hsorted _) (hsorted _) hperm
  exact List.inj_on_of_nodup_map hids (hmem a (hperm.mem_iff.1 ha)) (hmem b hb)
    (le_antisymm (of_decide_eq_true hab) (of_decide_eq_true hba))

end Start

/-! ## After the last step -/

theorem putBoxes_cons {α : Type} (p : String × Box α) (boxes : Placed α) (d : Diagram α) :
    putBoxes (p :: boxes) d
      = putBoxes boxes (d.modifyNode p.1 fun n => { n with box := some p.2 }) :=
  rfl

/-- The same boxes at two listings of the same nodes. -/
theorem putBoxes_perm {α : Type} {d d' : Diagram α} (hnodes : d'.nodes.Perm d.nodes)
    (hids : d.nodeIds.Nodup) (boxes : Placed α) :
    (putBoxes boxes d').nodes.Perm (putBoxes boxes d).nodes := by
  induction boxes generalizing d d' with
  | nil => exact hnodes
  | cons p boxes ih =>
    have hids' : d'.nodeIds.Nodup := (hnodes.map Node.id).nodup_iff.2 hids
    rw [putBoxes_cons, putBoxes_cons]
    refine ih ?_ ?_
    · rw [Diagram.modifyNode, Diagram.modifyNode, Diagram.change_of_nodup hids,
        Diagram.change_of_nodup hids']
      exact hnodes.map _
    · let place : Node α → Node α := fun n => { n with box := some p.2 }
      have hkeeps : ∀ n, (place n).id = n.id := fun _ => rfl
      exact Diagram.nodeIds_modifyNode d p.1 hkeeps ▸ hids

/-- A layout of new nodes is the same in another listing of the nodes and of the new ids. -/
theorem incrementalLayout_perm {d d' : Diagram Rat} (sizeOf : Node Rat → Size Rat)
    (options : Options Rat) {newIds newIds' : List String} (hnodes : d'.nodes.Perm d.nodes)
    (hedges : d'.edges = d.edges) (hdirection : d'.direction = d.direction)
    (hids : d.nodeIds.Nodup) (hnew : ∀ id, id ∈ newIds' ↔ id ∈ newIds) :
    (incrementalLayout sizeOf options newIds' d').nodes.Perm
      (incrementalLayout sizeOf options newIds d).nodes := by
  rw [incrementalLayout_eq, incrementalLayout_eq, pendingNodes_of_perm hnodes hids hnew,
    placePending_congr sizeOf options hedges hdirection (agree_of_perm hnodes hids hnew)]
  exact putBoxes_perm hnodes hids _

end Layout

namespace Diagram

variable {d : Diagram Rat} {ns : List (Node Rat)} {newIds newIds' : List String}

theorem layoutNew_perm (hids : d.nodeIds.Nodup) (hranks : d.kind.strategy ≠ .lanes)
    (options : Layout.Options Rat) (hnodes : ns.Perm d.nodes) (hnew : newIds'.Perm newIds) :
    (({ d with nodes := ns }).layoutNew options newIds').nodes.Perm
      (d.layoutNew options newIds).nodes := by
  rw [Layout.layoutNew_of_ranks hranks, Layout.layoutNew_of_ranks (by exact hranks)]
  refine Layout.incrementalLayout_perm _ options hnodes rfl rfl hids fun id => ?_
  exact (hnew.append ((hnodes.filter _).map _)).mem_iff

/-- Where new nodes go does not depend on the order in which a diagram lists its nodes, nor on that
of the new ids: every id has one place, and the same one in every listing. -/
theorem place_layoutNew_of_perm (hids : d.nodeIds.Nodup) (hranks : d.kind.strategy ≠ .lanes)
    (options : Layout.Options Rat) (hnodes : ns.Perm d.nodes) (hnew : newIds'.Perm newIds) :
    (∀ id, (({ d with nodes := ns }).layoutNew options newIds').node? id
        = (d.layoutNew options newIds).node? id)
      ∧ ∀ id ∈ d.nodeIds, ∃ b, (d.layoutNew options newIds).place? id = some b := by
  have hsame : (d.layoutNew options newIds).nodeIds = d.nodeIds :=
    nodeIds_of_content (content_layoutNew options newIds d)
  have hresult : (d.layoutNew options newIds).nodeIds.Nodup := hsame ▸ hids
  constructor
  · intro id
    exact (find?_of_perm (layoutNew_perm hids hranks options hnodes hnew).symm hresult id).symm
  · intro id hid
    obtain ⟨n, hn, rfl⟩ := List.mem_map.1 (hsame ▸ hid : id ∈ (d.layoutNew options newIds).nodeIds)
    have hplaced := List.all_eq_true.1 (isPlaced_layoutNew hids options newIds) n hn
    obtain ⟨b, hb⟩ := Option.isSome_iff_exists.1 hplaced
    exact ⟨b, by rw [place?_of_nodup hresult hn, hb]⟩

/-- Two listings of three nodes, of which one has a place. -/
theorem place_layoutNew_halfPlaced :
    halfPlaced.nodeIds.Nodup ∧ halfPlaced.kind.strategy ≠ .lanes
      ∧ halfPlaced.nodes.reverse.Perm halfPlaced.nodes
      ∧ ["Done", "Alone"].Perm ["Alone", "Done"]
      ∧ (∀ id, (({ halfPlaced with nodes := halfPlaced.nodes.reverse }).layoutNew .standard
          ["Done", "Alone"]).node? id = (halfPlaced.layoutNew .standard ["Alone", "Done"]).node? id)
      ∧ ∃ b, (halfPlaced.layoutNew .standard ["Alone", "Done"]).place? "Alone" = some b := by
  have hids : halfPlaced.nodeIds.Nodup := by decide
  have hranks : halfPlaced.kind.strategy ≠ .lanes := by decide
  have hnodes : halfPlaced.nodes.reverse.Perm halfPlaced.nodes := List.reverse_perm _
  have hnew : ["Done", "Alone"].Perm ["Alone", "Done"] := List.Perm.swap ..
  obtain ⟨hsame, hplaced⟩ :=
    place_layoutNew_of_perm hids hranks Layout.Options.standard hnodes hnew
  exact ⟨hids, hranks, hnodes, hnew, hsame, hplaced "Alone" (by decide)⟩

end Diagram

end DiagramBoard
