/-
DiagramBoard.Proofs.Layout.RankPlaces — which boxes a layout in ranks makes, and how large they are.

Every node stands in one layer, so the boxes that are made layer by layer are one for each node,
and each has the size that was asked for.  Nothing here depends on where the boxes are.

Main statements: the boxes of a layout are those of the nodes (`map_fst_rankPlaces_perm`) and have
their sizes (`map_size_rankBoxes`), and a forced layout puts the nodes in them
(`rankedLayout_of_forced`).
-/
import DiagramBoard.Proofs.Layout.Layers
import DiagramBoard.Proofs.Layout.Places

namespace DiagramBoard

/-- The size of a box. -/
def Box.size {α : Type} (b : Box α) : Size α := ⟨b.width, b.height⟩

/-- A diagram whose nodes stand in some boxes. -/
def Diagram.withBoxes {α : Type} (d : Diagram α) (boxes : List (Box α)) : Diagram α :=
  { d with nodes := (d.nodes.zip boxes).map fun p => { p.1 with box := some p.2 } }

namespace Diagram

variable {α : Type} {d : Diagram α} {boxes : List (Box α)}

theorem nodeIds_withBoxes (h : boxes.length = d.nodes.length) :
    (d.withBoxes boxes).nodeIds = d.nodeIds := by
  rw [nodeIds, nodeIds, withBoxes, List.map_map]
  conv_rhs => rw [← List.map_fst_zip h.ge, List.map_map]
  rfl

theorem length_nodes_withBoxes (h : boxes.length = d.nodes.length) :
    (d.withBoxes boxes).nodes.length = d.nodes.length := by
  simp [withBoxes, h]

/-- Nodes that stand in some boxes stay there when they are put there. -/
theorem withBoxes_withBoxes (d : Diagram α) (boxes : List (Box α)) :
    (d.withBoxes boxes).withBoxes boxes = d.withBoxes boxes := by
  have hnodes : ∀ ns : List (Node α),
      (((ns.zip boxes).map fun p => { p.1 with box := some p.2 : Node α }).zip boxes).map
          (fun p => { p.1 with box := some p.2 : Node α })
        = (ns.zip boxes).map fun p => { p.1 with box := some p.2 } := by
    intro ns
    induction boxes generalizing ns with
    | nil => simp
    | cons b boxes ih =>
      cases ns with
      | nil => rfl
      | cons n ns => exact congrArg (_ :: ·) (ih ns)
  simp only [withBoxes, hnodes]

end Diagram

/-- Something that was put under a key is found there. -/
theorem exists_lookup_of_mem {β : Type} {k : Nat} {xs : List (Nat × β)}
    (h : k ∈ xs.map Prod.fst) : ∃ b, xs.lookup k = some b ∧ (k, b) ∈ xs := by
  induction xs with
  | nil => exact absurd h List.not_mem_nil
  | cons x xs ih =>
    obtain ⟨a, c⟩ := x
    by_cases hk : k = a
    · subst hk
      exact ⟨c, List.lookup_cons_self, List.mem_cons_self⟩
    · obtain ⟨b, hlookup, hmem⟩ := ih ((List.mem_cons.1 h).resolve_left hk)
      refine ⟨b, ?_, List.mem_cons_of_mem _ hmem⟩
      rw [List.lookup_cons, beq_false_of_ne hk]
      exact hlookup

namespace Layout

variable {α : Type} [Scalar α] {direction : Direction} {options : Options α}
  {sizes : List (Size α)}

/-! ## Layer by layer -/

@[simp] theorem size_boxAt (direction : Direction) (r c : α) (s : Size α) :
    (boxAt direction r c s).size = s := by
  unfold boxAt
  rfl

@[simp] theorem size_flip (direction : Direction) (extent : α) (b : Box α) :
    (flip direction extent b).size = b.size := by
  unfold flip
  split <;> rfl

theorem map_fst_placeRank (offset depth cursor : α) (nodes : List Nat) :
    (placeRank direction options sizes offset depth cursor nodes).map Prod.fst = nodes := by
  induction nodes generalizing cursor with
  | nil => rfl
  | cons i nodes ih => exact congrArg (i :: ·) (ih _)

theorem size_of_mem_placeRank {offset depth cursor : α} {nodes : List Nat} {p : Nat × Box α}
    (h : p ∈ placeRank direction options sizes offset depth cursor nodes) :
    p.2.size = sizeAt sizes p.1 := by
  induction nodes generalizing cursor with
  | nil => exact absurd h List.not_mem_nil
  | cons i nodes ih =>
    rcases List.mem_cons.1 h with rfl | h
    · exact size_boxAt ..
    · exact ih h

theorem map_fst_placeRanks (widest offset : α) (ls : List (List Nat)) :
    (placeRanks direction options sizes widest offset ls).1.map Prod.fst = ls.flatten := by
  induction ls generalizing offset with
  | nil => rfl
  | cons nodes ls ih =>
    rw [placeRanks, List.map_append, map_fst_placeRank, ih, List.flatten_cons]

theorem size_of_mem_placeRanks {widest offset : α} {ls : List (List Nat)} {p : Nat × Box α}
    (h : p ∈ (placeRanks direction options sizes widest offset ls).1) :
    p.2.size = sizeAt sizes p.1 := by
  induction ls generalizing offset with
  | nil => exact absurd h List.not_mem_nil
  | cons nodes ls ih =>
    rcases List.mem_append.1 h with h | h
    · exact size_of_mem_placeRank h
    · exact ih h

/-! ## All boxes -/

/-- The boxes of a layout are one for each node. -/
theorem map_fst_rankPlaces_perm (d : Diagram α) (options : Options α) (sizes : List (Size α)) :
    ((rankPlaces d options sizes).map Prod.fst).Perm (List.range d.nodes.length) := by
  have hlayers := flatten_layers_perm (α := α) (predecessors d)
  rw [length_predecessors] at hlayers
  unfold rankPlaces
  dsimp only
  split
  · rw [List.map_map]
    exact (List.Perm.of_eq (map_fst_placeRanks ..)).trans hlayers
  · exact (List.Perm.of_eq (map_fst_placeRanks ..)).trans hlayers

theorem size_of_mem_rankPlaces {d : Diagram α} {p : Nat × Box α}
    (h : p ∈ rankPlaces d options sizes) : p.2.size = sizeAt sizes p.1 := by
  unfold rankPlaces at h
  dsimp only at h
  split at h
  · obtain ⟨q, hq, rfl⟩ := List.mem_map.1 h
    rw [size_flip]
    exact size_of_mem_placeRanks hq
  · exact size_of_mem_placeRanks h

/-- The box of a node is one of those that were made. -/
theorem exists_getElem?_rankBoxes {d : Diagram α} (options : Options α)
    (hsizes : sizes.length = d.nodes.length) {i : Nat} (hi : i < d.nodes.length) :
    ∃ b, (rankBoxes d options sizes)[i]? = some b ∧ (i, b) ∈ rankPlaces d options sizes := by
  have hkey : i ∈ (rankPlaces d options sizes).map Prod.fst :=
    (map_fst_rankPlaces_perm d options sizes).mem_iff.2 (List.mem_range.2 hi)
  obtain ⟨b, hlookup, hmem⟩ := exists_lookup_of_mem hkey
  refine ⟨b, ?_, hmem⟩
  rw [rankBoxes, List.getElem?_map, List.getElem?_range (hsizes ▸ hi), Option.map_some, hlookup,
    Option.getD_some]

/-- The boxes of a layout have the sizes that were asked for. -/
theorem map_size_rankBoxes {d : Diagram α} (options : Options α)
    (hsizes : sizes.length = d.nodes.length) :
    (rankBoxes d options sizes).map Box.size = sizes := by
  refine List.ext_getElem? fun i => ?_
  by_cases hi : i < d.nodes.length
  · obtain ⟨b, hb, hmem⟩ := exists_getElem?_rankBoxes options hsizes hi
    have hsize : b.size = sizeAt sizes i := size_of_mem_rankPlaces hmem
    rw [List.getElem?_map, hb, Option.map_some, hsize, sizeAt,
      List.getD_eq_getElem _ _ (hsizes ▸ hi), List.getElem?_eq_getElem]
  · rw [List.getElem?_eq_none (by rw [List.length_map, length_rankBoxes, hsizes]; omega),
      List.getElem?_eq_none (by omega)]

/-! ## Layouts -/

/-- A layout that is forced puts every node in the box that was made for it. -/
theorem rankedLayout_of_forced (hforce : options.forceRelayout = true)
    (sizeOf : Node α → Size α) (d : Diagram α) :
    rankedLayout sizeOf options d
      = d.withBoxes (rankBoxes d options (d.nodes.map (layoutSize sizeOf))) := by
  unfold rankedLayout
  simp only [hforce, Bool.not_true, Bool.false_and, Bool.false_eq_true, ↓reduceIte]
  rfl

end Layout

end DiagramBoard
