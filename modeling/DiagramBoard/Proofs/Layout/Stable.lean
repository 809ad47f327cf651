/-
DiagramBoard.Proofs.Layout.Stable — layouts place every node, and once is enough.

Nodes are placed in ranks, in a row, or beside nodes that have a place.  Each way leaves no node
without a place.  What a layout depends on are the sizes, ids and edges of a diagram, and it changes
none of them: the same layout again finds every node where it would put it.

Main statements: no layout leaves a node out (`isPlaced_layout`, `isPlaced_layoutNew`), a layout
again changes nothing (`layout_layout`), and together with what layouts leave alone this is what a
layout is (`isStable_layout`).
-/
import DiagramBoard.Proofs.Layout.RankPlaces

namespace DiagramBoard

variable {α : Type}

namespace Layout

variable [Scalar α] {options : Options α} {d : Diagram α}

/-! ## In ranks -/

theorem box_of_mem_fillPlaces {direction : Direction} {placed : List (Box α)}
    {ps : List (Node α × Box α)} {n : Node α}
    (hn : n ∈ fillPlaces direction options placed ps) : n.box.isSome = true := by
  induction ps generalizing placed with
  | nil => exact absurd hn List.not_mem_nil
  | cons p ps ih =>
    obtain ⟨m, b⟩ := p
    rw [fillPlaces] at hn
    cases hm : m.box with
    | none =>
      simp only [hm] at hn
      rcases List.mem_cons.1 hn with rfl | hn
      · rfl
      · exact ih hn
    | some b' =>
      simp only [hm] at hn
      rcases List.mem_cons.1 hn with rfl | hn
      · rw [hm]
        rfl
      · exact ih hn

omit [Scalar α] in
theorem isPlaced_withBoxes (d : Diagram α) (boxes : List (Box α)) :
    isPlaced (d.withBoxes boxes) = true := by
  rw [isPlaced, Diagram.withBoxes, List.all_map]
  exact List.all_eq_true.2 fun _ _ => rfl

/-- A layout in ranks places every node. -/
theorem isPlaced_rankedLayout (sizeOf : Node α → Size α) (options : Options α) (d : Diagram α) :
    isPlaced (rankedLayout sizeOf options d) = true := by
  by_cases hforce : options.forceRelayout = true
  · rw [rankedLayout_of_forced hforce]
    exact isPlaced_withBoxes d _
  · unfold rankedLayout
    split
    · next h => exact (Bool.and_eq_true_iff.1 h).2
    · exact List.all_eq_true.2 fun n hn => box_of_mem_fillPlaces hn

/-! ## The same ranks again -/

variable {boxes : List (Box α)}

omit [Scalar α] in
theorem predecessors_withBoxes (h : boxes.length = d.nodes.length) :
    predecessors (d.withBoxes boxes) = predecessors d := by
  unfold predecessors
  rw [Diagram.nodeIds_withBoxes h, Diagram.length_nodes_withBoxes h]
  rfl

/-- Where nodes are does not matter for where they are put. -/
theorem rankBoxes_withBoxes (h : boxes.length = d.nodes.length) (sizes : List (Size α)) :
    rankBoxes (d.withBoxes boxes) options sizes = rankBoxes d options sizes := by
  unfold rankBoxes rankPlaces
  rw [predecessors_withBoxes h]
  rfl

omit [Scalar α] in
/-- A node is as large as the box that it stands in. -/
theorem map_layoutSize_withBoxes (sizeOf : Node α → Size α) (h : boxes.length = d.nodes.length) :
    (d.withBoxes boxes).nodes.map (layoutSize sizeOf) = boxes.map Box.size := by
  conv_rhs => rw [← List.map_snd_zip h.le, List.map_map]
  rw [Diagram.withBoxes, List.map_map]
  rfl

/-- The same layout in ranks again changes nothing, also when it is forced. -/
theorem rankedLayout_rankedLayout (sizeOf : Node α → Size α) (options : Options α)
    (d : Diagram α) :
    rankedLayout sizeOf options (rankedLayout sizeOf options d)
      = rankedLayout sizeOf options d := by
  cases hforce : options.forceRelayout with
  | false => exact rankedLayout_of_placed hforce (isPlaced_rankedLayout sizeOf options d)
  | true =>
    have hlength := length_computed sizeOf options d
    have hsizes : (d.nodes.map (layoutSize sizeOf)).length = d.nodes.length := List.length_map ..
    simp only [rankedLayout_of_forced hforce]
    rw [map_layoutSize_withBoxes sizeOf hlength, map_size_rankBoxes options hsizes,
      rankBoxes_withBoxes hlength, Diagram.withBoxes_withBoxes]

/-! ## Beside other nodes -/

omit [Scalar α] in
/-- No node that is pending gets lost. -/
theorem nextPending_perm (edges : List (Edge α)) (placed : Placed α) (first : Node α)
    (rest : List (Node α)) :
    ((nextPending edges placed first rest).1 :: (nextPending edges placed first rest).2).Perm
      (first :: rest) := by
  unfold nextPending
  dsimp only
  split
  · next i hi =>
    have hlt := (List.findIdx?_eq_some_iff_getElem.1 hi).1
    rw [List.getD_eq_getElem _ _ hlt]
    exact List.getElem_cons_eraseIdx_perm hlt
  · exact List.Perm.refl _

/-- Every pending node gets a box. -/
theorem map_fst_placePending_perm (sizeOf : Node α → Size α) (options : Options α)
    (placed : Placed α) (boxes : List (Box α)) (pending : List (Node α)) :
    ((placePending d sizeOf options placed boxes pending).map (·.1)).Perm
      (pending.map (·.id)) := by
  fun_induction placePending d sizeOf options placed boxes pending with
  | case1 => exact List.Perm.refl _
  | case2 placed boxes first rest next b ih =>
    refine (ih.cons next.1.id).trans ?_
    exact (nextPending_perm d.edges placed first rest).map (·.id)

omit [Scalar α] in
/-- Boxes for all nodes without a place leave none without. -/
theorem isPlaced_putBoxes {boxes : Placed α} (hids : d.nodeIds.Nodup)
    (h : ∀ n ∈ d.nodes, n.box.isSome = true ∨ n.id ∈ boxes.map (·.1)) :
    isPlaced (putBoxes boxes d) = true := by
  induction boxes generalizing d with
  | nil => exact List.all_eq_true.2 fun n hn => (h n hn).resolve_right List.not_mem_nil
  | cons p boxes ih =>
    rw [putBoxes, List.foldl_cons, ← putBoxes]
    let place : Node α → Node α := fun n => { n with box := some p.2 }
    have hkeeps : ∀ n, (place n).id = n.id := fun _ => rfl
    refine ih ?_ fun n hn => ?_
    · exact Diagram.nodeIds_modifyNode d p.1 hkeeps ▸ hids
    · rw [Diagram.modifyNode, Diagram.change_of_nodup hids] at hn
      obtain ⟨m, hm, rfl⟩ := List.mem_map.1 hn
      by_cases hid : m.id = p.1
      · exact .inl (by rw [if_pos hid]; rfl)
      · rw [if_neg hid]
        refine (h m hm).imp_right fun hmem => ?_
        exact (List.mem_cons.1 hmem).resolve_left hid

/-- A layout of new nodes places every node if those without a place count as new. -/
theorem isPlaced_incrementalLayout (sizeOf : Node α → Size α) (options : Options α)
    {newIds : List String} (hids : d.nodeIds.Nodup)
    (h : ∀ n ∈ d.nodes, n.box.isSome = true ∨ n.id ∈ newIds) :
    isPlaced (incrementalLayout sizeOf options newIds d) = true := by
  refine isPlaced_putBoxes hids fun n hn => (h n hn).imp_right fun hnew => ?_
  rw [(map_fst_placePending_perm ..).mem_iff]
  refine List.mem_map_of_mem (List.mem_mergeSort.2 (List.mem_filter.2 ⟨hn, ?_⟩))
  exact List.contains_iff_mem.2 hnew

/-! ## In a row -/

theorem isPlaced_laneLayout (options : Options α) (d : Diagram α) :
    isPlaced (laneLayout options d) = true := by
  rw [isPlaced, laneLayout, List.all_map]
  exact List.all_eq_true.2 fun _ _ => rfl

omit [Scalar α] in
theorem zipIdx_map_zipIdx {β γ : Type} (f : β × Nat → γ) (xs : List β) :
    (xs.zipIdx.map f).zipIdx = xs.zipIdx.map fun p => (f p, p.2) := by
  refine List.ext_getElem? fun i => ?_
  simp only [List.getElem?_zipIdx, List.getElem?_map, Option.map_map, Nat.zero_add]
  rfl

/-- Participants in a row stand on the centre lines on which they stood. -/
theorem centerLines_laneLayout (options : Options α) (d : Diagram α) :
    centerLines options (laneLayout options d).nodes = centerLines options d.nodes := by
  rw [laneLayout, centerLines, zipIdx_map_zipIdx, List.map_map]
  rfl

/-- Messages in lanes get the same lanes again. -/
theorem laneEdges_laneEdges (centers : List (String × α)) (lane : α) (edges : List (Edge α)) :
    laneEdges centers lane (laneEdges centers lane edges).1 = laneEdges centers lane edges := by
  fun_induction laneEdges centers lane edges with
  | case1 => rfl
  | case2 lane e rest x₁ x₂ ht hs q ih =>
    simp only [laneEdges, ht, hs, q, ih]
  | case3 lane e rest q hne ih =>
    rw [laneEdges]
    split
    · next x₁ x₂ hs ht => exact absurd ht (hne x₁ x₂ hs)
    · simp only [q, ih]

theorem laneLayout_laneLayout (options : Options α) (d : Diagram α) :
    laneLayout options (laneLayout options d) = laneLayout options d := by
  rw [laneLayout, centerLines_laneLayout]
  simp only [laneLayout, laneEdges_laneEdges, zipIdx_map_zipIdx, List.map_map]
  rfl

end Layout

/-! ## All layouts -/

namespace Diagram

variable [Scalar α] {options : Layout.Options α} {d : Diagram α}

/-- A layout leaves no node without a place. -/
theorem isPlaced_layout (options : Layout.Options α) (d : Diagram α) :
    Layout.isPlaced (d.layout options) = true := by
  by_cases hlanes : d.kind.strategy = .lanes
  · rw [Layout.layout_of_lanes hlanes]
    exact Layout.isPlaced_laneLayout options d
  · rw [Layout.layout_of_ranks hlanes]
    exact Layout.isPlaced_rankedLayout _ options d

/-- The same layout again changes nothing. -/
theorem layout_layout (options : Layout.Options α) (d : Diagram α) :
    (d.layout options).layout options = d.layout options := by
  have hkind : (d.layout options).kind = d.kind := congrArg (·.kind) (content_layout options d)
  by_cases hlanes : d.kind.strategy = .lanes
  · rw [Layout.layout_of_lanes (hkind ▸ hlanes), Layout.layout_of_lanes hlanes]
    exact Layout.laneLayout_laneLayout options d
  · rw [Layout.layout_of_ranks (hkind ▸ hlanes), hkind, Layout.layout_of_ranks hlanes]
    exact Layout.rankedLayout_rankedLayout _ options d

/-- A layout of new nodes leaves no node without a place. -/
theorem isPlaced_layoutNew (hids : d.nodeIds.Nodup) (options : Layout.Options α)
    (newIds : List String) : Layout.isPlaced (d.layoutNew options newIds) = true := by
  by_cases hlanes : d.kind.strategy = .lanes
  · rw [Layout.layoutNew_of_lanes hlanes]
    exact Layout.isPlaced_laneLayout options d
  · rw [Layout.layoutNew_of_ranks hlanes]
    refine Layout.isPlaced_incrementalLayout _ options hids fun n hn => ?_
    cases hbox : n.box with
    | some b => exact .inl rfl
    | none =>
      refine .inr (List.mem_append_right _ (List.mem_map_of_mem ?_))
      exact List.mem_filter.2 ⟨hn, by rw [hbox]; rfl⟩

omit [Scalar α] in
/-- Where ids are distinct, a node with a place is none of those without. -/
theorem notMem_unplacedIds (hids : d.nodeIds.Nodup) {n : Node α} (hn : n ∈ d.nodes)
    (hbox : n.box.isSome = true) : n.id ∉ d.unplacedIds := by
  intro hmem
  obtain ⟨m, hm, hid⟩ := List.mem_map.1 hmem
  obtain ⟨hm, hnone⟩ := List.mem_filter.1 hm
  have hsame : m = n := List.inj_on_of_nodup_map hids hm hn hid
  rw [hsame, Option.isNone_iff_eq_none] at hnone
  rw [hnone] at hbox
  exact Bool.false_ne_true hbox

/-- Whether a diagram is another one with a place for every node.  Nothing else differs; only
participants get lifelines, and their messages ways. -/
structure Places (d d' : Diagram α) : Prop where
  isPlaced : Layout.isPlaced d' = true
  unlaned : d'.unlaned = d.unlaned
  unplaced : d.kind.strategy ≠ .lanes → d'.unplaced = d.unplaced

theorem places_layout (options : Layout.Options α) (d : Diagram α) :
    d.Places (d.layout options) where
  isPlaced := isPlaced_layout options d
  unlaned := unlaned_layout options d
  unplaced hranks := unplaced_layout hranks

theorem places_layoutNew (hids : d.nodeIds.Nodup) (options : Layout.Options α)
    (newIds : List String) : d.Places (d.layoutNew options newIds) where
  isPlaced := isPlaced_layoutNew hids options newIds
  unlaned := unlaned_layoutNew options newIds d
  unplaced hranks := unplaced_layoutNew hranks

end Diagram

variable [Scalar α] {d : Diagram α}

/-- Layouts place every node and change nothing else.  Nodes in ranks that have a place keep it,
unless the layout is forced or they count as new, and the same layout again changes nothing. -/
theorem isStable_layout (hids : d.nodeIds.Nodup) (options : Layout.Options α) :
    (d.Places (d.layout options)
      ∧ (options.forceRelayout = false → d.kind.strategy ≠ .lanes →
        ∀ n ∈ d.nodes, n.box.isSome = true → (d.layout options).node? n.id = some n)
      ∧ (d.layout options).layout options = d.layout options)
    ∧ ∀ newIds, d.Places (d.layoutNew options newIds)
      ∧ (d.kind.strategy ≠ .lanes → ∀ n ∈ d.nodes, n.box.isSome = true → n.id ∉ newIds →
        (d.layoutNew options newIds).node? n.id = some n) := by
  have hsame : ∀ {d' : Diagram α}, d'.content = d.content → d'.nodeIds.Nodup := fun h =>
    Diagram.nodeIds_of_content h ▸ hids
  refine ⟨⟨d.places_layout options, fun hforce hranks n hn hbox => ?_, d.layout_layout options⟩,
    fun newIds => ⟨d.places_layoutNew hids options newIds, fun hranks n hn hbox hold => ?_⟩⟩
  · exact Diagram.node?_of_nodup (hsame (Diagram.content_layout options d))
      (Diagram.mem_layout_of_placed hranks hforce hn hbox)
  · exact Diagram.node?_of_nodup (hsame (Diagram.content_layoutNew options newIds d))
      (Diagram.mem_layoutNew_of_old hranks hn hold (Diagram.notMem_unplacedIds hids hn hbox))

/-- Three nodes, of which one has a place, with an edge from it and one to a node that there is
not. -/
def halfPlaced : Diagram Rat :=
  { nodes := [
      { id := "Wait", label := "Wait" },
      { id := "Send", label := "Send", box := some ⟨500, 300, 150, 60⟩ },
      { id := "Alone", label := "Alone" }]
    edges := [("Send", "Wait"), ("Wait", "Done")].map fun e =>
      { id := Edge.pairId e.1 e.2, source := e.1, target := e.2 } }

/-- The placed node stays, also when another node and one that there is not count as new. -/
theorem isStable_layout_halfPlaced :
    halfPlaced.nodeIds.Nodup
      ∧ halfPlaced.Places (halfPlaced.layout .standard)
      ∧ (halfPlaced.layout .standard).node? "Send"
        = some { id := "Send", label := "Send", box := some ⟨500, 300, 150, 60⟩ }
      ∧ halfPlaced.Places (halfPlaced.layoutNew .standard ["Alone", "Done"])
      ∧ (halfPlaced.layoutNew .standard ["Alone", "Done"]).node? "Send"
        = some { id := "Send", label := "Send", box := some ⟨500, 300, 150, 60⟩ } := by
  have hids : halfPlaced.nodeIds.Nodup := by decide
  have hranks : halfPlaced.kind.strategy ≠ .lanes := by decide
  have hsend : ({ id := "Send", label := "Send", box := some ⟨500, 300, 150, 60⟩ } : Node Rat)
      ∈ halfPlaced.nodes := List.mem_cons_of_mem _ List.mem_cons_self
  obtain ⟨⟨hplaces, hkept, -⟩, hnew⟩ := isStable_layout hids Layout.Options.standard
  obtain ⟨hplacesNew, hkeptNew⟩ := hnew ["Alone", "Done"]
  exact ⟨hids, hplaces, hkept rfl hranks _ hsend rfl, hplacesNew,
    hkeptNew hranks _ hsend rfl (by decide)⟩

end DiagramBoard
