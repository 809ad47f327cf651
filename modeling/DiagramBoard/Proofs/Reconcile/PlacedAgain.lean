/-
DiagramBoard.Proofs.Reconcile.PlacedAgain — placing a diagram that its board shows already.

A board that was brought up to date shows all nodes of the diagram, in its direction.  Then nothing
is new, nodes in ranks stay where they are, and participants are put where they are already.

Main statements: nodes in ranks are at the places that the board shows (`Shows.placeAfter_of_ranks`),
participants that keep their sizes get the same lanes again (`laneLayout_again`), and the diagram is
drawn where it was drawn before (`isSameDiagram_ranks`, `isSameDiagram_lanes`).
-/
import DiagramBoard.Proofs.Board.ReadAgain
import DiagramBoard.Proofs.Reconcile.Places

namespace DiagramBoard

variable {α : Type}

namespace Diagram

/-- A diagram whose nodes are placed and look as another one says. -/
def placedAs (shown target : Diagram α) : Diagram α :=
  { target with nodes := target.nodes.map fun n =>
      { n with
        box := (shown.node? n.id).bind (·.box)
        style := n.style.or ((shown.node? n.id).bind (·.style)) } }

/-- Whether a diagram has a place for every node of another one, and the same direction. -/
structure Shows (shown target : Diagram α) : Prop where
  nodup : shown.nodeIds.Nodup
  nodes : ∀ n ∈ target.nodes, ∃ m ∈ shown.nodes, m.id = n.id ∧ m.box.isSome = true
  direction : shown.nodes ≠ [] → shown.direction = target.direction

variable {shown target : Diagram α}

theorem Shows.carried (h : Shows shown target) :
    keepHints shown ((DiagramChange.between shown target).carryPlaces target)
      = shown.placedAs target := by
  have hnode : ∀ n ∈ target.nodes,
      ((DiagramChange.between shown target).previousBox? n.id).or n.box
        = (shown.node? n.id).bind (·.box) := by
    intro n hn
    obtain ⟨m, hm, hid, hbox⟩ := h.nodes n hn
    obtain ⟨b, hb⟩ := Option.isSome_iff_exists.1 hbox
    rw [DiagramChange.previousBox?_of_mem h.nodup hm hn hid.symm hb, ← hid,
      node?_of_nodup h.nodup hm, Option.bind_some, hb]
    rfl
  simp only [keepHints, DiagramChange.carryPlaces, placedAs, List.map_map]
  congr 1
  refine List.map_congr_left fun n hn => ?_
  simp only [Function.comp_apply, hnode n hn]

variable [Scalar α] {options : Layout.Options α}

/-- Where everything is shown already, nothing is new. -/
theorem Shows.placeAfter (h : Shows shown target) :
    Diagram.placeAfter options shown target = (shown.placedAs target).layout options := by
  have hadded : (DiagramChange.between shown target).addedIds = [] := by
    rw [List.eq_nil_iff_forall_not_mem]
    intro id hid
    obtain ⟨hnew, hold⟩ := DiagramChange.mem_addedIds.1 hid
    obtain ⟨n, hn, rfl⟩ := List.mem_map.1 hnew
    obtain ⟨m, hm, hmid, -⟩ := h.nodes n hn
    exact hold (hmid ▸ mem_nodeIds hm)
  have hdirection : ((DiagramChange.between shown target).directionChanged
      && !shown.nodes.isEmpty) = false := by
    by_cases hempty : shown.nodes = []
    · simp [hempty]
    · simp [DiagramChange.between, h.direction hempty]
  unfold Diagram.placeAfter
  simp only [hdirection, hadded, h.carried, List.isEmpty_nil, Bool.not_true, Bool.false_and,
    Bool.false_eq_true, ↓reduceIte]

/-- Nodes in ranks stay where they are shown. -/
theorem Shows.placeAfter_of_ranks (h : Shows shown target) (hforce : options.forceRelayout = false)
    (hranks : target.kind.strategy ≠ .lanes) :
    Diagram.placeAfter options shown target = shown.placedAs target := by
  have hplaced : Layout.isPlaced (shown.placedAs target) = true := by
    rw [Layout.isPlaced, placedAs, List.all_map, List.all_eq_true]
    intro n hn
    obtain ⟨m, hm, hid, hbox⟩ := h.nodes n hn
    have hnode : shown.node? n.id = some m := hid ▸ node?_of_nodup h.nodup hm
    simp [hnode, hbox]
  rw [h.placeAfter, Layout.layout_of_ranks (d := shown.placedAs target) hranks]
  exact Layout.rankedLayout_of_placed hforce hplaced

/-- Participants are put in a row, whatever is shown already. -/
theorem placeAfter_of_lanes (options : Layout.Options α) (current : Diagram α)
    (hlanes : target.kind.strategy = .lanes) :
    Diagram.placeAfter options current target = Layout.laneLayout options
      (keepHints current ((DiagramChange.between current target).carryPlaces target)) := by
  have hkind : (keepHints current
    ((DiagramChange.between current target).carryPlaces target)).kind.strategy = .lanes := hlanes
  unfold Diagram.placeAfter
  simp only [hkind, ne_eq, not_true_eq_false, decide_false, Bool.and_false, Bool.false_eq_true,
    ↓reduceIte]
  split
  · exact Layout.layout_of_lanes hkind
  · exact Layout.layout_of_lanes hkind

/-- Placing a diagram gives a node no hints but those that it had, and a lifeline only in a row. -/
theorem exists_of_mem_placeAfter (options : Layout.Options α) (current : Diagram α) {n : Node α}
    (hn : n ∈ (Diagram.placeAfter options current target).nodes) :
    ∃ t ∈ target.nodes, n.style = t.style.or ((current.node? t.id).bind (·.style))
      ∧ n.lifelineEnd.isSome
        = (decide (target.kind.strategy = .lanes) || t.lifelineEnd.isSome)
      ∧ n.id = t.id := by
  by_cases hlanes : target.kind.strategy = .lanes
  · rw [placeAfter_of_lanes options current hlanes, Layout.laneLayout] at hn
    obtain ⟨x, hx, rfl⟩ := List.mem_map.1 hn
    have hmem := List.fst_mem_of_mem_zipIdx hx
    simp only [keepHints, DiagramChange.carryPlaces, List.map_map] at hmem
    obtain ⟨t, ht, hxt⟩ := List.mem_map.1 hmem
    exact ⟨t, ht, congrArg (·.style) hxt.symm, by simp [hlanes], congrArg (·.id) hxt.symm⟩
  · have hplain := congrArg (·.nodes) (unplaced_placeAfter options current hlanes)
    have hmem : n.unplaced ∈ (keepHints current target).unplaced.nodes :=
      hplain ▸ List.mem_map_of_mem hn
    simp only [unplaced, keepHints, List.map_map] at hmem
    obtain ⟨t, ht, htn⟩ := List.mem_map.1 hmem
    have hend : n.lifelineEnd = t.lifelineEnd := congrArg (·.lifelineEnd) htn.symm
    exact ⟨t, ht, congrArg (·.style) htn.symm, by simp [hend, hlanes], congrArg (·.id) htn.symm⟩

end Diagram

/-! ## Participants in a row -/

/-- A node with the box and the hints that it takes over through a change. -/
def Node.takingOver (current target : Diagram α) (t : Node α) : Node α :=
  { t with
    box := ((DiagramChange.between current target).previousBox? t.id).or t.box
    style := t.style.or ((current.node? t.id).bind (·.style)) }

/-- A node with the box and the hints that a diagram shows it with. -/
def Node.asShown (shown : Diagram α) (t : Node α) : Node α :=
  { t with
    box := (shown.node? t.id).bind (·.box)
    style := t.style.or ((shown.node? t.id).bind (·.style)) }

namespace Layout

variable [Scalar α] {options : Options α}

/-- Where the lifelines of participants end, below all messages. -/
def lifelineBottom (options : Options α) (d : Diagram α) : α :=
  (laneEdges (centerLines options d.nodes) (firstLane options) d.edges).2 + options.rankSep

/-- A participant at its place in the row. -/
def inRow (options : Options α) (bottom : α) (n : Node α) (index : Nat) : Node α :=
  { n with
    box := some (participantBox options index n)
    lifelineEnd := some bottom }

theorem nodes_laneLayout (d : Diagram α) (f : Node α → Node α) :
    (laneLayout options { d with nodes := d.nodes.map f }).nodes = d.nodes.zipIdx.map fun x =>
      inRow options (lifelineBottom options { d with nodes := d.nodes.map f }) (f x.1) x.2 := by
  rw [laneLayout, List.zipIdx_map, List.map_map]
  rfl

/-- Participants of the same sizes and ids stand on the same centre lines. -/
theorem centerLines_congr (options : Options α) {nodes : List (Node α)} {f g : Node α → Node α}
    (hid : ∀ n ∈ nodes, (g n).id = (f n).id)
    (hbox : ∀ n ∈ nodes, ∀ i, participantBox options i (g n) = participantBox options i (f n)) :
    centerLines options (nodes.map g) = centerLines options (nodes.map f) := by
  unfold centerLines
  rw [List.zipIdx_map, List.zipIdx_map, List.map_map, List.map_map]
  congr 1
  refine List.map_congr_left fun x hx => ?_
  have hmem : x.1 ∈ nodes := List.fst_mem_of_mem_zipIdx hx
  simp only [Function.comp_apply, Prod.map_fst, Prod.map_snd, id_eq, hid x.1 hmem,
    hbox x.1 hmem]

/-- Participants that are at their places in the row already get the same places and lanes. -/
theorem laneLayout_again {d : Diagram α} {f g : Node α → Node α}
    (hid : ∀ n ∈ d.nodes, (g n).id = (f n).id)
    (hbox : ∀ x ∈ d.nodes.zipIdx, (g x.1).box = some (participantBox options x.2 (f x.1))) :
    laneLayout options { d with nodes := d.nodes.map g }
      = { laneLayout options { d with nodes := d.nodes.map f } with
          nodes := d.nodes.zipIdx.map fun x =>
            { g x.1 with
              lifelineEnd := some (lifelineBottom options { d with nodes := d.nodes.map f }) } } := by
  have hsize : ∀ x ∈ d.nodes.zipIdx, ∀ i,
      participantBox options i (g x.1) = participantBox options i (f x.1) :=
    fun x hx i => participantBox_of_placed options x.2 i (hbox x hx)
  have hcenters : centerLines options (d.nodes.map g) = centerLines options (d.nodes.map f) := by
    refine centerLines_congr options hid fun n hn i => ?_
    obtain ⟨x, hx, rfl⟩ := List.mem_map.1 (List.zipIdx_map_fst 0 d.nodes ▸ hn)
    exact hsize x hx i
  have hnodes : (laneLayout options { d with nodes := d.nodes.map g }).nodes
      = d.nodes.zipIdx.map fun x =>
          { g x.1 with
            lifelineEnd := some (lifelineBottom options { d with nodes := d.nodes.map f }) } := by
    rw [nodes_laneLayout]
    refine List.map_congr_left fun x hx => ?_
    rw [inRow, hsize x hx, ← hbox x hx, lifelineBottom, lifelineBottom, hcenters]
  rw [← hnodes]
  simp only [laneLayout, hcenters]

end Layout

namespace Diagram

variable [Scalar α] {options : Layout.Options α} {current shown target : Diagram α}

theorem placeAfter_eq_laneLayout (options : Layout.Options α) (current : Diagram α)
    (hlanes : target.kind.strategy = .lanes) :
    placeAfter options current target = Layout.laneLayout options
      { target with nodes := target.nodes.map (Node.takingOver current target) } := by
  rw [placeAfter_of_lanes options current hlanes]
  simp only [keepHints, DiagramChange.carryPlaces, List.map_map]
  rfl

/-- The end of the lifelines of participants that were placed after a change. -/
def lifelineEndAfter (options : Layout.Options α) (current target : Diagram α) : α :=
  Layout.lifelineBottom options
    { target with nodes := target.nodes.map (Node.takingOver current target) }

theorem nodes_placeAfter_of_lanes (options : Layout.Options α) (current : Diagram α)
    (hlanes : target.kind.strategy = .lanes) :
    (placeAfter options current target).nodes = target.nodes.zipIdx.map fun x =>
      Layout.inRow options (lifelineEndAfter options current target)
        (x.1.takingOver current target) x.2 := by
  rw [placeAfter_eq_laneLayout options current hlanes, Layout.nodes_laneLayout]
  rfl

/-- Participants that are shown at their places in the row are put there again, above lifelines of
the same length. -/
theorem Shows.placeAfter_of_lanes (h : Shows shown target) (hlanes : target.kind.strategy = .lanes)
    (hbox : ∀ x ∈ target.nodes.zipIdx, (x.1.asShown shown).box
      = some (Layout.participantBox options x.2 (x.1.takingOver current target))) :
    Diagram.placeAfter options shown target
      = { Diagram.placeAfter options current target with
          nodes := target.nodes.zipIdx.map fun x =>
            { x.1.asShown shown with
              lifelineEnd := some (lifelineEndAfter options current target) } } := by
  have hkind : (shown.placedAs target).kind.strategy = .lanes := hlanes
  rw [h.placeAfter, Layout.layout_of_lanes hkind, placeAfter_eq_laneLayout options current hlanes]
  exact Layout.laneLayout_again (fun _ _ => rfl) hbox

/-- Placing a diagram in ranks gives its nodes the hints that they had, and places. -/
theorem forall₂_nodes_placeAfter_of_ranks (options : Layout.Options α) (current : Diagram α)
    (hranks : target.kind.strategy ≠ .lanes) :
    List.Forall₂ (fun n t : Node α => n.unplaced
        = { t with style := t.style.or ((current.node? t.id).bind (·.style)) : Node α }.unplaced)
      (placeAfter options current target).nodes target.nodes := by
  have hnodes : (placeAfter options current target).nodes.map Node.unplaced
      = (keepHints current target).nodes.map Node.unplaced :=
    congrArg (·.nodes) (unplaced_placeAfter options current hranks)
  rwa [keepHints, List.map_map, ← List.forall₂_eq_eq_eq, List.forall₂_map_left_iff,
    List.forall₂_map_right_iff] at hnodes

end Diagram

/-! ## Boards that were drawn -/

namespace Pen

variable [Scalar α] {r : Redrawing α} {p : Pen α} {known : Identity} {d target : Diagram α}
  {h : (p.holderIds known d).Nodup}

/-- A drawn board shows the diagram that it was drawn for. -/
theorem shows_redrawn (hids : ∀ t ∈ target.nodes, t.id ∈ d.nodeIds)
    (hdirection : p.direction = target.direction) :
    (Board.read (redrawn r p h).elements).diagram.Shows target where
  nodup := Board.nodup_nodeIds_read _
  nodes t ht := by
    obtain ⟨n, hn, hid⟩ := List.mem_map.1 (hids t ht)
    obtain ⟨group, hnode⟩ := Picture.node?_elements (mem_redrawn (r := r) (p := p) (h := h) hn)
    refine ⟨_, List.mem_of_find?_eq_some hnode, ?_, rfl⟩
    rw [← hid]
    rfl
  direction hne := by
    obtain ⟨group, hnodes⟩ := (redrawn r p h).nodes_elements
    have hpictures : (redrawn r p h).nodes ≠ [] := by
      intro hempty
      rw [hempty] at hnodes
      exact hne hnodes
    have hnamed := Picture.namedDirection_elements hpictures
    rw [← Picture.live_elements] at hnamed
    exact hnamed.trans hdirection

/-- A node that was drawn at a place of its own is drawn there again. -/
theorem isSameNode_of_unplaced (q : Pen α) {n t : Node α} (hn : n ∈ d.nodes)
    (hfont : q.board.fontSize = p.board.fontSize) {before : Option (StyleHints α)}
    (hbefore : IsUnusualSize before)
    (hsame : n.unplaced = { t with style := t.style.or before : Node α }.unplaced) :
    let shown := Board.read (redrawn r p h).elements
    IsSameNode p q known shown.identity n (t.asShown shown.diagram) := by
  intro shown
  have hnode := isSameNode_read (r := r) (q := q) (h := h) hn hfont (congrArg (·.style) hsame)
    hbefore
  cases n
  cases t
  simp only [Node.unplaced, Node.mk.injEq] at hsame
  obtain ⟨rfl, rfl, rfl, rfl, -, -, rfl, rfl⟩ := hsame
  exact hnode

end Pen

/-! ## The second drawing -/

section Again

variable [Scalar α] {options : Layout.Options α} {current target : Diagram α}
  {board board' : BoardStyle α} {known : Identity} {r : Redrawing α}

/-- The hints that a node without its own ones gets. -/
theorem isUnusualSize_bind (hcurrent : ∀ n ∈ current.nodes, IsUnusualSize n.style) (id : String) :
    IsUnusualSize ((current.node? id).bind (·.style)) := by
  cases hnode : current.node? id with
  | none => exact fun size hsize => nomatch hsize
  | some n => exact hcurrent n (List.mem_of_find?_eq_some hnode)

/-- A board that was drawn for a placed diagram shows the diagram. -/
theorem shows_placed {d : Diagram α} (hd : d = Diagram.placeAfter options current target)
    (h : ((Pen.forDiagram board d).holderIds known d).Nodup) :
    (Board.read (Pen.redrawn r (Pen.forDiagram board d) h).elements).diagram.Shows target := by
  have hcontent : d.content = target.content := hd ▸ Diagram.content_placeAfter options current target
  refine Pen.shows_redrawn (fun t ht => ?_) (congrArg (·.direction) hcontent)
  rw [Diagram.nodeIds_of_content hcontent]
  exact Diagram.mem_nodeIds ht

/-- Two placings of a diagram are drawn by pens that are alike. -/
theorem isAlike_placed {options' : Layout.Options α} {current' d d' : Diagram α}
    (hfont : board'.fontSize = board.fontSize)
    (hd : d = Diagram.placeAfter options current target)
    (hd' : d' = Diagram.placeAfter options' current' target) :
    Pen.IsAlike (Pen.forDiagram board d) (Pen.forDiagram board' d') := by
  have hcontent : d'.content = d.content := by
    rw [hd, hd', Diagram.content_placeAfter, Diagram.content_placeAfter]
  exact ⟨congrArg (·.kind) hcontent, congrArg (·.direction) hcontent, hfont⟩

/-- A diagram in ranks is drawn where it was drawn before. -/
theorem isSameDiagram_ranks (hforce : options.forceRelayout = false)
    (hranks : target.kind.strategy ≠ .lanes)
    (hcurrent : ∀ n ∈ current.nodes, IsUnusualSize n.style)
    (hfont : board'.fontSize = board.fontSize) {d : Diagram α}
    (hd : d = Diagram.placeAfter options current target)
    (h : ((Pen.forDiagram board d).holderIds known d).Nodup) :
    let shown := Board.read (Pen.redrawn r (Pen.forDiagram board d) h).elements
    let d' := Diagram.placeAfter options shown.diagram target
    Pen.IsSameDiagram (Pen.forDiagram board d) (Pen.forDiagram board' d') known shown.identity
      d d' := by
  intro shown d'
  have hshows : shown.diagram.Shows target := shows_placed hd h
  have hd' : d' = shown.diagram.placedAs target := hshows.placeAfter_of_ranks hforce hranks
  refine ⟨isAlike_placed hfont hd rfl, ?_, ?_, fun e he hjoined => Pen.isSameEdge_read he hjoined⟩
  · -- the two diagrams are compared with the one that both were made for
    have hpairs := Diagram.forall₂_nodes_placeAfter_of_ranks options current hranks
    rw [← hd] at hpairs
    have hnodes' : d'.nodes = (shown.diagram.placedAs target).nodes := congrArg (·.nodes) hd'
    rw [hnodes', Diagram.placedAs, List.forall₂_map_right_iff]
    refine ((List.forall₂_and_left _ _).2 ⟨fun n hn => hn, hpairs⟩).imp fun n t hn => ?_
    exact Pen.isSameNode_of_unplaced _ hn.1 hfont (isUnusualSize_bind hcurrent t.id) hn.2
  · have hplain : d.unplaced = (Diagram.keepHints current target).unplaced :=
      hd ▸ Diagram.unplaced_placeAfter options current hranks
    rw [hd']
    exact (congrArg (·.edges) hplain).symm

/-- A participant is read off the board where it was drawn. -/
theorem box_asShown_of_lanes (hlanes : target.kind.strategy = .lanes)
    (hsections : ∀ t ∈ target.nodes, t.sections = none) {d : Diagram α}
    (hd : d = Diagram.placeAfter options current target)
    (h : ((Pen.forDiagram board d).holderIds known d).Nodup) {x : Node α × Nat}
    (hx : x ∈ target.nodes.zipIdx) :
    (x.1.asShown (Board.read (Pen.redrawn r (Pen.forDiagram board d) h).elements).diagram).box
      = some (Layout.participantBox options x.2 (x.1.takingOver current target)) := by
  let n := Layout.inRow options (Diagram.lifelineEndAfter options current target)
    (x.1.takingOver current target) x.2
  have hn : n ∈ d.nodes := by
    rw [hd, Diagram.nodes_placeAfter_of_lanes options current hlanes]
    exact List.mem_map_of_mem hx
  have hplain : n.sections = none := hsections x.1 (List.fst_mem_of_mem_zipIdx hx)
  refine (Pen.box_read (r := r) (h := h) hn).trans ?_
  rw [Pen.nodeDrawing, hplain]
  rfl

/-- Participants are drawn where they were drawn before. -/
theorem isSameDiagram_lanes (hlanes : target.kind.strategy = .lanes)
    (hsections : ∀ t ∈ target.nodes, t.sections = none)
    (hcurrent : ∀ n ∈ current.nodes, IsUnusualSize n.style)
    (hfont : board'.fontSize = board.fontSize) {d : Diagram α}
    (hd : d = Diagram.placeAfter options current target)
    (h : ((Pen.forDiagram board d).holderIds known d).Nodup) :
    let shown := Board.read (Pen.redrawn r (Pen.forDiagram board d) h).elements
    let d' := Diagram.placeAfter options shown.diagram target
    Pen.IsSameDiagram (Pen.forDiagram board d) (Pen.forDiagram board' d') known shown.identity
      d d' := by
  intro shown d'
  have hshows : shown.diagram.Shows target := shows_placed hd h
  have hagain : d' = { d with nodes := target.nodes.zipIdx.map fun x =>
      { x.1.asShown shown.diagram with
        lifelineEnd := some (Diagram.lifelineEndAfter options current target) } } := by
    have hbox := fun x hx => box_asShown_of_lanes (r := r) hlanes hsections hd h (x := x) hx
    have hplaced := hshows.placeAfter_of_lanes hlanes hbox
    rwa [← hd] at hplaced
  have hnodes := Diagram.nodes_placeAfter_of_lanes options current hlanes
  rw [← hd] at hnodes
  refine ⟨isAlike_placed hfont hd rfl, ?_, ?_, fun e he hjoined => Pen.isSameEdge_read he hjoined⟩
  · have hnodes' := congrArg (·.nodes) hagain
    rw [hnodes', hnodes, List.forall₂_map_left_iff, List.forall₂_map_right_iff,
      List.forall₂_same]
    intro x hx
    have hn : Layout.inRow options (Diagram.lifelineEndAfter options current target)
        (x.1.takingOver current target) x.2 ∈ d.nodes := by
      rw [hnodes]
      exact List.mem_map_of_mem hx
    exact Pen.isSameNode_of_unplaced (r := r) (h := h) (Pen.forDiagram board' d')
      (t := { x.1 with lifelineEnd := some (Diagram.lifelineEndAfter options current target) }) hn
      hfont (isUnusualSize_bind hcurrent x.1.id) rfl
  · rw [hagain]

end Again

end DiagramBoard
