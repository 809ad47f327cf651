/-
DiagramBoard.Proofs.Board.ReadAgain — reading a board that was drawn.

Reading a drawn board finds its nodes again, at the places of their containers and under the ids
that they were drawn with.  Redrawing elements in between makes no difference, for what is read is
part of what an element shows.

Main statements: a node is read off its own elements (`node?_elements`), and the nodes and edges of
a drawn board are drawn under the same ids again (`isSameNode_read`, `isSameEdge_read`).
-/
import DiagramBoard.Proofs.Board.BoardAgain
import DiagramBoard.Proofs.Board.Containers

namespace DiagramBoard

open Board

variable {α : Type}

/-! ## Nodes of a picture -/

namespace Picture

variable [Scalar α] {p : Picture α}

/-- The nodes that are read off a picture are its nodes, each in one of its groups or in none. -/
theorem nodes_elements (p : Picture α) :
    ∃ group : NodePicture α → Option String, (Board.read p.elements).diagram.nodes
      = p.nodes.map fun n => { n.shown.node with group := group n } := by
  obtain ⟨group, hnodes⟩ := nodes_read p.elements
  refine ⟨fun n => group n.shown, ?_⟩
  rw [hnodes, live_elements, containers_elements, List.map_map]
  rfl

/-- A node is read off its own elements. -/
theorem node?_elements {n : NodePicture α} (hn : n ∈ p.nodes) :
    ∃ group, (Board.read p.elements).diagram.node? n.nodeId
      = some { n.shown.node with group := group } := by
  obtain ⟨group, hnodes⟩ := p.nodes_elements
  refine ⟨group n, ?_⟩
  rw [Diagram.node?, hnodes, List.find?_map]
  exact congrArg (Option.map _) (find?_of_nodup p.nodup_nodeIds hn)

end Picture

/-! ## Hints -/

namespace StyleHints

/-- Leaving out hints without any hint leaves out no hint. -/
theorem bind_nonEmpty? {β : Type} {hint : StyleHints α → Option β} (hnone : hint {} = none)
    (s : StyleHints α) : s.nonEmpty?.bind hint = hint s := by
  unfold nonEmpty?
  split
  · next h =>
    have hempty : s = {} := by
      cases s
      simp only [isEmpty, Bool.and_eq_true, Option.isNone_iff_eq_none] at h
      simp only [h]
    rw [hempty, hnone]
    rfl
  · rfl

end StyleHints

variable [Scalar α]

/-- Hints that are read off a board never tell the usual font size. -/
def IsUnusualSize (hints : Option (StyleHints α)) : Prop :=
  ∀ size, hints.bind (·.fontSize) = some size
    → (size == (BoardStyle.standard : BoardStyle α).fontSize) = false

theorem isUnusualSize_read {elements : List (Element α)} {n : Node α}
    (hn : n ∈ (Board.read elements).diagram.nodes) : IsUnusualSize n.style := by
  obtain ⟨group, hnodes⟩ := nodes_read elements
  rw [hnodes] at hn
  obtain ⟨c, -, rfl⟩ := List.mem_map.1 hn
  intro size hsize
  have hfont : c.hints.fontSize = some size := (StyleHints.bind_nonEmpty? rfl _).symm.trans hsize
  simpa using (Option.filter_eq_some_iff.1 hfont).2

namespace Pen

variable {p q : Pen α}

/-- A font size that is read off a label drawn in it is the one that it was drawn in. -/
theorem fontSize_again (h : q.board.fontSize = p.board.fontSize)
    {own before after : Option (StyleHints α)} (hbefore : IsUnusualSize before)
    (hafter : after.bind (·.fontSize) = unusual (BoardStyle.standard : BoardStyle α).fontSize
      (some (p.fontSize (own.or before)))) :
    q.fontSize (own.or after) = p.fontSize (own.or before) := by
  cases own with
  | some own => rw [Option.some_or, Option.some_or, fontSize, fontSize, h]
  | none =>
    rw [Option.none_or] at hafter ⊢
    rw [Option.none_or]
    rw [fontSize, choose, hafter, unusual, Option.filter]
    split
    · rfl
    · next husual =>
      -- then the size is that of the board
      rw [h, Option.getD_none, fontSize, choose]
      cases hb : before.bind (·.fontSize) with
      | none => rfl
      | some size =>
        have := hbefore size hb
        simp [fontSize, choose, hb, this] at husual

/-! ## Ids -/

/-- The label of a node is written in the font size of its hints. -/
theorem fontSize_label_nodePicture (p : Pen α) (n : Node α) (ids : NodeElements) :
    (p.nodePicture n ids).label.fontSize = some (p.fontSize n.style) := by
  unfold nodePicture nodeDrawing
  cases n.sections <;> rfl

/-- The lifeline of a node without members is the one that is drawn for it. -/
theorem lifeline?_nodePicture (p : Pen α) {n : Node α} (ids : NodeElements)
    (hsections : n.sections = none) :
    (p.nodePicture n ids).lifeline?.map (·.id) = n.lifelineEnd.map fun _ => lifelineId n ids := by
  unfold NodePicture.lifeline? nodePicture nodeDrawing
  rw [hsections]
  cases hend : n.lifelineEnd with
  | none => simp [plainDrawing, hend]
  | some bottom =>
    have hparticipant : ∀ id box, (p.lifeline id n box bottom).participant? = some n.id :=
      fun _ _ => rfl
    simp only [plainDrawing, hend, Option.map_some, Option.toList_some]
    rw [List.filter_cons_of_pos (by simpa using hparticipant _ _)]
    rfl

variable (r : Redrawing α) (p : Pen α) {known : Identity} {d : Diagram α}
  (h : (p.holderIds known d).Nodup)

/-- A board that a pen has drawn, with its elements redrawn. -/
def redrawn : Picture α := r.picture (p.picture h)

variable {r p h}

theorem mem_redrawn {n : Node α} (hn : n ∈ d.nodes) :
    r.node (p.nodePicture n (nodeElements known n)) ∈ (redrawn r p h).nodes :=
  List.mem_map_of_mem (List.mem_map_of_mem hn)

theorem mem_edges_redrawn {e : Edge α} (he : e ∈ d.edges)
    (hjoined : isJoined (p.drawNodes known d.nodes) e = true) :
    ∃ source target, r.edge (p.edgePicture e source target (edgeElements known e))
      ∈ (redrawn r p h).edges := by
  rw [isJoined, Bool.and_eq_true] at hjoined
  obtain ⟨source, hs⟩ := Option.isSome_iff_exists.1 hjoined.1
  obtain ⟨target, ht⟩ := Option.isSome_iff_exists.1 hjoined.2
  refine ⟨source, target, List.mem_map_of_mem (List.mem_filterMap.2 ⟨e, he, ?_⟩)⟩
  simp only [edgePicture?, hs, ht]

theorem lifeline?_redrawn (r : Redrawing α) (x : NodePicture α) :
    (r.node x).lifeline?.map (·.id) = x.lifeline?.map (·.id) := by
  have hparticipant : ∀ e, (r.redraw e).participant? = e.participant? := by
    intro e
    rw [Element.participant?, Element.participant?, Element.tag?_of_skeleton (r.skeleton_redraw e),
      Element.bind_metadata_of_skeleton (r.skeleton_redraw e) fun _ => rfl]
  unfold NodePicture.lifeline?
  simp only [Redrawing.node, List.filter_map, List.getLast?_map, Option.map_map,
    Function.comp_def, hparticipant, Redrawing.redraw_id]

/-- The nodes of a drawn board are drawn under the same ids again. -/
theorem nodeElements_read {n : Node α} (hn : n ∈ d.nodes) :
    let known' := (Board.read (redrawn r p h).elements).identity
    (nodeElements known' n).container = (nodeElements known n).container
      ∧ labelId n (nodeElements known' n) = labelId n (nodeElements known n)
      ∧ (n.sections = none → n.lifelineEnd.isSome = true →
        lifelineId n (nodeElements known' n) = lifelineId n (nodeElements known n)) := by
  intro known'
  have hknown : known'.node? n.id = _ := Picture.node?_identity (mem_redrawn hn)
  refine ⟨?_, ?_, fun hsections hend => ?_⟩
  · simp only [nodeElements, Node.elementIds, hknown, Option.map_some, Option.getD_some]
    exact (r.redraw_id _).trans (p.id_container_nodePicture n _)
  · simp only [labelId, nodeElements, Node.elementIds, hknown, Option.bind_some, Option.getD_some]
    exact (r.redraw_id _).trans (p.id_label_nodePicture n _)
  · obtain ⟨bottom, hend⟩ := Option.isSome_iff_exists.1 hend
    rw [lifelineId]
    simp only [nodeElements, Node.elementIds, hknown, Option.bind_some, lifeline?_redrawn]
    rw [lifeline?_nodePicture p _ hsections, hend]
    rfl

/-- The nodes of a drawn board are read off it at the places of their containers. -/
theorem box_read {n : Node α} (hn : n ∈ d.nodes) :
    ((Board.read (redrawn r p h).elements).diagram.node? n.id).bind (·.box)
      = some (p.nodeDrawing n (nodeElements known n)).container.box := by
  obtain ⟨group, hnode⟩ := Picture.node?_elements (mem_redrawn (r := r) (p := p) (h := h) hn)
  have hnode : (Board.read (redrawn r p h).elements).diagram.node? n.id = _ := hnode
  have hbox : (r.redraw (p.nodePicture n (nodeElements known n)).container).box
      = (p.nodePicture n (nodeElements known n)).container.box :=
    congrArg (·.box) (r.skeleton_redraw _)
  rw [hnode]
  exact congrArg some hbox

/-- The nodes of a drawn board are read off it with the font sizes that they were drawn in. -/
theorem fontSize_read {n : Node α} (hn : n ∈ d.nodes)
    (hfont : q.board.fontSize = p.board.fontSize) {own before : Option (StyleHints α)}
    (hstyle : n.style = own.or before) (hbefore : IsUnusualSize before) :
    q.fontSize (own.or (((Board.read (redrawn r p h).elements).diagram.node? n.id).bind (·.style)))
      = p.fontSize n.style := by
  obtain ⟨group, hnode⟩ := Picture.node?_elements (mem_redrawn (r := r) (p := p) (h := h) hn)
  have hnode : (Board.read (redrawn r p h).elements).diagram.node? n.id = _ := hnode
  rw [hnode, hstyle]
  refine fontSize_again hfont hbefore ?_
  have hlabel : (r.redraw (p.nodePicture n (nodeElements known n)).label).fontSize
      = some (p.fontSize n.style) :=
    (congrArg (·.fontSize) (r.skeleton_redraw _)).trans (fontSize_label_nodePicture p n _)
  rw [hstyle] at hlabel
  rw [← hlabel]
  exact StyleHints.bind_nonEmpty? rfl _

/-- The nodes of a drawn board are drawn where they are again. -/
theorem isSameNode_read {n : Node α} (hn : n ∈ d.nodes)
    (hfont : q.board.fontSize = p.board.fontSize) {own before : Option (StyleHints α)}
    (hstyle : n.style = own.or before) (hbefore : IsUnusualSize before) :
    let shown := Board.read (redrawn r p h).elements
    IsSameNode p q known shown.identity n
      { n with
        box := (shown.diagram.node? n.id).bind (·.box)
        style := own.or ((shown.diagram.node? n.id).bind (·.style)) } := by
  intro shown
  obtain ⟨hcontainer, hlabel, hlifeline⟩ := nodeElements_read (r := r) (p := p) (h := h) hn
  refine ⟨⟨own.or ((shown.diagram.node? n.id).bind (·.style)), ?_⟩,
    fontSize_read hn hfont hstyle hbefore, hcontainer, hlabel, hlifeline⟩
  rw [box_read hn]

/-- The edges of a drawn board are drawn under the same ids again. -/
theorem isSameEdge_read {e : Edge α} (he : e ∈ d.edges)
    (hjoined : isJoined (p.drawNodes known d.nodes) e = true) :
    IsSameEdge known (Board.read (redrawn r p h).elements).identity e := by
  obtain ⟨source, target, hmem⟩ := mem_edges_redrawn he hjoined
  have hknown := Picture.edge?_identity hmem
  have hknown : (Board.read (redrawn r p h).elements).identity.edge? e.id = _ := hknown
  refine ⟨?_, fun hlabel => ?_⟩
  · simp only [edgeElements, Edge.elementIds, hknown, Option.map_some, Option.getD_some]
    exact (r.redraw_id _).trans (p.id_arrow_edgePicture e source target _)
  · obtain ⟨text, hlabel⟩ := Option.isSome_iff_exists.1 hlabel
    simp only [edgeElements, Edge.elementIds, hknown, Option.bind_some, Redrawing.edge,
      edgePicture, edgeDrawing, hlabel, Option.map_some, Option.getD_some, Redrawing.redraw_id]
    rfl

end Pen

end DiagramBoard
