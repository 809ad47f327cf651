/-
DiagramBoard.Proofs.Board.DrawnDiagram — reading the diagram that was drawn on a board.

Main statement: a board on which a diagram was drawn shows a diagram of the same kind and direction,
with all its nodes and edges, each read off its own elements (`diagram_redrawn`).
-/
import DiagramBoard.Proofs.Board.DiagramReading
import DiagramBoard.Proofs.Board.ShownParts

namespace DiagramBoard

open Board

variable {α : Type}

variable [Scalar α]

namespace Pen

/-! ## What moves and what does not -/

/-- A node without a lifeline has no part that is one. -/
theorem tag?_parts_nodePicture (p : Pen α) {n : Node α} (h : n.lifelineEnd = none)
    (ids : NodeElements) : ∀ e ∈ (p.nodePicture n ids).parts, e.tag? ≠ some .lifeline := by
  intro e he
  unfold nodePicture nodeDrawing at he
  cases hsections : n.sections with
  | none => simp [hsections, plainDrawing, h] at he
  | some sections =>
    simp only [hsections, classDrawing, List.mem_cons, List.not_mem_nil, or_false] at he
    rcases he with rfl | rfl | rfl | rfl
    · exact show some Tag.classSeparator ≠ some .lifeline by decide
    · exact show some Tag.classAttributes ≠ some .lifeline by decide
    · exact show some Tag.classSeparator ≠ some .lifeline by decide
    · exact show some Tag.classMethods ≠ some .lifeline by decide

/-- An edge without a way of its own is no message. -/
theorem tag?_arrow_edgePicture (p : Pen α) {e : Edge α} (h : e.points = none)
    (source target : Element α) (ids : EdgeElements) :
    (p.edgePicture e source target ids).arrow.tag? ≠ some .sequenceMessage := by
  have hway : wayOf e source target = straight source target := by rw [wayOf, h]
  unfold edgePicture edgeDrawing
  rw [hway]
  cases e.label <;> exact fun h => nomatch h

/-! ## The whole diagram -/

/-- Whether a diagram can be read off the board on which a pen draws it: its edges join nodes, every
group has several nodes, containers are told from other elements by their ids, classes are told from
groups, and it looks as its kind does. -/
structure IsReadable (p : Pen α) (known : Identity) (d : Diagram α) : Prop where
  ne_nil : d.nodes ≠ []
  ends : ∀ e ∈ d.edges, e.source ∈ d.nodeIds ∧ e.target ∈ d.nodeIds
  shared : ∀ n ∈ d.nodes, ∀ g ∈ n.group, ∃ m ∈ d.nodes, m.id ≠ n.id ∧ m.group = some g
  ids : ∀ n ∈ d.nodes, ∀ e ∈ p.draw known d, e.kind.isContainer = false →
    e.id ≠ (nodeElements known n).container
  free : ∀ n ∈ d.nodes, n.sections.isSome = true →
    ∀ m ∈ d.nodes, m.group ≠ some (nodeElements known n).container
  kind : ((∀ n ∈ d.nodes, n.lifelineEnd = none) ∧ (∀ e ∈ d.edges, e.points = none)
      ∧ (p.kind.isClassLike = false → ∀ n ∈ d.nodes, n.sections = none))
    ∨ (p.kind = .sequence ∧ ∀ n ∈ d.nodes, n.sections = none ∧ n.lifelineEnd.isSome = true)

variable {r : Redrawing α} {p : Pen α} {known : Identity} {d : Diagram α}
  {h : (p.holderIds known d).Nodup}

/-- The picture of a node with its elements redrawn. -/
def shownNode (r : Redrawing α) (p : Pen α) (known : Identity) (n : Node α) : NodePicture α :=
  r.node (p.nodePicture n (nodeElements known n))

theorem nodes_redrawn : (redrawn r p h).nodes = d.nodes.map (shownNode r p known) :=
  List.map_map ..

theorem id_shownNode (n : Node α) :
    (shownNode r p known n).container.id = (nodeElements known n).container :=
  (r.redraw_id _).trans (p.id_container_nodePicture n _)

theorem groupIds_shownNode (n : Node α) :
    (shownNode r p known n).container.groupIds = n.group.toList
      ∨ (shownNode r p known n).container.groupIds
          = n.group.toList ++ [(shownNode r p known n).container.id]
        ∧ n.sections.isSome = true := by
  have hskeleton : (shownNode r p known n).container.groupIds
      = (p.nodePicture n (nodeElements known n)).container.groupIds :=
    congrArg (·.groupIds) (r.skeleton_redraw _)
  rw [hskeleton, id_shownNode, ← p.id_container_nodePicture n]
  exact p.groupIds_container n _

/-- The group that a diagram has a node in. -/
def groupIn? (d : Diagram α) (x : NodePicture α) : Option String :=
  (d.node? x.nodeId).bind (·.group)

include h in
theorem groupIn?_shownNode {n : Node α} (hn : n ∈ d.nodes) :
    groupIn? d (shownNode r p known n) = n.group := by
  have hids : (p.allNodes known d).map (·.nodeId) = d.nodeIds := List.map_map ..
  have hnodup : d.nodeIds.Nodup := hids ▸ (p.picture h).nodup_nodeIds
  show (d.node? n.id).bind (·.group) = n.group
  rw [Diagram.node?, find?_of_nodup hnodup hn, Option.bind_some]

theorem isGroupedBy_redrawn (hd : p.IsReadable known d) :
    (redrawn r p h).IsGroupedBy (groupIn? d) := by
  have hnode : ∀ {x}, x ∈ (redrawn r p h).nodes → ∃ n ∈ d.nodes, x = shownNode r p known n := by
    intro x hx
    rw [nodes_redrawn] at hx
    obtain ⟨n, hn, rfl⟩ := List.mem_map.1 hx
    exact ⟨n, hn, rfl⟩
  refine ⟨?_, ?_, ?_⟩
  · intro x hx
    obtain ⟨n, hn, rfl⟩ := hnode hx
    rw [groupIn?_shownNode (h := h) hn]
    refine (groupIds_shownNode n).imp_right fun ⟨hids, hsections⟩ => ⟨hids, fun y hy => ?_⟩
    obtain ⟨m, hm, rfl⟩ := hnode hy
    rw [groupIn?_shownNode (h := h) hm, id_shownNode]
    exact hd.free n hn hsections m hm
  · intro x hx e he hkind
    obtain ⟨n, hn, rfl⟩ := hnode hx
    rw [redrawn, r.elements_picture] at he
    obtain ⟨y, hy, rfl⟩ := List.mem_map.1 he
    let drawn := y.withArrows (p.allArrows known d)
    have hmem : drawn ∈ p.draw known d := by
      rw [p.draw_eq_picture h]
      exact List.mem_map_of_mem hy
    have hdrawn : drawn.kind = (r.redraw y).kind :=
      congrArg (·.kind) ((Element.skeleton_withArrows _ y).trans (r.skeleton_redraw y).symm)
    have hne := hd.ids n hn drawn hmem (hdrawn ▸ hkind)
    rwa [Element.withArrows_id, ← r.redraw_id y, ← id_shownNode (r := r) (p := p)] at hne
  · intro x hx g hg
    obtain ⟨n, hn, rfl⟩ := hnode hx
    rw [groupIn?_shownNode (h := h) hn] at hg
    obtain ⟨m, hm, hne, hgroup⟩ := hd.shared n hn g hg
    refine ⟨_, mem_redrawn hm, hne, ?_⟩
    exact (groupIn?_shownNode (r := r) (h := h) hm).trans hgroup

theorem shownKind_redrawn (hd : p.IsReadable known d) :
    shownKind (redrawn r p h).elements ((redrawn r p h).nodes.map NodePicture.shown) = p.kind := by
  rcases hd.kind with ⟨hends, hpoints, hsections⟩ | ⟨hkind, hlifelines⟩
  · refine Picture.shownKind_of_still ?_ ?_ ?_ ?_
    · simpa [nodes_redrawn] using hd.ne_nil
    · intro x hx e he
      rw [nodes_redrawn] at hx
      obtain ⟨n, hn, rfl⟩ := List.mem_map.1 hx
      obtain ⟨y, hy, rfl⟩ := List.mem_map.1 he
      rw [r.tag?_redraw]
      exact p.tag?_parts_nodePicture (hends n hn) _ y hy
    · intro x hx
      obtain ⟨y, hy, rfl⟩ := List.mem_map.1 hx
      obtain ⟨e, he, hpicture⟩ := List.mem_filterMap.1 hy
      obtain ⟨source, target, -, -, rfl⟩ := p.exists_of_edgePicture? hpicture
      show (r.redraw _).tag? ≠ _
      rw [r.tag?_redraw]
      exact p.tag?_arrow_edgePicture (hpoints e he) _ _ _
    · intro hkind x hx
      rw [nodes_redrawn] at hx
      obtain ⟨n, hn, rfl⟩ := List.mem_map.1 hx
      rw [shownNode, sections_shown, hsections hkind n hn]
      rfl
  · obtain ⟨n, hn⟩ := List.exists_mem_of_ne_nil _ hd.ne_nil
    obtain ⟨hsections, hend⟩ := hlifelines n hn
    obtain ⟨bottom, hend⟩ := Option.isSome_iff_exists.1 hend
    rw [hkind]
    refine Picture.shownKind_of_lifeline (mem_redrawn hn) ?_
    have hlifeline := (lifeline?_redrawn r (p.nodePicture n (nodeElements known n))).trans
      (p.lifeline?_nodePicture _ hsections)
    rw [hend] at hlifeline
    exact (Option.isSome_map ..).symm.trans (congrArg Option.isSome hlifeline)

/-- A board on which a diagram was drawn shows it, part by part. -/
theorem diagram_redrawn (hd : p.IsReadable known d) :
    Board.diagram (redrawn r p h).elements =
      { kind := p.kind
        direction := p.direction
        nodes := d.nodes.map fun n => { (shownNode r p known n).shown.node with group := n.group }
        edges := (p.allEdges known d).map fun e => (r.edge e).shown.edge
        groups := (redrawn r p h).groups } := by
  have hends : ∀ x ∈ (redrawn r p h).edges, (∃ n ∈ (redrawn r p h).nodes, n.nodeId = x.source)
      ∧ ∃ n ∈ (redrawn r p h).nodes, n.nodeId = x.target := by
    intro x hx
    obtain ⟨y, hy, rfl⟩ := List.mem_map.1 hx
    obtain ⟨e, he, hpicture⟩ := List.mem_filterMap.1 hy
    obtain ⟨source, target, -, -, rfl⟩ := p.exists_of_edgePicture? hpicture
    obtain ⟨hs, ht⟩ := hd.ends e he
    obtain ⟨n, hn, hns⟩ := List.mem_map.1 hs
    obtain ⟨m, hm, hmt⟩ := List.mem_map.1 ht
    exact ⟨⟨_, mem_redrawn hn, hns⟩, ⟨_, mem_redrawn hm, hmt⟩⟩
  have hne : (redrawn r p h).nodes ≠ [] := by
    simpa [nodes_redrawn] using hd.ne_nil
  have hnodes : (redrawn r p h).nodes.map (fun x => { x.shown.node with group := groupIn? d x })
      = d.nodes.map fun n => { (shownNode r p known n).shown.node with group := n.group } := by
    rw [nodes_redrawn, List.map_map]
    refine List.map_congr_left fun n hn => ?_
    simp only [Function.comp_apply, groupIn?_shownNode (h := h) hn]
  have hedges : (redrawn r p h).edges.map (·.shown.edge)
      = (p.allEdges known d).map fun e => (r.edge e).shown.edge := List.map_map ..
  rw [Picture.diagram_elements hne (isGroupedBy_redrawn hd) (shownKind_redrawn hd) hends, hnodes,
    hedges]
  rfl

end Pen

end DiagramBoard
