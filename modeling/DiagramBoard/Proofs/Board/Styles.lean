/-
DiagramBoard.Proofs.Board.Styles — one diagram drawn in two styles.

Two boards on which a diagram is drawn in different styles have the same elements, but for places and
looks, and so the same diagram is read off both, but for places and looks.  The text is not always the
same.  An arrow whose edge has no stroke of its own is drawn in the stroke of the board, and whoever
reads the board compares that to the standard style, not to the style of the board.

Main statements: in every style the same diagram is read, but for places and looks
(`plain_diagram_draw`), the strokes of the edges that are read are those of the drawn lines
(`strokes_diagram_draw`), and a diagram that a text describes has the same text in two styles if and
only if its kind tells none of these strokes apart (`describe_draw_iff`).
-/
import DiagramBoard.Board.Describe
import DiagramBoard.Proofs.Board.DrawnDiagram
import DiagramBoard.Proofs.Board.Plain
import DiagramBoard.Proofs.Reconcile.Output
import DiagramBoard.Proofs.Writer.Strokes

namespace DiagramBoard

open Board

variable {α : Type}

/-! ## The same elements -/

/-- Arrows are attached without regard to places and looks. -/
theorem Element.plain_withArrows [Scalar α] (arrows : List (Element α)) (e : Element α) :
    (e.withArrows arrows).plain = e.plain := by
  unfold withArrows
  split <;> rfl

namespace Pen

variable [Scalar α]

/-- A pen that draws in the style of another board. -/
def inStyle (p : Pen α) (board : BoardStyle α) : Pen α := { p with board := board }

variable (p : Pen α) (board : BoardStyle α) (known : Identity)

/-- The elements of a node are the same in every style. -/
theorem map_plain_drawNode (n : Node α) (ids : NodeElements) :
    ((p.inStyle board).drawNode n ids).map Element.plain = (p.drawNode n ids).map Element.plain := by
  unfold drawNode nodeDrawing
  cases n.sections with
  | none =>
    unfold plainDrawing
    cases n.lifelineEnd <;> rfl
  | some sections => rfl

/-- Whether an arrow is bound depends on its edge alone. -/
theorem isSome_bindings_wayOf (e : Edge α) (source target source' target' : Element α) :
    (wayOf e source' target').bindings.isSome = (wayOf e source target).bindings.isSome := by
  unfold wayOf
  split <;> rfl

theorem plain_arrow (e : Edge α) {way way' : Way α}
    (hbound : way'.bindings.isSome = way.bindings.isSome) (id : String) :
    ((p.inStyle board).arrow e way' id).plain = (p.arrow e way id).plain := by
  simp only [arrow, hbound]
  rfl

/-- The elements of an edge are the same in every style, wherever its ends are. -/
theorem map_plain_drawEdge (e : Edge α) (source target source' target' : Element α)
    (ids : EdgeElements) :
    ((p.inStyle board).drawEdge e source' target' ids).map Element.plain
      = (p.drawEdge e source target ids).map Element.plain := by
  have harrow := p.plain_arrow board e (isSome_bindings_wayOf e source target source' target')
    ids.arrow
  unfold drawEdge edgeDrawing
  cases e.label with
  | none => exact congrArg (fun a : Element α => [a]) harrow
  | some label => exact congrArg (· :: _) harrow

theorem containerOf?_plain (elements : List (Element α)) (id : String) :
    containerOf? (elements.map Element.plain) id
      = (containerOf? elements id).map Element.plain := by
  rw [containerOf?, List.find?_map]
  rfl

theorem map_plain_drawEdges {drawn drawn' : List (Element α)}
    (h : drawn'.map Element.plain = drawn.map Element.plain) (edges : List (Edge α)) :
    ((p.inStyle board).drawEdges known drawn' edges).map Element.plain
      = (p.drawEdges known drawn edges).map Element.plain := by
  have hsame : ∀ id, (containerOf? drawn' id).map Element.plain
      = (containerOf? drawn id).map Element.plain := by
    intro id
    rw [← containerOf?_plain, h, containerOf?_plain]
  rw [drawEdges, drawEdges, List.map_flatMap, List.map_flatMap]
  refine List.flatMap_congr fun e _ => ?_
  have hsource := hsame e.source
  have htarget := hsame e.target
  cases hs : containerOf? drawn e.source with
  | none =>
    rw [hs, Option.map_none, Option.map_eq_none_iff] at hsource
    simp only [hsource]
  | some source =>
    rw [hs, Option.map_some] at hsource
    obtain ⟨source', hs', -⟩ := Option.map_eq_some_iff.1 hsource
    cases ht : containerOf? drawn e.target with
    | none =>
      rw [ht, Option.map_none, Option.map_eq_none_iff] at htarget
      simp only [hs', htarget]
    | some target =>
      rw [ht, Option.map_some] at htarget
      obtain ⟨target', ht', -⟩ := Option.map_eq_some_iff.1 htarget
      simp only [hs', ht']
      exact p.map_plain_drawEdge board e source target source' target' _

/-- A board consists of the same elements in every style. -/
theorem map_plain_draw (d : Diagram α) :
    ((p.inStyle board).draw known d).map Element.plain
      = (p.draw known d).map Element.plain := by
  have hnodes : ((p.inStyle board).drawNodes known d.nodes).map Element.plain
      = (p.drawNodes known d.nodes).map Element.plain := by
    rw [drawNodes, drawNodes, List.map_flatMap, List.map_flatMap]
    exact List.flatMap_congr fun n _ => p.map_plain_drawNode board n _
  have hattach : ∀ arrows nodes : List (Element α),
      (attachArrows arrows nodes).map Element.plain = nodes.map Element.plain := by
    intro arrows nodes
    rw [attachArrows, List.map_map]
    exact List.map_congr_left fun e _ => e.plain_withArrows arrows
  rw [draw, draw, List.map_append, List.map_append, hattach, hattach, hnodes,
    p.map_plain_drawEdges board known hnodes]

/-- All arrows of a drawn board name their ends. -/
theorem namesEnds_of_mem_draw (d : Diagram α) :
    ∀ e ∈ p.draw known d, e.kind = .arrow → e.namesEnds = true := by
  intro e he hkind
  have harrow : e ∈ (p.draw known d).filter (·.kind = .arrow) :=
    List.mem_filter.2 ⟨he, decide_eq_true hkind⟩
  rw [filter_isArrow_draw] at harrow
  obtain ⟨x, hx, rfl⟩ := List.mem_map.1 harrow
  have hsound := (p.isSound_of_mem_edgePictures hx).arrow
  rw [Element.namesEnds, hsound.source, hsound.target]
  rfl

/-- In every style the same diagram is read off a drawn board, but for places and looks. -/
theorem plain_diagram_draw (d : Diagram α) :
    (diagram ((p.inStyle board).draw known d)).plain = (diagram (p.draw known d)).plain := by
  rw [← plain_diagram (namesEnds_of_mem_draw _ known d), p.map_plain_draw,
    plain_diagram (p.namesEnds_of_mem_draw known d)]

end Pen

/-! ## The strokes that are read -/

open Grammar.Flowchart (Stroke)
open Grammar.Flowchart.Draft (thickWidth)
open Writer.Flowchart (strokeOf)

namespace Board

variable [Scalar α]

/-- The stroke that is read off a line, one in the standard width being normal. -/
def strokeOfLine (line : α × StrokeStyle) : Stroke :=
  let usual := (BoardStyle.standard : BoardStyle α).strokeWidth
  if line.2 ≠ .solid then .dashed
  else if !(line.1 == usual) && decide (thickWidth ≤ line.1) then .thick
  else .normal

/-- The stroke of an edge that is read off an arrow is that of the line of the arrow. -/
theorem strokeOf_namedEdge {xs : List (Element α)} {e : Element α} {w : α} {s : StrokeStyle}
    (h : Pen.lineOn e = (some w, some s.name)) : strokeOf (namedEdge xs e) = strokeOfLine (w, s) := by
  obtain ⟨hwidth, hstyle⟩ := Prod.mk.inj h
  have hdashed : (namedEdge xs e).isDashed = decide (s ≠ .solid) := by
    have hhint : (namedEdge xs e).style.bind (·.strokeStyle) = unusual .solid (some s) := by
      refine (StyleHints.bind_nonEmpty? rfl _).trans ?_
      rw [Element.shownHints, hstyle, Option.bind_some, StrokeStyle.ofName?_name]
      rfl
    rw [Edge.isDashed, Edge.strokeStyle, hhint]
    cases s <;> rfl
  have hthick : (namedEdge xs e).style.bind (·.strokeWidth)
      = unusual (BoardStyle.standard : BoardStyle α).strokeWidth (some w) := by
    refine (StyleHints.bind_nonEmpty? rfl _).trans ?_
    rw [Element.shownHints, hwidth]
  unfold strokeOf strokeOfLine
  rw [hdashed, hthick, unusual, Option.filter_some]
  cases husual : w == (BoardStyle.standard : BoardStyle α).strokeWidth <;> simp [husual]

end Board

namespace Pen

variable [Scalar α] (p : Pen α) (known : Identity) {d : Diagram α}

theorem live_draw (d : Diagram α) : live (p.draw known d) = p.draw known d := by
  rw [live, List.filter_eq_self]
  intro e he
  rw [p.isLive_of_mem_draw known d e he]
  rfl

/-- Every node is found on a drawn board. -/
theorem any_containers_draw {id : String} (hid : id ∈ d.nodeIds) :
    (containers (p.draw known d)).any (·.nodeId = id) = true := by
  obtain ⟨n, hn, rfl⟩ := List.mem_map.1 hid
  have hshows := (p.isSound_nodePicture n (nodeElements known n)).container.of_skeleton
    (Element.skeleton_withArrows (p.allArrows known d) _)
  rw [any_containers, List.any_eq_true]
  refine ⟨_, p.container_mem_draw known hn, ?_⟩
  rw [hshows.isContainer, Element.shownNodeId_of_nodeId hshows.nodeId, Bool.true_and]
  exact decide_eq_true rfl

/-- All edges between nodes are read off a drawn board, each off its own arrow. -/
theorem edges_diagram_draw (hends : ∀ e ∈ d.edges, e.source ∈ d.nodeIds ∧ e.target ∈ d.nodeIds) :
    (diagram (p.draw known d)).edges
      = ((p.draw known d).filter (·.kind = .arrow)).map (namedEdge (p.draw known d)) := by
  let xs := p.draw known d
  have hnode : ∀ id ∈ d.nodeIds, (shownDiagram xs (containers xs)).hasNode id = true := by
    intro id hid
    rw [Diagram.hasNode, shownDiagram, List.any_map]
    exact p.any_containers_draw known hid
  have hkept : (shownDiagram xs (containers xs)).prunedEdges
      = (shownDiagram xs (containers xs)).edges := by
    rw [Diagram.prunedEdges, List.filter_eq_self,
      edges_shownDiagram _ (p.namesEnds_of_mem_draw known d), filter_isArrow_draw]
    intro f hf
    obtain ⟨a, ha, rfl⟩ := List.mem_map.1 hf
    obtain ⟨x, hx, rfl⟩ := List.mem_map.1 ha
    have hsound := (p.isSound_of_mem_edgePictures hx).arrow
    obtain ⟨e, he, hpicture⟩ := List.mem_filterMap.1 hx
    obtain ⟨source, target, -, -, rfl⟩ := p.exists_of_edgePicture? hpicture
    obtain ⟨hsource, htarget⟩ := hends e he
    have hs : (namedEdge xs (p.edgePicture e source target (edgeElements known e)).arrow).source
        = e.source := congrArg (·.getD "") hsound.source
    have ht : (namedEdge xs (p.edgePicture e source target (edgeElements known e)).arrow).target
        = e.target := congrArg (·.getD "") hsound.target
    rw [hs, ht, hnode _ hsource, hnode _ htarget]
    rfl
  rw [diagram, Board.read, live_draw]
  exact hkept.trans (edges_shownDiagram _ (p.namesEnds_of_mem_draw known d))

/-- The strokes of the edges that are read are those of the lines that were drawn. -/
theorem strokes_diagram_draw
    (hends : ∀ e ∈ d.edges, e.source ∈ d.nodeIds ∧ e.target ∈ d.nodeIds) :
    (diagram (p.draw known d)).edges.map strokeOf
      = d.edges.map fun e => strokeOfLine (lineOf p.board e) := by
  rw [p.edges_diagram_draw known hends, filter_isArrow_draw, allEdges, edgePictures,
    List.map_filterMap, List.map_filterMap, List.map_filterMap, ← List.filterMap_eq_map]
  refine List.filterMap_congr fun e he => ?_
  obtain ⟨x, hx⟩ := Option.isSome_iff_exists.1 (p.isSome_edgePicture? known hends e he)
  obtain ⟨source, target, -, -, rfl⟩ := p.exists_of_edgePicture? hx
  rw [hx]
  exact congrArg some (strokeOf_namedEdge (p.lineOn_edgePicture e source target _))

end Pen

/-! ## The kind that is read -/

namespace Board

/-- A board shows the kind that all its containers say. -/
theorem namedKind_eq {alive : List (Element α)} {kind : DiagramKind}
    (hsome : ∃ e ∈ alive, e.kind.isContainer = true)
    (hall : ∀ e ∈ alive, e.kind.isContainer = true →
      (e.metadata.bind fun m => m.diagram) = some kind.name) : namedKind alive = kind := by
  cases hheading : heading? alive with
  | none =>
    obtain ⟨e, he, hkind⟩ := hsome
    have hnone := List.findSome?_eq_none_iff.1 hheading e (List.mem_filter.2 ⟨he, hkind⟩)
    have hdiagram := hall e he hkind
    cases hm : e.metadata with
    | none => simp [hm] at hdiagram
    | some m =>
      simp only [hm, Option.bind_some] at hdiagram
      simp [hm, hdiagram] at hnone
  | some m =>
    obtain ⟨e, he, hsome⟩ := List.exists_of_findSome?_eq_some hheading
    obtain ⟨hmem, hkind⟩ := List.mem_filter.1 he
    have hm := (Option.filter_eq_some_iff.1 hsome).1
    have hdiagram := hall e hmem hkind
    rw [hm, Option.bind_some] at hdiagram
    rw [namedKind, hheading, Option.bind_some, hdiagram, Option.bind_some,
      DiagramKind.ofName?_name]
    rfl

end Board

/-- Whether an element shows no class and no members of one. -/
structure Element.IsMemberless (e : Element α) : Prop where
  ownerId : (e.metadata.bind fun m => m.ownerId) = none
  isNoClass : e.kind.isContainer = true → e.tag? ≠ some .classContainer

/-- Where nothing shows a class, no container has sections. -/
theorem Board.sections_eq_none {alive : List (Element α)} (h : ∀ e ∈ alive, e.IsMemberless)
    {c : Container α} (hc : c ∈ containers alive) : c.sections = none := by
  obtain ⟨e, he, rfl⟩ := List.mem_map.1 (mem_of_mem_eraseDupsBy _ hc)
  obtain ⟨hmem, hkind⟩ := List.mem_filter.1 he
  have howned : alive.filter (isOwnedBy e.shownNodeId) = [] := by
    rw [List.filter_eq_nil_iff]
    intro x hx
    rw [Element.not_isOwnedBy _ (by rw [(h x hx).ownerId]; exact nofun)]
    exact Bool.false_ne_true
  have hsegments : segmentsOf? alive e.shownNodeId = none := by rw [segmentsOf?, howned]
  simp [Container.sections, Container.ofElement, hsegments, (h e hmem).isNoClass hkind]

namespace Pen

variable [Scalar α] (p : Pen α) (known : Identity) {d : Diagram α}

theorem isMemberless_of_mem_nodeDrawing {n : Node α} (h : n.sections = none) (ids : NodeElements) :
    ∀ e ∈ (p.nodeDrawing n ids).elements, e.IsMemberless := by
  have hno : n.sections.isSome ≠ true := by simp [h]
  refine p.forall_mem_nodeDrawing (fun _ => ⟨⟨rfl, fun _ => ?_⟩, ⟨rfl, fun _ => ?_⟩⟩)
    (fun _ _ _ _ => ⟨rfl, fun hkind => absurd hkind Bool.false_ne_true⟩)
    (fun sections hsections => ?_) (fun hsome => absurd hsome hno) (fun hsome => absurd hsome hno)
  · exact (Option.some_ne_none _).symm
  · exact (Option.some_ne_none _).symm
  · exact absurd (h.symm.trans hsections) (Option.some_ne_none _).symm

theorem isMemberless_of_mem_edgeDrawing (e : Edge α) (source target : Element α)
    (ids : EdgeElements) : ∀ x ∈ (p.edgeDrawing e source target ids).elements, x.IsMemberless :=
  p.forall_mem_edgeDrawing (fun _ => ⟨rfl, fun hkind => absurd hkind Bool.false_ne_true⟩)
    (fun _ _ _ => ⟨rfl, fun hkind => absurd hkind Bool.false_ne_true⟩)

theorem isMemberless_of_mem_draw (h : ∀ n ∈ d.nodes, n.sections = none) :
    ∀ e ∈ p.draw known d, e.IsMemberless := by
  refine p.forall_mem_draw (fun e arrows he => ?_) known d
    (fun n hn => p.isMemberless_of_mem_nodeDrawing (h n hn))
    (fun e _ => p.isMemberless_of_mem_edgeDrawing e)
  unfold Element.withArrows
  split
  · exact ⟨he.ownerId, he.isNoClass⟩
  · exact he

/-- Without lifelines and ways of their own, nothing on a board is part of a sequence. -/
theorem isStill_of_mem_draw (hends : ∀ n ∈ d.nodes, n.lifelineEnd = none)
    (hpoints : ∀ e ∈ d.edges, e.points = none) : ∀ e ∈ p.draw known d, e.IsStill := by
  refine p.forall_mem_draw (fun e arrows he => ?_) known d (fun n hn ids => ?_)
    (fun e he source target ids => ?_)
  · have htag := Element.tag?_of_skeleton (Element.skeleton_withArrows arrows e)
    exact ⟨htag ▸ he.isNoLifeline, htag ▸ he.isNoMessage⟩
  · exact NodePicture.isStill (p.isSound_nodePicture n ids)
      (p.tag?_parts_nodePicture (hends n hn) ids)
  · exact EdgePicture.isStill (p.isSound_edgePicture e source target ids)
      (p.tag?_arrow_edgePicture (hpoints e he) source target ids)

/-- The containers of a drawn board say its kind. -/
theorem namedKind_draw (hne : d.nodes ≠ []) : namedKind (p.draw known d) = p.kind := by
  refine namedKind_eq ?_ (p.forall_mem_draw (fun e arrows he => ?_) known d (fun n _ ids e he => ?_)
    (fun e _ source target ids x hx => ?_))
  · obtain ⟨n, hn⟩ := List.exists_mem_of_ne_nil _ hne
    have hshows := (p.isSound_nodePicture n (nodeElements known n)).container
    exact ⟨_, p.container_mem_draw known hn,
      (hshows.of_skeleton (Element.skeleton_withArrows _ _)).isContainer⟩
  · unfold Element.withArrows
    split
    · exact he
    · exact he
  · intro hkind
    have hsound := p.isSound_nodePicture n ids
    have hcontainer : e ∈ (p.nodePicture n ids).elements.filter (·.kind.isContainer) :=
      List.mem_filter.2 ⟨he, hkind⟩
    rw [NodePicture.filter_isContainer hsound] at hcontainer
    rw [List.mem_singleton.1 hcontainer]
    exact hsound.container.diagram
  · intro hkind
    have hnone := EdgePicture.filter_isContainer (p.isSound_edgePicture e source target ids)
    exact absurd hkind (List.filter_eq_nil_iff.1 hnone x hx)

/-- A participant is told by its lifeline. -/
theorem exists_participant_draw {n : Node α} (hn : n ∈ d.nodes) (hsections : n.sections = none)
    (hend : n.lifelineEnd.isSome = true) : ∃ e ∈ p.draw known d, e.participant? = some n.id := by
  let x := p.nodePicture n (nodeElements known n)
  obtain ⟨bottom, hend⟩ := Option.isSome_iff_exists.1 hend
  have hlifeline := p.lifeline?_nodePicture (nodeElements known n) hsections
  rw [hend, Option.map_some] at hlifeline
  obtain ⟨e, he, -⟩ := Option.map_eq_some_iff.1 hlifeline
  obtain ⟨hpart, hparticipant⟩ := List.mem_filter.1 (List.mem_of_getLast? he)
  have hmem : e ∈ x.elements := List.mem_cons_of_mem _ (List.mem_cons_of_mem _ hpart)
  have hskeleton := Element.skeleton_withArrows (p.allArrows known d) e
  refine ⟨_, p.mem_draw_of_node known hn hmem, ?_⟩
  rw [Element.participant?, Element.tag?_of_skeleton hskeleton,
    Element.bind_metadata_of_skeleton hskeleton fun _ => rfl]
  exact of_decide_eq_true hparticipant

/-- The kind of a diagram is read off its board. -/
theorem kind_diagram_draw (hne : d.nodes ≠ []) (hlooks : d.LooksLike p.kind) :
    (diagram (p.draw known d)).kind = p.kind := by
  rw [diagram, Board.read, live_draw]
  show shownKind (p.draw known d) (containers (p.draw known d)) = p.kind
  rcases hlooks with ⟨hends, hpoints, hsections⟩ | ⟨hkind, hlifelines⟩
  · have hnamed := p.namedKind_draw known hne
    refine (shownKind_eq_namedKind (p.isStill_of_mem_draw known hends hpoints) ?_).trans hnamed
    intro hlike c hc
    exact sections_eq_none (p.isMemberless_of_mem_draw known (hsections (hnamed ▸ hlike))) hc
  · obtain ⟨n, hn⟩ := List.exists_mem_of_ne_nil _ hne
    obtain ⟨hsections, hend⟩ := hlifelines n hn
    obtain ⟨e, he, hparticipant⟩ := p.exists_participant_draw known hn hsections hend
    rw [hkind]
    exact shownKind_of_participant he hparticipant
      (p.any_containers_draw known (Diagram.mem_nodeIds hn))

end Pen

/-! ## Texts in two styles -/

section Layout

variable [Scalar α] {target : Diagram α} (htarget : target.IsDescribed) (options : Layout.Options α)
  (board : BoardStyle α)
include htarget

/-- The strokes of the edges of a diagram that a text describes, read off its board. -/
theorem strokes_diagram_layout :
    (diagram ((target.layout options).draw board {})).edges.map strokeOf
      = target.edges.map fun e => strokeOfLine (Pen.lineOf board e) := by
  have hcontent := Diagram.content_layout options target
  -- a way of its own makes no difference to the line of an edge
  have hedges : (target.layout options).edges.map Edge.unrouted = target.edges.map Edge.unrouted :=
    congrArg (·.edges) hcontent
  have hlines := congrArg (List.map fun e => strokeOfLine (Pen.lineOf board e)) hedges
  rw [List.map_map, List.map_map] at hlines
  exact ((Pen.forDiagram board _).strokes_diagram_draw {}
    (Diagram.ends_of_content hcontent htarget.ends)).trans hlines

/-- The kind of a diagram that a text describes is read off its board if there are edges. -/
theorem kind_diagram_layout {e : Edge α} (he : e ∈ target.edges) :
    (diagram ((target.layout options).draw board {})).kind = target.kind := by
  have hcontent := Diagram.content_layout options target
  have hkind : (target.layout options).kind = target.kind := congrArg (·.kind) hcontent
  have hsource := (htarget.ends e he).1
  obtain ⟨t, ht, -⟩ := List.mem_map.1 hsource
  rw [← Diagram.nodeIds_of_content hcontent] at hsource
  obtain ⟨n, hn, -⟩ := List.mem_map.1 hsource
  have hlooks : (target.layout options).LooksLike (target.layout options).kind := by
    rw [hkind]
    exact htarget.looksLike (List.ne_nil_of_mem ht) hcontent
      (Diagram.isSome_lifelineEnd_layout options fun t ht => (htarget.nodes t ht).lifelineEnd)
      fun hranks => congrArg (·.edges) (Diagram.unplaced_layout hranks)
  exact ((Pen.forDiagram board _).kind_diagram_draw {} (List.ne_nil_of_mem hn) hlooks).trans hkind

end Layout

/-- A diagram that a text describes has the same text in two styles if and only if its kind tells the
stroke of no edge in the one style from that in the other. -/
theorem describe_draw_iff [Scalar α] {text : String} {target : Diagram α}
    (htext : Diagram.parse text = .ok target) (options : Layout.Options α) (b c : BoardStyle α)
    (compact : Bool) :
    describe compact ((target.layout options).draw b {})
        = describe compact ((target.layout options).draw c {})
      ↔ ∀ e ∈ target.edges, target.kind.told (strokeOfLine (Pen.lineOf b e))
        = target.kind.told (strokeOfLine (Pen.lineOf c e)) := by
  have htarget := Diagram.isDescribed_of_parse htext
  have hplain : (diagram ((target.layout options).draw b {})).plain
      = (diagram ((target.layout options).draw c {})).plain :=
    (Pen.forDiagram c _).plain_diagram_draw b {} _
  have hstrokes : ∀ kind board, (diagram ((target.layout options).draw board {})).edges.map
      (fun x => DiagramKind.told kind (strokeOf x))
      = target.edges.map fun e => kind.told (strokeOfLine (Pen.lineOf board e)) := by
    intro kind board
    have hread := congrArg (List.map (DiagramKind.told kind))
      (strokes_diagram_layout htarget options board)
    rwa [List.map_map, List.map_map] at hread
  refine (Diagram.render_eq_iff hplain compact).trans ?_
  rw [hstrokes, hstrokes, List.map_inj_left]
  refine forall₂_congr fun e he => ?_
  rw [kind_diagram_layout htarget options c he]

/-- The style of a board with thick strokes. -/
def thickStyle : BoardStyle Float := { BoardStyle.standard with strokeWidth := 4 }

/-- On a board with thick strokes, a link without one of its own is read as a thick one. -/
theorem not_describe_thickStyle : ∃ target, Diagram.parse "graph TD\nA --> B" = .ok target
    ∧ describe true ((target.layout .standard).draw .standard {}) = "graph TD\n  A --> B\n"
    ∧ describe true ((target.layout .standard).draw thickStyle {}) = "graph TD\n  A ==> B\n" := by
  obtain ⟨target, htext, hread⟩ : ∃ target : Diagram Float,
      Diagram.parse "graph TD\nA --> B" = .ok target
        ∧ (describe true ((target.layout .standard).draw .standard {}) == "graph TD\n  A --> B\n"
          && describe true ((target.layout .standard).draw thickStyle {})
            == "graph TD\n  A ==> B\n") = true :=
    exists_ok_of_any (by decide +kernel)
  simp only [Bool.and_eq_true, beq_iff_eq] at hread
  exact ⟨target, htext, hread⟩

end DiagramBoard
