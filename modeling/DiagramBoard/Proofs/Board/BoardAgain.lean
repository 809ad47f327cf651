/-
DiagramBoard.Proofs.Board.BoardAgain — drawing a whole board that is there already.

The nodes of the second drawing are at the places of the containers of the first one, and both
drawings use the same ids.  Then the containers have the same contents, hence edges join them along
the same ways, and only the lines of arrows may differ: they follow the style of the board.

Main statements: a board is drawn with the same contents again if no line changes
(`unstyled_draw_again`), and not otherwise (`lineOf_of_skeleton_draw`).
-/
import DiagramBoard.Proofs.Board.DrawnAgain

namespace DiagramBoard

open Board

variable {α : Type}

/-! ## Contents of pictures -/

/-- The picture of a node without its looks. -/
def NodePicture.unstyled (n : NodePicture α) : NodePicture α :=
  { n.toNodeDrawing.unstyled with nodeId := n.nodeId }

/-- The picture of an edge without its looks. -/
def EdgePicture.unstyled (e : EdgePicture α) : EdgePicture α :=
  { e.toEdgeDrawing.unstyled with edgeId := e.edgeId, source := e.source, target := e.target }

theorem NodePicture.elements_unstyled (n : NodePicture α) :
    n.unstyled.elements = n.elements.map Element.unstyled := rfl

theorem EdgePicture.elements_unstyled (e : EdgePicture α) :
    e.unstyled.elements = e.elements.map Element.unstyled := by
  cases h : e.label <;> simp [unstyled, EdgeDrawing.unstyled, EdgePicture.elements_eq, h]

/-- Looks make no difference to which container shows a node. -/
theorem containerOf?_unstyled (elements : List (Element α)) (id : String) :
    containerOf? (elements.map Element.unstyled) id
      = (containerOf? elements id).map Element.unstyled := by
  rw [containerOf?, List.find?_map]
  rfl

/-- Looks make no difference to which arrows are attached. -/
theorem Element.unstyled_withArrows (arrows : List (Element α)) (e : Element α) :
    (e.withArrows arrows).unstyled = e.unstyled.withArrows (arrows.map unstyled) := by
  have hbound : ∀ others, (arrows.map unstyled).foldl (bindArrow e.id) others
      = arrows.foldl (bindArrow e.id) others := by
    intro others
    rw [List.foldl_map]
    rfl
  unfold withArrows
  simp only [unstyled_kind, unstyled_id, hbound]
  split <;> rfl

theorem Element.IsDrawn.withArrows {e : Element α} (h : e.IsDrawn) (arrows : List (Element α)) :
    (e.withArrows arrows).IsDrawn := by
  unfold Element.withArrows
  split
  · exact ⟨h.looks, h.fontFamily, h.extra, h.metadata⟩
  · exact h

namespace Pen

variable [Scalar α]

/-! ## Drawings of the same nodes -/

/-- Whether a node is drawn by a second pen where the first one has drawn it, under the same ids
and in a font of the same size. -/
structure IsSameNode (p q : Pen α) (known known' : Identity) (n m : Node α) : Prop where
  eq : ∃ hints, m = { n with
    box := some (p.nodeDrawing n (nodeElements known n)).container.box, style := hints }
  fontSize : q.fontSize m.style = p.fontSize n.style
  container : (nodeElements known' n).container = (nodeElements known n).container
  label : labelId n (nodeElements known' n) = labelId n (nodeElements known n)
  lifeline : n.sections = none → n.lifelineEnd.isSome = true →
    lifelineId n (nodeElements known' n) = lifelineId n (nodeElements known n)

/-- Whether an edge is drawn under the same ids twice. -/
structure IsSameEdge (known known' : Identity) (e : Edge α) : Prop where
  arrow : (edgeElements known' e).arrow = (edgeElements known e).arrow
  label : e.label.isSome = true → (edgeElements known' e).text.getD (derivedId "text" e.id)
    = (edgeElements known e).text.getD (derivedId "text" e.id)

variable {p q : Pen α} {known known' : Identity}

theorem unstyled_nodePicture_again [OrderedScalar α] (h : IsAlike p q) {n m : Node α}
    (hsame : IsSameNode p q known known' n m) :
    (q.nodePicture m (nodeElements known' m)).unstyled
      = (p.nodePicture n (nodeElements known n)).unstyled := by
  obtain ⟨hints, rfl⟩ := hsame.eq
  have hdrawing := unstyled_nodeDrawing_again h hsame.fontSize hsame.container hsame.label
    hsame.lifeline
  simp only [NodePicture.unstyled, nodePicture]
  exact congrArg (fun x : NodeDrawing α => { x with nodeId := n.id : NodePicture α }) hdrawing

theorem unstyled_nodePictures_again [OrderedScalar α] (h : IsAlike p q) {ns ms : List (Node α)}
    (hsame : List.Forall₂ (IsSameNode p q known known') ns ms) :
    (q.nodePictures known' ms).map NodePicture.unstyled
      = (p.nodePictures known ns).map NodePicture.unstyled := by
  induction hsame with
  | nil => rfl
  | cons hn _ ih =>
    simp only [nodePictures, List.map_cons] at ih ⊢
    rw [unstyled_nodePicture_again h hn, ih]

theorem unstyled_drawNodes_again [OrderedScalar α] (h : IsAlike p q) {ns ms : List (Node α)}
    (hsame : List.Forall₂ (IsSameNode p q known known') ns ms) :
    (q.drawNodes known' ms).map Element.unstyled = (p.drawNodes known ns).map Element.unstyled := by
  have hflat : ∀ xs : List (NodePicture α), (xs.flatMap NodePicture.elements).map Element.unstyled
      = (xs.map NodePicture.unstyled).flatMap NodePicture.elements := by
    intro xs
    rw [List.map_flatMap, List.flatMap_map]
    rfl
  rw [drawNodes_eq, drawNodes_eq, hflat, hflat, unstyled_nodePictures_again h hsame]

/-! ## Drawings of the same edges -/

variable {drawn drawn' : List (Element α)}

omit [Scalar α] in
/-- Containers with the same contents show the same nodes. -/
theorem containerOf?_again (h : drawn'.map Element.unstyled = drawn.map Element.unstyled)
    (id : String) :
    (containerOf? drawn' id).map Element.unstyled = (containerOf? drawn id).map Element.unstyled := by
  rw [← containerOf?_unstyled, ← containerOf?_unstyled, h]

/-- Whether both ends of an edge are drawn. -/
def isJoined (drawn : List (Element α)) (e : Edge α) : Bool :=
  (containerOf? drawn e.source).isSome && (containerOf? drawn e.target).isSome

omit [Scalar α] in
theorem isJoined_again (h : drawn'.map Element.unstyled = drawn.map Element.unstyled)
    (e : Edge α) : isJoined drawn' e = isJoined drawn e := by
  have hsome : ∀ id, (containerOf? drawn' id).isSome = (containerOf? drawn id).isSome := by
    intro id
    have := congrArg Option.isSome (containerOf?_again h id)
    simpa using this
  rw [isJoined, isJoined, hsome, hsome]

theorem unstyled_edgePicture?_again (h : IsAlike p q)
    (hdrawn : drawn'.map Element.unstyled = drawn.map Element.unstyled) {e : Edge α}
    (hsame : isJoined drawn e = true → IsSameEdge known known' e)
    (hline : isJoined drawn e = true → lineOf q.board e = lineOf p.board e) :
    (q.edgePicture? known' drawn' e).map EdgePicture.unstyled
      = (p.edgePicture? known drawn e).map EdgePicture.unstyled := by
  have hsource := containerOf?_again hdrawn e.source
  have htarget := containerOf?_again hdrawn e.target
  unfold edgePicture?
  cases hs : containerOf? drawn e.source with
  | none =>
    rw [hs, Option.map_none, Option.map_eq_none_iff] at hsource
    simp [hsource]
  | some source =>
    cases ht : containerOf? drawn e.target with
    | none =>
      rw [ht, Option.map_none, Option.map_eq_none_iff] at htarget
      cases containerOf? drawn' e.source <;> simp [htarget]
    | some target =>
      rw [hs] at hsource
      rw [ht] at htarget
      obtain ⟨source', hs', hsource⟩ := Option.map_eq_some_iff.1 hsource
      obtain ⟨target', ht', htarget⟩ := Option.map_eq_some_iff.1 htarget
      have hjoined : isJoined drawn e = true := by simp [isJoined, hs, ht]
      have hids := hsame hjoined
      have hdrawing := unstyled_edgeDrawing_again h hsource htarget hids.arrow hids.label
        (hline hjoined)
      simp only [hs', ht', Option.map_some, EdgePicture.unstyled, edgePicture]
      exact congrArg (fun x : EdgeDrawing α => some
        { x with edgeId := e.id, source := e.source, target := e.target : EdgePicture α }) hdrawing

/-! ## Whole boards -/

/-- Whether a diagram is drawn by a second pen where the first one has drawn another, and under the
same ids. -/
structure IsSameDiagram (p q : Pen α) (known known' : Identity) (d d' : Diagram α) : Prop where
  pens : IsAlike p q
  nodes : List.Forall₂ (IsSameNode p q known known') d.nodes d'.nodes
  edges : d'.edges = d.edges
  edgeIds : ∀ e ∈ d.edges, isJoined (p.drawNodes known d.nodes) e = true →
    IsSameEdge known known' e

variable {d d' : Diagram α}

/-- The edges whose ends are drawn, drawn without their looks. -/
theorem map_unstyled_allEdges (p : Pen α) (known : Identity) (d : Diagram α) :
    (p.allEdges known d).map EdgePicture.unstyled = d.edges.filterMap fun e =>
      (p.edgePicture? known (p.drawNodes known d.nodes) e).map EdgePicture.unstyled := by
  rw [allEdges, edgePictures, List.map_filterMap]

theorem unstyled_allEdges_again [OrderedScalar α] (h : IsSameDiagram p q known known' d d')
    (hlines : ∀ e ∈ d.edges, isJoined (p.drawNodes known d.nodes) e = true →
      lineOf q.board e = lineOf p.board e) :
    (q.allEdges known' d').map EdgePicture.unstyled
      = (p.allEdges known d).map EdgePicture.unstyled := by
  rw [map_unstyled_allEdges, map_unstyled_allEdges, h.edges]
  refine List.filterMap_congr fun e he => ?_
  exact unstyled_edgePicture?_again h.pens (unstyled_drawNodes_again h.pens h.nodes)
    (h.edgeIds e he) (hlines e he)

/-- A drawing without its looks is that of its parts without theirs. -/
theorem map_unstyled_draw (p : Pen α) (known : Identity) (d : Diagram α) :
    (p.draw known d).map Element.unstyled
      = (((p.allNodes known d).map NodePicture.unstyled).flatMap NodePicture.elements
        ++ ((p.allEdges known d).map EdgePicture.unstyled).flatMap EdgePicture.elements).map
          (Element.withArrows
            (((p.allEdges known d).map EdgePicture.unstyled).flatMap EdgePicture.elements)) := by
  have hedges : ((p.allEdges known d).map EdgePicture.unstyled).flatMap EdgePicture.elements
      = (p.allArrows known d).map Element.unstyled := by
    rw [List.flatMap_map, allArrows, List.map_flatMap]
    exact List.flatMap_congr fun e _ => e.elements_unstyled
  have hnodes : ((p.allNodes known d).map NodePicture.unstyled).flatMap NodePicture.elements
      = ((p.allNodes known d).flatMap NodePicture.elements).map Element.unstyled := by
    rw [List.flatMap_map, List.map_flatMap]
    rfl
  rw [hedges, hnodes, draw_eq, List.map_map, ← allArrows, ← List.map_append, List.map_map]
  exact List.map_congr_left fun e _ => e.unstyled_withArrows _

/-- A board is drawn with the same contents again if the lines of its edges stay as they are. -/
theorem unstyled_draw_again [OrderedScalar α] (h : IsSameDiagram p q known known' d d')
    (hlines : ∀ e ∈ d.edges, isJoined (p.drawNodes known d.nodes) e = true →
      lineOf q.board e = lineOf p.board e) :
    (q.draw known' d').map Element.unstyled = (p.draw known d).map Element.unstyled := by
  rw [map_unstyled_draw, map_unstyled_draw, allNodes, allNodes,
    unstyled_nodePictures_again h.pens h.nodes, unstyled_allEdges_again h hlines]

/-! ## The lines of arrows -/

/-- The line of an arrow, as far as it has one. -/
def lineOn (e : Element α) : Option α × Option String := (e.strokeWidth, e.strokeStyle)

/-- The line that an edge is drawn with. -/
def drawnLine (board : BoardStyle α) (e : Edge α) : Option α × Option String :=
  (some (lineOf board e).1, some (lineOf board e).2.name)

omit [Scalar α] in
theorem lineOf_of_drawnLine {board board' : BoardStyle α} {e : Edge α}
    (h : drawnLine board' e = drawnLine board e) : lineOf board' e = lineOf board e := by
  obtain ⟨hwidth, hstyle⟩ := Prod.mk.inj h
  have hname := congrArg (Option.bind · StrokeStyle.ofName?) hstyle
  simp only [Option.bind_some, StrokeStyle.ofName?_name, Option.some.injEq] at hname
  exact Prod.ext (Option.some.inj hwidth) hname

theorem lineOn_edgePicture (p : Pen α) (e : Edge α) (source target : Element α)
    (ids : EdgeElements) :
    lineOn (p.edgePicture e source target ids).arrow = drawnLine p.board e := by
  unfold edgePicture edgeDrawing
  cases e.label <;> rfl

theorem edgePicture?_map_lineOn (p : Pen α) (known : Identity) (drawn : List (Element α))
    (e : Edge α) :
    (p.edgePicture? known drawn e).map (fun x => lineOn x.arrow)
      = if isJoined drawn e then some (drawnLine p.board e) else none := by
  unfold edgePicture? isJoined
  cases containerOf? drawn e.source with
  | none => rfl
  | some source =>
    cases containerOf? drawn e.target with
    | none => rfl
    | some target => simp [lineOn_edgePicture]

/-- The arrows of a drawn board are those of its edges. -/
theorem filter_isArrow_draw (p : Pen α) (known : Identity) (d : Diagram α) :
    (p.draw known d).filter (·.kind = .arrow) = (p.allEdges known d).map (·.arrow) := by
  have hnodes : ∀ n ∈ p.allNodes known d, n.IsSound p.kind p.direction := fun _ hn =>
    p.isSound_of_mem_nodePictures hn
  have hedges : ∀ e ∈ p.allEdges known d, e.IsSound := fun _ he => p.isSound_of_mem_edgePictures he
  have hkind : ((fun e : Element α => decide (e.kind = .arrow))
      ∘ Element.withArrows (p.allArrows known d)) = fun e => decide (e.kind = .arrow) := by
    funext e
    have hskeleton := Element.skeleton_withArrows (p.allArrows known d) e
    exact congrArg (fun k => decide (k = ElementKind.arrow)) (congrArg (·.kind) hskeleton)
  rw [draw_eq, List.filter_map, hkind, filter_isArrow_flatMap hnodes hedges, List.map_map]
  exact List.map_congr_left fun x hx =>
    withArrows_of_edge (hedges x hx) _ _ List.mem_cons_self

/-- The lines of the arrows of a board are those of the edges whose ends are drawn. -/
theorem lines_of_draw (p : Pen α) (known : Identity) (d : Diagram α) :
    ((p.draw known d).filter (·.kind = .arrow)).map lineOn
      = d.edges.filterMap fun e =>
        if isJoined (p.drawNodes known d.nodes) e then some (drawnLine p.board e) else none := by
  rw [filter_isArrow_draw, List.map_map, allEdges, edgePictures, List.map_filterMap]
  exact List.filterMap_congr fun e _ => edgePicture?_map_lineOn p known _ e

/-- What arrows show includes their lines. -/
theorem lineOn_skeleton (elements : List (Element α)) :
    ((elements.map Element.skeleton).filter (·.kind = .arrow)).map lineOn
      = (elements.filter (·.kind = .arrow)).map lineOn := by
  rw [List.filter_map, List.map_map]
  refine List.map_congr_left fun e he => ?_
  have hkind : e.kind = .arrow := of_decide_eq_true (List.mem_filter.1 he).2
  simp [lineOn, Element.skeleton, Element.unstyled, hkind]

/-- If a board that is drawn again shows the same, then the lines of its edges have stayed. -/
theorem lineOf_of_skeleton_draw [OrderedScalar α] (h : IsSameDiagram p q known known' d d')
    (hskeleton : (q.draw known' d').map Element.skeleton
      = (p.draw known d).map Element.skeleton) :
    ∀ e ∈ d.edges, isJoined (p.drawNodes known d.nodes) e = true →
      lineOf q.board e = lineOf p.board e := by
  have hjoined : ∀ e, isJoined (q.drawNodes known' d'.nodes) e
      = isJoined (p.drawNodes known d.nodes) e :=
    isJoined_again (unstyled_drawNodes_again h.pens h.nodes)
  have hlines := lines_of_draw q known' d'
  rw [← lineOn_skeleton, hskeleton, lineOn_skeleton, lines_of_draw p known d, h.edges] at hlines
  simp only [hjoined] at hlines
  have heach := eq_of_filterMap_eq (fun e _ => by split <;> rfl) hlines
  intro e he hje
  have := heach e he
  rw [if_pos hje, if_pos hje] at this
  exact lineOf_of_drawnLine (Option.some.inj this).symm

/-! ## What is drawn -/

/-- What holds of the elements of every node and of every edge, and stays true when arrows are
attached, holds of all elements of a drawn board. -/
theorem forall_mem_draw (p : Pen α) {P : Element α → Prop}
    (hattach : ∀ e arrows, P e → P (e.withArrows arrows)) (known : Identity) (d : Diagram α)
    (hnode : ∀ n ∈ d.nodes, ∀ ids, ∀ e ∈ (p.nodeDrawing n ids).elements, P e)
    (hedge : ∀ e ∈ d.edges, ∀ source target ids,
      ∀ x ∈ (p.edgeDrawing e source target ids).elements, P x) :
    ∀ e ∈ p.draw known d, P e := by
  intro e he
  rw [draw_eq, List.mem_map] at he
  obtain ⟨x, hx, rfl⟩ := he
  refine hattach x _ ?_
  rcases List.mem_append.1 hx with hx | hx
  · obtain ⟨n, hn, hx⟩ := List.mem_flatMap.1 hx
    obtain ⟨m, hm, rfl⟩ := List.mem_map.1 hn
    exact hnode m hm _ x hx
  · obtain ⟨y, hy, hx⟩ := List.mem_flatMap.1 hx
    obtain ⟨f, hf, hpicture⟩ := List.mem_filterMap.1 hy
    obtain ⟨source, target, -, -, rfl⟩ := p.exists_of_edgePicture? hpicture
    exact hedge f hf source target _ x hx

/-- No element of a drawn board is deleted. -/
theorem isLive_of_mem_draw (p : Pen α) (known : Identity) (d : Diagram α) :
    ∀ e ∈ p.draw known d, e.isDeleted = false := by
  refine p.forall_mem_draw (fun e arrows h => ?_) known d (fun n _ ids => ?_)
    (fun e _ source target ids => ?_)
  · exact (congrArg (·.isDeleted) (Element.skeleton_withArrows arrows e)).trans h
  · exact NodePicture.isLive (p.isSound_nodePicture n ids)
  · exact EdgePicture.isLive (p.isSound_edgePicture e source target ids)

/-- Every element of a drawn board has all looks. -/
theorem isDrawn_of_mem_draw (p : Pen α) (known : Identity) (d : Diagram α) :
    ∀ e ∈ p.draw known d, e.IsDrawn :=
  p.forall_mem_draw (fun _ arrows h => h.withArrows arrows) known d
    (fun n _ => isDrawn_of_mem_nodeDrawing p n) (fun e _ => isDrawn_of_mem_edgeDrawing p e)

/-- The nodes of a diagram are those whose containers are drawn. -/
theorem isSome_containerOf?_drawNodes (p : Pen α) (known : Identity) (ns : List (Node α))
    (id : String) :
    (containerOf? (p.drawNodes known ns) id).isSome = ns.any (·.id = id) := by
  have hany : ∀ e : Element α, e.metadata.any (·.nodeId = some id) = true
      ↔ (e.metadata.bind fun m => m.nodeId) = some id := by
    intro e
    cases e.metadata <;> simp
  rw [Bool.eq_iff_iff, containerOf?, List.find?_isSome, List.any_eq_true, drawNodes_eq]
  simp only [Bool.and_eq_true, hany]
  constructor
  · rintro ⟨e, he, hkind, hid⟩
    obtain ⟨x, hx, he⟩ := List.mem_flatMap.1 he
    obtain ⟨n, hn, rfl⟩ := List.mem_map.1 hx
    have hsound := p.isSound_nodePicture n (nodeElements known n)
    have hcontainer : e ∈ [(p.nodePicture n (nodeElements known n)).container] := by
      rw [← NodePicture.filter_isContainer hsound, List.mem_filter]
      exact ⟨he, hkind⟩
    obtain rfl := List.mem_singleton.1 hcontainer
    refine ⟨n, hn, ?_⟩
    rw [hsound.container.nodeId] at hid
    simpa [nodePicture] using hid
  · rintro ⟨n, hn, hid⟩
    have hsound := p.isSound_nodePicture n (nodeElements known n)
    refine ⟨_, List.mem_flatMap.2 ⟨_, List.mem_map_of_mem hn, List.mem_cons_self⟩,
      hsound.container.isContainer, ?_⟩
    rw [hsound.container.nodeId]
    simpa [nodePicture] using hid

theorem isJoined_drawNodes (p : Pen α) (known : Identity) {d : Diagram α}
    (hends : ∀ e ∈ d.edges, e.source ∈ d.nodeIds ∧ e.target ∈ d.nodeIds) :
    ∀ e ∈ d.edges, isJoined (p.drawNodes known d.nodes) e = true := by
  have hdrawn : ∀ id ∈ d.nodeIds, (containerOf? (p.drawNodes known d.nodes) id).isSome = true := by
    intro id hid
    rw [isSome_containerOf?_drawNodes]
    obtain ⟨n, hn, rfl⟩ := List.mem_map.1 hid
    exact List.any_eq_true.2 ⟨n, hn, decide_eq_true rfl⟩
  intro e he
  rw [isJoined, hdrawn _ (hends e he).1, hdrawn _ (hends e he).2, Bool.and_self]

/-- All edges between nodes are drawn. -/
theorem isSome_edgePicture? (p : Pen α) (known : Identity) {d : Diagram α}
    (hends : ∀ e ∈ d.edges, e.source ∈ d.nodeIds ∧ e.target ∈ d.nodeIds) :
    ∀ e ∈ d.edges, (p.edgePicture? known (p.drawNodes known d.nodes) e).isSome = true := by
  intro e he
  have hjoined := p.isJoined_drawNodes known hends e he
  rw [isJoined, Bool.and_eq_true] at hjoined
  obtain ⟨source, hs⟩ := Option.isSome_iff_exists.1 hjoined.1
  obtain ⟨target, ht⟩ := Option.isSome_iff_exists.1 hjoined.2
  simp only [edgePicture?, hs, ht, Option.isSome_some]

end Pen

end DiagramBoard
