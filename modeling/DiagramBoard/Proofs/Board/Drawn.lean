/-
DiagramBoard.Proofs.Board.Drawn — drawn boards are pictures.

A pen draws each node and each edge as a picture of its own, and a container only gets to know its
arrows after that.  So a drawn board consists of the elements of a picture, with arrows attached.

Main statements: the elements of a node show it (`isSound_nodePicture`), those of an edge show it
(`isSound_edgePicture`), and a drawn board consists of the elements of such pictures (`draw_eq`).
-/
import DiagramBoard.Proofs.Board.RedrawnPicture

namespace DiagramBoard

variable {α : Type} [Scalar α]

namespace Pen

variable (p : Pen α)

/-! ## Elements -/

/-- What holds of containers and their labels, of lifelines and of the parts of classes holds of all
elements of a node. -/
theorem forall_mem_nodeDrawing {P : Element α → Prop} {n : Node α} {ids : NodeElements}
    (hplain : n.sections = none →
      P (p.plainDrawing n ids).container ∧ P (p.plainDrawing n ids).label)
    (hlifeline : n.sections = none → ∀ id box bottom, P (p.lifeline id n box bottom))
    (hclass : ∀ sections, n.sections = some sections →
      P (p.classDrawing n sections ids).container ∧ P (p.classDrawing n sections ids).label)
    (hseparator : n.sections.isSome = true →
      ∀ groups ordinal x y width, P (p.separator n groups ordinal x y width))
    (hlines : n.sections.isSome = true → ∀ tag ∈ [Tag.classAttributes, .classMethods],
      ∀ groups s x y, P (p.memberLines n groups tag s x y)) :
    ∀ e ∈ (p.nodeDrawing n ids).elements, P e := by
  intro e he
  unfold nodeDrawing at he
  cases hsections : n.sections with
  | none =>
    rw [hsections] at he
    simp only [NodeDrawing.elements, List.mem_cons] at he
    rcases he with rfl | rfl | he
    · exact (hplain hsections).1
    · exact (hplain hsections).2
    · obtain ⟨bottom, -, rfl⟩ := Option.map_eq_some_iff.1 (Option.mem_toList.1 he)
      exact hlifeline hsections ..
  | some sections =>
    have hsome : n.sections.isSome = true := by rw [hsections]; rfl
    rw [hsections] at he
    simp only [NodeDrawing.elements, List.mem_cons] at he
    rcases he with rfl | rfl | he
    · exact (hclass sections hsections).1
    · exact (hclass sections hsections).2
    · simp only [classDrawing, List.mem_cons, List.not_mem_nil, or_false] at he
      rcases he with rfl | rfl | rfl | rfl
      · exact hseparator hsome ..
      · exact hlines hsome _ List.mem_cons_self ..
      · exact hseparator hsome ..
      · exact hlines hsome _ (List.mem_cons_of_mem _ List.mem_cons_self) ..

/-- What holds of arrows, whatever they list, and of their labels holds of all elements of an edge. -/
theorem forall_mem_edgeDrawing {P : Element α → Prop} {e : Edge α} {source target : Element α}
    {ids : EdgeElements}
    (harrow : ∀ bound, P { p.arrow e (wayOf e source target) ids.arrow with boundElements := bound })
    (hlabel : ∀ label ∈ e.label, ∀ id,
      P (p.arrowLabel e label (wayOf e source target) id ids.arrow)) :
    ∀ x ∈ (p.edgeDrawing e source target ids).elements, P x := by
  intro x hx
  unfold edgeDrawing at hx
  cases htext : e.label with
  | none =>
    rw [htext] at hx
    obtain rfl := List.mem_singleton.1 hx
    exact harrow none
  | some label =>
    rw [htext] at hx
    simp only [EdgeDrawing.elements, Option.toList_some, List.mem_cons, List.not_mem_nil,
      or_false] at hx
    rcases hx with rfl | rfl
    · exact harrow _
    · exact hlabel label htext _

/-! ## Nodes -/

/-- The picture of a node. -/
def nodePicture (n : Node α) (ids : NodeElements) : NodePicture α :=
  { p.nodeDrawing n ids with nodeId := n.id }

/-- The id of the label of a node. -/
def labelId (n : Node α) (ids : NodeElements) : String :=
  ids.text.getD (Board.derivedId "text" n.id)

/-- The id of the lifeline of a node. -/
def lifelineId (n : Node α) (ids : NodeElements) : String :=
  ids.lifeline.getD (Board.derivedId "lifeline" n.id)

omit [Scalar α] in
theorem isContainer_elementKind (s : Shape) : s.elementKind.isContainer = true := by
  cases s <;> rfl

theorem isPartOf_lifeline (id : String) (n : Node α) (box : Box α) (lowest : α) :
    (p.lifeline id n box lowest).IsPartOf n.id where
  isLive := rfl
  isNoContainer := rfl
  isNoArrow := by simp [lifeline, styled, Element.bare, Element.placeAt]
  containerId := rfl
  ownerId o ho := by simp [lifeline, Metadata.tagged] at ho
  participantId q hq := by simpa [lifeline, Metadata.tagged] using hq.symm
  isTagged := ⟨.lifeline, rfl, by decide⟩

theorem isPartOf_separator (n : Node α) (groups : List String) (ordinal : String) (x y width : α) :
    (p.separator n groups ordinal x y width).IsPartOf n.id where
  isLive := rfl
  isNoContainer := rfl
  isNoArrow := by simp [separator, segment, styled, Element.bare, Element.placeAt]
  containerId := rfl
  ownerId o ho := by simpa [separator, segment, Element.placeAt] using ho.symm
  participantId q hq := by simp [separator, segment, Element.placeAt, Metadata.tagged] at hq
  isTagged := ⟨.classSeparator, rfl, by decide⟩

theorem isPartOf_memberLines (n : Node α) (groups : List String) {tag : Tag}
    (htag : tag ≠ .sequenceMessage) (s : Section α) (x y : α) :
    (p.memberLines n groups tag s x y).IsPartOf n.id where
  isLive := rfl
  isNoContainer := rfl
  isNoArrow := by simp [memberLines, segment, styled, Element.bare, Element.placeAt, written]
  containerId := rfl
  ownerId o ho := by simpa [memberLines, segment, Element.placeAt, written] using ho.symm
  participantId q hq := by
    simp [memberLines, segment, Element.placeAt, written, Metadata.tagged] at hq
  isTagged := ⟨tag, Tag.ofName?_name tag, htag⟩

/-- The elements of a node show it. -/
theorem isSound_nodePicture (n : Node α) (ids : NodeElements) :
    (p.nodePicture n ids).IsSound p.kind p.direction := by
  unfold nodePicture nodeDrawing
  cases n.sections with
  | none =>
    refine ⟨⟨rfl, isContainer_elementKind n.shape, rfl, rfl, rfl, rfl, ?_, ?_⟩,
      ⟨rfl, rfl, rfl, rfl⟩, ?_⟩
    · exact fun h => nomatch h
    · exact fun h => nomatch h
    · intro e he
      obtain ⟨bottom, -, rfl⟩ := Option.map_eq_some_iff.1 (Option.mem_toList.1 he)
      exact isPartOf_lifeline p ..
  | some sections =>
    refine ⟨⟨rfl, rfl, rfl, rfl, rfl, rfl, ?_, ?_⟩, ⟨rfl, rfl, rfl, rfl⟩, ?_⟩
    · exact fun h => nomatch h
    · exact fun h => nomatch h
    · intro e he
      simp only [classDrawing, List.mem_cons, List.not_mem_nil, or_false] at he
      rcases he with rfl | rfl | rfl | rfl
      · exact isPartOf_separator p ..
      · exact isPartOf_memberLines p _ _ (by decide) ..
      · exact isPartOf_separator p ..
      · exact isPartOf_memberLines p _ _ (by decide) ..

@[simp] theorem id_container_nodePicture (n : Node α) (ids : NodeElements) :
    (p.nodePicture n ids).container.id = ids.container := by
  unfold nodePicture nodeDrawing
  cases n.sections <;> rfl

@[simp] theorem id_label_nodePicture (n : Node α) (ids : NodeElements) :
    (p.nodePicture n ids).label.id = labelId n ids := by
  unfold nodePicture nodeDrawing
  cases n.sections <;> rfl

/-! ## Edges -/

/-- The picture of an edge between two containers. -/
def edgePicture (e : Edge α) (source target : Element α) (ids : EdgeElements) : EdgePicture α :=
  { p.edgeDrawing e source target ids with edgeId := e.id, source := e.source, target := e.target }

theorem isArrowOf_arrow (e : Edge α) (way : Way α) (id : String) :
    (p.arrow e way id).IsArrowOf e.id e.source e.target where
  isLive := rfl
  kind := rfl
  edgeId := rfl
  source := rfl
  target := rfl
  ownerId := rfl
  isNoLifeline := by
    unfold Element.tag? arrow
    cases way.bindings with
    | none => exact fun h => nomatch h
    | some b => exact fun h => nomatch h

/-- The elements of an edge show it. -/
theorem isSound_edgePicture (e : Edge α) (source target : Element α) (ids : EdgeElements) :
    (p.edgePicture e source target ids).IsSound := by
  have harrow := isArrowOf_arrow p e (wayOf e source target) ids.arrow
  unfold edgePicture edgeDrawing
  cases e.label with
  | none => exact ⟨harrow, by simp⟩
  | some text =>
    refine ⟨⟨rfl, rfl, rfl, rfl, rfl, rfl, harrow.isNoLifeline⟩, ?_⟩
    intro l hl
    obtain rfl := Option.some.inj hl
    exact ⟨rfl, rfl, rfl, rfl⟩

@[simp] theorem id_arrow_edgePicture (e : Edge α) (source target : Element α)
    (ids : EdgeElements) : (p.edgePicture e source target ids).arrow.id = ids.arrow := by
  unfold edgePicture edgeDrawing
  cases e.label <;> rfl

/-! ## Boards -/

/-- The elements of a node on a board, where it may be known already. -/
def nodeElements (known : Identity) (n : Node α) : NodeElements :=
  Node.elementIds n.id (known.node? n.id)

/-- The elements of an edge on a board, where it may be known already. -/
def edgeElements (known : Identity) (e : Edge α) : EdgeElements :=
  Edge.elementIds e.id (known.edge? e.id)

/-- The pictures of some nodes. -/
def nodePictures (known : Identity) (nodes : List (Node α)) : List (NodePicture α) :=
  nodes.map fun n => p.nodePicture n (nodeElements known n)

/-- The picture of an edge between drawn nodes, if both its ends are drawn. -/
def edgePicture? (known : Identity) (drawn : List (Element α)) (e : Edge α) :
    Option (EdgePicture α) :=
  match Board.containerOf? drawn e.source, Board.containerOf? drawn e.target with
  | some source, some target => some (p.edgePicture e source target (edgeElements known e))
  | _, _ => none

/-- The pictures of some edges between drawn nodes. -/
def edgePictures (known : Identity) (drawn : List (Element α)) (edges : List (Edge α)) :
    List (EdgePicture α) :=
  edges.filterMap (p.edgePicture? known drawn)

theorem drawNodes_eq (known : Identity) (nodes : List (Node α)) :
    p.drawNodes known nodes = (p.nodePictures known nodes).flatMap NodePicture.elements := by
  rw [nodePictures, List.flatMap_map]
  rfl

theorem drawEdges_eq (known : Identity) (drawn : List (Element α)) (edges : List (Edge α)) :
    p.drawEdges known drawn edges
      = (p.edgePictures known drawn edges).flatMap EdgePicture.elements := by
  induction edges with
  | nil => rfl
  | cons e edges ih =>
    simp only [drawEdges, edgePictures] at ih
    simp only [drawEdges, edgePictures, List.flatMap_cons, List.filterMap_cons, ih, edgePicture?]
    cases Board.containerOf? drawn e.source with
    | none => rfl
    | some source =>
      cases Board.containerOf? drawn e.target with
      | none => rfl
      | some target => rfl

omit [Scalar α] in
theorem withArrows_of_edge {e : EdgePicture α} (h : e.IsSound) (arrows : List (Element α)) :
    ∀ x ∈ e.elements, x.withArrows arrows = x := by
  intro x hx
  have hnone : x.kind.isContainer = false := by
    have hmem := List.filter_eq_nil_iff.1 (EdgePicture.filter_isContainer h) x hx
    simpa using hmem
  rw [Element.withArrows, if_neg (by simp [hnone])]

theorem isSound_of_mem_nodePictures {known : Identity} {nodes : List (Node α)}
    {n : NodePicture α} (h : n ∈ p.nodePictures known nodes) : n.IsSound p.kind p.direction := by
  obtain ⟨m, -, rfl⟩ := List.mem_map.1 h
  exact p.isSound_nodePicture m _

theorem exists_of_edgePicture? {known : Identity} {drawn : List (Element α)} {e : Edge α}
    {x : EdgePicture α} (h : p.edgePicture? known drawn e = some x) :
    ∃ source target, Board.containerOf? drawn e.source = some source
      ∧ Board.containerOf? drawn e.target = some target
      ∧ x = p.edgePicture e source target (edgeElements known e) := by
  unfold edgePicture? at h
  split at h
  · next source target hs ht => exact ⟨source, target, hs, ht, (Option.some.inj h).symm⟩
  · exact nomatch h

theorem isSound_of_mem_edgePictures {known : Identity} {drawn : List (Element α)}
    {edges : List (Edge α)} {x : EdgePicture α} (h : x ∈ p.edgePictures known drawn edges) :
    x.IsSound := by
  obtain ⟨e, -, he⟩ := List.mem_filterMap.1 h
  obtain ⟨source, target, -, -, rfl⟩ := p.exists_of_edgePicture? he
  exact p.isSound_edgePicture e source target _

variable (known : Identity) (d : Diagram α)

/-- The pictures of all nodes of a diagram. -/
def allNodes : List (NodePicture α) := p.nodePictures known d.nodes

/-- The pictures of all edges of a diagram. -/
def allEdges : List (EdgePicture α) :=
  p.edgePictures known (p.drawNodes known d.nodes) d.edges

/-- All arrows of a diagram and their labels. -/
def allArrows : List (Element α) := (p.allEdges known d).flatMap EdgePicture.elements

/-- A drawn board consists of the pictures of its nodes and edges, with the arrows attached. -/
theorem draw_eq :
    p.draw known d = ((p.allNodes known d).flatMap NodePicture.elements
      ++ (p.allEdges known d).flatMap EdgePicture.elements).map
        (Element.withArrows (p.allArrows known d)) := by
  have hedges : ((p.allEdges known d).flatMap EdgePicture.elements).map
      (Element.withArrows (p.allArrows known d))
      = (p.allEdges known d).flatMap EdgePicture.elements := by
    rw [List.map_flatMap]
    refine List.flatMap_congr fun e he => ?_
    have hsound := p.isSound_of_mem_edgePictures he
    exact (List.map_congr_left (withArrows_of_edge hsound _)).trans (List.map_id' _)
  rw [List.map_append, hedges, draw, drawEdges_eq, drawNodes_eq]
  simp only [Board.attachArrows, allArrows, allEdges, allNodes, drawNodes_eq]

variable {d} in
/-- The elements of every node are drawn, with the arrows attached. -/
theorem mem_draw_of_node {n : Node α} (hn : n ∈ d.nodes) {e : Element α}
    (he : e ∈ (p.nodePicture n (nodeElements known n)).elements) :
    e.withArrows (p.allArrows known d) ∈ p.draw known d := by
  rw [draw_eq]
  exact List.mem_map_of_mem (List.mem_append_left _ (List.mem_flatMap.2
    ⟨p.nodePicture n (nodeElements known n), List.mem_map_of_mem hn, he⟩))

variable {d} in
/-- The elements of every edge between nodes are drawn as they are. -/
theorem mem_draw_of_edge {x : EdgePicture α} (hx : x ∈ p.allEdges known d) {e : Element α}
    (he : e ∈ x.elements) : e ∈ p.draw known d := by
  rw [draw_eq, ← withArrows_of_edge (p.isSound_of_mem_edgePictures hx) (p.allArrows known d) e he]
  exact List.mem_map_of_mem (List.mem_append_right _ (List.mem_flatMap.2 ⟨x, hx, he⟩))

variable {d} in
/-- The container of every node is drawn. -/
theorem container_mem_draw {n : Node α} (hn : n ∈ d.nodes) :
    (p.nodePicture n (nodeElements known n)).container.withArrows (p.allArrows known d)
      ∈ p.draw known d :=
  p.mem_draw_of_node known hn List.mem_cons_self

/-- The ids of the containers and arrows of a diagram. -/
def holderIds : List String :=
  (p.allNodes known d).map (·.container.id) ++ (p.allEdges known d).map (·.arrow.id)

theorem map_containerId : (p.allNodes known d).map (·.container.id)
    = ((p.allNodes known d).map (·.nodeId)).map
      fun id => (Node.elementIds id (known.node? id)).container := by
  rw [allNodes, nodePictures, List.map_map, List.map_map, List.map_map]
  exact List.map_congr_left fun n _ => p.id_container_nodePicture n _

theorem map_arrowId : (p.allEdges known d).map (·.arrow.id)
    = ((p.allEdges known d).map (·.edgeId)).map
      fun id => (Edge.elementIds id (known.edge? id)).arrow := by
  rw [List.map_map]
  refine List.map_congr_left fun x hx => ?_
  obtain ⟨e, -, he⟩ := List.mem_filterMap.1 hx
  obtain ⟨source, target, -, -, rfl⟩ := p.exists_of_edgePicture? he
  exact p.id_arrow_edgePicture e source target _

variable {known d}

/-- The picture of a diagram whose containers and arrows get different ids. -/
def picture (h : (p.holderIds known d).Nodup) : Picture α where
  kind := p.kind
  direction := p.direction
  nodes := p.allNodes known d
  edges := p.allEdges known d
  soundNodes n hn := p.isSound_of_mem_nodePictures hn
  soundEdges e he := p.isSound_of_mem_edgePictures he
  nodup_nodeIds := by
    have := (List.nodup_append.1 h).1
    rw [map_containerId] at this
    exact this.of_map _
  nodup_edgeIds := by
    have := (List.nodup_append.1 h).2.1
    rw [map_arrowId] at this
    exact this.of_map _
  nodup_holders := h

theorem draw_eq_picture (h : (p.holderIds known d).Nodup) :
    p.draw known d = (p.picture h).elements.map (Element.withArrows (p.allArrows known d)) :=
  p.draw_eq known d

/-- The ids of containers and arrows are among those of all elements. -/
theorem holderIds_sublist : (p.holderIds known d).Sublist ((p.draw known d).map (·.id)) := by
  have hids : (p.draw known d).map (·.id)
      = (p.allNodes known d).flatMap (fun n => n.elements.map (·.id))
        ++ (p.allEdges known d).flatMap (fun e => e.elements.map (·.id)) := by
    rw [draw_eq, List.map_map, List.map_append, List.map_flatMap, List.map_flatMap]
    simp only [Function.comp_def, Element.withArrows_id]
  rw [hids, holderIds, List.map_eq_flatMap, List.map_eq_flatMap]
  refine List.Sublist.append ?_ ?_
  · exact List.Sublist.flatMap_right _ fun n _ => List.singleton_sublist.2 List.mem_cons_self
  · exact List.Sublist.flatMap_right _ fun e _ => List.singleton_sublist.2 List.mem_cons_self

end Pen

end DiagramBoard
