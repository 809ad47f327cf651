/-
DiagramBoard.Proofs.Reconcile.Output — what a board consists of after it was brought up to date.

In front stand the elements that nobody manages, each of them as it was.  Behind them stand the
elements of the nodes and then those of the edges, and whoever looks at the board finds all of these
managed again: a container, an arrow and a part say what they show, and a label is a text inside one
of them.

Main statement: a board that was brought up to date consists of the elements that were not managed
and of the pictures of all nodes and edges, all of whose elements are managed (`reconcile_output`).
-/
import DiagramBoard.Proofs.Board.BoardAgain
import DiagramBoard.Proofs.Board.Verbatim
import DiagramBoard.Proofs.Grammar.Described
import DiagramBoard.Proofs.Reconcile.PlacedAgain

namespace DiagramBoard

variable {α : Type}

/-! ## Managed elements -/

namespace Element

variable {e : Element α}

theorem IsContainerOf.carriesIdentity {kind : DiagramKind} {direction : Direction} {id : String}
    (h : e.IsContainerOf kind direction id) : e.carriesIdentity = true := by
  have hid := h.nodeId
  unfold Element.carriesIdentity
  cases hm : e.metadata with
  | none => simp [hm] at hid
  | some m =>
    simp only [hm, Option.bind_some] at hid
    simp [hid]

theorem IsArrowOf.carriesIdentity {id source target : String} (h : e.IsArrowOf id source target) :
    e.carriesIdentity = true := by
  have hid := h.edgeId
  unfold Element.carriesIdentity
  cases hm : e.metadata with
  | none => simp [hm] at hid
  | some m =>
    simp only [hm, Option.bind_some] at hid
    simp [hid]

theorem IsPartOf.carriesIdentity {id : String} (h : e.IsPartOf id) : e.carriesIdentity = true := by
  obtain ⟨t, ht, -⟩ := h.isTagged
  unfold Element.tag? at ht
  unfold Element.carriesIdentity
  cases hm : e.metadata with
  | none => simp [hm] at ht
  | some m =>
    simp only [hm, Option.bind_some] at ht
    simp [ht]

theorem IsLabelIn.isTextIn {holder : String} {ids : List String} (h : e.IsLabelIn holder)
    (hholder : holder ∈ ids) : Board.isTextIn ids e = true := by
  simp [Board.isTextIn, h.kind, h.containerId, hholder]

end Element

namespace Board

/-- Whether an element says what it shows, or is a text inside one that does. -/
def isManaged (elements : List (Element α)) (e : Element α) : Bool :=
  e.carriesIdentity || isTextIn (markedIds elements) e

/-- Where all elements have ids of their own, it is the elements that are managed. -/
theorem contains_managedIds {elements : List (Element α)} (hnodup : (elements.map (·.id)).Nodup)
    {e : Element α} (he : e ∈ elements) :
    (managedIds elements).contains e.id = isManaged elements e := by
  rw [Bool.eq_iff_iff, List.contains_iff_mem, mem_managedIds, isManaged, Bool.or_eq_true]
  constructor
  · rintro ⟨x, hx, hid, h⟩
    rwa [List.inj_on_of_nodup_map hnodup hx he hid] at h
  · exact fun h => ⟨e, he, rfl, h⟩

theorem mem_markedIds {elements : List (Element α)} {e : Element α} (he : e ∈ elements)
    (h : e.carriesIdentity = true) : e.id ∈ markedIds elements :=
  List.mem_map_of_mem (List.mem_filter.2 ⟨he, h⟩)

variable {elements : List (Element α)}

/-- All elements of a node are managed, on whatever board. -/
theorem isManaged_of_nodePicture {kind : DiagramKind} {direction : Direction} {n : NodePicture α}
    (h : n.IsSound kind direction) (hn : n.elements ⊆ elements) :
    ∀ e ∈ n.elements, isManaged elements e = true := by
  intro e he
  rw [isManaged, Bool.or_eq_true]
  rw [NodePicture.elements_eq, List.mem_cons, List.mem_cons] at he
  rcases he with rfl | rfl | he
  · exact .inl h.container.carriesIdentity
  · exact .inr (h.label.isTextIn (mem_markedIds (hn List.mem_cons_self) h.container.carriesIdentity))
  · exact .inl (h.parts e he).carriesIdentity

/-- All elements of an edge are managed, on whatever board. -/
theorem isManaged_of_edgePicture {x : EdgePicture α} (h : x.IsSound) (hx : x.elements ⊆ elements) :
    ∀ e ∈ x.elements, isManaged elements e = true := by
  intro e he
  rw [isManaged, Bool.or_eq_true]
  rw [EdgePicture.elements_eq, List.mem_cons, Option.mem_toList] at he
  rcases he with rfl | he
  · exact .inl h.arrow.carriesIdentity
  · exact .inr ((h.label e he).isTextIn
      (mem_markedIds (hx List.mem_cons_self) h.arrow.carriesIdentity))

end Board

/-! ## The number of elements -/

/-- The number of elements that a node is drawn with. -/
def Node.drawnCount (strategy : Layout.Strategy) (n : Node α) : Nat :=
  if n.sections.isSome then 6 else if strategy = .lanes then 3 else 2

/-- The number of elements that an edge is drawn with. -/
def Edge.drawnCount (e : Edge α) : Nat := if e.label.isSome then 2 else 1

variable [Scalar α]

namespace Pen

theorem length_nodePicture (p : Pen α) {n : Node α} {strategy : Layout.Strategy}
    (h : n.lifelineEnd.isSome = decide (strategy = .lanes)) (ids : NodeElements) :
    (p.nodePicture n ids).elements.length = n.drawnCount strategy := by
  show (p.nodeDrawing n ids).elements.length = _
  unfold nodeDrawing Node.drawnCount
  cases n.sections with
  | some sections => exact p.length_classDrawing n sections ids
  | none =>
    rw [length_plainDrawing]
    cases hend : n.lifelineEnd <;> simp_all

theorem length_edgePicture (p : Pen α) (e : Edge α) (source target : Element α)
    (ids : EdgeElements) : (p.edgePicture e source target ids).elements.length = e.drawnCount := by
  unfold edgePicture edgeDrawing Edge.drawnCount
  cases e.label <;> rfl

end Pen

/-- Redrawing leaves the elements of a node as many as they are. -/
theorem Redrawing.length_node (r : Redrawing α) (n : NodePicture α) :
    (r.node n).elements.length = n.elements.length := by
  rw [r.elements_node, List.length_map]

theorem Redrawing.length_edge (r : Redrawing α) (e : EdgePicture α) :
    (r.edge e).elements.length = e.elements.length := by
  rw [r.elements_edge, List.length_map]

/-! ## What was drawn -/

/-- Whether a picture is that of a node, with the number of elements that the node takes. -/
structure NodePicture.IsOf (d : Diagram α) (t : Node α) (n : NodePicture α) : Prop where
  nodeId : n.nodeId = t.id
  isSound : n.IsSound d.kind d.direction
  length : n.elements.length = t.drawnCount d.kind.strategy

/-- Whether a picture is that of an edge, with the number of elements that the edge takes. -/
structure EdgePicture.IsOf (t : Edge α) (e : EdgePicture α) : Prop where
  edgeId : e.edgeId = t.id
  source : e.source = t.source
  target : e.target = t.target
  isSound : e.IsSound
  length : e.elements.length = t.drawnCount

namespace Diagram

/-- Whether elements show a diagram part by part: first its nodes, then its edges. -/
def IsShownBy (d : Diagram α) (elements : List (Element α)) : Prop :=
  ∃ ns es, elements = ns.flatMap NodePicture.elements ++ es.flatMap EdgePicture.elements
    ∧ List.Forall₂ (NodePicture.IsOf d) d.nodes ns ∧ List.Forall₂ EdgePicture.IsOf d.edges es

omit [Scalar α] in
/-- All elements that show a diagram are managed, whatever else is on the board. -/
theorem IsShownBy.isManaged {d : Diagram α} {elements board : List (Element α)}
    (h : d.IsShownBy elements) (hboard : elements ⊆ board) :
    ∀ e ∈ elements, Board.isManaged board e = true := by
  obtain ⟨ns, es, rfl, hn, he⟩ := h
  intro e hmem
  rcases List.mem_append.1 hmem with hmem | hmem
  · obtain ⟨n, hns, hmem⟩ := List.mem_flatMap.1 hmem
    obtain ⟨t, -, hof⟩ := exists_of_forall₂ hn n hns
    refine Board.isManaged_of_nodePicture hof.isSound (fun x hx => hboard ?_) e hmem
    exact List.mem_append_left _ (List.mem_flatMap.2 ⟨n, hns, hx⟩)
  · obtain ⟨x, hes, hmem⟩ := List.mem_flatMap.1 hmem
    obtain ⟨t, -, hof⟩ := exists_of_forall₂ he x hes
    refine Board.isManaged_of_edgePicture hof.isSound (fun y hy => hboard ?_) e hmem
    exact List.mem_append_right _ (List.mem_flatMap.2 ⟨x, hes, hy⟩)

omit [Scalar α] in
/-- The number of elements that show a diagram is that of its nodes and edges. -/
theorem IsShownBy.length {d : Diagram α} {elements : List (Element α)} (h : d.IsShownBy elements) :
    elements.length = (d.nodes.map (·.drawnCount d.kind.strategy)).sum
      + (d.edges.map (·.drawnCount)).sum := by
  obtain ⟨ns, es, rfl, hn, he⟩ := h
  have hnodes : d.nodes.map (·.drawnCount d.kind.strategy) = ns.map (·.elements.length) := by
    rw [← List.forall₂_eq_eq_eq, List.forall₂_map_left_iff, List.forall₂_map_right_iff]
    exact hn.imp fun _ _ h => h.length.symm
  have hedges : d.edges.map (·.drawnCount) = es.map (·.elements.length) := by
    rw [← List.forall₂_eq_eq_eq, List.forall₂_map_left_iff, List.forall₂_map_right_iff]
    exact he.imp fun _ _ h => h.length.symm
  rw [List.length_append, List.length_flatMap, List.length_flatMap, hnodes, hedges]

/-- Nodes that nobody has placed get a lifeline exactly where participants stand in a row. -/
theorem isSome_lifelineEnd_placeAfter (options : Layout.Options α) (current : Diagram α)
    {target : Diagram α} (htarget : ∀ t ∈ target.nodes, t.lifelineEnd = none) :
    ∀ n ∈ (placeAfter options current target).nodes,
      n.lifelineEnd.isSome = decide (target.kind.strategy = .lanes) := by
  intro n hn
  obtain ⟨t, ht, -, hend, -⟩ := exists_of_mem_placeAfter options current hn
  rw [hend, htarget t ht, Option.isSome_none, Bool.or_false]

/-- In a layout, nodes that had no lifeline get one exactly where participants stand in a row. -/
theorem isSome_lifelineEnd_layout (options : Layout.Options α) {d : Diagram α}
    (hd : ∀ t ∈ d.nodes, t.lifelineEnd = none) :
    ∀ n ∈ (d.layout options).nodes, n.lifelineEnd.isSome = decide (d.kind.strategy = .lanes) := by
  intro n hn
  by_cases hlanes : d.kind.strategy = .lanes
  · simp only [layout, hlanes, Layout.laneLayout] at hn
    obtain ⟨x, -, rfl⟩ := List.mem_map.1 hn
    exact (decide_eq_true hlanes).symm
  · have hplain : (d.layout options).nodes.map Node.unplaced = d.nodes.map Node.unplaced :=
      congrArg (·.nodes) (unplaced_layout hlanes)
    obtain ⟨t, ht, htn⟩ := List.mem_map.1 (hplain ▸ List.mem_map_of_mem hn)
    have hend : t.lifelineEnd = n.lifelineEnd := congrArg (·.lifelineEnd) htn
    rw [← hend, hd t ht, decide_eq_false hlanes]
    rfl

omit [Scalar α] in
/-- Whether a diagram looks as its kind does: only participants have lifelines, and where there are
none no edge has a way of its own. -/
def LooksLike (kind : DiagramKind) (d : Diagram α) : Prop :=
  ((∀ n ∈ d.nodes, n.lifelineEnd = none) ∧ (∀ e ∈ d.edges, e.points = none)
      ∧ (kind.isClassLike = false → ∀ n ∈ d.nodes, n.sections = none))
    ∨ (kind = .sequence ∧ ∀ n ∈ d.nodes, n.sections = none ∧ n.lifelineEnd.isSome = true)

/-- A diagram that a text describes looks as its kind does wherever it is placed. -/
theorem IsDescribed.looksLike {d target : Diagram α} (htarget : target.IsDescribed)
    (hne : target.nodes ≠ []) (hcontent : d.content = target.content)
    (hend : ∀ n ∈ d.nodes, n.lifelineEnd.isSome = decide (target.kind.strategy = .lanes))
    (hedges : target.kind.strategy ≠ .lanes → d.edges = target.edges) :
    d.LooksLike target.kind := by
  have hsections : target.kind.isClassLike = false → ∀ n ∈ d.nodes, n.sections = none := by
    intro hlike n hn
    obtain ⟨t, ht, hsame⟩ := exists_of_forall₂ (forall₂_nodes_of_content hcontent).flip n hn
    exact (congrArg (·.sections) hsame).trans (htarget.sections_eq hlike t ht)
  by_cases hlanes : target.kind.strategy = .lanes
  · have hsequence : target.kind = .sequence := by
      cases hk : target.kind with
      | sequence => rfl
      | gantt => exact absurd (htarget.nodes_nil hk) hne
      | _ => simp [hk, DiagramKind.strategy] at hlanes
    refine .inr ⟨hsequence, fun n hn => ⟨?_, ?_⟩⟩
    · exact hsections (by rw [hsequence]; rfl) n hn
    · rw [hend n hn]
      exact decide_eq_true hlanes
  · refine .inl ⟨fun n hn => ?_, fun e he => ?_, hsections⟩
    · have hsome := hend n hn
      rw [decide_eq_false hlanes] at hsome
      simpa using hsome
    · exact (htarget.edges e (hedges hlanes ▸ he)).points

omit [Scalar α] in
/-- Nodes that say the same take as many elements. -/
theorem drawnCount_of_content {n t : Node α} (h : n.content = t.content)
    (strategy : Layout.Strategy) : n.drawnCount strategy = t.drawnCount strategy := by
  have hsections : n.sections = t.sections := congrArg (·.sections) h
  rw [Node.drawnCount, Node.drawnCount, hsections]

end Diagram

namespace Pen

variable (p : Pen α) (known : Identity)

/-- What a pen draws of a diagram shows another one that says the same, also when its elements are
redrawn. -/
theorem isShownBy_draw (r : Redrawing α) {d target : Diagram α} (hcontent : d.content = target.content)
    (hkind : p.kind = d.kind) (hdirection : p.direction = d.direction)
    (hend : ∀ n ∈ d.nodes, n.lifelineEnd.isSome = decide (d.kind.strategy = .lanes))
    (hends : ∀ e ∈ target.edges, e.source ∈ target.nodeIds ∧ e.target ∈ target.nodeIds) :
    target.IsShownBy ((((p.allNodes known d).flatMap NodePicture.elements
      ++ (p.allEdges known d).flatMap EdgePicture.elements)).map r.redraw) := by
  have hkind' : d.kind = target.kind := congrArg (·.kind) hcontent
  have hdirection' : d.direction = target.direction := congrArg (·.direction) hcontent
  have hnodes := Diagram.forall₂_nodes_of_content hcontent
  have hedges := (Diagram.forall₂_edges_of_content hcontent.symm).imp fun _ _ h => h.symm
  refine ⟨(p.allNodes known d).map r.node, (p.allEdges known d).map r.edge, ?_, ?_, ?_⟩
  · simp only [List.map_append, List.map_flatMap, List.flatMap_map, r.elements_node,
      r.elements_edge]
  · rw [allNodes, nodePictures, List.map_map, List.forall₂_map_right_iff]
    refine List.Forall₂.flip (((List.forall₂_and_left _ _).2 ⟨fun n hn => hn, hnodes⟩).imp ?_)
    rintro n t ⟨hn, hsame⟩
    refine ⟨congrArg (·.id) hsame, ?_, ?_⟩
    · have hsound := p.isSound_nodePicture n (nodeElements known n)
      rw [hkind, hdirection, hkind', hdirection'] at hsound
      exact r.isSound_node hsound
    · rw [Function.comp_apply, r.length_node, p.length_nodePicture (hend n hn),
        Diagram.drawnCount_of_content hsame, hkind']
  · have hjoined := Diagram.ends_of_content hcontent hends
    rw [List.forall₂_map_right_iff, allEdges, edgePictures]
    refine (forall₂_filterMap hedges (p.isSome_edgePicture? known hjoined)).imp ?_
    rintro t x ⟨e, hsame, hx⟩
    obtain ⟨source, target, -, -, rfl⟩ := p.exists_of_edgePicture? hx
    refine ⟨congrArg (·.id) hsame, congrArg (·.source) hsame, congrArg (·.target) hsame,
      r.isSound_edge (p.isSound_edgePicture ..), ?_⟩
    have hlabel : e.label = t.label := congrArg (·.label) hsame
    rw [r.length_edge, p.length_edgePicture, Edge.drawnCount, Edge.drawnCount, hlabel]

end Pen

/-! ## Boards that are brought up to date -/

namespace Board

section Drawing

variable (options : ReconcileOptions α) (elements : List (Element α)) (target : Diagram α)

/-- What is drawn next on a board: the diagram with a place for every node. -/
def placedOn : Diagram α :=
  Diagram.placeAfter options.layout (Board.read (managed elements)).diagram target

/-- The style that is drawn in next. -/
def styleOn : BoardStyle α := options.board.getD (BoardStyle.infer elements)

/-- The pen that draws next. -/
def penOn : Pen α := Pen.forDiagram (styleOn options elements) (placedOn options elements target)

/-- The elements that are drawn next. -/
def drawnOn : List (Element α) :=
  (penOn options elements target).draw (Board.read (managed elements)).identity
    (placedOn options elements target)

/-- The elements that are drawn next, brought up to date with those that are there. -/
def renewedOn : List (Item α) :=
  (drawnOn options elements target).map (refreshed (managedIds elements) (managed elements))

theorem update_eq (items : List (Item α)) : Board.update options target items
    = items.filter (fun i => !(managedIds (items.map (·.element))).contains i.element.id)
      ++ renewedOn options (items.map (·.element)) target := rfl

/-- How drawn elements are attached to arrows and brought up to date. -/
def refreshingOn : Redrawing α where
  redraw e := (refreshed (managedIds elements) (managed elements) (e.withArrows
    ((penOn options elements target).allArrows (Board.read (managed elements)).identity
      (placedOn options elements target)))).element
  skeleton_redraw e :=
    (skeleton_refreshed (managedIds elements) (managed elements) _).trans
      (Element.skeleton_withArrows _ e)

theorem content_placedOn : (placedOn options elements target).content = target.content :=
  Diagram.content_placeAfter ..

variable {target}

/-- What is drawn on a board that is brought up to date shows the diagram. -/
theorem isShownBy_renewedOn (htarget : target.IsDescribed) :
    target.IsShownBy ((renewedOn options elements target).map (·.element)) := by
  have hcontent := content_placedOn options elements target
  have hkind : (placedOn options elements target).kind = target.kind := congrArg (·.kind) hcontent
  have hend : ∀ n ∈ (placedOn options elements target).nodes, n.lifelineEnd.isSome
      = decide ((placedOn options elements target).kind.strategy = .lanes) := by
    rw [hkind]
    exact Diagram.isSome_lifelineEnd_placeAfter options.layout _
      fun t ht => (htarget.nodes t ht).lifelineEnd
  have hshown := (penOn options elements target).isShownBy_draw
    (Board.read (managed elements)).identity (refreshingOn options elements target) hcontent rfl rfl
    hend htarget.ends
  rw [renewedOn, drawnOn, List.map_map, Pen.draw_eq, List.map_map]
  exact hshown

variable {options} {elements}

/-- Where containers and arrows have ids of their own, what is drawn is a picture again. -/
theorem elements_renewedOn (h : ((penOn options elements target).holderIds
    (Board.read (managed elements)).identity (placedOn options elements target)).Nodup) :
    (renewedOn options elements target).map (·.element)
      = (Pen.redrawn (refreshingOn options elements target) (penOn options elements target)
          h).elements := by
  rw [renewedOn, drawnOn, Pen.draw_eq_picture _ h, Pen.redrawn, Redrawing.elements_picture,
    List.map_map, List.map_map]
  rfl

end Drawing

/-- All elements that were drawn are managed on the new board. -/
theorem mem_managedIds_of_renewedOn {options : ReconcileOptions α} {target : Diagram α}
    (htarget : target.IsDescribed) {elements board : List (Element α)}
    (hboard : (renewedOn options elements target).map (·.element) ⊆ board) :
    ∀ i ∈ renewedOn options elements target, i.element.id ∈ managedIds board := by
  intro i hi
  have hmem : i.element ∈ (renewedOn options elements target).map (·.element) :=
    List.mem_map_of_mem hi
  have hmanaged := (isShownBy_renewedOn options elements htarget).isManaged hboard i.element hmem
  rw [isManaged, Bool.or_eq_true] at hmanaged
  exact mem_managedIds.2 ⟨i.element, hboard hmem, rfl, hmanaged⟩

end Board

omit [Scalar α] in
/-- Where items have ids of their own, those whose ids are not managed are not managed. -/
theorem filter_managedIds {items : List (Item α)} (hids : (items.map (·.element.id)).Nodup) :
    items.filter (fun i => !(Board.managedIds (items.map (·.element))).contains i.element.id)
      = items.filter fun i => !Board.isManaged (items.map (·.element)) i.element := by
  have hnodup : ((items.map (·.element)).map (·.id)).Nodup := by
    rwa [List.map_map]
  refine List.filter_congr fun i hi => ?_
  rw [Board.contains_managedIds hnodup (List.mem_map_of_mem hi)]

/-- A board that was brought up to date consists of the elements that were not managed, in their
order, and of what shows the diagram of the text, node by node and edge by edge.  The former are
what they were, and those that were read from JSON are written as that JSON.  All of the latter are
managed elements of the new board. -/
theorem reconcile_output {options : ReconcileOptions Float} {text : String}
    {target : Diagram Float} {items : List (Item Float)} (htext : Diagram.parse text = .ok target)
    (hids : (items.map (·.element.id)).Nodup) :
    ∃ kept drawn, reconcile options text items = .ok (kept ++ drawn)
      ∧ kept = items.filter (fun i => !Board.isManaged (items.map (·.element)) i.element)
      ∧ (∀ i ∈ kept, ∀ v : Json Float, (v == v) = true → Item.ofJson? v = some i → i.encode = v)
      ∧ target.IsShownBy (drawn.map (·.element))
      ∧ ∀ i ∈ drawn, i.element.id ∈ Board.managedIds ((kept ++ drawn).map (·.element)) := by
  have htarget := Diagram.isDescribed_of_parse htext
  refine ⟨_, Board.renewedOn options (items.map (·.element)) target, ?_, rfl,
    fun i _ v hv h => Item.encode_of_ofJson? hv h,
    Board.isShownBy_renewedOn options _ htarget, ?_⟩
  · rw [reconcile, htext, ← filter_managedIds hids]
    rfl
  · refine Board.mem_managedIds_of_renewedOn htarget ?_
    rw [List.map_append]
    exact List.subset_append_right _ _

/-- A note that somebody has put on a board, as JSON. -/
def note : Json Float :=
  .record [("id", .text "note"), ("type", .text "text"), ("x", .int 5),
    ("text", .text "call them"), ("link", .null)]

/-- The note and the box of a node, as JSON. -/
def noteAndBox : Json Float :=
  .list [note, .record [("id", .text "a"), ("type", .text "rectangle"),
    ("customData", .record [("nodeId", .text "A")])]]

/-- The note stays as it is when the board is brought up to date, in front of two classes and an
edge with a label, all of which are managed. -/
theorem reconcile_output_noteAndBox :
    ∃ kept drawn, reconcile .standard "classDiagram\nclass A \x7b\n+x\n\x7d\nA --> B : uses"
        (Item.listOfJson noteAndBox) = .ok (kept ++ drawn)
      ∧ kept.map Item.encode = [note] ∧ drawn.length = 6 + 6 + 2
      ∧ ∀ i ∈ drawn, i.element.id ∈ Board.managedIds ((kept ++ drawn).map (·.element)) := by
  let text := "classDiagram\nclass A \x7b\n+x\n\x7d\nA --> B : uses"
  have hread : (match (Diagram.parse text : Except _ (Diagram Float)) with
      | .ok d => decide ((d.nodes.map (·.drawnCount d.kind.strategy)).sum
        + (d.edges.map (·.drawnCount)).sum = 6 + 6 + 2)
      | .error _ => false) = true := by decide +kernel
  cases htext : (Diagram.parse text : Except _ (Diagram Float)) with
  | error e => simp [htext] at hread
  | ok target =>
    simp only [htext, decide_eq_true_eq] at hread
    have hids : ((Item.listOfJson noteAndBox).map (·.element.id)).Nodup := by decide +kernel
    obtain ⟨kept, drawn, hout, hkept, hjson, hshown, hmanaged⟩ :=
      @reconcile_output .standard _ _ _ htext hids
    obtain ⟨i, hi, hfree⟩ : ∃ i, Item.ofJson? note = some i
        ∧ (Item.listOfJson noteAndBox).filter (fun i =>
          !Board.isManaged ((Item.listOfJson noteAndBox).map (·.element)) i.element) = [i] :=
      ⟨_, rfl, rfl⟩
    obtain rfl : kept = [i] := hkept.trans hfree
    refine ⟨_, drawn, hout, ?_, ?_, hmanaged⟩
    · rw [List.map_singleton, hjson i (List.mem_singleton_self i) note (by decide +kernel) hi]
    · rw [← List.length_map (·.element), hshown.length, hread]

end DiagramBoard
