/-
DiagramBoard.Proofs.Board.ShownParts — what is read off the elements of one node or edge.

A pen spreads a node over several elements: its id and its shape go into the metadata of the
container, its label into a text, its members into further texts.  Reading collects all of it again.
Redrawing the elements in between makes no difference, looks apart.

Main statements: a drawn node (`shown_nodePicture`) and a drawn edge (`shown_edgePicture`) are read
as what they were, with their labels and members as they come back from a board.
-/
import DiagramBoard.Proofs.Board.ReadAgain
import DiagramBoard.Proofs.Diagram.Member

namespace DiagramBoard

open Board

variable {α : Type}

/-! ## Texts -/

/-- A label as it comes back from a board. -/
def Text.Label.viaCanvas (label : String) : String :=
  String.ofList (ofCanvas (toCanvas label.toList))

/-- The label that a node is read with: its id if nothing comes back. -/
def Node.shownLabel (n : Node α) : String :=
  if Text.Label.viaCanvas n.label = "" then n.id else Text.Label.viaCanvas n.label

/-- The label that an edge is read with: none if nothing comes back. -/
def Edge.shownLabel? (e : Edge α) : Option String :=
  (e.label.map Text.Label.viaCanvas).filter (· ≠ "")

/-- Members as they come back from a board. -/
def Sections.viaCanvas (s : Sections) : Sections :=
  { attributes := Member.parseLines (Pen.orBlank (Pen.memberText s.attributes)).toList
    methods := Member.parseLines (Pen.orBlank (Pen.memberText s.methods)).toList }

/-! ## Members -/

/-- Whether a member comes back from its one-line form, which is one line. -/
structure Member.IsStable (m : Member) : Prop where
  parse? : (Member.parse? m.shown).map (·.1) = some m
  lineFeed_notMem : '\n' ∉ m.shown

/-- A blank line is no member. -/
theorem Member.parse?_of_trim {line : List Char} (h : Text.trim line = []) :
    Member.parse? line = none := by
  rw [Member.parse?_eq_none_iff, h]
  exact fun c hc => nomatch hc

/-- Members that come back from their one-line forms come back from a board. -/
theorem Member.parseLines_memberText {ms : List Member} (h : ∀ m ∈ ms, m.IsStable) :
    Member.parseLines (Pen.orBlank (Pen.memberText ms)).toList = ms := by
  have hjoin := Member.parseLines_join_shown fun m hm => ⟨(h m hm).parse?, (h m hm).lineFeed_notMem⟩
  rw [Pen.orBlank]
  split
  · next hempty =>
    rw [Pen.memberText, String.ofList_eq_empty_iff] at hempty
    rw [hempty] at hjoin
    obtain rfl : ms = [] := hjoin.symm
    show (Text.lines [' ']).filterMap (fun line => (Member.parse? line).map (·.1)) = []
    rw [Text.lines_singleton (by decide) (by decide), List.filterMap_cons_none, List.filterMap_nil]
    rw [Member.parse?_of_trim (by decide), Option.map_none]
  · rw [Pen.memberText, String.toList_ofList]
    exact hjoin

theorem Sections.viaCanvas_eq_self {s : Sections} (h : ∀ m ∈ s.members, m.IsStable) :
    s.viaCanvas = s := by
  have hattributes := Member.parseLines_memberText fun m hm => h m (List.mem_append_left _ hm)
  have hmethods := Member.parseLines_memberText fun m hm => h m (List.mem_append_right _ hm)
  rw [Sections.viaCanvas, hattributes, hmethods]

/-! ## Labels -/

/-- An element with one text has it as its content. -/
theorem Element.textContent_eq {e : Element α} {text : String} (h : e.text = some text)
    (horiginal : e.originalText = some text) : e.textContent = text := by
  rw [textContent, h, horiginal]
  by_cases hempty : text = "" <;> simp [hempty]

theorem labelText?_eq {e : Element α} {label : String}
    (h : e.text = some (String.ofList (Text.Label.toCanvas label.toList)))
    (horiginal : e.originalText = some (String.ofList (Text.Label.toCanvas label.toList))) :
    labelText? (some e) = (some (Text.Label.viaCanvas label)).filter (· ≠ "") := by
  rw [labelText?, Option.map_some, Element.textContent_eq h horiginal, String.toList_ofList]
  rfl

/-! ## Hints -/

/-- What unusual hints choose is told from the usual way again. -/
theorem unusual_choose {β : Type} [BEq β] {usual : β} {hints : Option (StyleHints α)}
    {hint : StyleHints α → Option β} (hself : (usual == usual) = true)
    (h : ∀ s ∈ hints, ∀ v ∈ hint s, (v == usual) = false) (hnone : hint {} = none) :
    unusual usual (some (Pen.choose hints hint usual)) = hint (hints.getD {}) := by
  cases hints with
  | none => simp [unusual, Pen.choose, Option.filter, hself, hnone]
  | some s =>
    cases hv : hint s with
    | none => simp [unusual, Pen.choose, Option.filter, hself, hv]
    | some v => simp [unusual, Pen.choose, Option.filter, hv, h s rfl v hv]

variable [Scalar α]

/-! ## Redrawn elements -/

namespace Redrawing

variable (r : Redrawing α)

theorem tag?_redraw (e : Element α) : (r.redraw e).tag? = e.tag? :=
  Element.tag?_of_skeleton (r.skeleton_redraw e)

theorem text_redraw (e : Element α) : (r.redraw e).text = e.text :=
  congrArg (·.text) (r.skeleton_redraw e)

theorem originalText_redraw (e : Element α) : (r.redraw e).originalText = e.originalText :=
  congrArg (·.originalText) (r.skeleton_redraw e)

theorem textContent_redraw (e : Element α) : (r.redraw e).textContent = e.textContent := by
  rw [Element.textContent, Element.textContent, r.text_redraw, r.originalText_redraw]

theorem isOwnedBy_redraw (owner : String) (e : Element α) :
    isOwnedBy owner (r.redraw e) = isOwnedBy owner e := by
  rw [Bool.eq_iff_iff, Element.isOwnedBy_iff, Element.isOwnedBy_iff,
    Element.bind_metadata_of_skeleton (r.skeleton_redraw e) fun _ => rfl,
    Element.bind_metadata_of_skeleton (r.skeleton_redraw e) fun _ => rfl]

/-- The segments of a class are the same when they are redrawn. -/
theorem segmentsOf?_redraw (elements : List (Element α)) (owner : String) :
    segmentsOf? (elements.map r.redraw) owner = segmentsOf? elements owner := by
  have hlast : ∀ (tag : Tag) (es : List (Element α)),
      lastText? tag (es.map r.redraw) = lastText? tag es := by
    intro tag es
    simp only [lastText?, List.filter_map, List.getLast?_map, Option.map_map, Function.comp_def,
      r.tag?_redraw, r.textContent_redraw]
  have hsegment : ∀ e, isSegment (r.redraw e) = isSegment e := by
    intro e
    rw [isSegment, isSegment, r.tag?_redraw]
  have howned : (elements.map r.redraw).filter (isOwnedBy owner)
      = (elements.filter (isOwnedBy owner)).map r.redraw := by
    rw [List.filter_map]
    simp only [Function.comp_def, r.isOwnedBy_redraw]
  unfold segmentsOf?
  rw [howned]
  cases elements.filter (isOwnedBy owner) with
  | nil => rfl
  | cons e es =>
    have hids : ((((e :: es).map r.redraw).filter isSegment).map (·.id))
        = ((e :: es).filter isSegment).map (·.id) := by
      rw [List.filter_map, List.map_map]
      simp only [Function.comp_def, hsegment, r.redraw_id]
    show some _ = some _
    rw [hlast, hlast, hids]

theorem shownShape_redraw {e : Element α} {shape : Shape}
    (h : (e.metadata.bind fun m => m.shape.bind Shape.ofName?) = some shape) :
    (r.redraw e).shownShape = shape := by
  have hmeta := Element.bind_metadata_of_skeleton (r.skeleton_redraw e)
    (f := fun m => m.shape.bind Shape.ofName?) fun _ => rfl
  rw [Element.shownShape, hmeta, h]

end Redrawing

/-! ## Nodes -/

namespace Pen

variable (r : Redrawing α) (p : Pen α)

theorem shape_container (n : Node α) (ids : NodeElements) :
    ((p.nodePicture n ids).container.metadata.bind fun m => m.shape.bind Shape.ofName?)
      = some n.shape := by
  unfold nodePicture nodeDrawing
  cases n.sections <;> exact Shape.ofName?_name n.shape

theorem text_label (n : Node α) (ids : NodeElements) :
    (p.nodePicture n ids).label.text = some (String.ofList (Text.Label.toCanvas n.label.toList))
      ∧ (p.nodePicture n ids).label.originalText
        = some (String.ofList (Text.Label.toCanvas n.label.toList)) := by
  unfold nodePicture nodeDrawing
  cases n.sections <;> exact ⟨rfl, rfl⟩

/-- A container lists the group of its node; that of a class lists its own group too. -/
theorem groupIds_container (n : Node α) (ids : NodeElements) :
    (p.nodePicture n ids).container.groupIds = n.group.toList
      ∨ (p.nodePicture n ids).container.groupIds
          = n.group.toList ++ [(p.nodePicture n ids).container.id]
        ∧ n.sections.isSome = true := by
  unfold nodePicture nodeDrawing
  cases n.sections with
  | none => exact .inl rfl
  | some sections => exact .inr ⟨rfl, rfl⟩

/-- A node without members owns no elements. -/
theorem segmentsOf?_plain {n : Node α} (h : n.sections = none) (ids : NodeElements) :
    segmentsOf? (p.nodePicture n ids).parts n.id = none := by
  have hparts : (p.nodePicture n ids).parts.filter (isOwnedBy n.id) = [] := by
    unfold nodePicture nodeDrawing
    rw [h, List.filter_eq_nil_iff]
    intro e he
    obtain ⟨bottom, -, rfl⟩ := Option.map_eq_some_iff.1 (Option.mem_toList.1 he)
    simp [isOwnedBy, lifeline, Metadata.tagged]
  rw [segmentsOf?, hparts]

omit [Scalar α] in
/-- The texts among the four parts of a class. -/
theorem segmentsOf?_parts {owner : String} {first attributes second methods : Element α}
    (howned : ∀ e ∈ [first, attributes, second, methods], isOwnedBy owner e = true)
    (hfirst : first.tag? = some .classSeparator) (hattributes : attributes.tag? = some .classAttributes)
    (hsecond : second.tag? = some .classSeparator) (hmethods : methods.tag? = some .classMethods) :
    segmentsOf? [first, attributes, second, methods] owner = some
      { attributes := some attributes.textContent
        methods := some methods.textContent
        ids := [first.id, attributes.id, second.id, methods.id] } := by
  rw [segmentsOf?, List.filter_eq_self.2 howned]
  simp [lastText?, isSegment, hfirst, hattributes, hsecond, hmethods]

/-- The texts of a class are those of its members. -/
theorem segmentsOf?_class {n : Node α} {sections : Sections} (h : n.sections = some sections)
    (ids : NodeElements) : ∃ segmentIds, segmentsOf? (p.nodePicture n ids).parts n.id = some
      { attributes := some (orBlank (memberText sections.attributes))
        methods := some (orBlank (memberText sections.methods))
        ids := segmentIds } := by
  have hseparator : ∀ groups ordinal x y width,
      isOwnedBy n.id (p.separator n groups ordinal x y width) = true := by
    intro groups ordinal x y width
    simp [isOwnedBy, separator, segment, Element.placeAt, Metadata.tagged]
  have hlines : ∀ groups tag s x y, isOwnedBy n.id (p.memberLines n groups tag s x y) = true := by
    intro groups tag s x y
    simp [isOwnedBy, memberLines, segment, written, Element.placeAt, Metadata.tagged]
  have htag : ∀ groups tag s x y, (p.memberLines n groups tag s x y).tag? = some tag :=
    fun _ tag _ _ _ => Tag.ofName?_name tag
  have htext : ∀ groups tag s x y, (p.memberLines n groups tag s x y).textContent = s.text :=
    fun _ _ _ _ _ => Element.textContent_eq rfl rfl
  unfold nodePicture nodeDrawing
  rw [h]
  simp only [classDrawing]
  rw [segmentsOf?_parts ?_ rfl (htag ..) rfl (htag ..), htext, htext]
  · exact ⟨_, rfl⟩
  · intro e he
    simp only [List.mem_cons, List.not_mem_nil, or_false] at he
    rcases he with rfl | rfl | rfl | rfl
    · exact hseparator ..
    · exact hlines ..
    · exact hseparator ..
    · exact hlines ..

theorem sections_shown (n : Node α) (ids : NodeElements) :
    (r.node (p.nodePicture n ids)).shown.sections = n.sections.map Sections.viaCanvas := by
  have hsegments : (r.node (p.nodePicture n ids)).shown.segments
      = segmentsOf? (p.nodePicture n ids).parts n.id := r.segmentsOf?_redraw _ _
  unfold Container.sections
  rw [hsegments]
  cases hsections : n.sections with
  | some sections =>
    obtain ⟨segmentIds, h⟩ := p.segmentsOf?_class hsections ids
    rw [h]
    rfl
  | none =>
    have htag : (r.node (p.nodePicture n ids)).shown.element.tag? ≠ some .classContainer := by
      have : (p.nodePicture n ids).container.tag? = none := by
        unfold nodePicture nodeDrawing
        rw [hsections]
        rfl
      show (r.redraw _).tag? ≠ _
      rw [r.tag?_redraw, this]
      simp
    rw [p.segmentsOf?_plain hsections]
    exact if_neg htag

/-- A drawn node is read as what it was. -/
theorem shown_nodePicture (n : Node α) (ids : NodeElements) :
    (r.node (p.nodePicture n ids)).shown.node =
      { id := n.id
        label := n.shownLabel
        shape := n.shape
        box := some (p.nodePicture n ids).container.box
        style := (r.node (p.nodePicture n ids)).shown.hints.nonEmpty?
        sections := n.sections.map Sections.viaCanvas } := by
  have hlabel : (labelText? (some (r.redraw (p.nodePicture n ids).label))).getD n.id
      = n.shownLabel := by
    obtain ⟨htext, horiginal⟩ := p.text_label n ids
    rw [labelText?_eq ((r.text_redraw _).trans htext) ((r.originalText_redraw _).trans horiginal),
      Node.shownLabel]
    by_cases hempty : Text.Label.viaCanvas n.label = "" <;> simp [hempty, Option.filter]
  have hshape := r.shownShape_redraw (p.shape_container n ids)
  have hbox : (r.redraw (p.nodePicture n ids).container).box
      = (p.nodePicture n ids).container.box := congrArg (·.box) (r.skeleton_redraw _)
  simp only [Container.node, p.sections_shown r, Node.mk.injEq, and_true, true_and]
  exact ⟨rfl, hlabel, hshape, congrArg some hbox⟩

/-! ## Edges -/

/-- A drawn edge is read as what it was. -/
theorem shown_edgePicture (e : Edge α) (source target : Element α) (ids : EdgeElements) :
    (r.edge (p.edgePicture e source target ids)).shown.edge =
      { id := e.id
        source := e.source
        target := e.target
        label := e.shownLabel?
        startHead := e.startHead
        endHead := e.endHead
        style := (r.redraw (p.edgePicture e source target ids).arrow).shownHints.nonEmpty? } := by
  have harrow := (r.isSound_edge (p.isSound_edgePicture e source target ids)).arrow
  have hid : (r.edge (p.edgePicture e source target ids)).shown.edgeId = e.id := by
    cases hm : (r.redraw (p.edgePicture e source target ids).arrow).metadata with
    | none =>
      have := harrow.edgeId
      simp [Redrawing.edge, hm] at this
    | some m =>
      have hedge := harrow.edgeId
      simp only [Redrawing.edge, hm, Option.bind_some] at hedge
      simp [EdgePicture.shown, Connector.edgeId, Redrawing.edge, hm, hedge]
      rfl
  have hlabel : labelText? ((p.edgePicture e source target ids).label.map r.redraw)
      = e.shownLabel? := by
    rw [Edge.shownLabel?]
    unfold edgePicture edgeDrawing
    cases e.label with
    | none => rfl
    | some label => exact labelText?_eq (r.text_redraw _) (r.originalText_redraw _)
  have hstart : (r.redraw (p.edgePicture e source target ids).arrow).startArrowhead
      = e.startHead.canvasName := by
    refine (congrArg (·.startArrowhead) (r.skeleton_redraw _)).trans ?_
    unfold edgePicture edgeDrawing
    cases e.label <;> rfl
  have hend : (r.redraw (p.edgePicture e source target ids).arrow).endArrowhead
      = e.endHead.canvasName := by
    refine (congrArg (·.endArrowhead) (r.skeleton_redraw _)).trans ?_
    unfold edgePicture edgeDrawing
    cases e.label <;> rfl
  have hheads := ArrowHead.ofCanvasName_canvasName
  simp only [Connector.edge, hid, Edge.mk.injEq, and_true]
  refine ⟨trivial, rfl, rfl, hlabel, ?_, ?_, rfl⟩
  · exact (congrArg ArrowHead.ofCanvasName hstart).trans (hheads _)
  · exact (congrArg ArrowHead.ofCanvasName hend).trans (hheads _)

end Pen

end DiagramBoard
