/-
DiagramBoard.Proofs.Board.DrawnAgain — drawing what is on a board already.

A board that was drawn and is read again gives back its nodes at the places of their containers,
with hints that tell the same font size.  Drawing these nodes gives the elements that are there
already, as far as their contents go; the looks that a redrawn element keeps may differ.

Main statements: a node (`unstyled_nodeDrawing_again`) and an edge (`unstyled_edgeDrawing_again`) is
drawn with the same contents again.
-/
import DiagramBoard.Proofs.Board.Drawn
import DiagramBoard.Proofs.Scalar

namespace DiagramBoard

variable {α : Type}

/-! ## Contents -/

namespace Element

@[simp] theorem unstyled_id (e : Element α) : e.unstyled.id = e.id := rfl
@[simp] theorem unstyled_kind (e : Element α) : e.unstyled.kind = e.kind := rfl

end Element

/-- The elements of a node without their looks. -/
def NodeDrawing.unstyled (d : NodeDrawing α) : NodeDrawing α :=
  { container := d.container.unstyled, label := d.label.unstyled
    parts := d.parts.map Element.unstyled }

/-- The elements of an edge without their looks. -/
def EdgeDrawing.unstyled (d : EdgeDrawing α) : EdgeDrawing α :=
  { arrow := d.arrow.unstyled, label := d.label.map Element.unstyled }

namespace Pen

/-- Pens that draw parts of the same diagram in the same font size. -/
structure IsAlike (p q : Pen α) : Prop where
  kind : q.kind = p.kind
  direction : q.direction = p.direction
  fontSize : q.board.fontSize = p.board.fontSize

variable [Scalar α] {p q : Pen α}

/-! ## Nodes -/

variable {n : Node α} {ids ids' : NodeElements} {hints : Option (StyleHints α)}

theorem unstyled_plainDrawing_again (h : IsAlike p q) (hfont : q.fontSize hints = p.fontSize n.style)
    (hcontainer : ids'.container = ids.container) (hlabel : labelId n ids' = labelId n ids)
    (hlifeline : n.lifelineEnd.isSome = true → lifelineId n ids' = lifelineId n ids) :
    (q.plainDrawing { n with box := some (p.plainDrawing n ids).container.box, style := hints }
      ids').unstyled = (p.plainDrawing n ids).unstyled := by
  have hbox : (p.plainDrawing n ids).container.box
      = n.box.getD (labelBox (Layout.textSize n.label.toList (p.fontSize n.style))) := rfl
  have hheading : q.heading = p.heading := by rw [heading, heading, h.kind, h.direction]
  simp only [labelId] at hlabel
  rw [hbox]
  simp only [plainDrawing, NodeDrawing.unstyled, NodeDrawing.mk.injEq, hfont, hcontainer, hlabel,
    Option.getD_some]
  refine ⟨?_, ?_, ?_⟩
  · have hkind : n.shape.elementKind ≠ .arrow :=
      ElementKind.ne_arrow_of_isContainer (isContainer_elementKind n.shape)
    simp [Element.unstyled, styled, Element.bare, Element.placeAt, nodeMetadata, hheading, hkind]
  · simp [Element.unstyled, label, written, styled, Element.bare, hfont]
  · cases hend : n.lifelineEnd with
    | none => rfl
    | some bottom =>
      simp only [lifelineId, hend, Option.isSome_some, forall_const] at hlifeline
      simp [hlifeline, lifeline, Element.unstyled, styled, Element.bare, Element.placeAt]

variable [OrderedScalar α]

/-- The box of a class that has its place is the one it was drawn with. -/
theorem classBox_again (n : Node α) (hints : Option (StyleHints α)) (header : α)
    (attributes methods : Section α) :
    classBox { n with box := some (classBox n header attributes methods), style := hints } header
      attributes methods = classBox n header attributes methods := by
  simp only [classBox, classWidth, Option.map_some, Option.getD_some, Scalar.larger_larger]

theorem unstyled_classDrawing_again (h : IsAlike p q)
    (hfont : q.fontSize hints = p.fontSize n.style) (hcontainer : ids'.container = ids.container)
    (hlabel : labelId n ids' = labelId n ids) (sections : Sections) :
    (q.classDrawing { n with
        box := some (p.classDrawing n sections ids).container.box, style := hints }
      sections ids').unstyled = (p.classDrawing n sections ids).unstyled := by
  have hbox : (p.classDrawing n sections ids).container.box
      = classBox n (headerHeight (Layout.textSize n.label.toList (p.fontSize n.style)))
        (sectionOf sections.attributes (p.memberFont n))
        (sectionOf sections.methods (p.memberFont n)) := rfl
  have hmember : ∀ box, q.memberFont { n with box := some box, style := hints }
      = p.memberFont n := by
    intro box
    rw [memberFont, memberFont, hfont]
  have hheading : q.heading = p.heading := by rw [heading, heading, h.kind, h.direction]
  simp only [labelId] at hlabel
  rw [hbox]
  simp only [classDrawing, NodeDrawing.unstyled, NodeDrawing.mk.injEq, hfont, hcontainer, hlabel,
    hmember, classBox_again]
  refine ⟨?_, ?_, ?_⟩
  · simp [Element.unstyled, styled, Element.bare, Element.placeAt, nodeMetadata, hheading]
  · simp [Element.unstyled, label, written, styled, Element.bare, hfont]
  · simp [Element.unstyled, separator, memberLines, segment, written, styled, Element.bare,
      Element.placeAt, hmember]

/-- A node at the place of its container is drawn with the same contents again. -/
theorem unstyled_nodeDrawing_again (h : IsAlike p q)
    (hfont : q.fontSize hints = p.fontSize n.style) (hcontainer : ids'.container = ids.container)
    (hlabel : labelId n ids' = labelId n ids)
    (hlifeline : n.sections = none → n.lifelineEnd.isSome = true →
      lifelineId n ids' = lifelineId n ids) :
    (q.nodeDrawing { n with
        box := some (p.nodeDrawing n ids).container.box, style := hints } ids').unstyled
      = (p.nodeDrawing n ids).unstyled := by
  unfold nodeDrawing
  cases hsections : n.sections with
  | none => exact unstyled_plainDrawing_again h hfont hcontainer hlabel (hlifeline hsections)
  | some sections => exact unstyled_classDrawing_again h hfont hcontainer hlabel sections

/-! ## Edges -/

omit [OrderedScalar α]

/-- The way of an edge depends on the boxes and ids of the containers that it joins. -/
theorem wayOf_congr (e : Edge α) {source target source' target' : Element α}
    (hsource : source'.unstyled = source.unstyled) (htarget : target'.unstyled = target.unstyled) :
    wayOf e source' target' = wayOf e source target := by
  have hsbox : source'.box = source.box := congrArg (·.box) hsource
  have htbox : target'.box = target.box := congrArg (·.box) htarget
  have hsid : source'.id = source.id := congrArg (·.id) hsource
  have htid : target'.id = target.id := congrArg (·.id) htarget
  unfold wayOf straight
  rw [hsbox, htbox, hsid, htid]

/-- The width and the style of the line of an edge. -/
def lineOf (board : BoardStyle α) (e : Edge α) : α × StrokeStyle :=
  (choose e.style (·.strokeWidth) board.strokeWidth, choose e.style (·.strokeStyle) board.strokeStyle)

theorem unstyled_arrow_again {e : Edge α} (hline : lineOf q.board e = lineOf p.board e)
    (way : Way α) (id : String) : (q.arrow e way id).unstyled = (p.arrow e way id).unstyled := by
  obtain ⟨hwidth, hstyle⟩ := Prod.mk.inj hline
  simp [arrow, Element.unstyled, styled, Element.bare, hwidth, hstyle]

/-- An edge whose line stays as it is is drawn with the same contents again. -/
theorem unstyled_edgeDrawing_again (h : IsAlike p q) {e : Edge α}
    {source target source' target' : Element α} {ids ids' : EdgeElements}
    (hsource : source'.unstyled = source.unstyled) (htarget : target'.unstyled = target.unstyled)
    (harrow : ids'.arrow = ids.arrow)
    (hlabel : e.label.isSome = true → ids'.text.getD (Board.derivedId "text" e.id)
      = ids.text.getD (Board.derivedId "text" e.id))
    (hline : lineOf q.board e = lineOf p.board e) :
    (q.edgeDrawing e source' target' ids').unstyled
      = (p.edgeDrawing e source target ids).unstyled := by
  have hfont : q.fontSize e.style = p.fontSize e.style := by rw [fontSize, fontSize, h.fontSize]
  unfold edgeDrawing
  rw [wayOf_congr e hsource htarget, harrow]
  cases hl : e.label with
  | none => simp only [EdgeDrawing.unstyled, unstyled_arrow_again hline, Option.map_none]
  | some text =>
    have hid := hlabel (by rw [hl]; rfl)
    simp only [EdgeDrawing.unstyled, EdgeDrawing.mk.injEq, Option.map_some, Option.some.injEq, hid]
    refine ⟨?_, ?_⟩
    · have harrow := unstyled_arrow_again hline (wayOf e source target) ids.arrow
      let bound : Element α → Element α := fun a =>
        { a with boundElements := some [⟨ids.text.getD (Board.derivedId "text" e.id), .text⟩] }
      exact congrArg bound harrow
    · simp [arrowLabel, label, Element.unstyled, written, styled, Element.bare, hfont]

/-! ## Drawings have all looks -/

omit [Scalar α] in
/-- The further fields of every drawing are in order. -/
theorem isOrdered_extra :
    Json.Fields.IsOrdered ([("frameId", .null), ("link", .null)] : Json.Fields α) := by
  have hlt : "frameId" < "link" := by decide
  simpa [Json.Fields.IsOrdered] using hlt

theorem isOrdered_labelExtra (fontSize : α) :
    (Json.Fields.insert "baseline" (baseline fontSize)
      [("frameId", .null), ("link", .null)]).IsOrdered :=
  Json.Fields.isOrdered_insert isOrdered_extra _ _

theorem isDrawn_of_mem_nodeDrawing (p : Pen α) (n : Node α) (ids : NodeElements) :
    ∀ e ∈ (p.nodeDrawing n ids).elements, e.IsDrawn := by
  have hlabel : ∀ id text holder, (p.label id text n.style holder).IsDrawn := fun _ _ _ =>
    ⟨rfl, rfl, isOrdered_labelExtra (p.fontSize n.style),
      by simp [label, written, styled, Element.bare]⟩
  refine p.forall_mem_nodeDrawing (fun _ => ⟨?_, ?_⟩) (fun _ _ _ _ => ?_)
    (fun sections _ => ⟨?_, ?_⟩) (fun _ _ _ _ _ _ => ?_) (fun _ _ _ _ _ _ _ => ?_)
  · refine ⟨rfl, ?_, isOrdered_extra, by simp [plainDrawing, nodeMetadata, heading]⟩
    have hkind := ElementKind.ne_text_of_isContainer (isContainer_elementKind n.shape)
    simp [plainDrawing, styled, Element.bare, Element.placeAt, hkind]
  · have hdrawn := hlabel (ids.text.getD (Board.derivedId "text" n.id)) n.label ids.container
    exact ⟨hdrawn.looks, hdrawn.fontFamily, hdrawn.extra, hdrawn.metadata⟩
  · exact ⟨rfl, rfl, isOrdered_extra, by simp [lifeline, Metadata.tagged]⟩
  · exact ⟨rfl, rfl, isOrdered_extra, by simp [classDrawing, nodeMetadata, heading]⟩
  · have hdrawn := hlabel (ids.text.getD (Board.derivedId "text" n.id)) n.label ids.container
    exact ⟨hdrawn.looks, hdrawn.fontFamily, hdrawn.extra, hdrawn.metadata⟩
  · exact ⟨rfl, rfl, isOrdered_extra,
      by simp [separator, segment, Element.placeAt, Metadata.tagged]⟩
  · exact ⟨rfl, rfl, isOrdered_extra,
      by simp [memberLines, segment, written, Element.placeAt, Metadata.tagged]⟩

theorem isDrawn_of_mem_edgeDrawing (p : Pen α) (e : Edge α) (source target : Element α)
    (ids : EdgeElements) : ∀ x ∈ (p.edgeDrawing e source target ids).elements, x.IsDrawn := by
  refine p.forall_mem_edgeDrawing (fun bound => ?_) (fun text _ id => ?_)
  · exact ⟨rfl, rfl, Json.Fields.isOrdered_insert isOrdered_extra "lastCommittedPoint" .null,
      by simp [arrow]⟩
  · exact ⟨rfl, rfl, isOrdered_labelExtra (p.fontSize e.style),
      by simp [arrowLabel, label, written, styled, Element.bare]⟩

end Pen

end DiagramBoard
