/-
DiagramBoard.Proofs.Reconcile.Fields — what becomes of the fields that nothing reads.

A board may carry further fields, of elements and of their metadata, that belong to other programs.
An element that is redrawn keeps them, but a drawing has further fields of its own: every element a
frame and a link, both null, an arrow its last committed point and a label its baseline.  Where both
have a field, the drawing wins.  The metadata keep all their further fields, except that a label is
drawn without any.

Main statements: the value of every further field of an element that is brought up to date
(`reconcile_fields`), and when the element keeps all that it had (`reconcile_keepsFields_iff`).
-/
import DiagramBoard.Proofs.Reconcile.Again

namespace DiagramBoard

open Board

variable {α : Type}

/-! ## The further fields of drawings -/

namespace Element

/-- Whether an element is a text inside another one. -/
def isLabel (e : Element α) : Bool := e.kind = .text && e.containerId.isSome

variable [Scalar α]

/-- The further fields that a drawing of an element has of its own. -/
def drawnFields (e : Element α) : Json.Fields α :=
  let plain : Json.Fields α := [("frameId", .null), ("link", .null)]
  if e.kind = .arrow then plain.insert "lastCommittedPoint" .null
  else if e.isLabel then plain.insert "baseline" (Pen.baseline (e.fontSize.getD 0))
  else plain

/-- What a drawing says about its further fields and metadata. -/
structure HasDrawnFields (e : Element α) : Prop where
  extra : e.extra = e.drawnFields
  metadata : e.metadata.isNone = e.isLabel

theorem HasDrawnFields.withArrows {e : Element α} (h : e.HasDrawnFields)
    (arrows : List (Element α)) : (e.withArrows arrows).HasDrawnFields := by
  unfold Element.withArrows
  split
  · exact ⟨h.extra, h.metadata⟩
  · exact h

theorem isOrdered_drawnFields (e : Element α) : e.drawnFields.IsOrdered := by
  unfold drawnFields
  simp only
  split
  · exact Json.Fields.isOrdered_insert Pen.isOrdered_extra _ _
  · split
    · exact Pen.isOrdered_labelExtra _
    · exact Pen.isOrdered_extra

/-- Every drawing has a frame and a link, both null. -/
theorem get?_drawnFields_of_all (e : Element α) :
    e.drawnFields.get? "frameId" = some .null ∧ e.drawnFields.get? "link" = some .null := by
  unfold drawnFields
  simp only
  split
  · exact ⟨rfl, rfl⟩
  · split
    · exact ⟨rfl, rfl⟩
    · exact ⟨rfl, rfl⟩

theorem drawnFields_of_skeleton {e e' : Element α} (h : e'.skeleton = e.skeleton) :
    e'.drawnFields = e.drawnFields ∧ e'.isLabel = e.isLabel := by
  have hkind : e'.kind = e.kind := congrArg (·.kind) h
  have hcontainer : e'.containerId = e.containerId := congrArg (·.containerId) h
  have hsize : e'.fontSize = e.fontSize := congrArg (·.fontSize) h
  have hlabel : e'.isLabel = e.isLabel := by rw [isLabel, isLabel, hkind, hcontainer]
  refine ⟨?_, hlabel⟩
  rw [drawnFields, drawnFields, hkind, hlabel, hsize]

end Element

namespace Pen

variable [Scalar α] (p : Pen α)

theorem hasDrawnFields_of_mem_nodeDrawing (n : Node α) (ids : NodeElements) :
    ∀ e ∈ (p.nodeDrawing n ids).elements, e.HasDrawnFields := by
  refine p.forall_mem_nodeDrawing (fun _ => ⟨?_, ⟨rfl, rfl⟩⟩) (fun _ _ _ _ => ⟨rfl, rfl⟩)
    (fun _ _ => ⟨⟨rfl, rfl⟩, ⟨rfl, rfl⟩⟩) (fun _ _ _ _ _ _ => ⟨rfl, rfl⟩) ?_
  · have hshape := isContainer_elementKind n.shape
    have harrow := ElementKind.ne_arrow_of_isContainer hshape
    have htext := ElementKind.ne_text_of_isContainer hshape
    constructor <;> simp [plainDrawing, Element.drawnFields, Element.isLabel, styled, Element.bare,
      Element.placeAt, harrow, htext]
  · exact fun _ _ _ _ _ _ _ => ⟨rfl, rfl⟩

theorem hasDrawnFields_of_mem_edgeDrawing (e : Edge α) (source target : Element α)
    (ids : EdgeElements) : ∀ x ∈ (p.edgeDrawing e source target ids).elements, x.HasDrawnFields :=
  p.forall_mem_edgeDrawing (fun _ => ⟨rfl, rfl⟩) (fun _ _ _ => ⟨rfl, rfl⟩)

/-- Every element of a drawn board has the further fields of a drawing and no others. -/
theorem hasDrawnFields_of_mem_draw (known : Identity) (d : Diagram α) :
    ∀ e ∈ p.draw known d, e.HasDrawnFields :=
  p.forall_mem_draw (fun _ arrows h => h.withArrows arrows) known d
    (fun n _ => p.hasDrawnFields_of_mem_nodeDrawing n)
    (fun e _ => p.hasDrawnFields_of_mem_edgeDrawing e)

end Pen

/-! ## The further fields of redrawn elements -/

namespace Element

/-- What the further fields of an element are that was there before and was drawn anew. -/
structure IsRedrawnFrom [Scalar α] (old new : Element α) : Prop where
  extra : ∀ name, new.extra.get? name = (new.drawnFields.get? name).or (old.extra.get? name)
  label : new.isLabel = true → new.metadata = none
  metadata : new.isLabel = false →
    ∃ m, new.metadata = some m ∧ m.extra = (old.metadata.map (·.extra)).getD []

/-- Whether all further fields of an element and of its metadata have the same values in another
one. -/
structure KeepsFields (old new : Element α) : Prop where
  extra : ∀ name, ∀ v ∈ old.extra.get? name, new.extra.get? name = some v
  metadata : ∀ m ∈ old.metadata, ∀ name, ∀ v ∈ m.extra.get? name,
    (new.metadata.bind (·.extra.get? name)) = some v

variable [Scalar α] {old new fresh : Element α}

theorem fields_refresh (managed : List String) (old fresh : Element α) :
    (refresh managed old fresh).extra = old.extra.override fresh.extra
      ∧ (refresh managed old fresh).metadata = keepMetadata old fresh := by
  obtain ⟨version, nonce, heq⟩ := refresh_eq managed old fresh
  rw [heq]
  exact ⟨rfl, rfl⟩

/-- An element that is drawn anew has the further fields of its drawing, and under all other names
those that it had. -/
theorem isRedrawnFrom_refresh (managed : List String) (old : Element α) (h : fresh.HasDrawnFields)
    (hmeta : ∀ m ∈ fresh.metadata, m.extra = []) :
    old.IsRedrawnFrom (refresh managed old fresh) := by
  obtain ⟨hextra, hmetadata⟩ := fields_refresh managed old fresh
  obtain ⟨hfields, hlabel⟩ := drawnFields_of_skeleton (skeleton_refresh managed old fresh)
  have hnd : (fresh.drawnFields.map (·.1)).Nodup :=
    List.pairwise_map.2 (fresh.isOrdered_drawnFields.imp ne_of_lt)
  constructor
  · intro name
    rw [hextra, h.extra, hfields, Json.Fields.get?_override hnd]
  · intro hl
    rw [hlabel, ← h.metadata, Option.isNone_iff_eq_none] at hl
    rw [hmetadata, keepMetadata, hl]
    cases old.metadata <;> rfl
  · intro hl
    rw [hlabel, ← h.metadata, Option.isNone_eq_false_iff, Option.isSome_iff_exists] at hl
    obtain ⟨f, hf⟩ := hl
    rw [hmetadata, keepMetadata, hf]
    cases old.metadata with
    | none => exact ⟨f, rfl, hmeta f hf⟩
    | some o =>
      refine ⟨_, rfl, ?_⟩
      rw [hmeta f hf]
      rfl

/-- A redrawn element keeps all its further fields if and only if none of them is one of its drawing
with another value and, if it is a label, its metadata have none. -/
theorem IsRedrawnFrom.keepsFields_iff (h : old.IsRedrawnFrom new) : old.KeepsFields new ↔
    (∀ name, ∀ v ∈ old.extra.get? name, ∀ w ∈ new.drawnFields.get? name, v = w)
      ∧ (new.isLabel = true → ∀ m ∈ old.metadata, m.extra = []) := by
  constructor
  · intro hkeeps
    refine ⟨fun name v hv w hw => ?_, fun hl m hm => Json.Fields.eq_nil_of_get? fun name => ?_⟩
    · have hnew := hkeeps.extra name v hv
      rw [h.extra, hw] at hnew
      exact (Option.some.inj hnew).symm
    · cases hv : m.extra.get? name with
      | none => rfl
      | some v =>
        have hnew := hkeeps.metadata m hm name v hv
        rw [h.label hl] at hnew
        exact nomatch hnew
  · rintro ⟨hextra, hmetadata⟩
    constructor
    · intro name v hv
      rw [h.extra, hv]
      cases hw : new.drawnFields.get? name with
      | none => rfl
      | some w => rw [hextra name v hv w hw, Option.some_or]
    · intro m hm name v hv
      cases hl : new.isLabel with
      | true =>
        rw [hmetadata hl m hm] at hv
        exact nomatch hv
      | false =>
        obtain ⟨m', hm', heq⟩ := h.metadata hl
        rw [hm', Option.bind_some, heq, hm]
        exact hv

end Element

/-! ## Boards that are brought up to date -/

namespace Board

variable [Scalar α] {options : ReconcileOptions α} {target : Diagram α} {items : List (Item α)}

/-- An element that is managed and comes back under its id was drawn anew. -/
theorem exists_refresh_of_update (hids : (items.map (·.element.id)).Nodup) {old new : Element α}
    (hold : old ∈ items.map (·.element)) (hlive : old.isDeleted = false)
    (hmanaged : isManaged (items.map (·.element)) old = true)
    (hnew : new ∈ (update options target items).map (·.element)) (hid : new.id = old.id) :
    ∃ e ∈ drawnOn options (items.map (·.element)) target,
      new = old.refresh (managedIds (items.map (·.element))) e := by
  have hnodup : ((items.map (·.element)).map (·.id)).Nodup := by
    rwa [List.map_map]
  have hcontains : (managedIds (items.map (·.element))).contains old.id = true :=
    (contains_managedIds hnodup hold).trans hmanaged
  obtain ⟨i, hi, rfl⟩ := List.mem_map.1 hnew
  rw [update_eq, List.mem_append] at hi
  rcases hi with hi | hi
  · -- the elements in front are not managed
    have hfree := (List.mem_filter.1 hi).2
    rw [hid, hcontains] at hfree
    simp at hfree
  · obtain ⟨e, he, rfl⟩ := List.mem_map.1 hi
    rw [id_refreshed] at hid
    have hfound : liveElement? (managed (items.map (·.element))) e.id = some old := by
      have hmem : old ∈ live (managed (items.map (·.element))) :=
        List.mem_filter.2 ⟨List.mem_filter.2 ⟨hold, hcontains⟩, by rw [hlive]; rfl⟩
      have hsub : (live (managed (items.map (·.element)))).Sublist (items.map (·.element)) :=
        List.filter_sublist.trans List.filter_sublist
      rw [liveElement?, hid]
      exact getLast?_of_nodup (hnodup.sublist (hsub.map (·.id))) hmem
    refine ⟨e, he, ?_⟩
    rw [refreshed, hfound]
    rfl

/-- An element that is managed and comes back under its id has the further fields of a drawing. -/
theorem isRedrawnFrom_update (hids : (items.map (·.element.id)).Nodup) {old new : Element α}
    (hold : old ∈ items.map (·.element)) (hlive : old.isDeleted = false)
    (hmanaged : isManaged (items.map (·.element)) old = true)
    (hnew : new ∈ (update options target items).map (·.element)) (hid : new.id = old.id) :
    old.IsRedrawnFrom new := by
  obtain ⟨e, he, rfl⟩ := exists_refresh_of_update hids hold hlive hmanaged hnew hid
  have hfields := Pen.hasDrawnFields_of_mem_draw _ _ _ e he
  have hdrawn := Pen.isDrawn_of_mem_draw _ _ _ e he
  exact Element.isRedrawnFrom_refresh _ old hfields hdrawn.metadata

end Board

section Reconcile

variable [Scalar α] {options : ReconcileOptions α} {text : String} {items out : List (Item α)}
  (h : reconcile options text items = .ok out) (hids : (items.map (·.element.id)).Nodup)
  {old new : Element α} (hold : old ∈ items.map (·.element)) (hlive : old.isDeleted = false)
  (hmanaged : Board.isManaged (items.map (·.element)) old = true)
  (hnew : new ∈ out.map (·.element)) (hid : new.id = old.id)
include h hids hold hlive hmanaged hnew hid

/-- The further fields of a managed element that is on the board before and after a text is brought
in: the element has those of a drawing of its kind, and under all other names those that it had.  The
metadata have those that they had, but a label has no metadata. -/
theorem reconcile_fields : old.IsRedrawnFrom new := by
  obtain ⟨target, -, rfl⟩ := reconcile_eq_ok.1 h
  exact isRedrawnFrom_update hids hold hlive hmanaged hnew hid

/-- No managed element stays in a frame or keeps its link. -/
theorem reconcile_frame_link :
    new.extra.get? "frameId" = some .null ∧ new.extra.get? "link" = some .null := by
  have hredrawn := reconcile_fields h hids hold hlive hmanaged hnew hid
  obtain ⟨hframe, hlink⟩ := new.get?_drawnFields_of_all
  rw [hredrawn.extra, hredrawn.extra, hframe, hlink]
  exact ⟨rfl, rfl⟩

/-- A managed element keeps all its further fields if and only if none of them is one of its drawing
with another value and, if it is a label, its metadata have none. -/
theorem reconcile_keepsFields_iff : old.KeepsFields new ↔
    (∀ name, ∀ v ∈ old.extra.get? name, ∀ w ∈ new.drawnFields.get? name, v = w)
      ∧ (new.isLabel = true → ∀ m ∈ old.metadata, m.extra = []) :=
  (reconcile_fields h hids hold hlive hmanaged hnew hid).keepsFields_iff

end Reconcile

/-- The box of a node, with a link. -/
def linkedBox : Element Float :=
  { Element.bare "a" .rectangle with
    metadata := some { nodeId := some "A" }, extra := [("link", .text "notes")] }

/-- The label in the box, with a remark in its metadata. -/
def remarkedLabel : Element Float :=
  { Element.bare "t" .text with
    text := some "A", containerId := some "a"
    metadata := some { extra := [("remark", .text "checked")] } }

/-- The box loses its link and the label its remark when the text of the board is brought in. -/
theorem not_keepsFields_linkedBox : ∃ out, reconcile .standard "graph TD\nA"
        [Item.drawn linkedBox, Item.drawn remarkedLabel] = .ok out
      ∧ (∃ new ∈ out.map (·.element), new.id = "a" ∧ ¬ linkedBox.KeepsFields new)
      ∧ ∃ new ∈ out.map (·.element), new.id = "t" ∧ ¬ remarkedLabel.KeepsFields new := by
  let items := [Item.drawn linkedBox, Item.drawn remarkedLabel]
  have hshown : (match reconcile .standard "graph TD\nA" items with
      | .ok out => decide (out.map (fun i => (i.element.id, i.element.isLabel))
        = [("a", false), ("t", true)])
      | .error _ => false) = true := by decide +kernel
  cases hout : reconcile .standard "graph TD\nA" items with
  | error e => simp [hout] at hshown
  | ok out =>
    simp only [hout, decide_eq_true_eq] at hshown
    have hids : (items.map (·.element.id)).Nodup := by decide
    have hmanaged : ∀ old ∈ items.map (·.element),
        Board.isManaged (items.map (·.element)) old = true := by decide +kernel
    have hmem : ∀ id label, (id, label) ∈ [("a", false), ("t", true)] →
        ∃ new ∈ out.map (·.element), new.id = id ∧ new.isLabel = label := by
      intro id label hp
      rw [← hshown] at hp
      obtain ⟨i, hi, heq⟩ := List.mem_map.1 hp
      obtain ⟨rfl, rfl⟩ := Prod.mk.inj heq
      exact ⟨i.element, List.mem_map_of_mem hi, rfl, rfl⟩
    obtain ⟨box, hbox, hboxId, -⟩ := hmem "a" false (by decide)
    obtain ⟨text, htext, htextId, hlabel⟩ := hmem "t" true (by decide)
    refine ⟨out, rfl, ⟨box, hbox, hboxId, fun hkeeps => ?_⟩, text, htext, htextId, fun hkeeps => ?_⟩
    · have hold : linkedBox ∈ items.map (·.element) := List.mem_cons_self
      have hlink := (reconcile_keepsFields_iff hout hids hold rfl (hmanaged _ hold) hbox
        hboxId).1 hkeeps |>.1 "link" (.text "notes") rfl .null box.get?_drawnFields_of_all.2
      exact nomatch hlink
    · have hold : remarkedLabel ∈ items.map (·.element) :=
        List.mem_cons_of_mem _ List.mem_cons_self
      have hremark := (reconcile_keepsFields_iff hout hids hold rfl (hmanaged _ hold) htext
        htextId).1 hkeeps |>.2 hlabel _ rfl
      exact nomatch hremark

end DiagramBoard
