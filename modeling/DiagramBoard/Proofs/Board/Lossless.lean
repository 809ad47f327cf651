/-
DiagramBoard.Proofs.Board.Lossless — elements as JSON and back, changed or not.

An element is written as the JSON that it was read from while that still says what it is, and from
its fields otherwise.  Either way nothing is lost: reading it again gives the element back, with the
further fields that nothing reads.  From its fields an element comes back exactly.  The JSON that it
was read from may say it in other numbers, such as a zero of the other sign, but they are equal.

Main statements: what is written from the fields of an element is read as that element
(`isReadBack`), so what is written for an item is read as an element that is equal to
its own (`exists_decode?_encode`), whatever its fields were set to after it was read or drawn
(`lossless_items`).
-/
import DiagramBoard.Proofs.Board.Verbatim
import DiagramBoard.Proofs.Json.Records
import DiagramBoard.Proofs.Reconcile.Fields

namespace DiagramBoard

open Json Json.Fields

variable {α : Type}

/-! ## Elements that JSON can hold -/

/-- Whether a kind is the one that its name says. -/
def ElementKind.IsNamed (k : ElementKind) : Prop := ofName k.name = k

namespace Element

/-- The numbers of an element. -/
def numbers (e : Element α) : List α :=
  [e.x, e.y, e.width, e.height, e.angle]
    ++ [e.strokeWidth, e.roughness, e.opacity, e.fontSize, e.lineHeight,
      e.roundness.bind (·.value)].reduceOption
    ++ (e.points.getD []).flatMap (fun p => [p.x, p.y])
    ++ [e.startBinding, e.endBinding].reduceOption.flatMap (fun b => [b.focus, b.gap])

/-- The kinds of an element and of those that belong to it. -/
def kinds (e : Element α) : List ElementKind :=
  e.kind :: (e.boundElements.getD []).map (·.kind)

section Numbers

variable {e : Element α}

theorem mem_numbers_of_box {x : α} (h : x ∈ [e.x, e.y, e.width, e.height, e.angle]) :
    x ∈ e.numbers :=
  List.mem_append_left _ (List.mem_append_left _ (List.mem_append_left _ h))

theorem mem_numbers_of_style {x : α}
    (h : some x ∈ [e.strokeWidth, e.roughness, e.opacity, e.fontSize, e.lineHeight,
      e.roundness.bind (·.value)]) : x ∈ e.numbers :=
  List.mem_append_left _ (List.mem_append_left _ (List.mem_append_right _
    (List.reduceOption_mem_iff.2 h)))

theorem mem_numbers_of_point {ps : List (Point α)} (hps : e.points = some ps) {p : Point α}
    (hp : p ∈ ps) : p.x ∈ e.numbers ∧ p.y ∈ e.numbers := by
  have hmem : ∀ x ∈ [p.x, p.y], x ∈ e.numbers := fun x hx =>
    List.mem_append_left _ (List.mem_append_right _ (List.mem_flatMap.2 ⟨p, by rwa [hps], hx⟩))
  exact ⟨hmem _ (by simp), hmem _ (by simp)⟩

theorem mem_numbers_of_binding {b : Binding α} (hb : some b ∈ [e.startBinding, e.endBinding]) :
    b.focus ∈ e.numbers ∧ b.gap ∈ e.numbers := by
  have hmem : ∀ x ∈ [b.focus, b.gap], x ∈ e.numbers := fun x hx =>
    List.mem_append_right _ (List.mem_flatMap.2 ⟨b, List.reduceOption_mem_iff.2 hb, hx⟩)
  exact ⟨hmem _ (by simp), hmem _ (by simp)⟩

end Numbers

variable [Scalar α]

/-- Whether JSON can hold the fields of an element: its numbers are finite, its natural numbers fit
into their words, its kinds are the ones of their names, and no further field of its metadata has the
name of another. -/
structure IsWritable (e : Element α) : Prop where
  numbers : ∀ x ∈ e.numbers, Scalar.isFinite x = true
  longWords : ∀ n ∈ [e.seed, e.versionNonce].reduceOption, n < 2 ^ 64
  words : ∀ n ∈ [e.fontFamily, e.roundness.map (·.kind)].reduceOption, n < 2 ^ 32
  kinds : ∀ k ∈ e.kinds, k.IsNamed
  metadata : ∀ m ∈ e.metadata, m.extra.AreFurther Metadata.names

end Element

/-! ## Small records

Each is read back from what is written for it, where JSON can hold its numbers. -/

section Records

theorem isReadBack_word32 {n : Nat} (h : n < 2 ^ 32) :
    IsReadBack (word32? (α := α)) natural n :=
  ⟨if_pos h, nofun⟩

theorem isReadBack_word64 {n : Nat} (h : n < 2 ^ 64) :
    IsReadBack (word64? (α := α)) natural n :=
  ⟨if_pos h, nofun⟩

theorem isReadBack_version (n : UInt64) : IsReadBack (version? (α := α)) encodeVersion n :=
  ⟨(congrArg (Option.map UInt64.ofNat) (isReadBack_word64 n.toNat_lt).decode).trans
    (congrArg some UInt64.ofNat_toNat), nofun⟩

theorem isReadBack_kind {k : ElementKind} (h : k.IsNamed) :
    IsReadBack (ElementKind.decode? (α := α)) (fun k => .text k.name) k :=
  ⟨congrArg some h, nofun⟩

variable [Scalar α]

theorem isReadBack_point {p : Point α} (hx : Scalar.isFinite p.x = true)
    (hy : Scalar.isFinite p.y = true) : IsReadBack elementPoint? encodePoint p := by
  have hwritten : (encodePoint p).ordered = .list [.real p.x, .real p.y] := by
    rw [encodePoint, ofScalar, ofScalar, if_pos hx, if_pos hy]
    rfl
  constructor <;> rw [hwritten]
  · rfl
  · simp

/-- The slots of an element that belongs to another. -/
def BoundElement.slots (b : BoundElement) : List (String × Option (Json α)) :=
  [("id", some (.text b.id)), ("type", some (.text b.kind.name))]

theorem isReadBack_boundElement {b : BoundElement} (h : b.kind.IsNamed) :
    IsReadBack (BoundElement.decode? (α := α)) BoundElement.encode b := by
  have hnodup : ["id", "type"].Nodup := by decide
  have hencode : b.encode = .record (ofSlots b.slots ++ ([] : Fields α)) := rfl
  refine isReadBack_record hencode hnodup (areFurther_nil _) fun f hw => ?_
  simp only [BoundElement.decode?, fields?, Option.bind_eq_bind, Option.bind_some,
    hw.required? (isReadBack_text b.id) "id" rfl, hw.required? (isReadBack_kind h) "type" rfl]
  rfl

/-- The slots of where an arrow is fixed. -/
def Binding.slots (b : Binding α) : List (String × Option (Json α)) :=
  [("elementId", some (.text b.elementId)), ("focus", some (ofScalar b.focus)),
    ("gap", some (ofScalar b.gap))]

theorem isReadBack_binding {b : Binding α} (hfocus : Scalar.isFinite b.focus = true)
    (hgap : Scalar.isFinite b.gap = true) : IsReadBack Binding.decode? Binding.encode b := by
  have hnodup : ["elementId", "focus", "gap"].Nodup := by decide
  have hencode : b.encode = .record (ofSlots b.slots ++ []) := rfl
  refine isReadBack_record hencode hnodup (areFurther_nil _) fun f hw => ?_
  simp only [Binding.decode?, fields?, Option.bind_eq_bind, Option.bind_some,
    hw.required? (isReadBack_text b.elementId) "elementId" rfl,
    hw.defaulted? (isReadBack_scalar hfocus) 0 "focus" rfl,
    hw.defaulted? (isReadBack_scalar hgap) 0 "gap" rfl]
  rfl

/-- The slots of how corners are rounded. -/
def Roundness.slots (r : Roundness α) : List (String × Option (Json α)) :=
  [("type", some (natural r.kind)), ("value", r.value.map ofScalar)]

theorem isReadBack_roundness {r : Roundness α} (hkind : r.kind < 2 ^ 32)
    (hvalue : ∀ x ∈ r.value, Scalar.isFinite x = true) :
    IsReadBack Roundness.decode? Roundness.encode r := by
  have hnodup : ["type", "value"].Nodup := by decide
  have hencode : r.encode = .record (ofSlots r.slots ++ []) := by
    rw [Roundness.slots, ofSlots_cons_some, ofSlots_cons_map, List.append_nil]
    exact congrArg Json.record (List.append_nil _).symm
  refine isReadBack_record hencode hnodup (areFurther_nil _) fun f hw => ?_
  simp only [Roundness.decode?, fields?, Option.bind_eq_bind, Option.bind_some,
    hw.required? (isReadBack_word32 hkind) "type" rfl,
    hw.optional? (fun x hx => isReadBack_scalar (hvalue x hx)) "value" rfl]
  rfl

/-- The slots of metadata. -/
def Metadata.slots (m : Metadata α) : List (String × Option (Json α)) :=
  [("nodeId", m.nodeId.map .text), ("edgeId", m.edgeId.map .text), ("id", m.id.map .text),
    ("shape", m.shape.map .text), ("type", m.tag.map .text), ("ownerId", m.ownerId.map .text),
    ("participantId", m.participantId.map .text), ("from", m.source.map .text),
    ("to", m.target.map .text), ("diagram", m.diagram.map .text),
    ("direction", m.direction.map .text)]

theorem isReadBack_metadata {m : Metadata α} (hextra : m.extra.AreFurther Metadata.names) :
    IsReadBack Metadata.decode? Metadata.encode m := by
  have hnodup : Metadata.names.Nodup := by decide
  have hencode : m.encode = .record (ofSlots m.slots ++ m.extra) := by
    simp only [Metadata.encode, Metadata.slots, ofSlots_cons_map, ofSlots_nil, List.append_assoc,
      List.nil_append]
  refine isReadBack_record hencode hnodup hextra fun f hw => ?_
  have hwithout : without Metadata.names f = m.extra := hw.without
  simp only [Metadata.decode?, record?, Option.bind_eq_bind, Option.bind_some,
    hw.optionalText? "nodeId" rfl, hw.optionalText? "edgeId" rfl, hw.optionalText? "id" rfl,
    hw.optionalText? "shape" rfl, hw.optionalText? "type" rfl, hw.optionalText? "ownerId" rfl,
    hw.optionalText? "participantId" rfl, hw.optionalText? "from" rfl, hw.optionalText? "to" rfl,
    hw.optionalText? "diagram" rfl, hw.optionalText? "direction" rfl, hwithout]
  rfl

end Records

/-! ## Elements -/

namespace Element

variable [Scalar α] {e : Element α}

/-- The slots of an element. -/
def slots (e : Element α) : List (String × Option (Json α)) :=
  [("id", some (.text e.id)), ("type", some (.text e.kind.name)), ("x", some (ofScalar e.x)),
    ("y", some (ofScalar e.y)), ("width", some (ofScalar e.width)),
    ("height", some (ofScalar e.height)), ("angle", some (ofScalar e.angle)),
    ("strokeColor", e.strokeColor.map .text), ("backgroundColor", e.backgroundColor.map .text),
    ("fillStyle", e.fillStyle.map .text), ("strokeWidth", e.strokeWidth.map ofScalar),
    ("strokeStyle", e.strokeStyle.map .text), ("roughness", e.roughness.map ofScalar),
    ("opacity", e.opacity.map ofScalar), ("seed", e.seed.map natural),
    ("version", e.version.map encodeVersion), ("versionNonce", e.versionNonce.map natural),
    ("isDeleted", some (.bool e.isDeleted)), ("groupIds", some (.list (e.groupIds.map .text))),
    ("boundElements", e.boundElements.map fun bs => .list (bs.map BoundElement.encode)),
    ("locked", some (.bool e.locked)), ("roundness", e.roundness.map Roundness.encode),
    ("points", e.points.map fun ps => .list (ps.map encodePoint)),
    ("startBinding", e.startBinding.map Binding.encode),
    ("endBinding", e.endBinding.map Binding.encode),
    ("startArrowhead", e.startArrowhead.map .text), ("endArrowhead", e.endArrowhead.map .text),
    ("text", e.text.map .text), ("originalText", e.originalText.map .text),
    ("fontSize", e.fontSize.map ofScalar), ("fontFamily", e.fontFamily.map natural),
    ("textAlign", e.textAlign.map .text), ("verticalAlign", e.verticalAlign.map .text),
    ("containerId", e.containerId.map .text), ("lineHeight", e.lineHeight.map ofScalar),
    ("customData", e.metadata.map Metadata.encode)]

theorem encode_eq (e : Element α) : e.encode = .record (ofSlots e.slots ++ e.extra) := by
  simp only [encode, slots, ofSlots_cons_some, ofSlots_cons_map, ofSlots_nil, List.append_assoc,
    List.cons_append, List.nil_append]

namespace IsWritable

variable (h : e.IsWritable)
include h

theorem box {x : α} (hx : x ∈ [e.x, e.y, e.width, e.height, e.angle]) :
    IsReadBack scalar? ofScalar x :=
  isReadBack_scalar (h.numbers x (mem_numbers_of_box hx))

theorem style {o : Option α}
    (ho : o ∈ [e.strokeWidth, e.roughness, e.opacity, e.fontSize, e.lineHeight]) :
    ∀ x ∈ o, IsReadBack scalar? ofScalar x := fun _ hx =>
  isReadBack_scalar (h.numbers _ (mem_numbers_of_style (List.mem_append_left [_] (hx ▸ ho))))

theorem longWord {o : Option Nat} (ho : o ∈ [e.seed, e.versionNonce]) :
    ∀ n ∈ o, IsReadBack (word64? (α := α)) natural n := fun n hn =>
  isReadBack_word64 (h.longWords n (List.reduceOption_mem_iff.2 (hn ▸ ho)))

theorem fontFamily : ∀ n ∈ e.fontFamily, IsReadBack (word32? (α := α)) natural n := fun n hn =>
  isReadBack_word32 (h.words n (List.reduceOption_mem_iff.2 (hn ▸ List.mem_cons_self)))

theorem boundElements : ∀ bs ∈ e.boundElements,
    IsReadBack (α := α) (list? BoundElement.decode?) (fun bs => .list (bs.map BoundElement.encode))
      bs := by
  intro bs hbs
  refine isReadBack_list fun b hb => isReadBack_boundElement (h.kinds b.kind ?_)
  rw [Option.mem_def] at hbs
  refine List.mem_cons_of_mem _ (List.mem_map_of_mem ?_)
  rwa [hbs]

theorem points : ∀ ps ∈ e.points,
    IsReadBack (list? elementPoint?) (fun ps => .list (ps.map encodePoint)) ps := by
  refine fun ps hps => isReadBack_list fun p hp => ?_
  obtain ⟨hx, hy⟩ := mem_numbers_of_point hps hp
  exact isReadBack_point (h.numbers _ hx) (h.numbers _ hy)

theorem binding {o : Option (Binding α)} (ho : o ∈ [e.startBinding, e.endBinding]) :
    ∀ b ∈ o, IsReadBack Binding.decode? Binding.encode b := by
  intro b hb
  obtain ⟨hfocus, hgap⟩ := mem_numbers_of_binding (hb ▸ ho)
  exact isReadBack_binding (h.numbers _ hfocus) (h.numbers _ hgap)

theorem roundness : ∀ r ∈ e.roundness, IsReadBack Roundness.decode? Roundness.encode r := by
  intro r hr
  refine isReadBack_roundness (h.words _ ?_) fun x hx =>
    h.numbers x (mem_numbers_of_style ?_)
  · simp [List.reduceOption_mem_iff, Option.mem_def.1 hr]
  · simp [Option.mem_def.1 hr, Option.mem_def.1 hx]

/-- What is written from the fields of an element is read as that element. -/
theorem isReadBack (hextra : e.extra.AreFurther Element.names) :
    IsReadBack Element.decode? Element.encode e := by
  have hnodup : Element.names.Nodup := by decide
  refine isReadBack_record e.encode_eq hnodup hextra fun f hw => ?_
  have hwithout : without Element.names f = e.extra := hw.without
  have hkind := isReadBack_kind (α := α) (h.kinds e.kind List.mem_cons_self)
  have hgroups := isReadBack_list (α := α) fun s (_ : s ∈ e.groupIds) => isReadBack_text s
  have step {β : Type} {o : Option β} {b : β} {k : β → Option (Element α)} (ho : o = some b)
      (hk : k b = some e) : o.bind k = some e := Option.bind_eq_some_iff.2 ⟨b, ho, hk⟩
  -- one step for each name, in the order in which the fields are read
  refine step (hw.required? (isReadBack_text e.id) "id" rfl) ?_
  refine step (hw.required? hkind "type" rfl) ?_
  refine step (hw.defaulted? (h.box (x := e.x) (by simp)) 0 "x" rfl) ?_
  refine step (hw.defaulted? (h.box (x := e.y) (by simp)) 0 "y" rfl) ?_
  refine step (hw.defaulted? (h.box (x := e.width) (by simp)) 0 "width" rfl) ?_
  refine step (hw.defaulted? (h.box (x := e.height) (by simp)) 0 "height" rfl) ?_
  refine step (hw.defaulted? (h.box (x := e.angle) (by simp)) 0 "angle" rfl) ?_
  refine step (hw.optionalText? "strokeColor" rfl) ?_
  refine step (hw.optionalText? "backgroundColor" rfl) ?_
  refine step (hw.optionalText? "fillStyle" rfl) ?_
  refine step (hw.optional? (h.style (o := e.strokeWidth) (by simp)) "strokeWidth" rfl) ?_
  refine step (hw.optionalText? "strokeStyle" rfl) ?_
  refine step (hw.optional? (h.style (o := e.roughness) (by simp)) "roughness" rfl) ?_
  refine step (hw.optional? (h.style (o := e.opacity) (by simp)) "opacity" rfl) ?_
  refine step (hw.optional? (h.longWord (o := e.seed) (by simp)) "seed" rfl) ?_
  refine step (hw.optional? (fun n _ => isReadBack_version n) "version" rfl) ?_
  refine step (hw.optional? (h.longWord (o := e.versionNonce) (by simp)) "versionNonce" rfl) ?_
  refine step (hw.defaulted? (isReadBack_bool e.isDeleted) false "isDeleted" rfl) ?_
  refine step (hw.defaulted? hgroups [] "groupIds" rfl) ?_
  refine step (hw.optional? h.boundElements "boundElements" rfl) ?_
  refine step (hw.defaulted? (isReadBack_bool e.locked) false "locked" rfl) ?_
  refine step (hw.optional? h.roundness "roundness" rfl) ?_
  refine step (hw.optional? h.points "points" rfl) ?_
  refine step (hw.optional? (h.binding (o := e.startBinding) (by simp)) "startBinding" rfl) ?_
  refine step (hw.optional? (h.binding (o := e.endBinding) (by simp)) "endBinding" rfl) ?_
  refine step (hw.optionalText? "startArrowhead" rfl) ?_
  refine step (hw.optionalText? "endArrowhead" rfl) ?_
  refine step (hw.optionalText? "text" rfl) ?_
  refine step (hw.optionalText? "originalText" rfl) ?_
  refine step (hw.optional? (h.style (o := e.fontSize) (by simp)) "fontSize" rfl) ?_
  refine step (hw.optional? h.fontFamily "fontFamily" rfl) ?_
  refine step (hw.optionalText? "textAlign" rfl) ?_
  refine step (hw.optionalText? "verticalAlign" rfl) ?_
  refine step (hw.optionalText? "containerId" rfl) ?_
  refine step (hw.optional? (h.style (o := e.lineHeight) (by simp)) "lineHeight" rfl) ?_
  refine step (hw.optional? (fun m hm => isReadBack_metadata (h.metadata m hm)) "customData" rfl) ?_
  rw [hwithout]
  rfl

/-- An element that JSON can hold is equal to itself. -/
theorem beq_self (hself : ∀ x : α, Scalar.isFinite x = true → (x == x) = true)
    (hextra : e.extra.AreFurther Element.names) : (e == e) = true := by
  have hfields : ∀ {names : List String} {f : Fields α}, f.AreFurther names → (f == f) = true := by
    refine fun {names f} hf => List.beq_self_of fun p hp => ?_
    have hvalue : (p.2 == p.2) = true :=
      same_self p.2 fun x hx => hself x ((hf.values p hp).finite x hx)
    show (p.1 == p.1 && p.2 == p.2) = true
    rw [hvalue, Bool.and_true, beq_self_eq_true]
  have hbox : ∀ x ∈ [e.x, e.y, e.width, e.height, e.angle], (x == x) = true := fun x hx =>
    hself x (h.numbers x (mem_numbers_of_box hx))
  have hstyle : ∀ o ∈ [e.strokeWidth, e.roughness, e.opacity, e.fontSize, e.lineHeight,
      e.roundness.bind (·.value)], (o == o) = true := fun o ho =>
    Option.beq_self_of fun x hx => hself x (h.numbers x (mem_numbers_of_style (hx ▸ ho)))
  have hbinding : ∀ o ∈ [e.startBinding, e.endBinding], (o == o) = true := by
    refine fun o ho => Option.beq_self_of fun b hb => ?_
    obtain ⟨hfocus, hgap⟩ := mem_numbers_of_binding (hb ▸ ho)
    show instBEqBinding.beq b b = true
    simp only [instBEqBinding.beq, beq_self_eq_true, hself _ (h.numbers _ hfocus),
      hself _ (h.numbers _ hgap), Bool.and_self]
  have hpoints : (e.points == e.points) = true := by
    refine Option.beq_self_of fun ps hps => List.beq_self_of fun p hp => ?_
    obtain ⟨hx, hy⟩ := mem_numbers_of_point hps hp
    show instBEqPoint.beq p p = true
    simp only [instBEqPoint.beq, hself _ (h.numbers _ hx), hself _ (h.numbers _ hy), Bool.and_self]
  have hroundness : (e.roundness == e.roundness) = true := by
    refine Option.beq_self_of fun r hr => ?_
    have hvalue := hstyle (e.roundness.bind (·.value)) (by simp)
    rw [Option.mem_def.1 hr, Option.bind_some] at hvalue
    show instBEqRoundness.beq r r = true
    simp only [instBEqRoundness.beq, beq_self_eq_true, hvalue, Bool.and_self]
  have hmetadata : (e.metadata == e.metadata) = true := by
    refine Option.beq_self_of fun m hm => ?_
    show instBEqMetadata.beq m m = true
    simp only [instBEqMetadata.beq, beq_self_eq_true, hfields (h.metadata m hm), Bool.and_self]
  show instBEqElement.beq e e = true
  simp only [instBEqElement.beq, beq_self_eq_true, hbox e.x (by simp), hbox e.y (by simp),
    hbox e.width (by simp), hbox e.height (by simp), hbox e.angle (by simp),
    hstyle e.strokeWidth (by simp), hstyle e.roughness (by simp), hstyle e.opacity (by simp),
    hstyle e.fontSize (by simp), hstyle e.lineHeight (by simp), hroundness, hpoints,
    hbinding e.startBinding (by simp), hbinding e.endBinding (by simp), hmetadata, hfields hextra,
    Bool.and_self]

end IsWritable

/-! ## The further fields of elements that were read or drawn -/

/-- The further fields of an element that was read are those that no typed field has the name of. -/
theorem areFurther_of_decode? {v : Json α} (hv : v.IsValue) (he : Element.decode? v = some e) :
    e.extra.AreFurther Element.names := by
  unfold Element.decode? at he
  obtain ⟨f, hf, he⟩ := Option.bind_eq_some_iff.1 he
  iterate 36 obtain ⟨_, -, he⟩ := Option.bind_eq_some_iff.1 he
  obtain rfl := Option.some.inj he
  cases v with
  | record g =>
    obtain rfl := Option.some.inj hf
    exact areFurther_without hv Element.names
  | _ => exact nomatch hf

/-- The further fields of a drawing are so as well. -/
theorem HasDrawnFields.areFurther (h : e.HasDrawnFields) : e.extra.AreFurther Element.names := by
  have hnames : ∀ name ∈ ["frameId", "link"], name ∉ Element.names := by decide
  have hplain : AreFurther Element.names ([("frameId", .null), ("link", .null)] : Fields α) := by
    refine ⟨Pen.isOrdered_extra, ?_, fun f hf => hnames f.1 (List.mem_map_of_mem hf)⟩
    simp [isValue_null]
  rw [h.extra]
  unfold drawnFields
  simp only
  split
  · exact hplain.insert (by decide) isValue_null
  · split
    · exact hplain.insert (by decide) (isValue_ofScalar _)
    · exact hplain

end Element

/-! ## Items -/

namespace Item

variable [Scalar α]

/-- What is written for an item is read as an element that is equal to its own: as this very
element, or as the one that its JSON says. -/
theorem exists_decode?_encode (hself : ∀ x : α, Scalar.isFinite x = true → (x == x) = true)
    {i : Item α} (horigin : ∀ v ∈ i.origin, v.IsValue) (h : i.element.IsWritable)
    (hextra : i.element.extra.AreFurther Element.names) :
    ∃ e, Element.decode? i.encode.ordered = some e ∧ (e == i.element) = true
      ∧ (e = i.element ∨ ∃ v ∈ i.origin, Element.decode? v = some e) := by
  unfold encode
  cases hv : i.unchangedOrigin? with
  | none =>
    exact ⟨i.element, (h.isReadBack hextra).decode, h.beq_self hself hextra, .inl rfl⟩
  | some v =>
    obtain ⟨hmem, hsame⟩ := Option.filter_eq_some_iff.1 hv
    rw [Option.getD_some, (horigin v hmem).ordered]
    split at hsame
    · next e he => exact ⟨e, he, hsame, .inr ⟨v, hmem, he⟩⟩
    · exact nomatch hsame

/-- Whether an item was read from JSON or drawn. -/
inductive IsOriginal : Item α → Prop
  | read {v : Json α} {i : Item α} (hv : v.IsValue) (h : ofJson? v = some i) : IsOriginal i
  | drawn (p : Pen α) (known : Identity) (d : Diagram α) {e : Element α} (h : e ∈ p.draw known d) :
    IsOriginal (.drawn e)

theorem IsOriginal.areFurther {i : Item α} (h : i.IsOriginal) :
    i.element.extra.AreFurther Element.names := by
  cases h with
  | read hv h =>
    obtain ⟨e, he, rfl⟩ := Option.map_eq_some_iff.1 h
    exact Element.areFurther_of_decode? hv he
  | drawn p known d h => exact (p.hasDrawnFields_of_mem_draw known d _ h).areFurther

theorem IsOriginal.origin {i : Item α} (h : i.IsOriginal) {v : Json α} (hv : v ∈ i.origin) :
    v.IsValue ∧ Element.decode? v = some i.element := by
  cases h with
  | read hvalue h =>
    obtain ⟨e, he, rfl⟩ := Option.map_eq_some_iff.1 h
    obtain rfl := Option.some.inj hv
    exact ⟨hvalue, he⟩
  | drawn => exact nomatch hv

end Item

/-- Elements are not changed by writing them.  What was read is written as it was read.  What is
written for an element whose fields were set to anything that JSON can hold, after it was read or
drawn, is read as an element that is equal to it and has the further fields that it had.  So are the
further fields of its metadata, unless they were set to others. -/
theorem lossless_items :
    (∀ (v : Json Float) (i : Item Float), v.IsValue → Item.ofJson? v = some i → i.encode = v)
      ∧ ∀ i : Item Float, i.IsOriginal → ∀ e : Element Float,
        e.IsWritable → e.extra = i.element.extra →
          ∃ r, Element.decode? (i.modify fun _ => e).encode.ordered = some r ∧ (r == e) = true
            ∧ r.extra = i.element.extra
            ∧ ∀ m ∈ e.metadata, (∀ k ∈ i.element.metadata, m.extra = k.extra) →
              ∃ n ∈ r.metadata, n.extra = m.extra := by
  have hself : ∀ x : Float, Scalar.isFinite x = true → (x == x) = true :=
    fun _ => Binary64.beq_of_isFinite
  refine ⟨fun v i hv hi => ?_, fun i hi e he hextra => ?_⟩
  · exact Item.encode_of_ofJson? (same_self v fun x hx => hself x (hv.finite x hx)) hi
  · obtain ⟨r, hdecode, hsame, hr⟩ := Item.exists_decode?_encode hself
      (i := i.modify fun _ => e) (fun v hv => (hi.origin hv).1) he (hextra ▸ hi.areFurther)
    refine ⟨r, hdecode, hsame, ?_⟩
    rcases hr with rfl | ⟨v, hv, hdecoded⟩
    · exact ⟨hextra, fun m hm _ => ⟨m, hm, rfl⟩⟩
    · -- the JSON still says what the element is, so it has metadata if and only if it had some
      obtain rfl : i.element = r := Option.some.inj ((hi.origin hv).2.symm.trans hdecoded)
      refine ⟨rfl, fun m hm hkeep => ?_⟩
      have hmetadata : (i.element.metadata == e.metadata) = true := by
        have hfields : instBEqElement.beq i.element e = true := hsame
        simp only [instBEqElement.beq, Bool.and_eq_true] at hfields
        iterate 35 replace hfields := hfields.2
        exact hfields.1
      rw [Option.mem_def.1 hm] at hmetadata
      cases hk : i.element.metadata with
      | none =>
        rw [hk] at hmetadata
        exact absurd hmetadata Bool.false_ne_true
      | some k => exact ⟨k, rfl, (hkeep k hk).symm⟩

/-- A box with a link, and with a remark in its metadata, as JSON. -/
def remarkedJson : Json Float :=
  .record [("customData", .record [("nodeId", .text "A"), ("remark", .text "checked")]),
    ("id", .text "a"), ("link", .text "notes"), ("type", .text "rectangle"), ("x", .int 3)]

/-- The same as an element. -/
def remarkedBox : Element Float :=
  { Element.bare "a" .rectangle with
    x := Scalar.ofInt 3
    metadata := some { nodeId := some "A", extra := [("remark", .text "checked")] }
    extra := [("link", .text "notes")] }

/-- The box where somebody moved it to. -/
def movedRemarkedBox : Element Float := { remarkedBox with x := 7 }

theorem isWritable_movedRemarkedBox : movedRemarkedBox.IsWritable := by
  refine ⟨?_, nofun, nofun, ?_, ?_⟩
  · have hfinite : ∀ x ∈ movedRemarkedBox.numbers, Scalar.isFinite x = true := by decide +kernel
    exact hfinite
  · intro k hk
    obtain rfl : k = .rectangle := List.mem_singleton.1 hk
    rfl
  · rintro m hm
    obtain rfl := Option.some.inj hm
    have hremark : ∀ f ∈ ([("remark", .text "checked")] : Fields Float),
        f = ("remark", .text "checked") := fun f => List.mem_singleton.1
    refine ⟨List.pairwise_singleton _ _, fun f hf => ?_, fun f hf => ?_⟩
    · rw [hremark f hf]
      exact ⟨rfl, nofun⟩
    · rw [hremark f hf]
      decide

/-- The link and the remark are still there when the box was moved, written and read again. -/
theorem lossless_items_remarkedBox : ∃ i, Item.ofJson? remarkedJson = some i
    ∧ i.encode = remarkedJson
    ∧ ∃ r, Element.decode? (i.modify fun _ => movedRemarkedBox).encode.ordered = some r
      ∧ (r == movedRemarkedBox) = true ∧ r.extra = [("link", .text "notes")]
      ∧ ∃ m ∈ r.metadata, m.extra = [("remark", .text "checked")] := by
  have hvalue : remarkedJson.IsValue := ⟨by rfl, by simp [remarkedJson, numbers, numbersOfFields]⟩
  have hread : Item.ofJson? remarkedJson = some ⟨remarkedBox, some remarkedJson⟩ := rfl
  obtain ⟨r, hdecode, hsame, hextra, hmetadata⟩ :=
    lossless_items.2 _ (.read hvalue hread) movedRemarkedBox isWritable_movedRemarkedBox rfl
  exact ⟨_, hread, lossless_items.1 _ _ hvalue hread, r, hdecode, hsame, hextra,
    hmetadata _ rfl fun k hk => Option.some.inj hk ▸ rfl⟩

end DiagramBoard
