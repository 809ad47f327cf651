/-
DiagramBoard.Proofs.Board.Verbatim — elements that were read are written as they were read.

An item keeps the JSON that it was read from and is written as that while its element is what the
JSON says.  Elements are compared by their numbers, and an undefined number differs from itself; but
no JSON text holds one, and reading makes none.

Main statement: an item that was read from JSON without undefined numbers is written as that very
JSON (`encode_of_ofJson?`).
-/
import DiagramBoard.Board.Item
import DiagramBoard.Proofs.Scalar

namespace DiagramBoard

variable {α β : Type}

/-! ## Values that are equal to themselves -/

theorem Option.beq_self_of [BEq β] {b : Option β} (h : ∀ x ∈ b, (x == x) = true) :
    (b == b) = true := by
  cases b with
  | none => rfl
  | some x => exact h x rfl

theorem List.beq_self_of [BEq β] {bs : List β} (h : ∀ x ∈ bs, (x == x) = true) :
    (bs == bs) = true := by
  induction bs with
  | nil => rfl
  | cons b bs ih =>
    rw [List.cons_beq_cons, h b List.mem_cons_self, ih fun x hx => h x (List.mem_cons_of_mem _ hx)]
    rfl

namespace Json

variable [Scalar α]

/-- Whether every value of some fields is equal to itself. -/
def Fields.AreSelfEqual (f : Fields α) : Prop := ∀ p ∈ f, (p.2 == p.2) = true

theorem areSelfEqual_of_record {f : Fields α} (h : (Json.record f == Json.record f) = true) :
    f.AreSelfEqual := by
  have h : sameFields f f = true := h
  intro p hp
  induction f with
  | nil => simp at hp
  | cons q f ih =>
    obtain ⟨k, v⟩ := q
    simp only [sameFields, beq_self_eq_true, Bool.true_and, Bool.and_eq_true] at h
    rcases List.mem_cons.1 hp with rfl | hp
    · exact h.1
    · exact ih (by exact h.2) h.2 hp

theorem selfEqual_of_list {vs : List (Json α)} (h : (Json.list vs == Json.list vs) = true) :
    ∀ v ∈ vs, (v == v) = true := by
  have h : sameItems vs vs = true := h
  intro v hv
  induction vs with
  | nil => simp at hv
  | cons w vs ih =>
    simp only [sameItems, Bool.and_eq_true] at h
    rcases List.mem_cons.1 hv with rfl | hv
    · exact h.1
    · exact ih (by exact h.2) h.2 hv

/-- Whether a decoder takes values that are equal to themselves to data that are. -/
def KeepsSelf [BEq β] (decode : Json α → Option β) : Prop :=
  ∀ v b, (v == v) = true → decode v = some b → (b == b) = true

variable [BEq β] {decode : Json α → Option β}

theorem KeepsSelf.list? (h : KeepsSelf decode) : KeepsSelf (list? decode) := by
  intro v bs hv hbs
  cases v with
  | list vs =>
    have hvs := selfEqual_of_list hv
    replace hbs : vs.mapM decode = some bs := hbs
    clear hv
    induction vs generalizing bs with
    | nil =>
      obtain rfl : [] = bs := by simpa using hbs
      rfl
    | cons v vs ih =>
      simp only [List.mapM_cons, Option.bind_eq_bind, Option.bind_eq_some_iff] at hbs
      obtain ⟨b, hb, rest, hrest, heq⟩ := hbs
      obtain rfl : b :: rest = bs := by simpa using heq
      rw [List.cons_beq_cons, h v b (hvs v List.mem_cons_self) hb,
        ih rest (fun x hx => hvs x (List.mem_cons_of_mem _ hx)) hrest]
      rfl
  | _ => simp [Json.list?] at hbs

theorem KeepsSelf.nullable? (h : KeepsSelf decode) : KeepsSelf (nullable? decode) := by
  intro v b hv hb
  have hsome : ∀ b, (decode v).map some = some b → (b == b) = true := by
    intro b hb
    obtain ⟨x, hx, rfl⟩ := Option.map_eq_some_iff.1 hb
    exact h v x hv hx
  cases v with
  | null =>
    obtain rfl : none = b := by simpa [Json.nullable?] using hb
    rfl
  | _ => exact hsome b hb

namespace Fields

variable {f : Fields α} {name : String}

omit [BEq β] in
theorem AreSelfEqual.get? (hf : f.AreSelfEqual) {v : Json α} (h : f.get? name = some v) :
    (v == v) = true := by
  obtain ⟨l₁, l₂, hl, -⟩ := List.lookup_eq_some_iff.1 h
  exact hf (name, v) (by rw [hl]; simp)

theorem AreSelfEqual.required? (hf : f.AreSelfEqual) (h : KeepsSelf decode) {b : β}
    (hb : f.required? decode name = some b) : (b == b) = true := by
  obtain ⟨v, hv, hb⟩ := Option.bind_eq_some_iff.1 hb
  exact h v b (hf.get? hv) hb

theorem AreSelfEqual.optional? (hf : f.AreSelfEqual) (h : KeepsSelf decode) {b : Option β}
    (hb : f.optional? decode name = some b) : (b == b) = true := by
  unfold Fields.optional? at hb
  split at hb
  · obtain rfl := Option.some.inj hb
    rfl
  · next v hv => exact h.nullable? v b (hf.get? hv) hb

theorem AreSelfEqual.defaulted? (hf : f.AreSelfEqual) (h : KeepsSelf decode) {value b : β}
    (hvalue : (value == value) = true) (hb : f.defaulted? decode value name = some b) :
    (b == b) = true := by
  unfold Fields.defaulted? at hb
  split at hb
  · obtain rfl := Option.some.inj hb
    exact hvalue
  · next v hv => exact h v b (hf.get? hv) hb

omit [BEq β] in
theorem AreSelfEqual.without (hf : f.AreSelfEqual) (names : List String) :
    (f.without names == f.without names) = true := by
  refine List.beq_self_of fun p hp => ?_
  have hv := hf p (List.mem_filter.1 hp).1
  show (p.1 == p.1 && p.2 == p.2) = true
  rw [hv, Bool.and_true, beq_self_eq_true]

end Fields

/-- Numbers keep to themselves if whole numbers do. -/
theorem keepsSelf_scalar? (hwhole : ∀ n : Int, ((Scalar.ofInt n : α) == Scalar.ofInt n) = true) :
    KeepsSelf (scalar? : Json α → Option α) := by
  intro v x hv hx
  cases v with
  | int n =>
    obtain rfl : Scalar.ofInt n = x := by simpa [scalar?] using hx
    exact hwhole n
  | real y =>
    obtain rfl : y = x := by simpa [scalar?] using hx
    exact hv
  | _ => simp [scalar?] at hx

end Json

/-! ## Elements -/

open Json

variable [Scalar α]

theorem areSelfEqual_of_fields? {names : List String} {needed : Nat} {v : Json α}
    {f : Fields α} (hv : (v == v) = true) (h : fields? names needed v = some f) :
    f.AreSelfEqual := by
  cases v with
  | record g =>
    obtain rfl : g = f := by simpa [fields?] using h
    exact areSelfEqual_of_record hv
  | list vs =>
    rw [fields?] at h
    split at h
    · obtain rfl := Option.some.inj h
      exact fun p hp => selfEqual_of_list hv p.2 (List.of_mem_zip hp).2
    · exact nomatch h
  | _ => simp [fields?] at h

theorem areSelfEqual_of_record? {v : Json α} {f : Fields α} (hv : (v == v) = true)
    (h : record? v = some f) : f.AreSelfEqual := by
  cases v with
  | record g =>
    obtain rfl : g = f := by simpa [record?] using h
    exact areSelfEqual_of_record hv
  | _ => simp [record?] at h

variable (hwhole : ∀ n : Int, ((Scalar.ofInt n : α) == Scalar.ofInt n) = true)

include hwhole

theorem keepsSelf_binding : KeepsSelf (Binding.decode? : Json α → Option (Binding α)) := by
  intro v b hv hb
  simp only [Binding.decode?, Option.bind_eq_bind, Option.bind_eq_some_iff, Option.pure_def,
    Option.some.injEq] at hb
  obtain ⟨f, hf, id, -, focus, hfocus, gap, hgap, rfl⟩ := hb
  have hself := areSelfEqual_of_fields? hv hf
  have h1 := hself.defaulted? (keepsSelf_scalar? hwhole) (hwhole 0) hfocus
  have h2 := hself.defaulted? (keepsSelf_scalar? hwhole) (hwhole 0) hgap
  show instBEqBinding.beq _ _ = true
  simp only [instBEqBinding.beq, beq_self_eq_true, h1, h2, Bool.and_self]

theorem keepsSelf_roundness : KeepsSelf (Roundness.decode? : Json α → Option (Roundness α)) := by
  intro v b hv hb
  simp only [Roundness.decode?, Option.bind_eq_bind, Option.bind_eq_some_iff, Option.pure_def,
    Option.some.injEq] at hb
  obtain ⟨f, hf, kind, -, value, hvalue, rfl⟩ := hb
  have hself := areSelfEqual_of_fields? hv hf
  have h1 := hself.optional? (keepsSelf_scalar? hwhole) hvalue
  show instBEqRoundness.beq _ _ = true
  simp only [instBEqRoundness.beq, beq_self_eq_true, h1, Bool.and_self]

theorem keepsSelf_elementPoint? : KeepsSelf (elementPoint? : Json α → Option (Point α)) := by
  intro v b hv hb
  unfold elementPoint? at hb
  split at hb
  · next x y =>
    simp only [Option.bind_eq_bind, Option.bind_eq_some_iff, Option.pure_def,
      Option.some.injEq] at hb
    obtain ⟨a, ha, c, hc, rfl⟩ := hb
    have hself := selfEqual_of_list hv
    have h1 := keepsSelf_scalar? hwhole x a (hself x (by simp)) ha
    have h2 := keepsSelf_scalar? hwhole y c (hself y (by simp)) hc
    show instBEqPoint.beq _ _ = true
    simp only [instBEqPoint.beq, h1, h2, Bool.and_self]
  · exact nomatch hb

omit hwhole in
theorem keepsSelf_metadata : KeepsSelf (Metadata.decode? : Json α → Option (Metadata α)) := by
  intro v b hv hb
  simp only [Metadata.decode?, Option.bind_eq_bind, Option.bind_eq_some_iff, Option.pure_def,
    Option.some.injEq] at hb
  obtain ⟨f, hf, _, -, _, -, _, -, _, -, _, -, _, -, _, -, _, -, _, -, _, -, _, -, rfl⟩ := hb
  have hextra := (areSelfEqual_of_record? hv hf).without Metadata.names
  show instBEqMetadata.beq _ _ = true
  simp only [instBEqMetadata.beq, beq_self_eq_true, hextra, Bool.and_self]

theorem keepsSelf_element : KeepsSelf (Element.decode? : Json α → Option (Element α)) := by
  intro v e hv he
  unfold Element.decode? at he
  obtain ⟨f, hf, he⟩ := Option.bind_eq_some_iff.1 he
  iterate 2 obtain ⟨_, -, he⟩ := Option.bind_eq_some_iff.1 he
  obtain ⟨x, hx, he⟩ := Option.bind_eq_some_iff.1 he
  obtain ⟨y, hy, he⟩ := Option.bind_eq_some_iff.1 he
  obtain ⟨width, hwidth, he⟩ := Option.bind_eq_some_iff.1 he
  obtain ⟨height, hheight, he⟩ := Option.bind_eq_some_iff.1 he
  obtain ⟨angle, hangle, he⟩ := Option.bind_eq_some_iff.1 he
  iterate 3 obtain ⟨_, -, he⟩ := Option.bind_eq_some_iff.1 he
  obtain ⟨stroke, hstroke, he⟩ := Option.bind_eq_some_iff.1 he
  obtain ⟨_, -, he⟩ := Option.bind_eq_some_iff.1 he
  obtain ⟨rough, hrough, he⟩ := Option.bind_eq_some_iff.1 he
  obtain ⟨opacity, hopacity, he⟩ := Option.bind_eq_some_iff.1 he
  iterate 7 obtain ⟨_, -, he⟩ := Option.bind_eq_some_iff.1 he
  obtain ⟨round, hround, he⟩ := Option.bind_eq_some_iff.1 he
  obtain ⟨points, hpoints, he⟩ := Option.bind_eq_some_iff.1 he
  obtain ⟨start, hstart, he⟩ := Option.bind_eq_some_iff.1 he
  obtain ⟨finish, hfinish, he⟩ := Option.bind_eq_some_iff.1 he
  iterate 4 obtain ⟨_, -, he⟩ := Option.bind_eq_some_iff.1 he
  obtain ⟨font, hfont, he⟩ := Option.bind_eq_some_iff.1 he
  iterate 4 obtain ⟨_, -, he⟩ := Option.bind_eq_some_iff.1 he
  obtain ⟨line, hline, he⟩ := Option.bind_eq_some_iff.1 he
  obtain ⟨metadata, hmeta, he⟩ := Option.bind_eq_some_iff.1 he
  obtain rfl := Option.some.inj he
  have hself := areSelfEqual_of_record? hv hf
  have hnumber := keepsSelf_scalar? hwhole
  have hzero : ((0 : α) == 0) = true := hwhole 0
  have hx := hself.defaulted? hnumber hzero hx
  have hy := hself.defaulted? hnumber hzero hy
  have hwidth := hself.defaulted? hnumber hzero hwidth
  have hheight := hself.defaulted? hnumber hzero hheight
  have hangle := hself.defaulted? hnumber hzero hangle
  have hstroke := hself.optional? hnumber hstroke
  have hrough := hself.optional? hnumber hrough
  have hopacity := hself.optional? hnumber hopacity
  have hfont := hself.optional? hnumber hfont
  have hline := hself.optional? hnumber hline
  have hround := hself.optional? (keepsSelf_roundness hwhole) hround
  have hpoints := hself.optional? (keepsSelf_elementPoint? hwhole).list? hpoints
  have hstart := hself.optional? (keepsSelf_binding hwhole) hstart
  have hfinish := hself.optional? (keepsSelf_binding hwhole) hfinish
  have hmeta := hself.optional? keepsSelf_metadata hmeta
  have hextra := hself.without Element.names
  show instBEqElement.beq _ _ = true
  simp only [instBEqElement.beq, beq_self_eq_true, hx, hy, hwidth, hheight, hangle, hstroke, hrough,
    hopacity, hfont, hline, hround, hpoints, hstart, hfinish, hmeta, hextra, Bool.and_self]

omit hwhole in
/-- An item that was read from JSON without undefined numbers is written as that very JSON. -/
theorem Item.encode_of_ofJson? {v : Json Float} {i : Item Float} (hv : (v == v) = true)
    (h : Item.ofJson? v = some i) : i.encode = v := by
  refine Item.encode_ofJson h ?_
  obtain ⟨e, he, rfl⟩ := Option.map_eq_some_iff.1 h
  exact keepsSelf_element Binary64.beq_ofInt v e hv he

end DiagramBoard
