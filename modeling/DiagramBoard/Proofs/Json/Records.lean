/-
DiagramBoard.Proofs.Json.Records — records that are written field by field and read by name.

A writer has a slot for every name that it knows, in an order of its own, and leaves out the slots
that are empty; further fields follow.  What is read of this has its names in order.  So a reader
finds under a name what is in the slot of that name, and what it does not know are the further
fields, just as they were.

Main statements: what a record says that was written (`isWritten_ofSlots`), and so what its fields
are to a decoder that reads back what an encoder writes (`IsWritten.required?`,
`IsWritten.defaulted?`, `IsWritten.optional?`).
-/
import DiagramBoard.Json.Decode
import DiagramBoard.Proofs.Board.Redraw

namespace DiagramBoard.Json

variable {α β : Type}

/-! ## Values that can be read from a text -/

mutual

/-- The numbers in a value that are not written as integers. -/
def numbers : Json α → List α
  | .real x => [x]
  | .list items => numbersOfItems items
  | .record fields => numbersOfFields fields
  | _ => []

@[inherit_doc numbers]
def numbersOfItems : List (Json α) → List α
  | [] => []
  | v :: r => numbers v ++ numbersOfItems r

@[inherit_doc numbers]
def numbersOfFields : List (String × Json α) → List α
  | [] => []
  | (_, v) :: r => numbers v ++ numbersOfFields r

end

/-- Whether a value can be what a text says: its records are in order and its numbers finite. -/
structure IsValue [Scalar α] (v : Json α) : Prop where
  ordered : v.ordered = v
  finite : ∀ x ∈ v.numbers, Scalar.isFinite x = true

section Equality

variable [BEq α]

mutual

theorem same_self (v : Json α) (h : ∀ x ∈ v.numbers, (x == x) = true) : same v v = true := by
  cases v with
  | null => rfl
  | bool b => simp [same]
  | int n => simp [same]
  | real x => exact h x (by simp [numbers])
  | text s => simp [same]
  | list items => exact sameItems_self items h
  | record fields => exact sameFields_self fields h

theorem sameItems_self (items : List (Json α)) (h : ∀ x ∈ numbersOfItems items, (x == x) = true) :
    sameItems items items = true := by
  cases items with
  | nil => rfl
  | cons v r =>
    simp only [numbersOfItems, List.mem_append] at h
    rw [sameItems, same_self v fun x hx => h x (.inl hx),
      sameItems_self r fun x hx => h x (.inr hx)]
    rfl

theorem sameFields_self (fields : List (String × Json α))
    (h : ∀ x ∈ numbersOfFields fields, (x == x) = true) : sameFields fields fields = true := by
  match fields with
  | [] => rfl
  | (k, v) :: r =>
    simp only [numbersOfFields, List.mem_append] at h
    rw [sameFields, same_self v fun x hx => h x (.inl hx),
      sameFields_self r fun x hx => h x (.inr hx)]
    simp

end

end Equality

theorem isValue_null [Scalar α] : (.null : Json α).IsValue := ⟨rfl, nofun⟩

theorem isValue_ofScalar [Scalar α] (x : α) : (ofScalar x).IsValue := by
  unfold ofScalar
  split
  · next hx => exact ⟨rfl, fun y hy => List.mem_singleton.1 hy ▸ hx⟩
  · exact isValue_null

theorem orderedFields_eq_map (fields : Fields α) :
    orderedFields fields = fields.map fun f => (f.1, f.2.ordered) := by
  induction fields with
  | nil => rfl
  | cons f r ih => rw [orderedFields, ih, List.map_cons]

theorem orderedItems_eq_map (items : List (Json α)) : orderedItems items = items.map ordered := by
  induction items with
  | nil => rfl
  | cons v r ih => rw [orderedItems, ih, List.map_cons]

theorem mem_numbers_record {fields : Fields α} {f : String × Json α} (hf : f ∈ fields) {x : α}
    (hx : x ∈ f.2.numbers) : x ∈ (Json.record fields).numbers := by
  show x ∈ numbersOfFields fields
  induction fields with
  | nil => exact nomatch hf
  | cons g r ih =>
    rw [numbersOfFields, List.mem_append]
    rcases List.mem_cons.1 hf with rfl | hf
    · exact .inl hx
    · exact .inr (ih hf)

namespace Fields

/-! ## Fields in order -/

theorem IsOrdered.nodup {fields : Fields α} (h : fields.IsOrdered) : (fields.map (·.1)).Nodup :=
  List.pairwise_map.2 (h.imp ne_of_lt)

theorem mem_iff_get? {fields : Fields α} (hnd : (fields.map (·.1)).Nodup) {f : String × Json α} :
    f ∈ fields ↔ get? f.1 fields = some f.2 := by
  induction fields with
  | nil => simp
  | cons g r ih =>
    rw [List.map_cons, List.nodup_cons] at hnd
    rw [List.mem_cons, get?_cons, ih hnd.2]
    by_cases hname : f.1 = g.1
    · rw [if_pos hname, hname, get?_eq_none hnd.1]
      constructor
      · rintro (rfl | h)
        · rfl
        · exact nomatch h
      · exact fun h => .inl (Prod.ext hname (Option.some.inj h).symm)
    · rw [if_neg hname]
      exact or_iff_right fun h => hname (congrArg Prod.fst h)

/-- Fields in order are what is found in them. -/
theorem eq_of_get? {f g : Fields α} (hf : f.IsOrdered) (hg : g.IsOrdered)
    (h : ∀ name, get? name f = get? name g) : f = g := by
  have hperm : f.Perm g :=
    (List.perm_ext_iff_of_nodup hf.nodup.of_map hg.nodup.of_map).2 fun p => by
      rw [mem_iff_get? hf.nodup, mem_iff_get? hg.nodup, h]
  exact hperm.eq_of_pairwise (fun p q _ _ hpq hqp => absurd hqp (not_lt_of_gt hpq)) hf hg

theorem get?_ofList {fields : Fields α} (hnd : (fields.map (·.1)).Nodup) (name : String) :
    get? name (ofList fields) = get? name fields :=
  (get?_override hnd name []).trans (Option.or_none ..)

/-- Fields in order stay as they are when they are put in order. -/
theorem ofList_eq_self {fields : Fields α} (h : fields.IsOrdered) : ofList fields = fields :=
  eq_of_get? (pairwise_ofList fields) h (get?_ofList h.nodup)

theorem get?_without (names : List String) (fields : Fields α) (name : String) :
    get? name (fields.without names) = if name ∈ names then none else get? name fields := by
  induction fields with
  | nil => simp [without]
  | cons f r ih =>
    unfold without at ih ⊢
    rw [List.filter_cons]
    by_cases hf : f.1 ∈ names
    · rw [if_neg (by simpa using hf), ih, get?_cons]
      by_cases hname : name = f.1
      · rw [if_pos (hname ▸ hf), if_pos (hname ▸ hf)]
      · rw [if_neg hname]
    · rw [if_pos (by simpa using hf), get?_cons, get?_cons, ih]
      by_cases hname : name = f.1
      · rw [if_pos hname, if_pos hname, if_neg (hname ▸ hf)]
      · rw [if_neg hname, if_neg hname]

theorem get?_append (f g : Fields α) (name : String) :
    get? name (f ++ g) = (get? name f).or (get? name g) := by
  rw [get?, List.lookup_append]
  rfl

theorem get?_orderedFields (fields : Fields α) (name : String) :
    get? name (orderedFields fields) = (get? name fields).map ordered := by
  induction fields with
  | nil => rfl
  | cons f r ih =>
    rw [orderedFields, get?_cons, get?_cons, ih]
    split <;> rfl

theorem map_fst_orderedFields (fields : Fields α) :
    (orderedFields fields).map (·.1) = fields.map (·.1) := by
  rw [orderedFields_eq_map, List.map_map]
  rfl

/-! ## Slots and further fields -/

/-- Whether fields can stand beside those of some names: they have other names, and values that a
text can say, in order. -/
structure AreFurther [Scalar α] (names : List String) (fields : Fields α) : Prop where
  ordered : fields.IsOrdered
  values : ∀ f ∈ fields, f.2.IsValue
  notMem : ∀ f ∈ fields, f.1 ∉ names

/-- The fields of the slots that are not empty. -/
def ofSlots (slots : List (String × Option (Json α))) : Fields α :=
  slots.filterMap fun s => s.2.map (s.1, ·)

theorem fst_ofSlots_sublist (slots : List (String × Option (Json α))) :
    ((ofSlots slots).map (·.1)).Sublist (slots.map (·.1)) := by
  induction slots with
  | nil => exact .slnil
  | cons s r ih =>
    obtain ⟨name, _ | v⟩ := s
    · exact ih.cons name
    · exact ih.cons_cons name

theorem get?_ofSlots {slots : List (String × Option (Json α))} (hnd : (slots.map (·.1)).Nodup)
    (name : String) : get? name (ofSlots slots) = (slots.lookup name).join := by
  induction slots with
  | nil => rfl
  | cons s r ih =>
    rw [List.map_cons, List.nodup_cons] at hnd
    obtain ⟨other, _ | v⟩ := s
    · show get? name (ofSlots r) = _
      rw [List.lookup_cons]
      by_cases hname : name = other
      · have hnone : name ∉ (ofSlots r).map (·.1) :=
          fun hmem => hnd.1 (hname ▸ (fst_ofSlots_sublist r).subset hmem)
        rw [get?_eq_none hnone, hname, beq_self_eq_true]
        rfl
      · rw [beq_false_of_ne hname, ih hnd.2]
    · show get? name ((other, v) :: ofSlots r) = _
      rw [List.lookup_cons, get?_cons]
      by_cases hname : name = other
      · rw [if_pos hname, hname, beq_self_eq_true]
        rfl
      · rw [if_neg hname, beq_false_of_ne hname, ih hnd.2]

theorem ofSlots_nil : ofSlots ([] : List (String × Option (Json α))) = [] := rfl

theorem ofSlots_cons_some (name : String) (v : Json α) (slots : List (String × Option (Json α))) :
    ofSlots ((name, some v) :: slots) = (name, v) :: ofSlots slots := rfl

theorem ofSlots_cons_map (encode : β → Json α) (name : String) (o : Option β)
    (slots : List (String × Option (Json α))) :
    ofSlots ((name, o.map encode) :: slots) = optionalField encode name o ++ ofSlots slots := by
  cases o <;> rfl

theorem areFurther_nil [Scalar α] (names : List String) : AreFurther names ([] : Fields α) :=
  ⟨.nil, nofun, nofun⟩

theorem eq_or_mem_of_mem_insert {name : String} {value : Json α} {fields : Fields α}
    {f : String × Json α} (h : f ∈ insert name value fields) : f = (name, value) ∨ f ∈ fields := by
  induction fields with
  | nil => simp_all [insert]
  | cons g r ih =>
    rw [insert] at h
    split at h
    · exact List.mem_cons.1 h
    · split at h
      · exact (List.mem_cons.1 h).imp_right (List.mem_cons_of_mem _)
      · rcases List.mem_cons.1 h with rfl | h
        · exact .inr List.mem_cons_self
        · exact (ih h).imp_right (List.mem_cons_of_mem _)

theorem AreFurther.insert [Scalar α] {names : List String} {fields : Fields α}
    (h : fields.AreFurther names) {name : String} (hname : name ∉ names) {value : Json α}
    (hvalue : value.IsValue) : (fields.insert name value).AreFurther names := by
  refine ⟨isOrdered_insert h.ordered name value, fun f hf => ?_, fun f hf => ?_⟩
  · rcases eq_or_mem_of_mem_insert hf with rfl | hf
    · exact hvalue
    · exact h.values f hf
  · rcases eq_or_mem_of_mem_insert hf with rfl | hf
    · exact hname
    · exact h.notMem f hf

/-- What a record that a text can say holds beside some names. -/
theorem areFurther_without [Scalar α] {fields : Fields α} (h : (Json.record fields).IsValue)
    (names : List String) : (fields.without names).AreFurther names := by
  have hordered : ofList (orderedFields fields) = fields := Json.record.inj h.ordered
  have hpairwise : fields.IsOrdered := hordered ▸ pairwise_ofList _
  have hfields : IsOrdered (orderedFields fields) :=
    List.pairwise_map.1 (map_fst_orderedFields fields ▸ List.pairwise_map.2 hpairwise)
  have hself : fields.map (fun f => (f.1, f.2.ordered)) = fields.map id := by
    rw [← orderedFields_eq_map, ← ofList_eq_self hfields, hordered, List.map_id]
  refine ⟨hpairwise.filter _, fun f hf => ?_, fun f hf => ?_⟩
  · have hmem := (List.mem_filter.1 hf).1
    refine ⟨?_, fun x hx => h.finite x (mem_numbers_record hmem hx)⟩
    exact congrArg Prod.snd (List.map_inj_left.1 hself f hmem)
  · simpa using (List.mem_filter.1 hf).2

/-- Whether fields are those of some slots and further ones. -/
structure IsWritten (slots : List (String × Option (Json α))) (extra fields : Fields α) : Prop where
  get? : ∀ {name value}, slots.lookup name = some value →
    fields.get? name = value.map Json.ordered
  without : fields.without (slots.map (·.1)) = extra

section Written

variable [Scalar α] {slots : List (String × Option (Json α))} {extra : Fields α}
  (hnd : (slots.map (·.1)).Nodup) (hextra : extra.AreFurther (slots.map (·.1)))
include hnd hextra

/-- What is found in a record that was written, once its fields are in order. -/
theorem get?_written (name : String) :
    get? name (ofList (orderedFields (ofSlots slots ++ extra)))
      = ((slots.lookup name).join.map ordered).or (get? name extra) := by
  have hnodup : ((ofSlots slots ++ extra).map (·.1)).Nodup := by
    rw [List.map_append, List.nodup_append]
    refine ⟨hnd.sublist (fst_ofSlots_sublist slots), hextra.ordered.nodup, ?_⟩
    rintro a ha _ hb rfl
    obtain ⟨f, hf, rfl⟩ := List.mem_map.1 hb
    exact hextra.notMem f hf ((fst_ofSlots_sublist slots).subset ha)
  have hvalues : (get? name extra).map Json.ordered = get? name extra := by
    cases hv : get? name extra with
    | none => rfl
    | some v =>
      have hmem := (mem_iff_get? (f := (name, v)) hextra.ordered.nodup).2 hv
      rw [Option.map_some, (hextra.values _ hmem).ordered]
  rw [get?_ofList (by rwa [map_fst_orderedFields]), get?_orderedFields, get?_append,
    get?_ofSlots hnd, Option.map_or, hvalues]

theorem isWritten_ofSlots :
    IsWritten slots extra (ofList (orderedFields (ofSlots slots ++ extra))) := by
  have hother : ∀ {name}, name ∈ slots.map (·.1) → get? name extra = none := by
    refine fun {name} hmem => get?_eq_none fun hname => ?_
    obtain ⟨f, hf, rfl⟩ := List.mem_map.1 hname
    exact hextra.notMem f hf hmem
  constructor
  · intro name value h
    have hmem : name ∈ slots.map (·.1) := by
      obtain ⟨l₁, l₂, rfl, -⟩ := List.lookup_eq_some_iff.1 h
      simp
    rw [get?_written hnd hextra, h, hother hmem, Option.or_none]
    rfl
  · refine eq_of_get? (List.Pairwise.filter _ (pairwise_ofList _)) hextra.ordered fun name => ?_
    rw [get?_without]
    split
    · next hmem => exact (hother hmem).symm
    · next hmem =>
      have hnone : slots.lookup name = none := by
        refine List.lookup_eq_none_iff.2 fun s hs => ?_
        have hne : name ≠ s.1 := fun heq => hmem (heq ▸ List.mem_map_of_mem hs)
        simpa using hne
      rw [get?_written hnd hextra, hnone]
      rfl

end Written

end Fields

/-! ## Decoders that read back what was written -/

/-- Whether a decoder reads back what an encoder writes for a datum, which is not null. -/
structure IsReadBack (decode : Json α → Option β) (encode : β → Json α) (b : β) : Prop where
  decode : decode (encode b).ordered = some b
  ne_null : (encode b).ordered ≠ .null

theorem isReadBack_text (s : String) : IsReadBack (text? (α := α)) .text s := ⟨rfl, nofun⟩

theorem isReadBack_bool (b : Bool) : IsReadBack (bool? (α := α)) .bool b := ⟨rfl, nofun⟩

theorem isReadBack_scalar [Scalar α] {x : α} (h : Scalar.isFinite x = true) :
    IsReadBack scalar? ofScalar x := by
  have hreal : ofScalar x = .real x := if_pos h
  constructor <;> rw [hreal]
  · rfl
  · exact nofun

theorem isReadBack_list {decode : Json α → Option β} {encode : β → Json α} {bs : List β}
    (h : ∀ b ∈ bs, IsReadBack decode encode b) :
    IsReadBack (list? decode) (fun bs => .list (bs.map encode)) bs := by
  refine ⟨?_, nofun⟩
  show (orderedItems (bs.map encode)).mapM decode = some bs
  rw [orderedItems_eq_map]
  induction bs with
  | nil => rfl
  | cons b bs ih =>
    rw [List.map_cons, List.map_cons, List.mapM_cons, (h b List.mem_cons_self).decode,
      ih fun c hc => h c (List.mem_cons_of_mem _ hc)]
    rfl

/-- A record is read back if its decoder gets the datum from the fields that were written. -/
theorem isReadBack_record [Scalar α] {decode : Json α → Option β} {encode : β → Json α} {b : β}
    {slots : List (String × Option (Json α))} {extra : Fields α}
    (hencode : encode b = .record (Fields.ofSlots slots ++ extra)) (hnd : (slots.map (·.1)).Nodup)
    (hextra : extra.AreFurther (slots.map (·.1)))
    (hdecode : ∀ fields, Fields.IsWritten slots extra fields → decode (.record fields) = some b) :
    IsReadBack decode encode b := by
  constructor <;> rw [hencode]
  · exact hdecode _ (Fields.isWritten_ofSlots hnd hextra)
  · exact nofun

namespace Fields.IsWritten

variable {slots : List (String × Option (Json α))} {extra fields : Fields α}
  (hw : IsWritten slots extra fields) {decode : Json α → Option β} {encode : β → Json α}
include hw

theorem required? {b : β} (h : IsReadBack decode encode b) (name : String)
    (hslot : slots.lookup name = some (some (encode b))) :
    fields.required? decode name = some b := by
  rw [Fields.required?, hw.get? hslot]
  exact h.decode

theorem defaulted? {b : β} (h : IsReadBack decode encode b) (value : β) (name : String)
    (hslot : slots.lookup name = some (some (encode b))) :
    fields.defaulted? decode value name = some b := by
  rw [Fields.defaulted?, hw.get? hslot]
  exact h.decode

theorem optional? {o : Option β} (h : ∀ b ∈ o, IsReadBack decode encode b) (name : String)
    (hslot : slots.lookup name = some (o.map encode)) :
    fields.optional? decode name = some o := by
  rw [Fields.optional?, hw.get? hslot]
  cases o with
  | none => rfl
  | some b =>
    obtain ⟨hdecode, hne⟩ := h b rfl
    show nullable? decode (encode b).ordered = _
    have hvalue : nullable? decode (encode b).ordered = (decode (encode b).ordered).map some := by
      revert hne
      cases (encode b).ordered <;> simp [nullable?]
    rw [hvalue, hdecode]
    rfl

theorem optionalText? {o : Option String} (name : String)
    (hslot : slots.lookup name = some (o.map .text)) :
    fields.optional? text? name = some o :=
  hw.optional? (fun s _ => isReadBack_text s) name hslot

end Fields.IsWritten

end DiagramBoard.Json
