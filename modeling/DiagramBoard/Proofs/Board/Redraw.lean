/-
DiagramBoard.Proofs.Board.Redraw — what redrawing an element changes and what it leaves alone.

An element that is redrawn shows what its drawing shows: only its looks, its version and the fields
that nothing reads may differ.  Redrawing it a second time, from a drawing with the same contents,
changes nothing at all.

Main statements: redrawing keeps what an element shows (`skeleton_refresh`), an element that was
redrawn is settled (`refresh_refresh`), and so is one that was drawn for the first time
(`refresh_of_drawn`).
-/
import DiagramBoard.Board.Drawing
import DiagramBoard.Board.Refresh
import DiagramBoard.Json.Ordered
import Mathlib

namespace DiagramBoard

namespace Json.Fields

variable {α : Type}

/-! ## Overriding fields -/

/-- Putting the same value under a name twice is putting it there once. -/
theorem insert_insert_self (name : String) (value : Json α) (fields : Fields α) :
    insert name value (insert name value fields) = insert name value fields := by
  induction fields with
  | nil => simp [insert]
  | cons f r ih =>
    obtain ⟨n, v⟩ := f
    by_cases hlt : name < n
    · simp [insert, hlt]
    · by_cases heq : name = n
      · simp [insert, heq]
      · simp [insert, hlt, heq, ih]

/-- A value that is where it would be put stays there when another name gets a value. -/
theorem insert_comm_of_ne {name other : String} (hne : name ≠ other) {value : Json α}
    (fresh : Json α) {fields : Fields α} (h : insert name value fields = fields) :
    insert name value (insert other fresh fields) = insert other fresh fields := by
  induction fields with
  | nil => simp [insert] at h
  | cons f r ih =>
    obtain ⟨n, v⟩ := f
    rw [insert] at h
    split at h
    · have := congrArg List.length h
      simp at this
    · next hlt =>
      split at h
      · next heq =>
        subst heq
        simp only [List.cons.injEq, Prod.mk.injEq, and_true, true_and] at h
        subst h
        by_cases ho : other < name
        · simp [insert, ho, hne, not_lt_of_gt ho]
        · simp [insert, ho, hne.symm]
      · next heq =>
        have hgt : n < name := lt_of_le_of_ne (not_lt.1 hlt) fun he => heq he.symm
        simp only [List.cons.injEq, true_and] at h
        by_cases ho : other < n
        · have : ¬ name < other := not_lt_of_gt (ho.trans hgt)
          simp [insert, ho, this, hne, hlt, heq, h]
        · by_cases hon : other = n
          · subst hon
            simp [insert, hlt, heq, h]
          · simp [insert, ho, hon, hlt, heq, ih h]

/-- Fields that are where they would be put do not change anything when they are put again. -/
theorem override_eq_self {fields newer : Fields α}
    (h : ∀ f ∈ newer, insert f.1 f.2 fields = fields) : fields.override newer = fields := by
  induction newer with
  | nil => rfl
  | cons f newer ih =>
    rw [override, List.foldl_cons, h f List.mem_cons_self]
    exact ih fun g hg => h g (List.mem_cons_of_mem _ hg)

theorem insert_override {name : String} {value : Json α} {fields newer : Fields α}
    (hname : name ∉ newer.map (·.1)) (h : insert name value fields = fields) :
    insert name value (fields.override newer) = fields.override newer := by
  induction newer generalizing fields with
  | nil => exact h
  | cons f newer ih =>
    rw [List.map_cons, List.mem_cons, not_or] at hname
    exact ih hname.2 (insert_comm_of_ne hname.1 f.2 h)

theorem insert_override_of_mem {fields newer : Fields α} (hnd : (newer.map (·.1)).Nodup) :
    ∀ f ∈ newer, insert f.1 f.2 (fields.override newer) = fields.override newer := by
  induction newer generalizing fields with
  | nil => simp
  | cons f newer ih =>
    rw [List.map_cons, List.nodup_cons] at hnd
    intro g hg
    rcases List.mem_cons.1 hg with rfl | hg
    · show insert g.1 g.2 ((insert g.1 g.2 fields).override newer)
        = (insert g.1 g.2 fields).override newer
      exact insert_override hnd.1 (insert_insert_self ..)
    · exact ih hnd.2 g hg

/-- Overriding twice with the same fields is overriding once. -/
theorem override_override {fields newer : Fields α} (hnd : (newer.map (·.1)).Nodup) :
    (fields.override newer).override newer = fields.override newer :=
  override_eq_self (insert_override_of_mem hnd)

/-- Fields in order stay as they are when they are put again. -/
theorem override_self {fields : Fields α} (h : fields.IsOrdered) :
    fields.override fields = fields := by
  refine override_eq_self ?_
  induction fields with
  | nil => simp
  | cons f r ih =>
    rw [IsOrdered, List.pairwise_cons] at h
    intro g hg
    rcases List.mem_cons.1 hg with rfl | hg
    · simp [insert]
    · have hlt : f.1 < g.1 := h.1 g hg
      simp [insert, not_lt_of_gt hlt, (ne_of_lt hlt).symm, ih h.2 g hg]

/-! ## The values of overridden fields -/

theorem get?_eq_none {name : String} {fields : Fields α} (h : name ∉ fields.map (·.1)) :
    get? name fields = none := by
  induction fields with
  | nil => rfl
  | cons f r ih =>
    rw [List.map_cons, List.mem_cons, not_or] at h
    rw [get?_cons, if_neg h.1, ih h.2]

/-- The newer value of a name counts. -/
theorem get?_override {newer : Fields α} (hnd : (newer.map (·.1)).Nodup) (name : String)
    (fields : Fields α) :
    get? name (fields.override newer) = (get? name newer).or (get? name fields) := by
  induction newer generalizing fields with
  | nil => rfl
  | cons f newer ih =>
    rw [List.map_cons, List.nodup_cons] at hnd
    rw [override, List.foldl_cons]
    refine (ih hnd.2 _).trans ?_
    by_cases hname : name = f.1
    · rw [hname, get?_eq_none hnd.1, get?_insert_self, get?_cons, if_pos rfl]
      rfl
    · rw [get?_insert_of_ne hname, get?_cons, if_neg hname]

theorem eq_nil_of_get? {fields : Fields α} (h : ∀ name, get? name fields = none) :
    fields = [] := by
  cases fields with
  | nil => rfl
  | cons f r =>
    have hfirst := h f.1
    rw [get?_cons, if_pos rfl] at hfirst
    exact nomatch hfirst

end Json.Fields

variable {α : Type}

/-! ## What an element shows -/

/-- The metadata that say what an element shows. -/
def Metadata.skeleton (m : Metadata α) : Metadata α := { m with extra := [] }

/-- Metadata with the further fields that they have already. -/
theorem Metadata.with_extra {m : Metadata α} {fields : Json.Fields α} (h : m.extra = fields) :
    { m with extra := fields } = m := by
  rw [← h]

namespace Element

/-- An element without the looks that a redrawn element keeps. -/
def unstyled (e : Element α) : Element α :=
  { e with
    strokeColor := none
    backgroundColor := none
    fillStyle := none
    strokeWidth := if e.kind = .arrow then e.strokeWidth else none
    strokeStyle := if e.kind = .arrow then e.strokeStyle else none
    roughness := none
    opacity := none
    fontFamily := none }

variable [Scalar α]

/-- An element without anything that a redrawn element keeps from before. -/
def skeleton (e : Element α) : Element α :=
  { e.unstyled with
    angle := 0
    locked := false
    seed := none
    version := none
    versionNonce := none
    boundElements := none
    extra := []
    metadata := e.metadata.map Metadata.skeleton }

@[simp] theorem skeleton_withArrows (arrows : List (Element α)) (e : Element α) :
    (e.withArrows arrows).skeleton = e.skeleton := by
  unfold withArrows
  split <;> rfl

/-- A redrawn element shows what its drawing shows. -/
@[simp] theorem skeleton_refresh (managed : List String) (old fresh : Element α) :
    (refresh managed old fresh).skeleton = fresh.skeleton := by
  have hmeta : (keepMetadata old fresh).map Metadata.skeleton
      = fresh.metadata.map Metadata.skeleton := by
    unfold keepMetadata
    cases old.metadata <;> cases fresh.metadata <;> rfl
  have hkeep : (keep managed old fresh).skeleton = fresh.skeleton := by
    by_cases ha : fresh.kind = .arrow <;> simp [skeleton, unstyled, keep, hmeta, ha]
  obtain ⟨version, nonce, heq⟩ := refresh_eq managed old fresh
  rw [heq]
  exact hkeep

/-! ## Redrawing twice -/

omit [Scalar α] in
/-- What belongs to an element without being managed still does when it is drawn again, unless it
is managed by then. -/
theorem foreignBound_keep {before after : List String} {old first second : Element α}
    (hbound : second.boundElements = first.boundElements)
    (hfree : ∀ b ∈ old.boundElements.getD [], b.id ∉ before → b.id ∉ after) :
    foreignBound after (keep before old first) second = foreignBound before old first := by
  have hforeign : ∀ b ∈ foreignBound before old first,
      (!after.contains b.id && (first.boundElements.getD []).all (·.id ≠ b.id)) = true := by
    intro b hb
    rw [foreignBound, List.mem_filter, Bool.and_eq_true] at hb
    obtain ⟨hold, hbefore, hall⟩ := hb
    have hafter : b.id ∉ after := hfree b hold (by simpa using hbefore)
    simp only [hall, Bool.and_true]
    simpa using hafter
  have hown : ∀ b ∈ first.boundElements.getD [],
      (!after.contains b.id && (first.boundElements.getD []).all (·.id ≠ b.id)) = false := by
    intro b hb
    have : (first.boundElements.getD []).all (fun c => decide (c.id ≠ b.id)) = false := by
      rw [List.all_eq_false]
      exact ⟨b, hb, by simp⟩
    rw [this, Bool.and_false]
  rw [foreignBound, hbound]
  by_cases hempty : foreignBound before old first = []
  · have hkept : (keep before old first).boundElements = first.boundElements := by
      simp [keep, hempty]
    rw [hkept, hempty, List.filter_eq_nil_iff]
    exact fun b hb => Bool.eq_false_iff.1 (hown b hb)
  · have hkept : (keep before old first).boundElements
        = some (first.boundElements.getD [] ++ foreignBound before old first) := by
      simp [keep, hempty]
    rw [hkept, Option.getD_some, List.filter_append, List.filter_eq_self.2 hforeign,
      List.filter_eq_nil_iff.2 fun b hb => Bool.eq_false_iff.1 (hown b hb), List.nil_append]

/-- Whether all looks of an element are said, its font apart. -/
def hasLooks (e : Element α) : Bool :=
  e.strokeColor.isSome && e.backgroundColor.isSome && e.fillStyle.isSome && e.strokeWidth.isSome
    && e.strokeStyle.isSome && e.roughness.isSome && e.opacity.isSome && e.seed.isSome

/-- What a drawing says about the looks of an element: every look that it can have, and further
fields in order. -/
structure IsDrawn (e : Element α) : Prop where
  looks : e.hasLooks = true
  fontFamily : e.fontFamily.isSome = decide (e.kind = .text)
  extra : e.extra.IsOrdered
  metadata : ∀ m ∈ e.metadata, m.extra = []

omit [Scalar α] in
theorem keepMetadata_keep (before : List String) (old : Element α) {first second : Element α}
    (hdrawn : first.IsDrawn) (hmeta : second.metadata = first.metadata) :
    keepMetadata (keep before old first) second = keepMetadata old first := by
  show keepMetadata { first with metadata := keepMetadata old first } second
    = keepMetadata old first
  unfold keepMetadata
  rw [hmeta]
  cases hf : first.metadata with
  | none => cases old.metadata <;> rfl
  | some m =>
    have hextra := hdrawn.metadata m hf
    cases old.metadata with
    | none => simp [hextra, Json.Fields.override, Metadata.with_extra hextra]
    | some o => simp [hextra, Json.Fields.override]

omit [Scalar α] in
/-- Drawings with the same contents differ in nothing but their looks. -/
theorem eq_of_unstyled {first second : Element α} (h : second.unstyled = first.unstyled) :
    second = { first with
      strokeColor := second.strokeColor
      backgroundColor := second.backgroundColor
      fillStyle := second.fillStyle
      strokeWidth := if first.kind = .arrow then first.strokeWidth else second.strokeWidth
      strokeStyle := if first.kind = .arrow then first.strokeStyle else second.strokeStyle
      roughness := second.roughness
      opacity := second.opacity
      fontFamily := second.fontFamily } := by
  have hkind : second.kind = first.kind := congrArg (·.kind) h
  have hwidth := congrArg (·.strokeWidth) h
  have hstyle := congrArg (·.strokeStyle) h
  cases second
  cases first
  simp only [unstyled, Element.mk.injEq] at h hkind hwidth hstyle ⊢
  subst hkind
  split_ifs at hwidth hstyle ⊢ <;> simp_all

theorem or_or_of_isSome {β : Type} {a b : Option β} (h : b.isSome = true) (c : Option β) :
    (a.or b).or c = a.or b := by
  cases a with
  | some _ => rfl
  | none =>
    cases b with
    | some _ => rfl
    | none => simp at h

omit [Scalar α] in
/-- Keeping the looks of an element twice is keeping them once. -/
theorem keep_keep {before after : List String} (old : Element α) {first second : Element α}
    (hsame : second.unstyled = first.unstyled) (hfirst : first.IsDrawn) (hsecond : second.IsDrawn)
    (hfree : ∀ b ∈ old.boundElements.getD [], b.id ∉ before → b.id ∉ after) :
    keep after (keep before old first) second = keep before old first := by
  have hbound : second.boundElements = first.boundElements := congrArg (·.boundElements) hsame
  have hforeign := foreignBound_keep hbound hfree
  have hmetadata : second.metadata = first.metadata := congrArg (·.metadata) hsame
  have hmeta := keepMetadata_keep before old hfirst hmetadata
  have hextra : (old.extra.override first.extra).override first.extra
      = old.extra.override first.extra := Json.Fields.override_override (List.pairwise_map.2 (hfirst.extra.imp ne_of_lt))
  have hfont : (old.fontFamily.or first.fontFamily).or second.fontFamily
      = old.fontFamily.or first.fontFamily := by
    have hs := hsecond.fontFamily
    rw [show second.kind = first.kind from congrArg (·.kind) hsame, ← hfirst.fontFamily] at hs
    cases hf : first.fontFamily with
    | some _ => exact or_or_of_isSome rfl _
    | none =>
      have : second.fontFamily = none := by simpa [hf] using hs
      rw [this, Option.or_none]
  have hlooks := hfirst.looks
  simp only [hasLooks, Bool.and_eq_true] at hlooks
  obtain ⟨⟨⟨⟨⟨⟨⟨hcolor, hback⟩, hfill⟩, hwidth⟩, hstyle⟩, hrough⟩, hopacity⟩, hseed⟩ := hlooks
  have hsecond' := eq_of_unstyled hsame
  generalize second.strokeColor = c, second.backgroundColor = b, second.fillStyle = f,
    second.strokeWidth = w, second.strokeStyle = s, second.roughness = r, second.opacity = o,
    second.fontFamily = m at hsecond' hfont
  subst hsecond'
  simp only [keep] at hforeign hmeta ⊢
  simp only [hforeign, hmeta, hextra, hfont, or_or_of_isSome hcolor, or_or_of_isSome hback,
    or_or_of_isSome hfill, or_or_of_isSome hrough, or_or_of_isSome hopacity,
    or_or_of_isSome hseed]
  have hlocked : (old.locked || first.locked || first.locked) = (old.locked || first.locked) := by
    rw [Bool.or_assoc, Bool.or_self]
  rw [hlocked]
  by_cases ha : first.kind = .arrow
  · simp [ha]
  · simp [ha, or_or_of_isSome hwidth, or_or_of_isSome hstyle]

omit [Scalar α] in
/-- A drawing has nothing to keep from itself. -/
theorem keep_self {managed : List String} {e : Element α} (h : e.IsDrawn) :
    keep managed e e = e := by
  have hforeign : foreignBound managed e e = [] := by
    rw [foreignBound, List.filter_eq_nil_iff]
    intro b hb
    have : (e.boundElements.getD []).all (fun c => decide (c.id ≠ b.id)) = false := by
      rw [List.all_eq_false]
      exact ⟨b, hb, by simp⟩
    rw [this, Bool.and_false]
    exact Bool.false_ne_true
  have hmeta : keepMetadata e e = e.metadata := by
    unfold keepMetadata
    cases hm : e.metadata with
    | none => rfl
    | some m =>
      have hextra := h.metadata m hm
      simp [hextra, Json.Fields.override, Metadata.with_extra hextra]
  have hextra : e.extra.override e.extra = e.extra := Json.Fields.override_self h.extra
  simp [keep, hforeign, hmeta, hextra]

theorem refresh_eq_self {managed : List String} {old fresh : Element α}
    (hkeep : keep managed old fresh = old) (hself : (old == old) = true) :
    refresh managed old fresh = old := by
  simp [refresh, hkeep, hself]

/-- An element that was redrawn stays as it is when it is drawn once more. -/
theorem refresh_refresh {before after : List String} {old first second : Element α}
    (hsame : second.unstyled = first.unstyled) (hfirst : first.IsDrawn) (hsecond : second.IsDrawn)
    (hfree : ∀ b ∈ old.boundElements.getD [], b.id ∉ before → b.id ∉ after)
    (hself : (refresh before old first == refresh before old first) = true) :
    refresh after (refresh before old first) second = refresh before old first := by
  refine refresh_eq_self ?_ hself
  obtain ⟨version, nonce, heq⟩ := refresh_eq before old first
  -- a new version changes nothing that is kept
  have hversion : keep after { keep before old first with
        version := version, versionNonce := nonce } second
      = { keep after (keep before old first) second with
          version := version, versionNonce := nonce } := rfl
  rw [heq, hversion, keep_keep old hsame hfirst hsecond hfree]

/-- An element that was drawn for the first time stays as it is when it is drawn once more. -/
theorem refresh_of_drawn {managed : List String} {first second : Element α}
    (hsame : second.unstyled = first.unstyled) (hfirst : first.IsDrawn) (hsecond : second.IsDrawn)
    (hself : (first == first) = true) : refresh managed first second = first := by
  refine refresh_eq_self ?_ hself
  have := keep_keep first hsame hfirst hsecond
    fun b _ (h : b.id ∉ managed) => h
  rwa [keep_self hfirst] at this

end Element

end DiagramBoard
