/-
DiagramBoard.Proofs.Reconcile.Bindings — what is bound on a board, seen from both sides.

An arrow names the containers that its ends are bound to, a label the element that it stands in, and
these list what is bound to them.  Three steps write the lists: a part is drawn with its own label,
the arrows are attached to the drawn containers, and a redrawn element takes over what is bound to
it without being managed.  The first two make both sides agree; the third one only adds to the
lists, and nothing that the board may lose.

Main statements: bindings are mutual on a drawn board (`isMutual_draw`), redrawing keeps them so
(`IsMutual.map`), and on a board that is brought up to date they are mutual and no list names
something managed that is gone (`reconcile_bindings`).
-/
import DiagramBoard.Proofs.Reconcile.Output

namespace DiagramBoard

variable {α : Type}

/-! ## Mutual bindings -/

namespace Element

/-- What is bound to an element. -/
def bound (e : Element α) : List BoundElement := e.boundElements.getD []

/-- What the ends of an arrow are bound to. -/
def bindings (e : Element α) : List (Binding α) := e.startBinding.toList ++ e.endBinding.toList

/-- Whether an element has another one on its list. -/
def Lists (e x : Element α) : Prop := ∃ b ∈ e.bound, b.id = x.id

theorem bindsTo_iff {arrow : Element α} {id : String} :
    arrow.bindsTo id = true ↔ ∃ b ∈ arrow.bindings, b.elementId = id := by
  simp only [bindsTo, bindings, Bool.or_eq_true, Option.any_eq_true, decide_eq_true_eq,
    List.mem_append, Option.mem_toList]
  constructor
  · rintro (⟨b, hb, hid⟩ | ⟨b, hb, hid⟩)
    · exact ⟨b, .inl hb, hid⟩
    · exact ⟨b, .inr hb, hid⟩
  · rintro ⟨b, hb | hb, hid⟩
    · exact .inl ⟨b, hb, hid⟩
    · exact .inr ⟨b, hb, hid⟩

end Element

namespace Board

/-- Whether bindings are mutual among some elements: an arrow is bound to containers that list it,
and what stands in an element is listed by it. -/
structure IsMutual (elements : List (Element α)) : Prop where
  arrow : ∀ a ∈ elements, ∀ b ∈ a.bindings,
    ∃ c ∈ elements, c.kind.isContainer = true ∧ c.id = b.elementId ∧ c.Lists a
  label : ∀ t ∈ elements, ∀ holder ∈ t.containerId, ∃ c ∈ elements, c.id = holder ∧ c.Lists t

/-- Whether the entry of a list is about one of some elements. -/
def Names (elements : List (Element α)) (b : BoundElement) : Prop :=
  ∃ x ∈ elements, x.id = b.id ∧ x.kind = b.kind

variable [Scalar α]

/-- Elements that show the same are alike as far as bindings go, their lists apart. -/
theorem bindings_of_skeleton {e e' : Element α} (h : e'.skeleton = e.skeleton) :
    e'.id = e.id ∧ e'.kind = e.kind ∧ e'.containerId = e.containerId
      ∧ e'.bindings = e.bindings := by
  have hstart : e'.startBinding = e.startBinding := congrArg (·.startBinding) h
  have hend : e'.endBinding = e.endBinding := congrArg (·.endBinding) h
  refine ⟨congrArg (·.id) h, congrArg (·.kind) h, congrArg (·.containerId) h, ?_⟩
  rw [Element.bindings, Element.bindings, hstart, hend]

/-- Changing what elements do not show, and only adding to their lists, keeps bindings mutual. -/
theorem IsMutual.map {elements : List (Element α)} (h : IsMutual elements)
    {f : Element α → Element α} (hskeleton : ∀ e, (f e).skeleton = e.skeleton)
    (hbound : ∀ e, e.bound ⊆ (f e).bound) : IsMutual (elements.map f) := by
  have hlists : ∀ {c x : Element α}, c.Lists x → (f c).Lists (f x) := by
    rintro c x ⟨b, hb, hid⟩
    exact ⟨b, hbound c hb, hid.trans (bindings_of_skeleton (hskeleton x)).1.symm⟩
  constructor
  · intro y hy b hb
    obtain ⟨a, ha, rfl⟩ := List.mem_map.1 hy
    rw [(bindings_of_skeleton (hskeleton a)).2.2.2] at hb
    obtain ⟨c, hc, hcontainer, hcid, hl⟩ := h.arrow a ha b hb
    obtain ⟨hid, hkind, -⟩ := bindings_of_skeleton (hskeleton c)
    exact ⟨f c, List.mem_map_of_mem hc, by rwa [hkind], hid.trans hcid, hlists hl⟩
  · intro y hy holder hholder
    obtain ⟨t, ht, rfl⟩ := List.mem_map.1 hy
    rw [(bindings_of_skeleton (hskeleton t)).2.2.1] at hholder
    obtain ⟨c, hc, hcid, hl⟩ := h.label t ht holder hholder
    have hid := (bindings_of_skeleton (hskeleton c)).1
    exact ⟨f c, List.mem_map_of_mem hc, hid.trans hcid, hlists hl⟩

/-- Changing what elements do not show leaves entries about them so. -/
theorem Names.map {elements : List (Element α)} {b : BoundElement} (h : Names elements b)
    {f : Element α → Element α} (hskeleton : ∀ e, (f e).skeleton = e.skeleton) :
    Names (elements.map f) b := by
  obtain ⟨x, hx, hid, hkind⟩ := h
  obtain ⟨hid', hkind', -⟩ := bindings_of_skeleton (hskeleton x)
  exact ⟨f x, List.mem_map_of_mem hx, hid'.trans hid, hkind'.trans hkind⟩

end Board

open Board

/-! ## Parts and their labels -/

namespace Board

/-- Whether some elements list their labels and nothing else: the elements of one part of a diagram,
before any arrows are attached. -/
structure IsLabelled (elements : List (Element α)) : Prop where
  label : ∀ t ∈ elements, ∀ holder ∈ t.containerId,
    ∃ c ∈ elements, c.id = holder ∧ ⟨t.id, .text⟩ ∈ c.bound
  entry : ∀ e ∈ elements, ∀ b ∈ e.bound, Names elements b

theorem IsLabelled.append {xs ys : List (Element α)} (hx : IsLabelled xs) (hy : IsLabelled ys) :
    IsLabelled (xs ++ ys) := by
  constructor
  · intro t ht holder hholder
    rcases List.mem_append.1 ht with ht | ht
    · obtain ⟨c, hc, h⟩ := hx.label t ht holder hholder
      exact ⟨c, List.mem_append_left _ hc, h⟩
    · obtain ⟨c, hc, h⟩ := hy.label t ht holder hholder
      exact ⟨c, List.mem_append_right _ hc, h⟩
  · intro e he b hb
    rcases List.mem_append.1 he with he | he
    · obtain ⟨x, hx, h⟩ := hx.entry e he b hb
      exact ⟨x, List.mem_append_left _ hx, h⟩
    · obtain ⟨x, hx, h⟩ := hy.entry e he b hb
      exact ⟨x, List.mem_append_right _ hx, h⟩

theorem IsLabelled.flatMap {β : Type} {parts : List β} {f : β → List (Element α)}
    (h : ∀ p ∈ parts, IsLabelled (f p)) : IsLabelled (parts.flatMap f) := by
  induction parts with
  | nil => exact ⟨by simp, by simp⟩
  | cons p parts ih =>
    rw [List.flatMap_cons]
    exact (h p List.mem_cons_self).append (ih fun q hq => h q (List.mem_cons_of_mem _ hq))

end Board

namespace Pen

variable [Scalar α] (p : Pen α)

/-- The elements of a node beside its container and label hold nothing and are bound to nothing. -/
theorem bound_parts_nodeDrawing (n : Node α) (ids : NodeElements) :
    ∀ e ∈ (p.nodeDrawing n ids).parts, e.bound = [] ∧ e.containerId = none := by
  intro e he
  unfold nodeDrawing at he
  cases hsections : n.sections with
  | none =>
    rw [hsections] at he
    obtain ⟨bottom, -, rfl⟩ := Option.map_eq_some_iff.1 (Option.mem_toList.1 he)
    exact ⟨rfl, rfl⟩
  | some sections =>
    rw [hsections] at he
    simp only [classDrawing, List.mem_cons, List.not_mem_nil, or_false] at he
    rcases he with rfl | rfl | rfl | rfl <;> exact ⟨rfl, rfl⟩

/-- The container of a node lists the label, which stands in it. -/
theorem bound_nodeDrawing (n : Node α) (ids : NodeElements) :
    (p.nodeDrawing n ids).container.bound = [⟨(p.nodeDrawing n ids).label.id, .text⟩]
      ∧ (p.nodeDrawing n ids).container.containerId = none
      ∧ (p.nodeDrawing n ids).label.bound = []
      ∧ (p.nodeDrawing n ids).label.kind = .text
      ∧ (p.nodeDrawing n ids).label.containerId = some (p.nodeDrawing n ids).container.id := by
  unfold nodeDrawing
  cases n.sections with
  | none => exact ⟨rfl, rfl, rfl, rfl, rfl⟩
  | some sections => exact ⟨rfl, rfl, rfl, rfl, rfl⟩

theorem isLabelled_nodeDrawing (n : Node α) (ids : NodeElements) :
    IsLabelled (p.nodeDrawing n ids).elements := by
  have hparts := p.bound_parts_nodeDrawing n ids
  obtain ⟨hlist, hfree, hnone, hkind, hholder⟩ := p.bound_nodeDrawing n ids
  generalize p.nodeDrawing n ids = d at *
  constructor
  · intro t ht holder hh
    rcases List.mem_cons.1 ht with rfl | ht
    · rw [hfree] at hh
      exact nomatch hh
    rcases List.mem_cons.1 ht with rfl | ht
    · rw [hholder] at hh
      refine ⟨d.container, List.mem_cons_self, Option.some.inj hh, ?_⟩
      rw [hlist]
      exact List.mem_singleton_self _
    · rw [(hparts t ht).2] at hh
      exact nomatch hh
  · intro e he b hb
    rcases List.mem_cons.1 he with rfl | he
    · rw [hlist, List.mem_singleton] at hb
      subst hb
      exact ⟨d.label, List.mem_cons_of_mem _ List.mem_cons_self, rfl, hkind⟩
    rcases List.mem_cons.1 he with rfl | he
    · rw [hnone] at hb
      exact nomatch hb
    · rw [(hparts e he).1] at hb
      exact nomatch hb

theorem isLabelled_edgeDrawing (e : Edge α) (source target : Element α) (ids : EdgeElements) :
    IsLabelled (p.edgeDrawing e source target ids).elements := by
  unfold edgeDrawing
  cases e.label with
  | none =>
    constructor
    · intro t ht holder hh
      obtain rfl := List.mem_singleton.1 ht
      cases hh
    · intro x hx b hb
      obtain rfl := List.mem_singleton.1 hx
      cases hb
  | some text =>
    constructor
    · intro t ht holder hh
      simp only [EdgeDrawing.elements, Option.toList_some, List.mem_cons, List.not_mem_nil,
        or_false] at ht
      rcases ht with rfl | rfl
      · cases hh
      · exact ⟨_, List.mem_cons_self, Option.some.inj hh, List.mem_singleton_self _⟩
    · intro x hx b hb
      simp only [EdgeDrawing.elements, Option.toList_some, List.mem_cons, List.not_mem_nil,
        or_false] at hx
      rcases hx with rfl | rfl
      · obtain rfl := List.mem_singleton.1 hb
        exact ⟨_, List.mem_cons_of_mem _ List.mem_cons_self, rfl, rfl⟩
      · cases hb

/-! ## Arrows and their ends -/

/-- No element of a node is an arrow that is bound. -/
theorem bindings_nodeDrawing (n : Node α) (ids : NodeElements) :
    ∀ e ∈ (p.nodeDrawing n ids).elements, e.bindings = [] :=
  p.forall_mem_nodeDrawing (fun _ => ⟨rfl, rfl⟩) (fun _ _ _ _ => rfl) (fun _ _ => ⟨rfl, rfl⟩)
    (fun _ _ _ _ _ _ => rfl) (fun _ _ _ _ _ _ _ => rfl)

/-- Where an edge has bindings, they are those of a straight way between its ends. -/
theorem bindings_wayOf (e : Edge α) (source target : Element α) {bs : Binding α × Binding α}
    (h : (wayOf e source target).bindings = some bs) :
    bs.1.elementId = source.id ∧ bs.2.elementId = target.id := by
  unfold wayOf at h
  split at h
  · exact nomatch h
  · obtain rfl := Option.some.inj h
    exact ⟨rfl, rfl⟩

/-- What is bound among the elements of an edge is its arrow, and that to its source and target. -/
theorem bindings_edgeDrawing (e : Edge α) (source target : Element α) (ids : EdgeElements) :
    ∀ x ∈ (p.edgeDrawing e source target ids).elements, ∀ b ∈ x.bindings,
      x.kind = .arrow ∧ (b.elementId = source.id ∨ b.elementId = target.id) := by
  refine p.forall_mem_edgeDrawing (fun bound b hb => ⟨rfl, ?_⟩) (fun _ _ _ b hb => nomatch hb)
  have hway : b ∈ ((wayOf e source target).bindings.map (·.1)).toList
      ++ ((wayOf e source target).bindings.map (·.2)).toList := hb
  cases hbindings : (wayOf e source target).bindings with
  | none =>
    rw [hbindings] at hway
    exact absurd hway List.not_mem_nil
  | some bs =>
    obtain ⟨hsource, htarget⟩ := bindings_wayOf e source target hbindings
    rw [hbindings] at hway
    simp only [Option.map_some, Option.toList_some, List.cons_append, List.nil_append,
      List.mem_cons, List.not_mem_nil, or_false] at hway
    rcases hway with rfl | rfl
    · exact .inl hsource
    · exact .inr htarget

end Pen

/-! ## Attaching arrows -/

namespace Element

theorem mem_foldl_bindArrow_of_mem (id : String) {b : BoundElement} {others : List BoundElement}
    (arrows : List (Element α)) (h : b ∈ others) : b ∈ arrows.foldl (bindArrow id) others := by
  induction arrows generalizing others with
  | nil => exact h
  | cons a arrows ih =>
    refine ih ?_
    unfold bindArrow
    split
    · exact List.mem_append_left _ h
    · exact h

/-- Every arrow that is bound to an element gets on its list. -/
theorem exists_mem_foldl_bindArrow {id : String} {a : Element α} (others : List BoundElement)
    {arrows : List (Element α)} (ha : a ∈ arrows) (hbinds : a.bindsTo id = true) :
    ∃ b ∈ arrows.foldl (bindArrow id) others, b.id = a.id := by
  induction arrows generalizing others with
  | nil => exact nomatch ha
  | cons x arrows ih =>
    rcases List.mem_cons.1 ha with rfl | ha
    · obtain ⟨b, hb, hid⟩ : ∃ b ∈ bindArrow id others a, b.id = a.id := by
        unfold bindArrow
        cases hany : others.any (·.id = a.id) with
        | true =>
          obtain ⟨b, hb, hid⟩ := List.any_eq_true.1 hany
          exact ⟨b, by simpa using hb, of_decide_eq_true hid⟩
        | false => exact ⟨⟨a.id, .arrow⟩, by simp [hbinds], rfl⟩
      exact ⟨b, mem_foldl_bindArrow_of_mem id arrows hb, hid⟩
    · exact ih _ ha

/-- Nothing gets on the list of an element but arrows that are bound to it. -/
theorem mem_foldl_bindArrow {id : String} {b : BoundElement} {others : List BoundElement}
    {arrows : List (Element α)} (h : b ∈ arrows.foldl (bindArrow id) others) :
    b ∈ others ∨ ∃ a ∈ arrows, a.bindsTo id = true ∧ b = ⟨a.id, .arrow⟩ := by
  induction arrows generalizing others with
  | nil => exact .inl h
  | cons x arrows ih =>
    rcases ih h with hb | ⟨a, ha, h⟩
    · unfold bindArrow at hb
      split at hb
      · next hbinds =>
        rcases List.mem_append.1 hb with hb | hb
        · exact .inl hb
        · exact .inr ⟨x, List.mem_cons_self, (Bool.and_eq_true_iff.1 hbinds).1,
            List.mem_singleton.1 hb⟩
      · exact .inl hb
    · exact .inr ⟨a, List.mem_cons_of_mem _ ha, h⟩

/-- The list of an element with its arrows. -/
theorem bound_withArrows (arrows : List (Element α)) (e : Element α) :
    (e.withArrows arrows).bound = if e.kind.isContainer
      then arrows.foldl (bindArrow e.id) (e.bound.filter (·.kind ≠ .arrow)) else e.bound := by
  unfold withArrows
  split
  · next hkind =>
    simp only [bound]
    split
    · next hempty => rw [List.isEmpty_iff.1 hempty, Option.getD_none]
    · rfl
  · rfl

/-- A label stays on the list of an element when arrows are attached. -/
theorem label_mem_bound_withArrows {id : String} {e : Element α} (arrows : List (Element α))
    (h : ⟨id, .text⟩ ∈ e.bound) : ⟨id, .text⟩ ∈ (e.withArrows arrows).bound := by
  rw [bound_withArrows]
  split
  · exact mem_foldl_bindArrow_of_mem _ _ (List.mem_filter.2 ⟨h, by simp⟩)
  · exact h

end Element

namespace Pen

variable [Scalar α] (p : Pen α) (known : Identity) (d : Diagram α)

/-- The elements of a diagram before the arrows are attached. -/
def parts : List (Element α) :=
  (p.allNodes known d).flatMap NodePicture.elements
    ++ (p.allEdges known d).flatMap EdgePicture.elements

theorem isLabelled_parts : IsLabelled (p.parts known d) := by
  refine IsLabelled.append (.flatMap fun n hn => ?_) (.flatMap fun e he => ?_)
  · obtain ⟨m, -, rfl⟩ := List.mem_map.1 hn
    exact p.isLabelled_nodeDrawing m _
  · obtain ⟨f, -, hf⟩ := List.mem_filterMap.1 he
    obtain ⟨source, target, -, -, rfl⟩ := p.exists_of_edgePicture? hf
    exact p.isLabelled_edgeDrawing f source target _

variable {p known d}

/-- Whatever is bound is an arrow of an edge, and what it is bound to is a container. -/
theorem exists_of_mem_bindings {x : Element α} (hx : x ∈ p.parts known d) {b : Binding α}
    (hb : b ∈ x.bindings) : x ∈ p.allArrows known d ∧ x.kind = .arrow
      ∧ ∃ c ∈ p.parts known d, c.kind.isContainer = true ∧ c.id = b.elementId := by
  rcases List.mem_append.1 hx with hx | hx
  · obtain ⟨n, hn, hx⟩ := List.mem_flatMap.1 hx
    obtain ⟨m, -, rfl⟩ := List.mem_map.1 hn
    rw [p.bindings_nodeDrawing m _ x hx] at hb
    exact nomatch hb
  · have hmem := hx
    obtain ⟨y, hy, hx⟩ := List.mem_flatMap.1 hx
    obtain ⟨e, -, he⟩ := List.mem_filterMap.1 hy
    obtain ⟨source, target, hs, ht, rfl⟩ := p.exists_of_edgePicture? he
    obtain ⟨hkind, hends⟩ := p.bindings_edgeDrawing e source target _ x hx b hb
    -- containers of drawn nodes are found among the elements of the nodes
    have hfound : ∀ {id : String} {c : Element α},
        containerOf? (p.drawNodes known d.nodes) id = some c →
          c ∈ p.parts known d ∧ c.kind.isContainer = true := by
      intro id c hc
      have hshows := List.find?_some hc
      rw [Bool.and_eq_true] at hshows
      have hdrawn := List.mem_of_find?_eq_some hc
      rw [drawNodes_eq] at hdrawn
      exact ⟨List.mem_append_left _ hdrawn, hshows.1⟩
    refine ⟨hmem, hkind, ?_⟩
    rcases hends with hid | hid
    · exact ⟨source, (hfound hs).1, (hfound hs).2, hid.symm⟩
    · exact ⟨target, (hfound ht).1, (hfound ht).2, hid.symm⟩

variable (p known d)

/-- Bindings are mutual on a drawn board. -/
theorem isMutual_draw : IsMutual (p.draw known d) := by
  have hlabelled := p.isLabelled_parts known d
  have hattach := fun e => bindings_of_skeleton
    (Element.skeleton_withArrows (p.allArrows known d) e)
  rw [draw_eq, ← parts]
  constructor
  · intro y hy b hb
    obtain ⟨a, ha, rfl⟩ := List.mem_map.1 hy
    rw [(hattach a).2.2.2] at hb
    obtain ⟨harrow, -, c, hc, hcontainer, hid⟩ := exists_of_mem_bindings ha hb
    obtain ⟨hcid, hkind, -⟩ := hattach c
    refine ⟨_, List.mem_map_of_mem hc, by rwa [hkind], hcid.trans hid, ?_⟩
    rw [Element.Lists, Element.bound_withArrows, if_pos hcontainer, (hattach a).1]
    exact Element.exists_mem_foldl_bindArrow _ harrow (Element.bindsTo_iff.2 ⟨b, hb, hid.symm⟩)
  · intro y hy holder hholder
    obtain ⟨t, ht, rfl⟩ := List.mem_map.1 hy
    rw [(hattach t).2.2.1] at hholder
    obtain ⟨c, hc, hid, hlist⟩ := hlabelled.label t ht holder hholder
    exact ⟨_, List.mem_map_of_mem hc, (hattach c).1.trans hid, ⟨t.id, .text⟩,
      Element.label_mem_bound_withArrows _ hlist, (hattach t).1.symm⟩

/-- The lists of a drawn board name elements of the board. -/
theorem names_draw : ∀ e ∈ p.draw known d, ∀ b ∈ e.bound, Names (p.draw known d) b := by
  have hlabelled := p.isLabelled_parts known d
  have hskeleton := Element.skeleton_withArrows (p.allArrows known d)
  rw [draw_eq, ← parts]
  intro y hy b hb
  obtain ⟨e, he, rfl⟩ := List.mem_map.1 hy
  rw [Element.bound_withArrows] at hb
  split at hb
  · rcases Element.mem_foldl_bindArrow hb with hb | ⟨a, ha, hbinds, rfl⟩
    · exact (hlabelled.entry e he b (List.mem_filter.1 hb).1).map hskeleton
    · have hmem : a ∈ p.parts known d := List.mem_append_right _ ha
      obtain ⟨binding, hbinding, -⟩ := Element.bindsTo_iff.1 hbinds
      obtain ⟨-, hkind, -⟩ := exists_of_mem_bindings hmem hbinding
      exact Names.map ⟨a, hmem, rfl, hkind⟩ hskeleton
  · exact (hlabelled.entry e he b hb).map hskeleton

end Pen

/-! ## Boards that are brought up to date -/

namespace Element

variable [Scalar α]

/-- The list of a redrawn element is that of its drawing and what was bound to it by hand. -/
theorem bound_refresh (managed : List String) (old fresh : Element α) :
    (refresh managed old fresh).bound = fresh.bound ++ foreignBound managed old fresh := by
  have hkeep : (keep managed old fresh).bound
      = fresh.bound ++ foreignBound managed old fresh := by
    simp only [keep, bound]
    split
    · next hempty => rw [List.isEmpty_iff.1 hempty, List.append_nil]
    · rfl
  obtain ⟨version, nonce, heq⟩ := refresh_eq managed old fresh
  rw [heq]
  exact hkeep

end Element

namespace Board

variable [Scalar α] (ids : List String) (managed : List (Element α)) (e : Element α)

theorem bound_subset_refreshed : e.bound ⊆ (refreshed ids managed e).element.bound := by
  unfold refreshed
  split
  · simp only [Item.drawn, Element.bound_refresh]
    exact List.subset_append_left _ _
  · exact List.Subset.refl _

/-- Nothing that is managed gets on a list by redrawing. -/
theorem mem_bound_refreshed {b : BoundElement} (h : b ∈ (refreshed ids managed e).element.bound)
    (hb : b.id ∈ ids) : b ∈ e.bound := by
  unfold refreshed at h
  split at h
  · simp only [Item.drawn, Element.bound_refresh, List.mem_append, Element.foreignBound,
      List.mem_filter, Bool.and_eq_true] at h
    rcases h with h | ⟨-, hfree, -⟩
    · exact h
    · simp [hb] at hfree
  · exact h

theorem isMutual_renewedOn (options : ReconcileOptions α) (elements : List (Element α))
    (target : Diagram α) : IsMutual ((renewedOn options elements target).map (·.element)) := by
  rw [renewedOn, List.map_map]
  exact IsMutual.map (Pen.isMutual_draw ..) (skeleton_refreshed _ _) (bound_subset_refreshed _ _)

theorem names_renewedOn (options : ReconcileOptions α) (elements : List (Element α))
    (target : Diagram α) : ∀ e ∈ (renewedOn options elements target).map (·.element),
      ∀ b ∈ e.bound, b.id ∈ managedIds elements →
        Names ((renewedOn options elements target).map (·.element)) b := by
  rw [renewedOn, List.map_map]
  intro e he b hb hmanaged
  obtain ⟨x, hx, rfl⟩ := List.mem_map.1 he
  have hb' := mem_bound_refreshed _ _ x hb hmanaged
  exact (Pen.names_draw _ _ _ x hx b hb').map (skeleton_refreshed _ _)

end Board

/-- A board that is brought up to date consists of the elements that were not managed and of what is
drawn.  Among what is drawn bindings are mutual: an arrow is bound to containers that list it, and
what stands in an element is listed by it.  Whatever was managed before and is still on a list is
drawn too. -/
theorem reconcile_bindings [Scalar α] (options : ReconcileOptions α) {text : String}
    {target : Diagram α} (htext : Diagram.parse text = .ok target) (items : List (Item α)) :
    ∃ drawn, reconcile options text items = .ok
        (items.filter (fun i =>
          !(managedIds (items.map (·.element))).contains i.element.id) ++ drawn)
      ∧ IsMutual (drawn.map (·.element))
      ∧ ∀ e ∈ drawn.map (·.element), ∀ b ∈ e.bound, b.id ∈ managedIds (items.map (·.element)) →
        Names (drawn.map (·.element)) b := by
  refine ⟨renewedOn options (items.map (·.element)) target, reconcile_eq_ok.2 ⟨target, htext, ?_⟩,
    isMutual_renewedOn .., names_renewedOn options _ target⟩
  exact update_eq options target items

/-- Two boxes with an arrow between them that shows an edge, and an arrow that somebody has drawn
from the first box to nowhere. -/
def handDrawn : List (Item Float) :=
  [Item.drawn { Element.bare "a" .rectangle with
      metadata := some { nodeId := some "A" }
      boundElements := some [⟨"e", .arrow⟩, ⟨"h", .arrow⟩] },
    Item.drawn { Element.bare "b" .rectangle with
      metadata := some { nodeId := some "B" }, boundElements := some [⟨"e", .arrow⟩] },
    Item.drawn { Element.bare "e" .arrow with
      metadata := some { edgeId := some "A->B", source := some "A", target := some "B" }
      startBinding := some (.onto "a"), endBinding := some (.onto "b") },
    Item.drawn { Element.bare "h" .arrow with startBinding := some (.onto "a") }]

/-- A text without the edge takes its arrow off both lists, and leaves the other arrow on the list
of the first box. -/
theorem reconcile_bindings_handDrawn : ∃ drawn : List (Item Float),
    reconcile .standard "graph TD\nA\nB" handDrawn = .ok (handDrawn.drop 3 ++ drawn)
      ∧ IsMutual (drawn.map (·.element))
      ∧ drawn.map (fun i => i.element.bound.map (·.id)) =
        [[Board.derivedId "text" "A", "h"], [], [Board.derivedId "text" "B"], []] := by
  obtain ⟨out, hout, hlists⟩ : ∃ out, reconcile .standard "graph TD\nA\nB" handDrawn = .ok out
      ∧ decide ((out.drop 1).map (fun i => i.element.bound.map (·.id)) =
        [[Board.derivedId "text" "A", "h"], [], [Board.derivedId "text" "B"], []]) = true :=
    exists_ok_of_any (by decide +kernel)
  obtain ⟨target, htext, -⟩ := reconcile_eq_ok.1 hout
  obtain ⟨drawn, hdrawn, hmutual, -⟩ := reconcile_bindings .standard htext handDrawn
  have hfree : handDrawn.filter (fun i =>
      !(managedIds (handDrawn.map (·.element))).contains i.element.id) = handDrawn.drop 3 := rfl
  rw [hfree] at hdrawn
  obtain rfl := Except.ok.inj (hout.symm.trans hdrawn)
  exact ⟨drawn, hdrawn, hmutual, of_decide_eq_true hlists⟩

end DiagramBoard
