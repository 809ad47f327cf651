/-
DiagramBoard.Proofs.Reconcile.Again — bringing a board up to date twice with the same text.

The second time nothing is new: the board shows all nodes at their places, and every element is found
under its id and has all looks already.  The only thing that the second drawing may do differently is
to draw lines of arrows in another style, for arrows always take the style of the board, and that is
read off containers some of which may be gone or stand in another order by then.

Main statement: the second time changes nothing exactly if no line of an edge changes
(`reconcile_again_iff`).
-/
import DiagramBoard.Proofs.Reconcile.Output

namespace DiagramBoard

open Board

variable {α : Type} [Scalar α]

/-! ## Redrawn elements drawn once more -/

namespace Board

theorem id_refreshed (managedIds : List String) (old : List (Element α)) (e : Element α) :
    (refreshed managedIds old e).element.id = e.id :=
  congrArg (·.id) (skeleton_refreshed managedIds old e)

variable {before after : List String} {old : List (Element α)}

/-- An element that is on a board is found there by its id, if no two elements share one. -/
theorem liveElement?_refreshed {drawn : List (Element α)}
    (hlive : ∀ e ∈ drawn, e.isDeleted = false) (hids : (drawn.map (·.id)).Nodup)
    {x : Element α} (hx : x ∈ drawn) :
    liveElement? ((drawn.map (refreshed before old)).map (·.element)) x.id
      = some (refreshed before old x).element := by
  let renewed := (drawn.map (refreshed before old)).map (·.element)
  have hrenewed : live renewed = renewed := by
    rw [live, List.filter_eq_self]
    intro e he
    obtain ⟨i, hi, rfl⟩ := List.mem_map.1 he
    obtain ⟨y, hy, rfl⟩ := List.mem_map.1 hi
    have hdeleted : (refreshed before old y).element.isDeleted = y.isDeleted :=
      congrArg (·.isDeleted) (skeleton_refreshed before old y)
    rw [hdeleted, hlive y hy]
    rfl
  have hnodup : (renewed.map (·.id)).Nodup := by
    have hmap : renewed.map (·.id) = drawn.map (·.id) := by
      rw [List.map_map, List.map_map]
      exact List.map_congr_left fun e _ => id_refreshed before old e
    rwa [hmap]
  rw [liveElement?, hrenewed, ← id_refreshed before old x]
  exact getLast?_of_nodup hnodup (List.mem_map_of_mem (List.mem_map_of_mem hx))

/-- An element that was brought up to date stays as it is when the same contents are drawn again. -/
theorem refresh_refreshed {x y : Element α} (hsame : y.unstyled = x.unstyled) (hx : x.IsDrawn)
    (hy : y.IsDrawn)
    (hfree : ∀ e ∈ old, ∀ b ∈ e.boundElements.getD [], b.id ∉ before → b.id ∉ after)
    (hself : ((refreshed before old x).element == (refreshed before old x).element) = true) :
    (refreshed before old x).element.refresh after y = (refreshed before old x).element := by
  unfold refreshed at hself ⊢
  cases hold : liveElement? old x.id with
  | none =>
    rw [hold] at hself
    exact Element.refresh_of_drawn hsame hx hy hself
  | some e =>
    rw [hold] at hself
    have hmem : e ∈ old :=
      (List.mem_filter.1 (List.mem_filter.1 (List.mem_of_getLast? hold)).1).1
    exact Element.refresh_refresh hsame hx hy (hfree e hmem) hself

/-- Elements that were brought up to date with some elements stay as they are when they are drawn
once more with the same contents. -/
theorem map_refreshed_again {first second : List (Element α)}
    (hsame : second.map Element.unstyled = first.map Element.unstyled)
    (hfirst : ∀ e ∈ first, e.IsDrawn) (hsecond : ∀ e ∈ second, e.IsDrawn)
    (hlive : ∀ e ∈ first, e.isDeleted = false) (hids : (first.map (·.id)).Nodup)
    (hfree : ∀ e ∈ old, ∀ b ∈ e.boundElements.getD [], b.id ∉ before → b.id ∉ after)
    (hself : ∀ i ∈ first.map (refreshed before old), (i.element == i.element) = true) :
    second.map (refreshed after ((first.map (refreshed before old)).map (·.element)))
      = first.map (refreshed before old) := by
  have hpairs : List.Forall₂ (fun y x : Element α => y.unstyled = x.unstyled) second first := by
    rwa [← List.forall₂_eq_eq_eq, List.forall₂_map_left_iff, List.forall₂_map_right_iff] at hsame
  rw [← List.forall₂_eq_eq_eq, List.forall₂_map_left_iff, List.forall₂_map_right_iff]
  refine ((List.forall₂_and_left _ _).2 ⟨fun y hy => hy,
    ((List.forall₂_and_left _ _).2 ⟨fun x hx => hx, hpairs.flip⟩).flip⟩).imp ?_
  rintro y x ⟨hy, hx, hyx⟩
  -- the second drawing finds what became of the first one
  have hid : y.id = x.id := congrArg (·.id) hyx
  have hagain := refresh_refreshed hyx (hfirst x hx) (hsecond y hy) hfree
    (hself _ (List.mem_map_of_mem hx))
  have hdrawn : Item.drawn (refreshed before old x).element = refreshed before old x := by
    unfold refreshed
    split <;> rfl
  rw [refreshed, hid, liveElement?_refreshed hlive hids hx]
  exact (congrArg Item.drawn hagain).trans hdrawn

/-! ## The second time -/

/-- Whether all that nobody managed on a board, elements as well as what is bound to elements, is not
managed on the board that became of it. -/
structure LeavesAlone (before after : List (Element α)) : Prop where
  elements : ∀ e ∈ before, e.id ∉ managedIds before → e.id ∉ managedIds after
  bound : ∀ e ∈ before, ∀ b ∈ e.boundElements.getD [], b.id ∉ managedIds before →
    b.id ∉ managedIds after

variable {options : ReconcileOptions α} {target : Diagram α} {items : List (Item α)}

/-- The elements that the second time finds are those that the first time drew, and it leaves the
same ones alone. -/
theorem split_update (htarget : target.IsDescribed)
    (hfree : LeavesAlone (items.map (·.element))
      ((Board.update options target items).map (·.element))) :
    let after := (Board.update options target items).map (·.element)
    managed after = (renewedOn options (items.map (·.element)) target).map (·.element)
      ∧ (Board.update options target items).filter
          (fun i => !(managedIds after).contains i.element.id)
        = items.filter fun i => !(managedIds (items.map (·.element))).contains i.element.id := by
  intro after
  let kept := items.filter fun i => !(managedIds (items.map (·.element))).contains i.element.id
  let renewed := renewedOn options (items.map (·.element)) target
  have hkept : ∀ i ∈ kept, i.element.id ∉ managedIds after := by
    intro i hi
    obtain ⟨hmem, hout⟩ := List.mem_filter.1 hi
    exact hfree.elements _ (List.mem_map_of_mem hmem) (by simpa using hout)
  have hrenewed : ∀ i ∈ renewed, i.element.id ∈ managedIds after := by
    refine mem_managedIds_of_renewedOn htarget ?_
    show _ ⊆ (kept ++ renewed).map (·.element)
    rw [List.map_append]
    exact List.subset_append_right _ _
  refine ⟨?_, ?_⟩
  · show ((kept ++ renewed).map (·.element)).filter _ = _
    rw [List.map_append]
    refine filter_append_eq_right (fun e he => ?_) fun e he => ?_
    · obtain ⟨i, hi, rfl⟩ := List.mem_map.1 he
      simpa using hkept i hi
    · obtain ⟨i, hi, rfl⟩ := List.mem_map.1 he
      simpa using hrenewed i hi
  · show (kept ++ renewed).filter _ = _
    refine filter_append_eq_left (fun i hi => ?_) fun i hi => ?_
    · simpa using hkept i hi
    · simpa using hrenewed i hi

theorem fontSize_styleOn (options : ReconcileOptions α) (before after : List (Element α)) :
    (styleOn options after).fontSize = (styleOn options before).fontSize := by
  rw [styleOn, styleOn]
  cases options.board <;> rfl

/-- The second time, the diagram is drawn where it was drawn before. -/
theorem isSameDiagram_update (hforce : options.layout.forceRelayout = false)
    (htarget : target.IsDescribed) {before after : List (Element α)}
    (hafter : managed after = (renewedOn options before target).map (·.element))
    (h : ((penOn options before target).holderIds (Board.read (managed before)).identity
      (placedOn options before target)).Nodup) :
    Pen.IsSameDiagram (penOn options before target) (penOn options after target)
      (Board.read (managed before)).identity (Board.read (managed after)).identity
      (placedOn options before target) (placedOn options after target) := by
  have hcurrent : ∀ n ∈ (Board.read (managed before)).diagram.nodes, IsUnusualSize n.style :=
    fun _ hn => isUnusualSize_read hn
  have hfont := fontSize_styleOn options before after
  rw [elements_renewedOn h] at hafter
  unfold penOn placedOn at *
  rw [hafter]
  by_cases hlanes : target.kind.strategy = .lanes
  · have hlike : target.kind.isClassLike = false := by
      cases hk : target.kind <;> simp_all [DiagramKind.strategy, DiagramKind.isClassLike]
    exact isSameDiagram_lanes hlanes (htarget.sections_eq hlike) hcurrent hfont rfl h
  · exact isSameDiagram_ranks hforce hlanes hcurrent hfont rfl h

/-- The lines of placed edges are those of the edges of the diagram. -/
theorem forall_lineOf_placedOn (options : ReconcileOptions α) (elements : List (Element α))
    (target : Diagram α) (before after : BoardStyle α) :
    (∀ e ∈ (placedOn options elements target).edges,
        Pen.lineOf after e = Pen.lineOf before e)
      ↔ ∀ e ∈ target.edges, Pen.lineOf after e = Pen.lineOf before e := by
  have hedges := Diagram.forall₂_edges_of_content (content_placedOn options elements target)
  have hline : ∀ {e t : Edge α}, e.unrouted = t.unrouted → ∀ board : BoardStyle α,
      Pen.lineOf board e = Pen.lineOf board t := by
    intro e t hsame board
    have hstyle : e.style = t.style := congrArg (·.style) hsame
    rw [Pen.lineOf, Pen.lineOf, hstyle]
  constructor
  · intro h t ht
    obtain ⟨e, he, hsame⟩ := exists_of_forall₂ hedges t ht
    rw [← hline hsame, ← hline hsame]
    exact h e he
  · intro h e he
    obtain ⟨t, ht, hsame⟩ := exists_of_forall₂ hedges.flip e he
    rw [hline hsame, hline hsame]
    exact h t ht

theorem skeletons_renewedOn (options : ReconcileOptions α) (elements : List (Element α))
    (target : Diagram α) :
    (renewedOn options elements target).map (·.element.skeleton)
      = (drawnOn options elements target).map Element.skeleton := by
  rw [renewedOn, List.map_map]
  exact List.map_congr_left fun e _ => skeleton_refreshed _ _ e

/-- Where the elements of a new board have ids of their own, so have those that were drawn. -/
theorem nodup_drawnOn (hids : ((Board.update options target items).map (·.element.id)).Nodup) :
    ((drawnOn options (items.map (·.element)) target).map (·.id)).Nodup := by
  have hmap := congrArg (List.map fun e : Element α => e.id)
    (skeletons_renewedOn options (items.map (·.element)) target)
  rw [List.map_map, List.map_map] at hmap
  rw [update_eq, List.map_append] at hids
  exact hmap ▸ (List.nodup_append.1 hids).2.1

variable [OrderedScalar α]

/-- The second time changes nothing exactly if no line of an edge changes. -/
theorem update_update_iff (hforce : options.layout.forceRelayout = false)
    (htarget : target.IsDescribed)
    (hids : ((Board.update options target items).map (·.element.id)).Nodup)
    (hself : ∀ i ∈ Board.update options target items, (i.element == i.element) = true)
    (hfree : LeavesAlone (items.map (·.element))
      ((Board.update options target items).map (·.element))) :
    Board.update options target (Board.update options target items)
        = Board.update options target items
      ↔ ∀ e ∈ target.edges,
        Pen.lineOf (styleOn options ((Board.update options target items).map (·.element))) e
          = Pen.lineOf (styleOn options (items.map (·.element))) e := by
  let before := items.map (·.element)
  let after := (Board.update options target items).map (·.element)
  let p := penOn options before target
  let known := (Board.read (managed before)).identity
  let d := placedOn options before target
  obtain ⟨hmanaged, hkept⟩ := split_update htarget hfree
  have hdrawn := nodup_drawnOn hids
  have hholders : (p.holderIds known d).Nodup := hdrawn.sublist p.holderIds_sublist
  have hsame := isSameDiagram_update hforce htarget hmanaged hholders
  have hjoined : ∀ e ∈ d.edges, Pen.isJoined (p.drawNodes known d.nodes) e = true :=
    p.isJoined_drawNodes known
      (Diagram.ends_of_content (content_placedOn options before target) htarget.ends)
  have hcancel : Board.update options target (Board.update options target items)
        = Board.update options target items
      ↔ renewedOn options after target = renewedOn options before target := by
    rw [update_eq, hkept, update_eq options target items]
    exact List.append_right_inj _
  rw [hcancel, ← forall_lineOf_placedOn options before target]
  constructor
  · intro hagain e he
    -- elements that are the same show the same
    have hskeleton : (drawnOn options after target).map Element.skeleton
        = (drawnOn options before target).map Element.skeleton := by
      rw [← skeletons_renewedOn, ← skeletons_renewedOn, hagain]
    exact Pen.lineOf_of_skeleton_draw hsame hskeleton e he (hjoined e he)
  · intro hlines
    rw [renewedOn, hmanaged]
    refine map_refreshed_again (Pen.unstyled_draw_again hsame fun e he _ => hlines e he)
      (Pen.isDrawn_of_mem_draw _ _ _) (Pen.isDrawn_of_mem_draw _ _ _) (Pen.isLive_of_mem_draw _ _ _)
      hdrawn ?_ ?_
    · intro e he b hb hbefore
      exact hfree.bound e (List.mem_filter.1 he).1 b hb hbefore
    · exact fun i hi => hself i (List.mem_append_right _ hi)

end Board

/-- A board that is brought up to date twice with the same text stays as it is the second time exactly
if the style of the new board gives every edge the line that the style of the old one gave it.  The
elements of the new board must have ids of their own, no number on it may differ from itself, and
nothing that nobody managed may be managed on it. -/
theorem reconcile_again_iff {options : ReconcileOptions Float} {text : String}
    {target : Diagram Float} {items out : List (Item Float)}
    (hforce : options.layout.forceRelayout = false) (htext : Diagram.parse text = .ok target)
    (hout : reconcile options text items = .ok out) (hids : (out.map (·.element.id)).Nodup)
    (hself : ∀ i ∈ out, (i.element == i.element) = true)
    (hfree : LeavesAlone (items.map (·.element)) (out.map (·.element))) :
    reconcile options text out = .ok out
      ↔ ∀ e ∈ target.edges, Pen.lineOf (styleOn options (out.map (·.element))) e
        = Pen.lineOf (styleOn options (items.map (·.element))) e := by
  rw [reconcile, htext] at hout ⊢
  obtain rfl := Except.ok.inj hout
  rw [← update_update_iff hforce (Diagram.isDescribed_of_parse htext) hids hself hfree]
  exact ⟨Except.ok.inj, congrArg Except.ok⟩

/-- In a style that was asked for, the second time never changes anything. -/
theorem reconcile_again_of_board {options : ReconcileOptions Float} {text : String}
    {items out : List (Item Float)} {board : BoardStyle Float} (hboard : options.board = some board)
    (hforce : options.layout.forceRelayout = false)
    (hout : reconcile options text items = .ok out) (hids : (out.map (·.element.id)).Nodup)
    (hself : ∀ i ∈ out, (i.element == i.element) = true)
    (hfree : LeavesAlone (items.map (·.element)) (out.map (·.element))) :
    reconcile options text out = .ok out := by
  cases htext : (Diagram.parse text : Except SyntaxError (Diagram Float)) with
  | error e =>
    rw [reconcile, htext] at hout
    simp [Except.map] at hout
  | ok target =>
    refine (reconcile_again_iff hforce htext hout hids hself hfree).2 fun e _ => ?_
    rw [styleOn, styleOn, hboard]
    rfl

/-- Two boxes that somebody has given other lines and another order. -/
def restyled : List (Item Float) :=
  [.drawn { Element.bare "b" .rectangle with
      y := 200, width := 150, height := 60, strokeWidth := some 4
      metadata := some { nodeId := some "B" } },
    .drawn { Element.bare "a" .rectangle with
      width := 150, height := 60, strokeWidth := some 1, metadata := some { nodeId := some "A" } }]

/-- As many boxes have the one line as the other, so the order of the boxes decides on the line of
the arrow, and drawing changes the order. -/
theorem not_reconcile_again_restyled :
    ∃ out, reconcile .standard "graph TD\nA --> B" restyled = .ok out
      ∧ reconcile .standard "graph TD\nA --> B" out ≠ .ok out := by
  -- the arrow stands last
  have hversions : (match reconcile .standard "graph TD\nA --> B" restyled with
      | .ok out => match reconcile .standard "graph TD\nA --> B" out with
        | .ok again => decide (again.getLast?.map (·.element.version)
          ≠ out.getLast?.map (·.element.version))
        | .error _ => true
      | .error _ => false) = true := by decide +kernel
  cases hout : reconcile .standard "graph TD\nA --> B" restyled with
  | error e => simp [hout] at hversions
  | ok out =>
    refine ⟨out, rfl, fun hagain => ?_⟩
    simp [hout, hagain] at hversions

end DiagramBoard
