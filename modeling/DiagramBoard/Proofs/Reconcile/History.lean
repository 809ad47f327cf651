/-
DiagramBoard.Proofs.Reconcile.History — a board that is brought up to date with one text after
another.

As long as nobody else touches the board, everything on it was drawn: its elements are managed, they
have the ids that are made for them, and its containers have the lines of new ones.  Bringing such a
board up to date gives another one, and reading it gives the last diagram, whatever was on the board
before.

Main statements: bringing a board of own elements up to date leaves a board of own elements
(`isOwnBoard_update`), reading it gives the diagram (`isReadFrom_update`), and after any texts a board
shows what the last diagram among them says (`diagram_afterTexts`).
-/
import Mathlib
import DiagramBoard.Proofs.Board.OwnElements
import DiagramBoard.Proofs.Reconcile.Output

namespace DiagramBoard

open Board

variable {α : Type} [Scalar α]

/-! ## Bringing own elements up to date -/

/-- What redrawing does to a line: that of an arrow is drawn anew, all others stay. -/
theorem Element.line_refresh (managed : List String) (old fresh : Element α) :
    (refresh managed old fresh).strokeWidth
        = (if fresh.kind = .arrow then fresh.strokeWidth else old.strokeWidth.or fresh.strokeWidth)
      ∧ (refresh managed old fresh).strokeStyle
        = (if fresh.kind = .arrow then fresh.strokeStyle
          else old.strokeStyle.or fresh.strokeStyle) := by
  obtain ⟨version, nonce, heq⟩ := refresh_eq managed old fresh
  rw [heq]
  simp [keep]

namespace Board

variable {made : List (String × String)} {elements : List (Element α)}

/-- An own element that is brought up to date with own elements stays one. -/
theorem isOwn_refreshed (hids : NeverCollide made) (h : ∀ e ∈ elements, e.IsOwn made)
    (managedIds : List String) {drawn : Element α} (hdrawn : drawn.IsOwn made) :
    (refreshed managedIds elements drawn).element.IsOwn made := by
  have hskeleton := skeleton_refreshed managedIds elements drawn
  have hkind : (refreshed managedIds elements drawn).element.kind = drawn.kind :=
    congrArg (·.kind) hskeleton
  have hid : (refreshed managedIds elements drawn).element.id = drawn.id :=
    congrArg (·.id) hskeleton
  have hshown : (refreshed managedIds elements drawn).element.shownNodeId = drawn.shownNodeId := by
    rw [Element.shownNodeId, Element.shownNodeId, hid,
      Element.bind_metadata_of_skeleton hskeleton fun _ => rfl]
  refine ⟨fun hc => ?_, fun hc => ?_, fun ha => ?_, fun hc => ?_⟩
  · rw [hshown, hid, Element.tag?_of_skeleton hskeleton]
    exact hdrawn.container (hkind ▸ hc)
  · rw [hkind] at hc
    have hline := hdrawn.line hc
    unfold refreshed
    split
    · next old hold =>
      obtain ⟨hmem, hsame⟩ := List.mem_filter.1 (List.mem_of_getLast? hold)
      have hown := h old (List.mem_filter.1 hmem).1
      obtain ⟨hnode, hnodeId, -⟩ := hdrawn.container hc
      -- nothing but a container can have the id of one
      have hcontainer : old.kind.isContainer = true := by
        by_contra hne
        refine hids.ne_of_isPartId hnode (hown.part (by simpa using hne)) ?_
        rw [of_decide_eq_true hsame, hnodeId]
      obtain ⟨hw, hs⟩ := Element.line_refresh managedIds old drawn
      have hne : drawn.kind ≠ .arrow := ElementKind.ne_arrow_of_isContainer hc
      rw [if_neg hne, (hown.line hcontainer).1] at hw
      rw [if_neg hne, (hown.line hcontainer).2] at hs
      exact ⟨hw, hs⟩
    · exact hline
  · rw [hid, Element.bind_metadata_of_skeleton hskeleton fun _ => rfl]
    exact hdrawn.arrow (hkind ▸ ha)
  · rw [hid]
    exact hdrawn.part (hkind ▸ hc)

/-- A board of own elements, all of them managed. -/
structure IsOwnBoard (made : List (String × String)) (elements : List (Element α)) : Prop where
  own : ∀ e ∈ elements, e.IsOwn made
  managed : ∀ e ∈ elements, e.id ∈ managedIds elements

end Board

/-! ## The next drawing -/

omit [Scalar α] in
/-- New elements get their ids from what the diagram says. -/
theorem Diagram.makings_of_content {d d' : Diagram α} (h : d'.content = d.content) :
    d'.makings = d.makings := by
  have hcontent : ∀ x : Diagram α, x.content.makings = x.makings := by
    intro x
    simp only [makings, content, List.flatMap_map]
    rfl
  rw [← hcontent d', h, hcontent]

namespace Board

variable {made : List (String × String)} {elements : List (Element α)} {target : Diagram α}

theorem isOwn_managed (h : ∀ e ∈ elements, e.IsOwn made) : ∀ e ∈ managed elements, e.IsOwn made :=
  fun e he => h e (List.mem_filter.1 he).1

/-- What is drawn on a board of own elements consists of own elements. -/
theorem isOwn_drawnOn (hself : ((2 : α) == 2) = true) (h : ∀ e ∈ elements, e.IsOwn made)
    (htarget : target.IsDescribed) (hmade : target.makings ⊆ made) :
    ∀ e ∈ drawnOn .standard elements target, e.IsOwn made := by
  obtain ⟨hwidth, hstyle⟩ := line_infer h
  have hcontent := content_placedOn .standard elements target
  refine Pen.isOwn_draw (isOwn_managed h) hwidth hstyle
    (Diagram.makings_of_content hcontent ▸ hmade) ?_ ?_
  · intro n hn hend
    have hkind : (placedOn .standard elements target).kind = target.kind :=
      congrArg (·.kind) hcontent
    rw [Diagram.isSome_lifelineEnd_placeAfter _ _
      (fun t ht => (htarget.nodes t ht).lifelineEnd) n hn] at hend
    exact hkind ▸ of_decide_eq_true hend
  · intro n hn
    obtain ⟨t, ht, hstyle, -⟩ := Diagram.exists_of_mem_placeAfter _ _ hn
    rw [hstyle, (htarget.nodes t ht).style, Option.none_or]
    cases hnode : (Board.read (managed elements)).diagram.node? t.id with
    | none => exact ⟨rfl, rfl⟩
    | some m => exact isLineless_read hself (isOwn_managed h) (List.mem_of_find?_eq_some hnode)

/-- The ids of the containers are made of those of the nodes. -/
theorem ids_allNodes (p : Pen α) (h : ∀ e ∈ elements, e.IsOwn made) (d : Diagram α) :
    (p.allNodes (Board.read (managed elements)).identity d).map (·.container.id)
      = d.nodeIds.map (derivedId "node") := by
  rw [Pen.allNodes, Pen.nodePictures, Diagram.nodeIds, List.map_map, List.map_map]
  exact List.map_congr_left fun n _ =>
    (p.id_container_nodePicture n _).trans (container_nodeElements (isOwn_managed h) n)

/-- The ids of the arrows are made of those of the edges. -/
theorem ids_allEdges (p : Pen α) (h : ∀ e ∈ elements, e.IsOwn made) {d : Diagram α}
    (hends : ∀ e ∈ d.edges, e.source ∈ d.nodeIds ∧ e.target ∈ d.nodeIds) :
    (p.allEdges (Board.read (managed elements)).identity d).map (·.arrow.id)
      = (d.edges.map (·.id)).map (derivedId "arrow") := by
  rw [Pen.allEdges, Pen.edgePictures, List.map_filterMap, List.map_map]
  refine (List.filterMap_congr fun e he => ?_).trans
    (congrFun (List.filterMap_eq_map (f := fun e : Edge α => derivedId "arrow" e.id)) _)
  obtain ⟨x, hx⟩ := Option.isSome_iff_exists.1 (p.isSome_edgePicture? _ hends e he)
  obtain ⟨source, target, -, -, rfl⟩ := p.exists_of_edgePicture? hx
  rw [hx, Option.map_some, p.id_arrow_edgePicture]
  exact congrArg some (arrow_edgeElements (isOwn_managed h) e)

/-- Different containers and arrows get different ids. -/
theorem nodup_holderIds (hids : NeverCollide made) (h : ∀ e ∈ elements, e.IsOwn made)
    (htarget : target.IsDescribed) (hmade : target.makings ⊆ made) :
    ((penOn .standard elements target).holderIds (Board.read (managed elements)).identity
      (placedOn .standard elements target)).Nodup := by
  have hcontent := content_placedOn .standard elements target
  have hnode : ∀ i ∈ target.nodeIds, ("node", i) ∈ made := by
    intro i hi
    obtain ⟨n, hn, rfl⟩ := List.mem_map.1 hi
    exact hmade (Diagram.mem_makings_of_node hn List.mem_cons_self)
  have hedge : ∀ i ∈ target.edges.map (·.id), ("arrow", i) ∈ made := by
    intro i hi
    obtain ⟨e, he, rfl⟩ := List.mem_map.1 hi
    exact hmade (Diagram.mem_makings_of_edge he List.mem_cons_self)
  rw [Pen.holderIds, ids_allNodes _ h, ids_allEdges _ h (Diagram.ends_of_content hcontent htarget.ends),
    Diagram.nodeIds_of_content hcontent, Diagram.edgeIds_of_content hcontent, List.nodup_append]
  refine ⟨?_, ?_, ?_⟩
  · exact htarget.nodup_nodeIds.map_on fun i hi j hj => hids.inj_on (hnode i hi) (hnode j hj)
  · exact htarget.nodup_edgeIds.map_on fun i hi j hj => hids.inj_on (hedge i hi) (hedge j hj)
  · intro a ha b hb hab
    obtain ⟨i, hi, rfl⟩ := List.mem_map.1 ha
    obtain ⟨j, hj, rfl⟩ := List.mem_map.1 hb
    exact hids.ne_of_isPartId (hnode i hi) (isPartId_derivedId (by decide) (hedge j hj)) hab.symm

/-- On a board of own elements nothing is left of what was there. -/
theorem update_of_isOwnBoard {items : List (Item α)} (h : IsOwnBoard made (items.map (·.element)))
    (options : ReconcileOptions α) (target : Diagram α) :
    Board.update options target items = renewedOn options (items.map (·.element)) target := by
  have hnone : items.filter (fun i =>
      !(managedIds (items.map (·.element))).contains i.element.id) = [] := by
    rw [List.filter_eq_nil_iff]
    intro i hi
    simpa using h.managed _ (List.mem_map_of_mem hi)
  rw [update_eq, hnone, List.nil_append]

/-- Bringing a board of own elements up to date leaves a board of own elements. -/
theorem isOwnBoard_update (hself : ((2 : α) == 2) = true) (hids : NeverCollide made)
    {items : List (Item α)} (h : IsOwnBoard made (items.map (·.element)))
    (htarget : target.IsDescribed) (hmade : target.makings ⊆ made) :
    IsOwnBoard made ((Board.update .standard target items).map (·.element)) := by
  rw [update_of_isOwnBoard h]
  refine ⟨?_, ?_⟩
  · intro e he
    obtain ⟨i, hi, rfl⟩ := List.mem_map.1 he
    obtain ⟨x, hx, rfl⟩ := List.mem_map.1 hi
    exact isOwn_refreshed hids (isOwn_managed h.own) _ (isOwn_drawnOn hself h.own htarget hmade x hx)
  · intro e he
    obtain ⟨i, hi, rfl⟩ := List.mem_map.1 he
    exact mem_managedIds_of_renewedOn htarget (List.Subset.refl _) i hi

end Board

/-! ## Reading what was drawn -/

/-- Whether a node that was read off a board is that of a text: it has its id, its shape, its group
and its label as it comes back from a board, and a class has its members. -/
structure Node.IsReadFrom (kind : DiagramKind) (t n : Node α) : Prop where
  id : n.id = t.id
  shape : n.shape = t.shape
  group : n.group = t.group
  label : n.label = t.shownLabel
  sections : kind = .classes → n.sections = t.sections

/-- Whether an edge that was read off a board is that of a text: it has its id, its ends, its heads,
its label as it comes back from a board, and a line that is dashed or thick where the other one is. -/
structure Edge.IsReadFrom (t e : Edge α) : Prop where
  id : e.id = t.id
  source : e.source = t.source
  target : e.target = t.target
  startHead : e.startHead = t.startHead
  endHead : e.endHead = t.endHead
  label : e.label = t.shownLabel?
  strokeStyle : e.style.bind (·.strokeStyle) = t.style.bind (·.strokeStyle)
  strokeWidth : e.style.bind (·.strokeWidth) = t.style.bind (·.strokeWidth)

/-- Whether a diagram that was read off a board is that of a text, node by node and edge by edge. -/
structure Diagram.IsReadFrom (t d : Diagram α) : Prop where
  kind : d.kind = t.kind
  direction : d.direction = t.direction
  nodes : List.Forall₂ (Node.IsReadFrom t.kind) t.nodes d.nodes
  edges : List.Forall₂ Edge.IsReadFrom t.edges d.edges

omit [Scalar α] in
theorem Diagram.IsReadFrom.nodeIds_eq {t d : Diagram α} (h : t.IsReadFrom d) :
    d.nodeIds = t.nodeIds := by
  rw [nodeIds, nodeIds, ← List.forall₂_eq_eq_eq, List.forall₂_map_left_iff,
    List.forall₂_map_right_iff]
  exact h.nodes.flip.imp fun _ _ h => h.id

/-- The members of a class come back. -/
theorem Grammar.Class.SectionsComeBack.isStable {s : Sections} (h : SectionsComeBack .classes s) :
    ∀ m ∈ s.members, m.IsStable := by
  have hone : ∀ {isMethod m}, ComesBack .classes isMethod m → m.IsStable := by
    intro isMethod m hm
    refine ⟨?_, hm.lineFeed_notMem⟩
    have hadd := hm.add {}
    rw [addToSections, if_neg (by decide)] at hadd
    split at hadd
    · cases isMethod <;> simp at hadd
    · next x hparse =>
      rw [hparse]
      cases isMethod <;> simp_all
    · next x hparse =>
      rw [hparse]
      cases isMethod <;> simp_all
  intro m hm
  rcases List.mem_append.1 hm with hm | hm
  · exact hone (h.attributes m hm)
  · exact hone (h.methods m hm)

/-- The line of an arrow is part of what it shows. -/
theorem Element.line_of_skeleton {e e' : Element α} (h : e'.skeleton = e.skeleton)
    (hkind : e.kind = .arrow) : e'.strokeWidth = e.strokeWidth ∧ e'.strokeStyle = e.strokeStyle := by
  have hkind' : e'.kind = .arrow := (congrArg (·.kind) h).trans hkind
  have hwidth := congrArg (·.strokeWidth) h
  have hstyle := congrArg (·.strokeStyle) h
  simp only [skeleton, unstyled, hkind, hkind', ↓reduceIte] at hwidth hstyle
  exact ⟨hwidth, hstyle⟩

/-- The lines that a text asks for are not the usual ones. -/
theorem Edge.IsPlain.line_ne {e : Edge α} (h : e.IsPlain)
    (hthick : ((Grammar.Flowchart.Draft.thickWidth : α) == 2) = false) : ∀ s ∈ e.style,
    (∀ v ∈ s.strokeStyle, (v == StrokeStyle.solid) = false)
      ∧ ∀ v ∈ s.strokeWidth, (v == (2 : α)) = false := by
  have hplain := h.style
  simp only [List.mem_cons, List.not_mem_nil, or_false] at hplain
  intro s hs
  rcases hplain with hnone | hdashed | hwide
  · rw [hnone] at hs
    exact nomatch hs
  · obtain rfl := Option.some.inj (hdashed.symm.trans hs)
    exact ⟨by rintro _ ⟨⟩; rfl, by rintro _ ⟨⟩⟩
  · obtain rfl := Option.some.inj (hwide.symm.trans hs)
    exact ⟨by rintro _ ⟨⟩, by rintro _ ⟨⟩; exact hthick⟩

namespace Pen

variable {p : Pen α}

/-- On a board of the usual lines, a line that is not the usual one is found again. -/
theorem line_shown (r : Redrawing α) (hself : ((2 : α) == 2) = true)
    (hwidth : p.board.strokeWidth = 2) (hstyle : p.board.strokeStyle = .solid) {e : Edge α}
    (hne : ∀ s ∈ e.style, (∀ v ∈ s.strokeStyle, (v == StrokeStyle.solid) = false)
      ∧ ∀ v ∈ s.strokeWidth, (v == (2 : α)) = false)
    (source target : Element α) (ids : EdgeElements) :
    let shown := (r.redraw (p.edgePicture e source target ids).arrow).shownHints.nonEmpty?
    shown.bind (·.strokeStyle) = e.style.bind (·.strokeStyle)
      ∧ shown.bind (·.strokeWidth) = e.style.bind (·.strokeWidth) := by
  have harrow := (p.isSound_edgePicture e source target ids).arrow
  obtain ⟨hw, hs⟩ := Element.line_of_skeleton (r.skeleton_redraw _) harrow.kind
  obtain ⟨hdrawnWidth, hdrawnStyle⟩ := Prod.mk.inj (p.lineOn_edgePicture e source target ids)
  have hhints : ∀ {β : Type} {hint : StyleHints α → Option β}, hint {} = none →
      hint (e.style.getD {}) = e.style.bind hint := by
    intro β hint hnone
    cases e.style with
    | none => exact hnone
    | some s => rfl
  refine ⟨(StyleHints.bind_nonEmpty? rfl _).trans ?_, (StyleHints.bind_nonEmpty? rfl _).trans ?_⟩
  · show unusual .solid (Option.bind _ StrokeStyle.ofName?) = _
    rw [hs, hdrawnStyle, Option.bind_some, StrokeStyle.ofName?_name, lineOf, hstyle]
    exact (unusual_choose (beq_self_eq_true _) (fun s hs => (hne s hs).1) rfl).trans (hhints rfl)
  · show unusual 2 _ = _
    rw [hw, hdrawnWidth, lineOf, hwidth]
    exact (unusual_choose hself (fun s hs => (hne s hs).2) rfl).trans (hhints rfl)

/-- A node that says what a node of a text says is read off its elements as that node. -/
theorem isReadFrom_shownNode (r : Redrawing α) (known : Identity) {kind : DiagramKind}
    {n t : Node α} (hsame : n.content = t.content)
    (hmembers : kind = .classes → ∀ s, t.sections = some s → ∀ m ∈ s.members, m.IsStable) :
    Node.IsReadFrom kind t { (p.shownNode r known n).shown.node with group := n.group } := by
  have hid : n.id = t.id := congrArg (·.id) hsame
  have hlabel : n.label = t.label := congrArg (·.label) hsame
  rw [shownNode, shown_nodePicture]
  refine ⟨hid, congrArg (·.shape) hsame, congrArg (·.group) hsame, ?_, ?_⟩
  · show n.shownLabel = t.shownLabel
    rw [Node.shownLabel, Node.shownLabel, hlabel, hid]
  · intro hclass
    show n.sections.map Sections.viaCanvas = t.sections
    rw [show n.sections = t.sections from congrArg (·.sections) hsame]
    cases hs : t.sections with
    | none => rfl
    | some s => exact congrArg some (Sections.viaCanvas_eq_self (hmembers hclass s hs))

/-- An edge that says what an edge of a text says is read off its elements as that edge. -/
theorem isReadFrom_shownEdge (r : Redrawing α) (hself : ((2 : α) == 2) = true)
    (hwidth : p.board.strokeWidth = 2) (hstyle : p.board.strokeStyle = .solid)
    (hthick : ((Grammar.Flowchart.Draft.thickWidth : α) == 2) = false) {e t : Edge α}
    (hsame : e.unrouted = t.unrouted) (ht : t.IsPlain) (source target : Element α)
    (ids : EdgeElements) :
    t.IsReadFrom (r.edge (p.edgePicture e source target ids)).shown.edge := by
  have hlabel : e.label = t.label := congrArg (·.label) hsame
  have hstyles : e.style = t.style := congrArg (·.style) hsame
  have hline := line_shown (p := p) r hself hwidth hstyle (hstyles ▸ ht.line_ne hthick)
    source target ids
  rw [shown_edgePicture]
  refine ⟨congrArg (·.id) hsame, congrArg (·.source) hsame, congrArg (·.target) hsame,
    congrArg (·.startHead) hsame, congrArg (·.endHead) hsame, ?_, ?_, ?_⟩
  · show e.shownLabel? = t.shownLabel?
    rw [Edge.shownLabel?, Edge.shownLabel?, hlabel]
  · exact hline.1.trans (congrArg (Option.bind · _) hstyles)
  · exact hline.2.trans (congrArg (Option.bind · _) hstyles)

end Pen

namespace Board

variable {made : List (String × String)} {elements : List (Element α)} {target : Diagram α}

/-- What a node says that was placed, it says in the text. -/
theorem exists_of_mem_placedOn {n : Node α} (hn : n ∈ (placedOn .standard elements target).nodes) :
    ∃ t ∈ target.nodes, n.content = t.content :=
  exists_of_forall₂
    (Diagram.forall₂_nodes_of_content (content_placedOn .standard elements target)).flip n hn

/-- A group of a placed diagram has several nodes. -/
theorem shared_placedOn (htarget : target.IsDescribed) :
    ∀ n ∈ (placedOn .standard elements target).nodes, ∀ g ∈ n.group,
      ∃ m ∈ (placedOn .standard elements target).nodes, m.id ≠ n.id ∧ m.group = some g := by
  intro n hn g hg
  obtain ⟨t, ht, hsame⟩ := exists_of_mem_placedOn hn
  have hid : n.id = t.id := congrArg (·.id) hsame
  have hgroup : n.group = t.group := congrArg (·.group) hsame
  obtain ⟨t', ht', hne, hg'⟩ := htarget.shared t ht g (hgroup ▸ hg)
  obtain ⟨m, hm, hsame'⟩ := exists_of_forall₂
    (Diagram.forall₂_nodes_of_content (content_placedOn .standard elements target)) t' ht'
  have hid' : m.id = t'.id := congrArg (·.id) hsame'
  refine ⟨m, hm, ?_, (congrArg (·.group) hsame' : m.group = t'.group).trans hg'⟩
  rwa [hid', hid]

/-- A class of a placed diagram is in no group. -/
theorem group_placedOn (htarget : target.IsDescribed) {n : Node α}
    (hn : n ∈ (placedOn .standard elements target).nodes) (hclass : n.sections.isSome = true) :
    ∀ m ∈ (placedOn .standard elements target).nodes, m.group = none := by
  have hlike : target.kind.isClassLike = true := by
    by_contra hlike
    obtain ⟨t, ht, hsame⟩ := exists_of_mem_placedOn hn
    rw [show n.sections = t.sections from congrArg (·.sections) hsame,
      htarget.sections_eq (by simpa using hlike) t ht] at hclass
    exact nomatch hclass
  intro m hm
  obtain ⟨t, ht, hsame⟩ := exists_of_mem_placedOn hm
  exact (congrArg (·.group) hsame : m.group = t.group).trans (htarget.group_eq hlike t ht)

/-- A placed diagram looks as its kind does. -/
theorem looksLike_placedOn (htarget : target.IsDescribed) (hne : target.nodes ≠ []) :
    (placedOn .standard elements target).LooksLike target.kind :=
  htarget.looksLike hne (content_placedOn .standard elements target)
    (Diagram.isSome_lifelineEnd_placeAfter .standard _ fun t ht => (htarget.nodes t ht).lifelineEnd)
    fun hranks => congrArg (·.edges) (Diagram.unplaced_placeAfter .standard _ hranks)

/-- What is drawn on a board of own elements can be read off it. -/
theorem isReadable_placedOn (hself : ((2 : α) == 2) = true) (hids : NeverCollide made)
    (h : ∀ e ∈ elements, e.IsOwn made) (htarget : target.IsDescribed)
    (hmade : target.makings ⊆ made) (hne : target.nodes ≠ []) :
    (penOn .standard elements target).IsReadable (Board.read (managed elements)).identity
      (placedOn .standard elements target) := by
  have hcontent := content_placedOn .standard elements target
  have hkind : (placedOn .standard elements target).kind = target.kind :=
    congrArg (·.kind) hcontent
  refine ⟨?_, Diagram.ends_of_content hcontent htarget.ends, shared_placedOn htarget, ?_, ?_, ?_⟩
  · intro hnil
    have hnodes := Diagram.forall₂_nodes_of_content hcontent
    rw [hnil, List.forall₂_nil_left_iff] at hnodes
    exact hne hnodes
  · intro n hn e he hcontainer
    have hmem : ("node", n.id) ∈ (placedOn .standard elements target).makings :=
      Diagram.mem_makings_of_node hn List.mem_cons_self
    rw [Diagram.makings_of_content hcontent] at hmem
    rw [container_nodeElements (isOwn_managed h)]
    exact hids.ne_of_isPartId (hmade hmem)
      ((isOwn_drawnOn hself h htarget hmade e he).part hcontainer)
  · intro n hn hclass m hm
    rw [group_placedOn htarget hn hclass m hm]
    exact nofun
  · show (placedOn .standard elements target).LooksLike (placedOn .standard elements target).kind
    rw [hkind]
    exact looksLike_placedOn htarget hne

/-- Whoever reads a board of own elements that was brought up to date with a diagram reads that
diagram. -/
theorem isReadFrom_update (hself : ((2 : α) == 2) = true)
    (hthick : ((Grammar.Flowchart.Draft.thickWidth : α) == 2) = false) (hids : NeverCollide made)
    {items : List (Item α)} (h : IsOwnBoard made (items.map (·.element)))
    (htarget : target.IsDescribed) (hmade : target.makings ⊆ made) (hne : target.nodes ≠ []) :
    target.IsReadFrom
      (Board.diagram ((Board.update .standard target items).map (·.element))) := by
  let elements := items.map (·.element)
  let p := penOn .standard elements target
  let known := (Board.read (managed elements)).identity
  let r := refreshingOn .standard elements target
  obtain ⟨hwidth, hstyle⟩ := line_infer h.own
  have hcontent := content_placedOn .standard elements target
  have hread := Pen.diagram_redrawn (r := r) (h := nodup_holderIds hids h.own htarget hmade)
    (isReadable_placedOn hself hids h.own htarget hmade hne)
  rw [← elements_renewedOn] at hread
  rw [update_of_isOwnBoard h, hread]
  refine ⟨congrArg (·.kind) hcontent, congrArg (·.direction) hcontent, ?_, ?_⟩
  · rw [List.forall₂_map_right_iff]
    have hnodes := (Diagram.forall₂_nodes_of_content hcontent).flip
    refine ((List.forall₂_and_left _ _).2 ⟨fun t ht => ht, hnodes⟩).imp ?_
    rintro t n ⟨ht, hsame⟩
    exact Pen.isReadFrom_shownNode r known hsame fun hclass s hs =>
      (htarget.members hclass t ht s hs).isStable
  · rw [List.forall₂_map_right_iff, Pen.allEdges, Pen.edgePictures]
    have hedges := (Diagram.forall₂_edges_of_content hcontent).flip
    have hjoined := Diagram.ends_of_content hcontent htarget.ends
    refine (forall₂_filterMap ((List.forall₂_and_left _ _).2 ⟨fun t ht => ht, hedges⟩)
      (p.isSome_edgePicture? known hjoined)).imp ?_
    rintro t x ⟨e, ⟨ht, hsame⟩, hx⟩
    obtain ⟨source, target', -, -, rfl⟩ := p.exists_of_edgePicture? hx
    exact Pen.isReadFrom_shownEdge r hself hwidth hstyle hthick hsame (htarget.edges t ht)
      source target' _

end Board

/-! ## One text after another -/

namespace Board

/-- A board that is brought up to date with a text; one that is no diagram leaves it as it is. -/
def feed (items : List (Item α)) (text : String) : List (Item α) :=
  match reconcile .standard text items with
  | .ok updated => updated
  | .error _ => items

/-- The board that becomes of an empty one as it gets one text after another. -/
def afterTexts (texts : List String) : List (Item α) := texts.foldl feed []

/-- What the ids of new elements are made of in the diagrams of some texts. -/
def makingsOf (α : Type) [Scalar α] (texts : List String) : List (String × String) :=
  texts.flatMap fun text => match (Diagram.parse text : Except SyntaxError (Diagram α)) with
    | .ok d => d.makings
    | .error _ => []

variable {made : List (String × String)} {text : String} {target : Diagram α}

theorem feed_of_ok (h : Diagram.parse text = .ok target) (items : List (Item α)) :
    feed items text = Board.update .standard target items := by
  rw [feed, reconcile, h]
  rfl

theorem feed_of_not_ok (h : (Diagram.parse text : Except SyntaxError (Diagram α)).isOk = false)
    (items : List (Item α)) : feed items text = items := by
  rw [feed, reconcile]
  cases hparse : (Diagram.parse text : Except SyntaxError (Diagram α)) with
  | error e => rfl
  | ok d => simp [hparse, Except.isOk, Except.toBool] at h

theorem foldl_feed_of_not_ok {texts : List String}
    (h : ∀ t ∈ texts, (Diagram.parse t : Except SyntaxError (Diagram α)).isOk = false)
    (items : List (Item α)) : texts.foldl feed items = items := by
  induction texts with
  | nil => rfl
  | cons t texts ih =>
    rw [List.foldl_cons, feed_of_not_ok (h t List.mem_cons_self)]
    exact ih fun s hs => h s (List.mem_cons_of_mem _ hs)

/-- Whatever text comes, a board of own elements stays one. -/
theorem isOwnBoard_feed (hself : ((2 : α) == 2) = true) (hids : NeverCollide made)
    {items : List (Item α)} (h : IsOwnBoard made (items.map (·.element)))
    (hmade : makingsOf α [text] ⊆ made) :
    IsOwnBoard made ((feed items text).map (·.element)) := by
  rw [makingsOf, List.flatMap_singleton] at hmade
  cases hparse : (Diagram.parse text : Except SyntaxError (Diagram α)) with
  | error e =>
    rwa [feed_of_not_ok (by rw [hparse]; rfl)]
  | ok d =>
    rw [hparse] at hmade
    rw [feed_of_ok hparse]
    exact isOwnBoard_update hself hids h (Diagram.isDescribed_of_parse hparse) hmade

/-- Whatever texts come, a board has no other elements than its own. -/
theorem isOwnBoard_afterTexts (hself : ((2 : α) == 2) = true) (hids : NeverCollide made)
    {texts : List String} (hmade : makingsOf α texts ⊆ made) :
    IsOwnBoard made ((afterTexts texts : List (Item α)).map (·.element)) := by
  suffices hall : ∀ items : List (Item α), IsOwnBoard made (items.map (·.element)) →
      IsOwnBoard made ((texts.foldl feed items).map (·.element)) from
    hall [] ⟨by simp, by simp⟩
  induction texts with
  | nil => exact fun _ h => h
  | cons text texts ih =>
    intro items h
    have hsplit : makingsOf α (text :: texts) = makingsOf α [text] ++ makingsOf α texts :=
      @List.flatMap_append _ _ [text] texts _
    rw [hsplit, List.append_subset] at hmade
    exact ih hmade.2 _ (isOwnBoard_feed hself hids h hmade.1)

end Board

/-- A board that got one text after another, starting empty, shows the diagram of the last text that
is one, if that has a node at all: whatever came before, and whatever came in between, the same
nodes and edges in the same order are read off it.  The ids that are made for all these diagrams
must not collide. -/
theorem diagram_afterTexts {before after : List String} {text : String} {target : Diagram Float}
    (htext : Diagram.parse text = .ok target)
    (hafter : ∀ t ∈ after, (Diagram.parse t : Except SyntaxError (Diagram Float)).isOk = false)
    (hne : target.nodes ≠ [])
    (hids : NeverCollide (makingsOf Float (before ++ text :: after))) :
    target.IsReadFrom
      (Board.diagram ((afterTexts (before ++ text :: after) : List (Item Float)).map (·.element))) := by
  have hself : ((2 : Float) == 2) = true := Binary64.beq_ofNat 2
  have hbefore : makingsOf Float before ⊆ makingsOf Float (before ++ text :: after) := by
    rw [makingsOf, makingsOf, List.flatMap_append]
    exact List.subset_append_left _ _
  have hmade : target.makings ⊆ makingsOf Float (before ++ text :: after) := by
    intro p hp
    refine List.mem_flatMap.2 ⟨text, by simp, ?_⟩
    rwa [htext]
  rw [afterTexts, List.foldl_append, List.foldl_cons, foldl_feed_of_not_ok hafter, feed_of_ok htext]
  exact isReadFrom_update hself (by decide +kernel) hids (isOwnBoard_afterTexts hself hids hbefore)
    (Diagram.isDescribed_of_parse htext) hmade hne

/-- A message between two participants, then a class in the place of one of them. -/
def messageThenClass : List String :=
  ["sequenceDiagram\nA->>B: hi", "classDiagram\nclass A \x7b\n+x\n\x7d\nA ..> C : uses"]

/-- The class is read off the board, also after a text that is no diagram. -/
theorem diagram_afterTexts_messageThenClass :
    let shown : Diagram Float :=
      Board.diagram ((afterTexts (messageThenClass ++ ["graph TD\nA --"])).map (·.element))
    shown.kind = .classes ∧ shown.nodeIds = ["A", "C"] := by
  have hread : (match (Diagram.parse messageThenClass[1] : Except _ (Diagram Float)) with
      | .ok d => decide (d.kind = .classes ∧ d.nodeIds = ["A", "C"])
      | .error _ => false) = true := by decide +kernel
  cases htext : (Diagram.parse messageThenClass[1] : Except _ (Diagram Float)) with
  | error e => simp [htext] at hread
  | ok target =>
    simp only [htext, decide_eq_true_eq] at hread
    have hne : target.nodes ≠ [] := by
      intro hnil
      simp [Diagram.nodeIds, hnil] at hread
    have hshown := @diagram_afterTexts [messageThenClass[0]] ["graph TD\nA --"] _ _ htext
      (by decide +kernel) hne (by decide +kernel)
    exact ⟨hshown.kind.trans hread.1, hshown.nodeIds_eq.trans hread.2⟩

end DiagramBoard
