/-
DiagramBoard.Proofs.Board.OwnElements — boards on which there is nothing but what was drawn.

Every element that is drawn for the first time gets an id that is made of its role and of the id of
a node or an edge, and every later drawing finds that id again.  So while nobody touches a board, the
id of a container tells its node and that of an arrow its edge, and as long as ids do not collide no
element is taken for another.  Nothing changes the lines of containers on such a board either.

Main statements: the ids that reading such a board finds are made of the right ids
(`container_nodeElements`, `arrow_edgeElements`), and what is drawn with them is of the same sort
(`isOwn_draw`).
-/
import Mathlib
import DiagramBoard.Layout
import DiagramBoard.Proofs.Board.DrawnDiagram

namespace DiagramBoard

open Board

variable {α : Type}

/-! ## Made ids -/

/-- The roles of the elements that a node is drawn with. -/
def Node.drawnRoles (strategy : Layout.Strategy) (n : Node α) : List String :=
  "node" :: "text" ::
    if n.sections.isSome then
      ["class-separator-1", Tag.classAttributes.name, "class-separator-2", Tag.classMethods.name]
    else if strategy = .lanes then ["lifeline"] else []

/-- The roles of the elements that an edge is drawn with. -/
def Edge.drawnRoles (e : Edge α) : List String :=
  "arrow" :: if e.label.isSome then ["text"] else []

/-- The roles and the ids of nodes and edges that the ids of new elements are made of. -/
def Diagram.makings (d : Diagram α) : List (String × String) :=
  d.nodes.flatMap (fun n => (n.drawnRoles d.kind.strategy).map (·, n.id))
    ++ d.edges.flatMap fun e => e.drawnRoles.map (·, e.id)

namespace Diagram

variable {d : Diagram α}

theorem mem_makings_of_node {n : Node α} (hn : n ∈ d.nodes) {role : String}
    (hrole : role ∈ n.drawnRoles d.kind.strategy) : (role, n.id) ∈ d.makings :=
  List.mem_append_left _ (List.mem_flatMap.2 ⟨n, hn, List.mem_map_of_mem hrole⟩)

theorem mem_makings_of_edge {e : Edge α} (he : e ∈ d.edges) {role : String}
    (hrole : role ∈ e.drawnRoles) : (role, e.id) ∈ d.makings :=
  List.mem_append_right _ (List.mem_flatMap.2 ⟨e, he, List.mem_map_of_mem hrole⟩)

end Diagram

namespace Board

/-- Whether ids that are made of different roles or ids are different. -/
def NeverCollide (made : List (String × String)) : Prop :=
  ∀ p ∈ made, ∀ q ∈ made, derivedId p.1 p.2 = derivedId q.1 q.2 → p = q

instance (made : List (String × String)) : Decidable (NeverCollide made) :=
  inferInstanceAs (Decidable (∀ p ∈ made, ∀ q ∈ made, derivedId p.1 p.2 = derivedId q.1 q.2 → p = q))

/-- Whether an id is made for an element that is no container. -/
def IsPartId (made : List (String × String)) (id : String) : Prop :=
  ∃ p ∈ made, p.1 ≠ "node" ∧ id = derivedId p.1 p.2

variable {made : List (String × String)}

theorem isPartId_derivedId {role i : String} (hne : role ≠ "node") (h : (role, i) ∈ made) :
    IsPartId made (derivedId role i) := ⟨_, h, hne, rfl⟩

/-- The id of a container is that of no other element. -/
theorem NeverCollide.ne_of_isPartId (h : NeverCollide made) {i id : String}
    (hi : ("node", i) ∈ made) (hid : IsPartId made id) : id ≠ derivedId "node" i := by
  obtain ⟨p, hp, hne, rfl⟩ := hid
  intro heq
  exact hne (congrArg (·.1) (h p hp _ hi heq))

theorem NeverCollide.inj_on (h : NeverCollide made) {role i j : String}
    (hi : (role, i) ∈ made) (hj : (role, j) ∈ made) (heq : derivedId role i = derivedId role j) :
    i = j :=
  congrArg (·.2) (h _ hi _ hj heq)

end Board

/-! ## Own elements -/

/-- Whether an element is one that was drawn, under an id that was made for it, and a container
still has the lines that it was drawn with. -/
structure Element.IsOwn [Scalar α] (made : List (String × String)) (e : Element α) : Prop where
  container : e.kind.isContainer = true → ("node", e.shownNodeId) ∈ made
    ∧ e.id = derivedId "node" e.shownNodeId ∧ e.tag? ≠ some .lifeline
  line : e.kind.isContainer = true → e.strokeWidth = some 2 ∧ e.strokeStyle = some "solid"
  arrow : e.kind = .arrow → ∃ i, ("arrow", i) ∈ made
    ∧ (e.metadata.bind fun m => m.edgeId) = some i ∧ e.id = derivedId "arrow" i
  part : e.kind.isContainer = false → IsPartId made e.id

namespace Board

variable [Scalar α] {made : List (String × String)} {elements : List (Element α)}

/-! ## What reading finds -/

omit [Scalar α] in
theorem mem_of_labelOf? {alive : List (Element α)} {id : String} {e : Element α}
    (h : labelOf? alive id = some e) : e ∈ alive ∧ e.kind = .text := by
  obtain ⟨hmem, hlabel⟩ := List.mem_filter.1 (List.mem_of_getLast? h)
  simp only [Bool.and_eq_true, decide_eq_true_eq] at hlabel
  exact ⟨hmem, hlabel.1⟩

/-- The label that reading finds has the id of a part. -/
theorem isPartId_labelOf? (h : ∀ e ∈ elements, e.IsOwn made) {id : String} {e : Element α}
    (he : labelOf? (live elements) id = some e) : IsPartId made e.id := by
  obtain ⟨hmem, hkind⟩ := mem_of_labelOf? he
  exact (h e (List.mem_filter.1 hmem).1).part (by rw [hkind]; rfl)

/-- The container that reading finds for a node has the id that is made for it. -/
theorem container_nodeElements (h : ∀ e ∈ elements, e.IsOwn made) (n : Node α) :
    (Pen.nodeElements (Board.read elements).identity n).container = derivedId "node" n.id := by
  have hread := container_node?_read elements n.id
  rw [Pen.nodeElements, Node.elementIds, hread]
  cases hshown : shownContainer? elements n.id with
  | none => rfl
  | some e =>
    have hmem := (List.mem_filter.1 (List.mem_of_find?_eq_some hshown)).1
    have hfound := List.find?_some hshown
    simp only [Bool.and_eq_true, decide_eq_true_eq] at hfound
    rw [Option.map_some, Option.getD_some, ((h e hmem).container hfound.1).2.1, hfound.2]

/-- The elements of a node that reading finds. -/
theorem node?_read (elements : List (Element α)) (id : String) :
    (Board.read elements).identity.node? id = (shownContainer? elements id).map fun e =>
      { (Container.ofElement (live elements) e).elements with
        lifeline := (lastLifeline? (containers (live elements)) (live elements) id).map (·.id) } := by
  simp only [Board.read]
  rw [node?_shownIdentity _ (nodup_containers _), find?_containers, Option.map_map]
  rfl

theorem isPartId_labelId (h : ∀ e ∈ elements, e.IsOwn made) {n : Node α}
    (hn : ("text", n.id) ∈ made) :
    IsPartId made (Pen.labelId n (Pen.nodeElements (Board.read elements).identity n)) := by
  have hnew : IsPartId made (derivedId "text" n.id) := isPartId_derivedId (by decide) hn
  rw [Pen.labelId, Pen.nodeElements, Node.elementIds, Option.getD_some, node?_read]
  cases shownContainer? elements n.id with
  | none => exact hnew
  | some e =>
    show IsPartId made (((labelOf? (live elements) e.id).map (·.id)).getD (derivedId "text" n.id))
    cases hlabel : labelOf? (live elements) e.id with
    | none => exact hnew
    | some l => exact isPartId_labelOf? h hlabel

theorem isPartId_lifelineId (h : ∀ e ∈ elements, e.IsOwn made) {n : Node α}
    (hn : ("lifeline", n.id) ∈ made) :
    IsPartId made (Pen.lifelineId n (Pen.nodeElements (Board.read elements).identity n)) := by
  have hnew : IsPartId made (derivedId "lifeline" n.id) := isPartId_derivedId (by decide) hn
  rw [Pen.lifelineId, Pen.nodeElements, Node.elementIds, node?_read]
  cases shownContainer? elements n.id with
  | none => exact hnew
  | some e =>
    rw [Option.map_some, Option.bind_some]
    cases hlast : lastLifeline? (containers (live elements)) (live elements) n.id with
    | none => exact hnew
    | some l =>
      obtain ⟨hmem, hline⟩ := List.mem_filter.1 (List.mem_of_getLast? hlast)
      have hown := h l (List.mem_filter.1 hmem).1
      have htag : l.tag? = some .lifeline := by
        by_contra hne
        simp [lifelineOf?, hne] at hline
      refine hown.part ?_
      rw [Bool.eq_false_iff]
      exact fun hkind => (hown.container hkind).2.2 htag

theorem connector?_eq_some {kind : DiagramKind} {alive : List (Element α)}
    {cs : List (Container α)} {e : Element α} {c : Connector α}
    (h : connector? kind alive cs e = some c) : c.element = e ∧ c.label = labelOf? alive e.id := by
  simp only [connector?, Option.bind_eq_bind, Option.bind_eq_some_iff] at h
  obtain ⟨source, -, target, -, h⟩ := h
  obtain rfl := Option.some.inj h
  exact ⟨rfl, rfl⟩

/-- The elements of an edge that reading finds are an arrow with its id, and its label. -/
theorem edge?_read (h : ∀ e ∈ elements, e.IsOwn made) {id : String} {found : EdgeElements}
    (hfound : (Board.read elements).identity.edge? id = some found) :
    found.arrow = derivedId "arrow" id ∧ ∀ t ∈ found.text, IsPartId made t := by
  simp only [Board.read] at hfound
  rw [edge?_shownIdentity, Option.map_eq_some_iff] at hfound
  obtain ⟨c, hc, rfl⟩ := hfound
  obtain ⟨hmem, hid⟩ := List.mem_filter.1 (List.mem_of_getLast? hc)
  obtain ⟨e, he, hconnector⟩ := List.mem_filterMap.1 hmem
  obtain ⟨halive, hkind⟩ := List.mem_filter.1 he
  obtain ⟨rfl, hlabel⟩ := connector?_eq_some hconnector
  obtain ⟨i, -, hedge, harrow⟩ := (h _ (List.mem_filter.1 halive).1).arrow (of_decide_eq_true hkind)
  have hcid : c.edgeId = i := by
    cases hm : c.element.metadata with
    | none => simp [hm] at hedge
    | some m =>
      simp only [hm, Option.bind_some] at hedge
      simp [Connector.edgeId, hm, hedge]
  refine ⟨?_, fun t ht => ?_⟩
  · rw [← of_decide_eq_true hid, hcid]
    exact harrow
  · obtain ⟨l, hl, rfl⟩ := Option.map_eq_some_iff.1 ht
    exact isPartId_labelOf? h (hlabel ▸ hl)

theorem arrow_edgeElements (h : ∀ e ∈ elements, e.IsOwn made) (e : Edge α) :
    (Pen.edgeElements (Board.read elements).identity e).arrow = derivedId "arrow" e.id := by
  rw [Pen.edgeElements, Edge.elementIds]
  cases hfound : (Board.read elements).identity.edge? e.id with
  | none => rfl
  | some found => exact (edge?_read h hfound).1

theorem isPartId_edgeLabelId (h : ∀ e ∈ elements, e.IsOwn made) {e : Edge α}
    (he : ("text", e.id) ∈ made) :
    IsPartId made ((Pen.edgeElements (Board.read elements).identity e).text.getD
      (derivedId "text" e.id)) := by
  have hnew : IsPartId made (derivedId "text" e.id) := isPartId_derivedId (by decide) he
  rw [Pen.edgeElements, Edge.elementIds]
  cases hfound : (Board.read elements).identity.edge? e.id with
  | none => exact hnew
  | some found =>
    rw [Option.bind_some]
    cases htext : found.text with
    | none => exact hnew
    | some t => exact (edge?_read h hfound).2 t htext

/-! ## Lines of containers -/

omit [Scalar α] in
theorem mem_of_foldl_moreFrequent {β : Type} [BEq β] {values rest : List β} {best : Option β} {b : β}
    (h : rest.foldl (BoardStyle.moreFrequent values) best = some b) : b ∈ best ∨ b ∈ rest := by
  induction rest generalizing best with
  | nil => exact .inl h
  | cons c rest ih =>
    rcases ih h with hb | hb
    · cases best with
      | none =>
        obtain rfl : c = b := Option.some.inj hb
        exact .inr List.mem_cons_self
      | some a =>
        rw [BoardStyle.moreFrequent] at hb
        split at hb
        · obtain rfl : c = b := Option.some.inj hb
          exact .inr List.mem_cons_self
        · exact .inl hb
    · exact .inr (List.mem_cons_of_mem _ hb)

omit [Scalar α] in
/-- The most frequent one of equal values is that value. -/
theorem getD_mostFrequent? {β : Type} [BEq β] {values : List β} {b : β}
    (h : ∀ a ∈ values, a = b) : (BoardStyle.mostFrequent? values).getD b = b := by
  cases hmost : BoardStyle.mostFrequent? values with
  | none => rfl
  | some a =>
    rcases mem_of_foldl_moreFrequent hmost with ha | ha
    · exact absurd ha (Option.not_mem_none a)
    · exact h a ha

/-- A board of own elements has the usual lines. -/
theorem line_infer (h : ∀ e ∈ elements, e.IsOwn made) :
    (BoardStyle.infer elements).strokeWidth = 2
      ∧ (BoardStyle.infer elements).strokeStyle = .solid := by
  have hline : ∀ e ∈ elements.filter (fun e => !e.isDeleted && e.kind.isContainer),
      e.strokeWidth = some 2 ∧ e.strokeStyle = some "solid" := by
    intro e he
    obtain ⟨hmem, hkind⟩ := List.mem_filter.1 he
    rw [Bool.and_eq_true] at hkind
    exact (h e hmem).line hkind.2
  refine ⟨getD_mostFrequent? fun w hw => ?_, getD_mostFrequent? fun s hs => ?_⟩
  · obtain ⟨e, he, hwidth⟩ := List.mem_filterMap.1 hw
    rw [(hline e he).1] at hwidth
    exact (Option.some.inj hwidth).symm
  · obtain ⟨e, he, hstyle⟩ := List.mem_filterMap.1 hs
    rw [(hline e he).2] at hstyle
    exact (Option.some.inj hstyle).symm

end Board

namespace StyleHints

/-- Whether hints say nothing about lines. -/
def IsLineless (hints : Option (StyleHints α)) : Prop :=
  hints.bind (·.strokeWidth) = none ∧ hints.bind (·.strokeStyle) = none

end StyleHints

namespace Board

variable [Scalar α] {made : List (String × String)} {elements : List (Element α)}

/-- The nodes that are read off a board of own elements have no hints about lines. -/
theorem isLineless_read (hself : ((2 : α) == 2) = true) (h : ∀ e ∈ elements, e.IsOwn made)
    {n : Node α} (hn : n ∈ (Board.read elements).diagram.nodes) : StyleHints.IsLineless n.style := by
  obtain ⟨group, hnodes⟩ := nodes_read elements
  rw [hnodes] at hn
  obtain ⟨c, hc, rfl⟩ := List.mem_map.1 hn
  obtain ⟨e, he, rfl⟩ := List.mem_map.1 (mem_of_mem_eraseDupsBy _ hc)
  obtain ⟨hlive, hkind⟩ := List.mem_filter.1 he
  obtain ⟨hwidth, hstyle⟩ := (h e (List.mem_filter.1 hlive).1).line hkind
  refine ⟨(StyleHints.bind_nonEmpty? rfl _).trans ?_, (StyleHints.bind_nonEmpty? rfl _).trans ?_⟩
  · show unusual (BoardStyle.standard : BoardStyle α).strokeWidth e.strokeWidth = none
    rw [hwidth]
    show (some 2).filter (fun v : α => !(v == 2)) = none
    simp [Option.filter, hself]
  · show unusual (BoardStyle.standard : BoardStyle α).strokeStyle
      (e.strokeStyle.bind StrokeStyle.ofName?) = none
    rw [hstyle]
    rfl

end Board

/-! ## Drawing -/

namespace Element

variable [Scalar α] {made : List (String × String)} {e : Element α}

theorem IsOwn.withArrows (h : e.IsOwn made) (arrows : List (Element α)) :
    (e.withArrows arrows).IsOwn made := by
  unfold Element.withArrows
  split
  · exact ⟨h.container, h.line, h.arrow, h.part⟩
  · exact h

/-- An element that is no container and no arrow is an own one if its id is that of a part. -/
theorem isOwn_of_part (hcontainer : e.kind.isContainer = false) (harrow : e.kind ≠ .arrow)
    (h : IsPartId made e.id) : e.IsOwn made where
  container hkind := absurd hkind (by simp [hcontainer])
  line hkind := absurd hkind (by simp [hcontainer])
  arrow hkind := absurd hkind harrow
  part _ := h

theorem IsLabelIn.isOwn {holder : String} (he : e.IsLabelIn holder) (h : IsPartId made e.id) :
    e.IsOwn made :=
  isOwn_of_part (by rw [he.kind]; rfl) (by simp [he.kind]) h

end Element

namespace Pen

variable [Scalar α] {made : List (String × String)} {p : Pen α}

/-- The further elements of a node are lifelines and the segments of classes. -/
theorem isPartId_parts {strategy : Layout.Strategy} {n : Node α}
    (hroles : ∀ role ∈ n.drawnRoles strategy, (role, n.id) ∈ made)
    (hend : n.lifelineEnd.isSome = true → strategy = .lanes) {nodeIds : NodeElements}
    (hlifeline : ("lifeline", n.id) ∈ made → IsPartId made (lifelineId n nodeIds)) :
    ∀ e ∈ (p.nodePicture n nodeIds).parts, IsPartId made e.id := by
  intro e he
  unfold nodePicture nodeDrawing at he
  unfold Node.drawnRoles at hroles
  cases hsections : n.sections with
  | none =>
    rw [hsections] at he
    obtain ⟨bottom, hbottom, rfl⟩ := Option.map_eq_some_iff.1 (Option.mem_toList.1 he)
    refine hlifeline (hroles _ ?_)
    simp [hsections, hend (Option.isSome_of_eq_some hbottom)]
  | some sections =>
    simp only [hsections, classDrawing, List.mem_cons, List.not_mem_nil, or_false] at he
    have hpart : ∀ role ∈ ["class-separator-1", Tag.classAttributes.name, "class-separator-2",
        Tag.classMethods.name], IsPartId made (derivedId role n.id) := by
      intro role hrole
      refine isPartId_derivedId ?_ (hroles role ?_)
      · rintro rfl
        exact absurd hrole (by decide)
      · rw [hsections]
        exact List.mem_cons_of_mem _ (List.mem_cons_of_mem _ hrole)
    rcases he with rfl | rfl | rfl | rfl
    · exact hpart "class-separator-1" (by decide)
    · exact hpart Tag.classAttributes.name (by decide)
    · exact hpart "class-separator-2" (by decide)
    · exact hpart Tag.classMethods.name (by decide)

/-- The line of a container is that of its node. -/
theorem line_container (n : Node α) (nodeIds : NodeElements) :
    (p.nodePicture n nodeIds).container.strokeWidth
        = some (choose n.style (·.strokeWidth) p.board.strokeWidth)
      ∧ (p.nodePicture n nodeIds).container.strokeStyle
        = some (choose n.style (·.strokeStyle) p.board.strokeStyle).name := by
  unfold nodePicture nodeDrawing
  cases n.sections <;> exact ⟨rfl, rfl⟩

/-- The elements of a node without hints about lines are own elements. -/
theorem isOwn_nodePicture {elements : List (Element α)} (h : ∀ e ∈ elements, e.IsOwn made)
    (hwidth : p.board.strokeWidth = 2) (hstyle : p.board.strokeStyle = .solid)
    {strategy : Layout.Strategy} {n : Node α}
    (hroles : ∀ role ∈ n.drawnRoles strategy, (role, n.id) ∈ made)
    (hend : n.lifelineEnd.isSome = true → strategy = .lanes)
    (hline : StyleHints.IsLineless n.style) :
    ∀ e ∈ (p.nodePicture n (nodeElements (Board.read elements).identity n)).elements,
      e.IsOwn made := by
  have hsound := p.isSound_nodePicture n (nodeElements (Board.read elements).identity n)
  intro e he
  rw [NodePicture.elements_eq, List.mem_cons, List.mem_cons] at he
  rcases he with rfl | rfl | he
  · have hid := Element.shownNodeId_of_nodeId hsound.container.nodeId
    have hcontainer := hsound.container.isContainer
    refine ⟨fun _ => ⟨hid ▸ hroles _ List.mem_cons_self, ?_, hsound.container.isNoLifeline⟩, fun _ => ?_, fun hkind => ?_,
      fun hkind => ?_⟩
    · rw [hid, p.id_container_nodePicture, container_nodeElements h]
      rfl
    · obtain ⟨hw, hs⟩ := p.line_container n (nodeElements (Board.read elements).identity n)
      rw [hw, hs, choose, choose, hline.1, hline.2, hwidth, hstyle]
      exact ⟨rfl, rfl⟩
    · rw [hkind] at hcontainer
      exact absurd hcontainer (by decide)
    · simp [hkind] at hcontainer
  · refine hsound.label.isOwn ?_
    rw [p.id_label_nodePicture]
    exact isPartId_labelId h (hroles _ (List.mem_cons_of_mem _ List.mem_cons_self))
  · have hpart := hsound.parts e he
    exact Element.isOwn_of_part hpart.isNoContainer hpart.isNoArrow
      (isPartId_parts hroles hend (isPartId_lifelineId h) e he)

/-- The elements of an edge are own elements. -/
theorem isOwn_edgePicture {elements : List (Element α)} (h : ∀ e ∈ elements, e.IsOwn made)
    {e : Edge α} (he : ∀ role ∈ e.drawnRoles, (role, e.id) ∈ made) (source target : Element α) :
    ∀ x ∈ (p.edgePicture e source target
      (edgeElements (Board.read elements).identity e)).elements, x.IsOwn made := by
  have hsound := p.isSound_edgePicture e source target
    (edgeElements (Board.read elements).identity e)
  intro x hx
  rw [EdgePicture.elements_eq, List.mem_cons, Option.mem_toList] at hx
  rcases hx with rfl | hx
  · have hid : (p.edgePicture e source target
        (edgeElements (Board.read elements).identity e)).arrow.id = derivedId "arrow" e.id := by
      rw [p.id_arrow_edgePicture, arrow_edgeElements h]
    have hkind := hsound.arrow.kind
    refine ⟨fun hc => ?_, fun hc => ?_,
      fun _ => ⟨e.id, he _ List.mem_cons_self, hsound.arrow.edgeId, hid⟩, fun _ => ?_⟩
    · simp [hkind, ElementKind.isContainer] at hc
    · simp [hkind, ElementKind.isContainer] at hc
    · rw [hid]
      exact isPartId_derivedId (by decide) (he _ List.mem_cons_self)
  · refine (hsound.label x hx).isOwn ?_
    unfold edgePicture edgeDrawing at hx
    cases hlabel : e.label with
    | none => simp [hlabel] at hx
    | some text =>
      simp only [hlabel, Option.some.injEq] at hx
      subst hx
      refine isPartId_edgeLabelId h (he _ ?_)
      simp [Edge.drawnRoles, hlabel]

/-- What is drawn on a board of own elements consists of own elements. -/
theorem isOwn_draw {elements : List (Element α)} (h : ∀ e ∈ elements, e.IsOwn made)
    (hwidth : p.board.strokeWidth = 2) (hstyle : p.board.strokeStyle = .solid) {d : Diagram α}
    (hmade : d.makings ⊆ made)
    (hend : ∀ n ∈ d.nodes, n.lifelineEnd.isSome = true → d.kind.strategy = .lanes)
    (hline : ∀ n ∈ d.nodes, StyleHints.IsLineless n.style) :
    ∀ e ∈ p.draw (Board.read elements).identity d, e.IsOwn made := by
  intro e he
  rw [draw_eq, List.mem_map] at he
  obtain ⟨x, hx, rfl⟩ := he
  refine Element.IsOwn.withArrows ?_ _
  rcases List.mem_append.1 hx with hx | hx
  · obtain ⟨y, hy, hx⟩ := List.mem_flatMap.1 hx
    obtain ⟨n, hn, rfl⟩ := List.mem_map.1 hy
    exact isOwn_nodePicture h hwidth hstyle (fun role hr => hmade (Diagram.mem_makings_of_node hn hr))
      (hend n hn) (hline n hn) x hx
  · obtain ⟨y, hy, hx⟩ := List.mem_flatMap.1 hx
    obtain ⟨f, hf, hpicture⟩ := List.mem_filterMap.1 hy
    obtain ⟨source, target, -, -, rfl⟩ := p.exists_of_edgePicture? hpicture
    exact isOwn_edgePicture h (fun role hr => hmade (Diagram.mem_makings_of_edge hf hr)) source
      target x hx

end Pen

end DiagramBoard
