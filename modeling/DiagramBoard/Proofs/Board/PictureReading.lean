/-
DiagramBoard.Proofs.Board.PictureReading — what is read off a picture.

Main statements: the containers and arrows that are found on a picture are those of its nodes and
edges (`containers_elements`, `connectors_elements`), a picture says its kind and its direction
(`namedKind_elements`, `namedDirection_elements`), and every node and edge is found with the
elements that show it (`node?_identity`, `edge?_identity`).
-/
import DiagramBoard.Proofs.Board.Picture

namespace DiagramBoard

open Board

variable {α : Type}

/-! ## Single elements -/

namespace Element

/-- The participant that the metadata of a lifeline name. -/
def participant? (e : Element α) : Option String :=
  if e.tag? = some .lifeline then e.metadata.bind (·.participantId) else none

theorem lifelineOf?_eq (cs : List (Container α)) (e : Element α) :
    lifelineOf? cs e = e.participant?.filter fun p => cs.any (·.nodeId = p) := by
  unfold lifelineOf? participant?
  split <;> rfl

theorem isOwnedBy_iff {owner : String} {e : Element α} :
    isOwnedBy owner e = true ↔
      (e.metadata.bind fun m => m.tag).isSome = true
        ∧ (e.metadata.bind fun m => m.ownerId) = some owner := by
  unfold isOwnedBy
  cases e.metadata with
  | none => simp
  | some m => simp

theorem not_isOwnedBy (owner : String) {e : Element α}
    (h : (e.metadata.bind fun m => m.ownerId) ≠ some owner) : isOwnedBy owner e = false := by
  rw [Bool.eq_false_iff]
  exact fun he => h (isOwnedBy_iff.1 he).2

theorem shownNodeId_of_nodeId {e : Element α} {id : String}
    (h : (e.metadata.bind fun m => m.nodeId) = some id) : e.shownNodeId = id := by
  cases hm : e.metadata with
  | none => simp [hm] at h
  | some m =>
    simp only [hm, Option.bind_some] at h
    simp [shownNodeId, hm, h]

theorem tag?_of_metadata {e : Element α} (h : e.metadata = none) : e.tag? = none := by
  simp [tag?, h]

theorem participant?_of_tag {e : Element α} (h : e.tag? ≠ some .lifeline) :
    e.participant? = none := if_neg h

end Element

/-! ## The elements of a node and of an edge -/

namespace NodePicture

variable {kind : DiagramKind} {direction : Direction} {n : NodePicture α}

theorem isLive (h : n.IsSound kind direction) : ∀ e ∈ n.elements, e.isDeleted = false := by
  intro e he
  rw [elements_eq, List.mem_cons, List.mem_cons] at he
  rcases he with rfl | rfl | he
  · exact h.container.isLive
  · exact h.label.isLive
  · exact (h.parts e he).isLive

theorem filter_isContainer (h : n.IsSound kind direction) :
    n.elements.filter (·.kind.isContainer) = [n.container] := by
  have hlabel : n.label.kind.isContainer = false := by
    rw [h.label.kind]
    rfl
  have hparts : n.parts.filter (·.kind.isContainer) = [] := by
    rw [List.filter_eq_nil_iff]
    intro e he
    simp [(h.parts e he).isNoContainer]
  rw [elements_eq, List.filter_cons_of_pos (by exact h.container.isContainer),
    List.filter_cons_of_neg (by simp [hlabel]), hparts]

theorem filter_isArrow (h : n.IsSound kind direction) :
    n.elements.filter (·.kind = .arrow) = [] := by
  rw [List.filter_eq_nil_iff]
  intro e he
  rw [elements_eq, List.mem_cons, List.mem_cons] at he
  rcases he with rfl | rfl | he
  · simpa using ElementKind.ne_arrow_of_isContainer h.container.isContainer
  · simp [h.label.kind]
  · simpa using (h.parts e he).isNoArrow

/-- Only the parts of a node may have an owner. -/
theorem filter_isOwnedBy (h : n.IsSound kind direction) (owner : String) :
    n.elements.filter (isOwnedBy owner) = n.parts.filter (isOwnedBy owner) := by
  have hcontainer : isOwnedBy owner n.container = false :=
    Element.not_isOwnedBy owner (by simp [h.container.ownerId])
  have hlabel : isOwnedBy owner n.label = false :=
    Element.not_isOwnedBy owner (by simp [h.label.metadata])
  rw [elements_eq, List.filter_cons_of_neg (by simp [hcontainer]),
    List.filter_cons_of_neg (by simp [hlabel])]

theorem filter_isOwnedBy_of_ne (h : n.IsSound kind direction) {owner : String}
    (hne : n.nodeId ≠ owner) : n.elements.filter (isOwnedBy owner) = [] := by
  rw [filter_isOwnedBy h, List.filter_eq_nil_iff]
  intro e he howned
  exact hne ((h.parts e he).ownerId owner (Element.isOwnedBy_iff.1 howned).2).symm

/-- The last lifeline of a participant. -/
def lifeline? (n : NodePicture α) : Option (Element α) :=
  (n.parts.filter fun e => e.participant? = some n.nodeId).getLast?

theorem filter_participant (h : n.IsSound kind direction) (id : String) :
    n.elements.filter (fun e => e.participant? = some id)
      = if n.nodeId = id then n.parts.filter (fun e => e.participant? = some id) else [] := by
  have hcontainer : n.container.participant? = none :=
    Element.participant?_of_tag h.container.isNoLifeline
  have hlabel : n.label.participant? = none :=
    Element.participant?_of_tag (by simp [Element.tag?_of_metadata h.label.metadata])
  rw [elements_eq, List.filter_cons_of_neg (by simp [hcontainer]),
    List.filter_cons_of_neg (by simp [hlabel])]
  split
  · rfl
  · next hne =>
    rw [List.filter_eq_nil_iff]
    intro e he hp
    rw [decide_eq_true_eq, Element.participant?] at hp
    split at hp
    · exact hne ((h.parts e he).participantId id hp).symm
    · simp at hp

end NodePicture

namespace EdgePicture

variable {e : EdgePicture α}

theorem isLive (h : e.IsSound) : ∀ x ∈ e.elements, x.isDeleted = false := by
  intro x hx
  rw [elements_eq, List.mem_cons, Option.mem_toList] at hx
  rcases hx with rfl | hx
  · exact h.arrow.isLive
  · exact (h.label x hx).isLive

theorem filter_isContainer (h : e.IsSound) : e.elements.filter (·.kind.isContainer) = [] := by
  rw [List.filter_eq_nil_iff]
  intro x hx
  rw [elements_eq, List.mem_cons, Option.mem_toList] at hx
  rcases hx with rfl | hx
  · simp [h.arrow.kind, ElementKind.isContainer]
  · simp [(h.label x hx).kind, ElementKind.isContainer]

theorem filter_isArrow (h : e.IsSound) : e.elements.filter (·.kind = .arrow) = [e.arrow] := by
  have hlabel : e.label.toList.filter (·.kind = .arrow) = [] := by
    rw [List.filter_eq_nil_iff]
    intro x hx
    simp [(h.label x (Option.mem_toList.1 hx)).kind]
  rw [elements_eq, List.filter_cons_of_pos (by simp [h.arrow.kind]), hlabel]

theorem filter_isOwnedBy (h : e.IsSound) (owner : String) :
    e.elements.filter (isOwnedBy owner) = [] := by
  rw [List.filter_eq_nil_iff]
  intro x hx
  rw [elements_eq, List.mem_cons, Option.mem_toList] at hx
  rcases hx with rfl | hx
  · simp [Element.not_isOwnedBy owner (e := e.arrow) (by simp [h.arrow.ownerId])]
  · simp [Element.not_isOwnedBy owner (e := x) (by simp [(h.label x hx).metadata])]

theorem participant?_eq_none (h : e.IsSound) : ∀ x ∈ e.elements, x.participant? = none := by
  intro x hx
  rw [elements_eq, List.mem_cons, Option.mem_toList] at hx
  rcases hx with rfl | hx
  · exact Element.participant?_of_tag h.arrow.isNoLifeline
  · exact Element.participant?_of_tag (by simp [Element.tag?_of_metadata (h.label x hx).metadata])

end EdgePicture

/-! ## The parts that are found -/

/-- The arrows among the elements of some nodes and edges are those of the edges. -/
theorem filter_isArrow_flatMap {kind : DiagramKind} {direction : Direction}
    {ns : List (NodePicture α)} {es : List (EdgePicture α)}
    (hn : ∀ n ∈ ns, n.IsSound kind direction) (he : ∀ e ∈ es, e.IsSound) :
    (ns.flatMap NodePicture.elements ++ es.flatMap EdgePicture.elements).filter (·.kind = .arrow)
      = es.map (·.arrow) := by
  have hnodes : (ns.flatMap NodePicture.elements).filter (·.kind = .arrow) = [] := by
    rw [List.filter_flatMap, List.flatMap_eq_nil_iff]
    exact fun n h => NodePicture.filter_isArrow (hn n h)
  have hedges : (es.flatMap EdgePicture.elements).filter (·.kind = .arrow)
      = es.map (·.arrow) := by
    rw [List.filter_flatMap, List.map_eq_flatMap]
    exact List.flatMap_congr fun e h => EdgePicture.filter_isArrow (he e h)
  rw [List.filter_append, hnodes, hedges, List.nil_append]

namespace Picture

variable {p : Picture α}

/-- All elements of a picture are live. -/
theorem live_elements : live p.elements = p.elements := by
  rw [live, List.filter_eq_self]
  intro e he
  rw [elements, List.mem_append, List.mem_flatMap, List.mem_flatMap] at he
  rcases he with ⟨n, hn, he⟩ | ⟨x, hx, he⟩
  · simp [NodePicture.isLive (p.soundNodes n hn) e he]
  · simp [EdgePicture.isLive (p.soundEdges x hx) e he]

theorem filter_isContainer :
    p.elements.filter (·.kind.isContainer) = p.nodes.map (·.container) := by
  have hnodes : (p.nodes.flatMap NodePicture.elements).filter (·.kind.isContainer)
      = p.nodes.map (·.container) := by
    rw [List.filter_flatMap, List.map_eq_flatMap]
    exact List.flatMap_congr fun n hn => NodePicture.filter_isContainer (p.soundNodes n hn)
  have hedges : (p.edges.flatMap EdgePicture.elements).filter (·.kind.isContainer) = [] := by
    rw [List.filter_flatMap, List.flatMap_eq_nil_iff]
    exact fun e he => EdgePicture.filter_isContainer (p.soundEdges e he)
  rw [elements, List.filter_append, hnodes, hedges, List.append_nil]

theorem filter_isArrow :
    p.elements.filter (·.kind = .arrow) = p.edges.map (·.arrow) :=
  filter_isArrow_flatMap p.soundNodes p.soundEdges

/-- The elements that a node owns are among its parts. -/
theorem filter_isOwnedBy {n : NodePicture α} (hn : n ∈ p.nodes) :
    p.elements.filter (isOwnedBy n.nodeId) = n.parts.filter (isOwnedBy n.nodeId) := by
  have hnodes : (p.nodes.flatMap NodePicture.elements).filter (isOwnedBy n.nodeId)
      = n.parts.filter (isOwnedBy n.nodeId) := by
    rw [filter_flatMap_of_nodup (·.nodeId) p.nodup_nodeIds hn,
      NodePicture.filter_isOwnedBy (p.soundNodes n hn)]
    exact fun m hm hne => NodePicture.filter_isOwnedBy_of_ne (p.soundNodes m hm) hne
  have hedges : (p.edges.flatMap EdgePicture.elements).filter (isOwnedBy n.nodeId) = [] := by
    rw [List.filter_flatMap, List.flatMap_eq_nil_iff]
    exact fun e he => EdgePicture.filter_isOwnedBy (p.soundEdges e he) n.nodeId
  rw [elements, List.filter_append, hnodes, hedges, List.append_nil]

theorem segmentsOf?_elements {n : NodePicture α} (hn : n ∈ p.nodes) :
    segmentsOf? p.elements n.nodeId = segmentsOf? n.parts n.nodeId := by
  unfold segmentsOf?
  rw [filter_isOwnedBy hn]

/-- The containers that are found on a picture are those of its nodes. -/
theorem containers_elements : containers p.elements = p.nodes.map NodePicture.shown := by
  have hof : ∀ n ∈ p.nodes, Container.ofElement p.elements n.container = n.shown := by
    intro n hn
    have hid := Element.shownNodeId_of_nodeId (p.soundNodes n hn).container.nodeId
    rw [Container.ofElement, hid, labelOf?_container hn, segmentsOf?_elements hn]
    rfl
  have hmap : (p.nodes.map (·.container)).map (Container.ofElement p.elements)
      = p.nodes.map NodePicture.shown := by
    rw [List.map_map]
    exact List.map_congr_left fun n hn => hof n hn
  rw [containers, filter_isContainer, hmap]
  apply eraseDupsBy_of_nodup
  rw [List.map_map]
  exact p.nodup_nodeIds

theorem any_container (id : String) :
    (p.nodes.map NodePicture.shown).any (·.nodeId = id) = p.nodes.any (·.nodeId = id) := by
  rw [List.any_map]
  rfl

variable [Scalar α]

/-- The arrows that are found on a picture are those of its edges. -/
theorem connectors_elements (kind : DiagramKind) (cs : List (Container α)) :
    connectors kind p.elements cs = p.edges.map EdgePicture.shown := by
  have hof : ∀ e ∈ p.edges, connector? kind p.elements cs e.arrow = some e.shown := by
    intro e he
    have hsound := (p.soundEdges e he).arrow
    simp only [connector?, hsound.source, hsound.target, end?, fixedEnd?, Option.some_or,
      Option.bind_eq_bind, Option.bind_some, labelOf?_arrow he]
    rfl
  have hmap : p.edges.filterMap (connector? kind p.elements cs ∘ fun e => e.arrow)
      = p.edges.filterMap fun e => some e.shown := List.filterMap_congr hof
  rw [connectors, filter_isArrow, List.filterMap_map, hmap]
  exact congrFun List.filterMap_eq_map p.edges

omit [Scalar α] in
/-- The metadata of a picture with nodes are those of its first container. -/
theorem heading?_elements {n : NodePicture α} {ns : List (NodePicture α)}
    (h : p.nodes = n :: ns) : heading? p.elements = n.container.metadata := by
  have hn : n ∈ p.nodes := by simp [h]
  have hdiagram := (p.soundNodes n hn).container.diagram
  rw [heading?, filter_isContainer, h, List.map_cons, List.findSome?_cons]
  cases hm : n.container.metadata with
  | none => simp [hm] at hdiagram
  | some m =>
    simp only [hm, Option.bind_some] at hdiagram
    simp [Option.filter, hdiagram]

/-! ## The heading -/

omit [Scalar α] in
/-- A picture with nodes says its kind. -/
theorem namedKind_elements (h : p.nodes ≠ []) : namedKind p.elements = p.kind := by
  obtain ⟨n, ns, hns⟩ := List.exists_cons_of_ne_nil h
  have hdiagram := (p.soundNodes n (by simp [hns])).container.diagram
  rw [namedKind, heading?_elements hns]
  cases hm : n.container.metadata with
  | none => simp [hm] at hdiagram
  | some m =>
    simp only [hm, Option.bind_some] at hdiagram
    simp [hdiagram]

omit [Scalar α] in
/-- A picture with nodes says its direction. -/
theorem namedDirection_elements (h : p.nodes ≠ []) :
    namedDirection p.elements = p.direction := by
  obtain ⟨n, ns, hns⟩ := List.exists_cons_of_ne_nil h
  have hdirection := (p.soundNodes n (by simp [hns])).container.direction
  rw [namedDirection, heading?_elements hns]
  cases hm : n.container.metadata with
  | none => simp [hm] at hdirection
  | some m =>
    simp only [hm, Option.bind_some] at hdirection
    simp [hdirection]

/-! ## The table -/

omit [Scalar α] in
theorem find?_shown {n : NodePicture α} (hn : n ∈ p.nodes) :
    (p.nodes.map NodePicture.shown).find? (·.nodeId = n.nodeId) = some n.shown := by
  rw [List.find?_map]
  exact congrArg (Option.map NodePicture.shown) (find?_of_nodup p.nodup_nodeIds hn)

omit [Scalar α] in
/-- The last lifeline of a node on a picture is that of its own parts. -/
theorem lastLifeline?_elements {n : NodePicture α} (hn : n ∈ p.nodes) :
    lastLifeline? (p.nodes.map NodePicture.shown) p.elements n.nodeId = n.lifeline? := by
  have hone : ∀ e : Element α,
      lifelineOf? (p.nodes.map NodePicture.shown) e = some n.nodeId
        ↔ e.participant? = some n.nodeId := by
    intro e
    have hany : p.nodes.any (fun m => m.nodeId = n.nodeId) = true := by
      rw [List.any_eq_true]
      exact ⟨n, hn, by simp⟩
    rw [Element.lifelineOf?_eq, Option.filter_eq_some_iff, any_container, hany]
    simp
  have hnodes : (p.nodes.flatMap NodePicture.elements).filter
      (fun e => e.participant? = some n.nodeId)
      = n.parts.filter fun e => e.participant? = some n.nodeId := by
    rw [filter_flatMap_of_nodup (·.nodeId) p.nodup_nodeIds hn,
      NodePicture.filter_participant (p.soundNodes n hn), if_pos rfl]
    intro m hm hne
    rw [NodePicture.filter_participant (p.soundNodes m hm), if_neg hne]
  have hedges : (p.edges.flatMap EdgePicture.elements).filter
      (fun e => e.participant? = some n.nodeId) = [] := by
    rw [List.filter_flatMap, List.flatMap_eq_nil_iff]
    intro e he
    rw [List.filter_eq_nil_iff]
    intro x hx
    simp [EdgePicture.participant?_eq_none (p.soundEdges e he) x hx]
  simp only [lastLifeline?, hone]
  rw [elements, List.filter_append, hnodes, hedges, List.append_nil]
  rfl

/-- Every node of a picture is found with its elements. -/
theorem node?_identity {n : NodePicture α} (hn : n ∈ p.nodes) :
    (Board.read p.elements).identity.node? n.nodeId = some
      { container := n.container.id
        text := some n.label.id
        lifeline := n.lifeline?.map (·.id)
        segments := ((segmentsOf? n.parts n.nodeId).map (·.ids)).getD [] } := by
  have hnd : ((containers p.elements).map (·.nodeId)).Nodup := nodup_containers _
  rw [containers_elements] at hnd
  simp only [Board.read, live_elements, containers_elements]
  rw [node?_shownIdentity _ hnd, find?_shown hn, lastLifeline?_elements hn]
  rfl

/-- Every edge of a picture is found with its elements. -/
theorem edge?_identity {e : EdgePicture α} (he : e ∈ p.edges) :
    (Board.read p.elements).identity.edge? e.edgeId = some
      { arrow := e.arrow.id, text := e.label.map (·.id) } := by
  have hid : ∀ x ∈ p.edges, x.shown.edgeId = x.edgeId := by
    intro x hx
    have hsound := (p.soundEdges x hx).arrow.edgeId
    cases hm : x.arrow.metadata with
    | none => simp [hm] at hsound
    | some m =>
      simp only [hm, Option.bind_some] at hsound
      simp [EdgePicture.shown, Connector.edgeId, hm, hsound]
  have hnd : ((p.edges.map EdgePicture.shown).map (·.edgeId)).Nodup := by
    rw [List.map_map, List.map_congr_left (g := fun x => x.edgeId) hid]
    exact p.nodup_edgeIds
  have hlast := getLast?_of_nodup hnd (List.mem_map_of_mem he)
  simp only [hid e he] at hlast
  simp only [Board.read, live_elements, containers_elements]
  rw [edge?_shownIdentity, connectors_elements, hlast]
  rfl

end Picture

end DiagramBoard
