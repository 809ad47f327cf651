/-
DiagramBoard.Proofs.Board.RedrawnPicture — pictures whose elements were redrawn.

What a picture says of an element is part of what the element shows, so a picture whose elements are
redrawn in any way that keeps what they show is a picture again.

Main statement: the elements of a redrawn picture are its elements redrawn (`elements_picture`).
-/
import DiagramBoard.Proofs.Board.PictureReading
import DiagramBoard.Proofs.Board.Redraw

namespace DiagramBoard

variable {α : Type} [Scalar α]

/-! ## Redrawn elements -/

namespace Element

omit [Scalar α] in
theorem bind_map_skeleton {β : Type} {f : Metadata α → Option β} (m : Option (Metadata α))
    (hf : ∀ m, f m.skeleton = f m) : (m.map Metadata.skeleton).bind f = m.bind f := by
  cases m with
  | none => rfl
  | some m => exact hf m

variable {e e' : Element α}

/-- What the metadata say is part of what an element shows. -/
theorem bind_metadata_of_skeleton {β : Type} {f : Metadata α → Option β}
    (h : e'.skeleton = e.skeleton) (hf : ∀ m : Metadata α, f m.skeleton = f m) :
    e'.metadata.bind f = e.metadata.bind f := by
  have hm : e'.metadata.map Metadata.skeleton = e.metadata.map Metadata.skeleton :=
    congrArg (·.metadata) h
  rw [← bind_map_skeleton e'.metadata hf, hm, bind_map_skeleton e.metadata hf]

theorem tag?_of_skeleton (h : e'.skeleton = e.skeleton) : e'.tag? = e.tag? := by
  rw [tag?, tag?, bind_metadata_of_skeleton h fun _ => rfl]

theorem IsContainerOf.of_skeleton {kind : DiagramKind} {direction : Direction} {id : String}
    (he : e.IsContainerOf kind direction id) (h : e'.skeleton = e.skeleton) :
    e'.IsContainerOf kind direction id where
  isLive := (congrArg (·.isDeleted) h).trans he.isLive
  isContainer := by
    rw [show e'.kind = e.kind from congrArg (·.kind) h]
    exact he.isContainer
  nodeId := (bind_metadata_of_skeleton h fun _ => rfl).trans he.nodeId
  diagram := (bind_metadata_of_skeleton h fun _ => rfl).trans he.diagram
  direction := (bind_metadata_of_skeleton h fun _ => rfl).trans he.direction
  ownerId := (bind_metadata_of_skeleton h fun _ => rfl).trans he.ownerId
  isNoLifeline := tag?_of_skeleton h ▸ he.isNoLifeline
  isNoMessage := tag?_of_skeleton h ▸ he.isNoMessage

theorem IsLabelIn.of_skeleton {holder : String} (he : e.IsLabelIn holder)
    (h : e'.skeleton = e.skeleton) : e'.IsLabelIn holder where
  isLive := (congrArg (·.isDeleted) h).trans he.isLive
  kind := (congrArg (·.kind) h).trans he.kind
  containerId := (congrArg (·.containerId) h).trans he.containerId
  metadata := by
    have hm : e'.metadata.map Metadata.skeleton = e.metadata.map Metadata.skeleton :=
      congrArg (·.metadata) h
    rw [he.metadata, Option.map_none, Option.map_eq_none_iff] at hm
    exact hm

theorem IsPartOf.of_skeleton {id : String} (he : e.IsPartOf id) (h : e'.skeleton = e.skeleton) :
    e'.IsPartOf id where
  isLive := (congrArg (·.isDeleted) h).trans he.isLive
  isNoContainer := by
    rw [show e'.kind = e.kind from congrArg (·.kind) h]
    exact he.isNoContainer
  isNoArrow := by
    rw [show e'.kind = e.kind from congrArg (·.kind) h]
    exact he.isNoArrow
  containerId := (congrArg (·.containerId) h).trans he.containerId
  ownerId o ho := he.ownerId o ((bind_metadata_of_skeleton h fun _ => rfl).symm.trans ho)
  participantId p hp :=
    he.participantId p ((bind_metadata_of_skeleton h fun _ => rfl).symm.trans hp)
  isTagged := tag?_of_skeleton h ▸ he.isTagged

theorem IsArrowOf.of_skeleton {id source target : String} (he : e.IsArrowOf id source target)
    (h : e'.skeleton = e.skeleton) : e'.IsArrowOf id source target where
  isLive := (congrArg (·.isDeleted) h).trans he.isLive
  kind := (congrArg (·.kind) h).trans he.kind
  edgeId := (bind_metadata_of_skeleton h fun _ => rfl).trans he.edgeId
  source := (bind_metadata_of_skeleton h fun _ => rfl).trans he.source
  target := (bind_metadata_of_skeleton h fun _ => rfl).trans he.target
  ownerId := (bind_metadata_of_skeleton h fun _ => rfl).trans he.ownerId
  isNoLifeline := tag?_of_skeleton h ▸ he.isNoLifeline

end Element

/-! ## Redrawn pictures -/

/-- A way of redrawing elements that keeps what they show. -/
structure Redrawing (α : Type) [Scalar α] where
  redraw : Element α → Element α
  skeleton_redraw : ∀ e, (redraw e).skeleton = e.skeleton

namespace Redrawing

variable (r : Redrawing α)

@[simp] theorem redraw_id (e : Element α) : (r.redraw e).id = e.id :=
  congrArg (·.id) (r.skeleton_redraw e)

/-- The elements of a node redrawn. -/
def node (n : NodePicture α) : NodePicture α :=
  { nodeId := n.nodeId
    container := r.redraw n.container
    label := r.redraw n.label
    parts := n.parts.map r.redraw }

/-- The elements of an edge redrawn. -/
def edge (e : EdgePicture α) : EdgePicture α :=
  { edgeId := e.edgeId
    source := e.source
    target := e.target
    arrow := r.redraw e.arrow
    label := e.label.map r.redraw }

theorem elements_node (n : NodePicture α) : (r.node n).elements = n.elements.map r.redraw := rfl

theorem elements_edge (e : EdgePicture α) : (r.edge e).elements = e.elements.map r.redraw := by
  cases h : e.label <;> simp [edge, EdgePicture.elements_eq, h]

theorem isSound_node {kind : DiagramKind} {direction : Direction} {n : NodePicture α}
    (h : n.IsSound kind direction) : (r.node n).IsSound kind direction where
  container := h.container.of_skeleton (r.skeleton_redraw _)
  label := by
    have := h.label.of_skeleton (r.skeleton_redraw n.label)
    rwa [← r.redraw_id n.container] at this
  parts e he := by
    obtain ⟨x, hx, rfl⟩ := List.mem_map.1 he
    exact (h.parts x hx).of_skeleton (r.skeleton_redraw x)

theorem isSound_edge {e : EdgePicture α} (h : e.IsSound) : (r.edge e).IsSound where
  arrow := h.arrow.of_skeleton (r.skeleton_redraw _)
  label l hl := by
    obtain ⟨x, hx, rfl⟩ := Option.map_eq_some_iff.1 hl
    have := (h.label x hx).of_skeleton (r.skeleton_redraw x)
    rwa [← r.redraw_id e.arrow] at this

/-- A picture redrawn. -/
def picture (p : Picture α) : Picture α where
  kind := p.kind
  direction := p.direction
  nodes := p.nodes.map r.node
  edges := p.edges.map r.edge
  soundNodes := by
    intro n hn
    obtain ⟨m, hm, rfl⟩ := List.mem_map.1 hn
    exact r.isSound_node (p.soundNodes m hm)
  soundEdges := by
    intro e he
    obtain ⟨x, hx, rfl⟩ := List.mem_map.1 he
    exact r.isSound_edge (p.soundEdges x hx)
  nodup_nodeIds := by
    rw [List.map_map]
    exact p.nodup_nodeIds
  nodup_edgeIds := by
    rw [List.map_map]
    exact p.nodup_edgeIds
  nodup_holders := by
    have hn : (p.nodes.map r.node).map (·.container.id) = p.nodes.map (·.container.id) := by
      rw [List.map_map]
      exact List.map_congr_left fun n _ => r.redraw_id n.container
    have he : (p.edges.map r.edge).map (·.arrow.id) = p.edges.map (·.arrow.id) := by
      rw [List.map_map]
      exact List.map_congr_left fun e _ => r.redraw_id e.arrow
    rw [hn, he]
    exact p.nodup_holders

/-- The elements of a redrawn picture are its elements redrawn. -/
theorem elements_picture (p : Picture α) : (r.picture p).elements = p.elements.map r.redraw := by
  simp only [Picture.elements, picture, List.map_append, List.map_flatMap, List.flatMap_map,
    elements_node, elements_edge]

end Redrawing

end DiagramBoard
