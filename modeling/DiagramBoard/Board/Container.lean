/-
DiagramBoard.Board.Container — containers read as nodes.

Every live container shows a node, whether it was drawn for one or by hand.  The node's id is the
one in the container's metadata, or else is made of the element's own id.  If several containers
show the same node, the first one counts.

Main statement: the containers of a board show different nodes (`nodup_containers`).
-/
import DiagramBoard.Board.Identity
import DiagramBoard.Board.Live
import DiagramBoard.Board.Style
import DiagramBoard.Diagram.Member

namespace DiagramBoard

/-- A container and what belongs to it. -/
structure Container (α : Type) where
  /-- The id of the node that it shows. -/
  nodeId : String
  element : Element α
  label : Option (Element α)
  segments : Option Board.Segments

/-- A value, unless it is the usual one. -/
def unusual {β : Type} [BEq β] (usual : β) (value : Option β) : Option β :=
  value.filter fun v => !(v == usual)

namespace Element

variable {α : Type}

/-- The id of a node without one: made of the first eight characters of an element's id, with an
underscore for each that is no ASCII letter or digit. -/
def madeNodeId (elementId : String) : String :=
  String.ofList ("n_".toList
    ++ (elementId.toList.take 8).map fun c => if c.isAlphanum then c else '_')

/-- The id of the node that a container shows. -/
def shownNodeId (e : Element α) : String :=
  ((e.metadata.bind fun m => m.nodeId.or m.id)).getD (madeNodeId e.id)

/-- The shape of the node that a container shows. -/
def shownShape (e : Element α) : Shape :=
  match e.metadata.bind fun m => m.shape.bind Shape.ofName? with
  | some shape => shape
  | none =>
    match e.kind with
    | .ellipse => .circle
    | .diamond => .diamond
    | _ => if e.roundness.any (·.kind = 3) then .rounded else .rectangle

variable [Scalar α]

/-- The ways in which an element differs from the standard style, fonts apart. -/
def shownHints (e : Element α) : StyleHints α :=
  let plain : BoardStyle α := .standard
  { strokeColor := unusual plain.strokeColor e.strokeColor
    backgroundColor := unusual plain.backgroundColor e.backgroundColor
    fillStyle := unusual plain.fillStyle (e.fillStyle.bind FillStyle.ofName?)
    strokeWidth := unusual plain.strokeWidth e.strokeWidth
    strokeStyle := unusual plain.strokeStyle (e.strokeStyle.bind StrokeStyle.ofName?)
    roughness := unusual plain.roughness e.roughness
    opacity := unusual plain.opacity e.opacity }

end Element

namespace Container

variable {α : Type}

/-- A container with what belongs to it. -/
def ofElement (live : List (Element α)) (e : Element α) : Container α :=
  { nodeId := e.shownNodeId
    element := e
    label := Board.labelOf? live e.id
    segments := Board.segmentsOf? live e.shownNodeId }

/-- The members of the class that a container shows, if it shows one. -/
def sections (c : Container α) : Option Sections :=
  match c.segments with
  | some s => some
    { attributes := Member.parseLines (s.attributes.getD "").toList
      methods := Member.parseLines (s.methods.getD "").toList }
  | none => if c.element.tag? = some .classContainer then some {} else none

/-- The elements of the node. -/
def elements (c : Container α) : NodeElements :=
  { container := c.element.id
    text := c.label.map (·.id)
    segments := (c.segments.map (·.ids)).getD [] }

variable [Scalar α]

/-- The ways in which the node differs from the standard style; its label tells the font. -/
def hints (c : Container α) : StyleHints α :=
  let plain : BoardStyle α := .standard
  { c.element.shownHints with
    fontSize := unusual plain.fontSize (c.label.bind (·.fontSize))
    fontFamily := unusual plain.fontFamily (c.label.bind (·.fontFamily)) }

/-- The node, at the place of its container. -/
def node (c : Container α) : Node α :=
  { id := c.nodeId
    label := (Board.labelText? c.label).getD c.nodeId
    shape := c.element.shownShape
    box := some c.element.box
    style := c.hints.nonEmpty?
    sections := c.sections }

end Container

namespace Board

variable {α : Type}

/-- The containers among the live elements, one for each node. -/
def containers (live : List (Element α)) : List (Container α) :=
  ((live.filter (·.kind.isContainer)).map (Container.ofElement live)).eraseDupsBy
    fun c d => c.nodeId == d.nodeId

/-- The id of the node that an element shows as a container. -/
def nodeOfElement? (containers : List (Container α)) (elementId : String) : Option String :=
  (containers.filter (·.element.id = elementId)).getLast?.map (·.nodeId)

theorem mem_of_mem_eraseDupsBy {β : Type} {r : β → β → Bool} {x : β} (xs : List β)
    (h : x ∈ xs.eraseDupsBy r) : x ∈ xs := by
  match xs with
  | [] => simp at h
  | y :: ys =>
    rw [List.eraseDupsBy_cons] at h
    rcases List.mem_cons.1 h with rfl | h
    · simp
    · exact List.mem_cons_of_mem _ (List.mem_filter.1 (mem_of_mem_eraseDupsBy _ h)).1
termination_by xs.length
decreasing_by
  have := List.length_filter_le (fun b => decide (r b y = false)) ys
  simp only [List.length_cons]
  omega

theorem nodup_map_eraseDupsBy {β γ : Type} [DecidableEq γ] (key : β → γ) (xs : List β) :
    ((xs.eraseDupsBy fun a b => key a == key b).map key).Nodup := by
  match xs with
  | [] => simp
  | y :: ys =>
    rw [List.eraseDupsBy_cons, List.map_cons, List.nodup_cons]
    refine ⟨?_, nodup_map_eraseDupsBy key _⟩
    intro hmem
    obtain ⟨b, hb, hkey⟩ := List.mem_map.1 hmem
    have := (List.mem_filter.1 (mem_of_mem_eraseDupsBy _ hb)).2
    simp [hkey] at this
termination_by xs.length
decreasing_by
  have := List.length_filter_le (fun b => decide ((key b == key y) = false)) ys
  simp only [List.length_cons]
  omega

/-- The containers of a board show different nodes. -/
theorem nodup_containers (live : List (Element α)) : ((containers live).map (·.nodeId)).Nodup :=
  nodup_map_eraseDupsBy Container.nodeId _

end Board

end DiagramBoard
