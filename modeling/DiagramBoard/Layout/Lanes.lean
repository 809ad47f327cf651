/-
DiagramBoard.Layout.Lanes — participants side by side with messages in lanes below them.

Participants stand in one row in the order of the diagram, whatever place they had; only their size
is kept.  Each message joins two centre lines in a lane of its own, and all lifelines end below the
last lane.
-/
import DiagramBoard.Layout.Size

namespace DiagramBoard.Layout

variable {α : Type} [Scalar α]

/-- The distance between lanes. -/
def laneStep : α := 100

/-- The distance between the left edges of participants. -/
def columnWidth (options : Options α) : α := options.defaultWidth + 2 * options.nodeSep

/-- The box of participant number `index`. -/
def participantBox (options : Options α) (index : Nat) (n : Node α) : Box α :=
  { x := (index : α) * columnWidth options
    y := 0
    width := match n.box with
      | some b => b.width
      | none => options.defaultWidth
    height := match n.box with
      | some b => b.height
      | none => options.defaultHeight }

/-- The centre lines of the participants, by id; of equal ids the last one counts. -/
def centerLines (options : Options α) (nodes : List (Node α)) : List (String × α) :=
  (nodes.zipIdx.map fun p => (p.1.id, (participantBox options p.2 p.1).centerX)).reverse

/-- The lane of the first message. -/
def firstLane (options : Options α) : α := options.defaultHeight + options.rankSep * 0.8

/-- Messages put into lanes from one on, and the lane behind them. -/
def laneEdges (centers : List (String × α)) : α → List (Edge α) → List (Edge α) × α
  | lane, [] => ([], lane)
  | lane, e :: rest =>
    match centers.lookup e.source, centers.lookup e.target with
    | some x₁, some x₂ =>
      let q := laneEdges centers (lane + laneStep) rest
      ({ e with points := some [⟨x₁, lane⟩, ⟨x₂, lane⟩] } :: q.1, q.2)
    | _, _ =>
      let q := laneEdges centers lane rest
      (e :: q.1, q.2)

/-- A diagram with its participants in a row and its messages in lanes. -/
def laneLayout (options : Options α) (d : Diagram α) : Diagram α :=
  let q := laneEdges (centerLines options d.nodes) (firstLane options) d.edges
  { d with
    nodes := d.nodes.zipIdx.map fun p =>
      { p.1 with
        box := some (participantBox options p.2 p.1)
        lifelineEnd := some (q.2 + options.rankSep) }
    edges := q.1 }

end DiagramBoard.Layout
