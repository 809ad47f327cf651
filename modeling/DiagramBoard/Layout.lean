/-
DiagramBoard.Layout — giving every node of a diagram a place.

The kind of a diagram decides how: in ranks, in ranks of boxes sized by their members, or as
participants with lanes.
-/
import DiagramBoard.Layout.Incremental
import DiagramBoard.Layout.Lanes

namespace DiagramBoard

namespace Layout

/-- The ways to lay out a diagram. -/
inductive Strategy
  /-- Ranks of boxes that fit their labels. -/
  | ranks
  /-- A row of participants with lanes below. -/
  | lanes
  /-- Ranks of boxes that fit their members. -/
  | classRanks
deriving DecidableEq, Repr

end Layout

open Layout

/-- The way to lay out a kind of diagram. -/
def DiagramKind.strategy : DiagramKind → Strategy
  | .sequence | .gantt => .lanes
  | .classes | .er => .classRanks
  | .flowchart | .state | .c4 | .mindmap => .ranks

namespace Diagram

variable {α : Type} [Scalar α]

/-- The diagram with a place for every node.  A node that has one keeps it, unless the options or
the strategy say otherwise. -/
def layout (options : Options α) (d : Diagram α) : Diagram α :=
  match d.kind.strategy with
  | .ranks => rankedLayout (nodeSize options) options d
  | .classRanks => rankedLayout (classSize options) options d
  | .lanes => laneLayout options d

/-- The ids of the nodes without a place. -/
def unplacedIds (d : Diagram α) : List String :=
  (d.nodes.filter fun n => n.box.isNone).map (·.id)

/-- The diagram with a place beside the other nodes for those with new ids, and for those that had
none. -/
def layoutNew (options : Options α) (newIds : List String) (d : Diagram α) : Diagram α :=
  let newIds := newIds ++ d.unplacedIds
  match d.kind.strategy with
  | .ranks => incrementalLayout (nodeSize options) options newIds d
  | .classRanks => incrementalLayout (classSize options) options newIds d
  | .lanes => laneLayout options d

end Diagram

end DiagramBoard
