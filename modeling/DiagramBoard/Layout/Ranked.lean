/-
DiagramBoard.Layout.Ranked — placing all nodes of a diagram in ranks.

Ranks follow each other in the direction of the diagram, a gap between each two; in a rank the nodes
stand side by side, and the ranks are centred on each other.  A node that has a place keeps it,
unless a new layout is forced; any other takes the place computed for it, pushed along the ranks
until it is clear of the nodes placed before it.

Main statements: a layout keeps the number of nodes (`length_nodes_rankedLayout`) and does not
change a diagram whose nodes are all placed (`rankedLayout_of_placed`).
-/
import DiagramBoard.Layout.Rank
import DiagramBoard.Layout.Size

namespace DiagramBoard.Layout

variable {α : Type} [Scalar α]

/-! ## Clearance -/

/-- Boxes that are no further apart than this collide. -/
def collisionMargin : α := 20

/-- The space left of and above a layout. -/
def layoutMargin : α := 40

/-- Whether a box collides with any of some others. -/
def collides (b : Box α) (placed : List (Box α)) : Bool :=
  placed.any fun p => b.overlaps p collisionMargin

/-! ## Places by rank -/

/-- The extent of a box along the ranks. -/
def along (direction : Direction) (s : Size α) : α :=
  if direction.isVertical then s.height else s.width

/-- The extent of a box across the ranks. -/
def across (direction : Direction) (s : Size α) : α :=
  if direction.isVertical then s.width else s.height

/-- The size of a node by its number. -/
def sizeAt (sizes : List (Size α)) (i : Nat) : Size α := sizes.getD i ⟨0, 0⟩

/-- The extent of a rank along the ranks: that of its largest node. -/
def depth (direction : Direction) (sizes : List (Size α)) (nodes : List Nat) : α :=
  (nodes.map fun i => along direction (sizeAt sizes i)).foldl Scalar.larger 0

/-- The extent of a rank across the ranks: its nodes and the gaps between them. -/
def span (direction : Direction) (options : Options α) (sizes : List (Size α))
    (nodes : List Nat) : α :=
  Scalar.sum (nodes.map fun i => across direction (sizeAt sizes i))
    + ((nodes.length - 1 : Nat) : α) * options.nodeSep

/-- A box at a place along and across the ranks. -/
def boxAt (direction : Direction) (rankPosition cursor : α) (s : Size α) : Box α :=
  let (x, y) := if direction.isVertical then (cursor, rankPosition) else (rankPosition, cursor)
  { x := x + layoutMargin, y := y + layoutMargin, width := s.width, height := s.height }

/-- The boxes of a rank that starts at `offset` and is `depth` deep, from `cursor` on. -/
def placeRank (direction : Direction) (options : Options α) (sizes : List (Size α))
    (offset depth : α) : α → List Nat → List (Nat × Box α)
  | _, [] => []
  | cursor, i :: rest =>
    let s := sizeAt sizes i
    (i, boxAt direction (offset + (depth - along direction s) / 2) cursor s)
      :: placeRank direction options sizes offset depth
        (cursor + (across direction s + options.nodeSep)) rest

/-- The boxes of ranks that start at `offset`, and where the rank behind them would start. -/
def placeRanks (direction : Direction) (options : Options α) (sizes : List (Size α))
    (widest : α) : α → List (List Nat) → List (Nat × Box α) × α
  | offset, [] => ([], offset)
  | offset, nodes :: rest =>
    let d := depth direction sizes nodes
    let cursor := (widest - span direction options sizes nodes) / 2
    let q := placeRanks direction options sizes widest (offset + (d + options.rankSep)) rest
    (placeRank direction options sizes offset d cursor nodes ++ q.1, q.2)

/-- A box flipped along the ranks, which end at `extent`. -/
def flip (direction : Direction) (extent : α) (b : Box α) : Box α :=
  if direction.isVertical then
    { b with y := layoutMargin + extent - (b.y - layoutMargin) - b.height }
  else { b with x := layoutMargin + extent - (b.x - layoutMargin) - b.width }

/-- The boxes of all nodes, by number. -/
def rankPlaces (d : Diagram α) (options : Options α) (sizes : List (Size α)) :
    List (Nat × Box α) :=
  let layers := layers α (predecessors d)
  let widest := (layers.map (span d.direction options sizes)).foldl Scalar.larger 0
  let q := placeRanks d.direction options sizes widest 0 layers
  if d.direction.isReversed then
    q.1.map fun p => (p.1, flip d.direction (q.2 - options.rankSep) p.2)
  else q.1

/-- The box of every node, in the order of the diagram. -/
def rankBoxes (d : Diagram α) (options : Options α) (sizes : List (Size α)) : List (Box α) :=
  let places := rankPlaces d options sizes
  (List.range sizes.length).map fun i => (places.lookup i).getD ⟨0, 0, 0, 0⟩

/-! ## Layouts -/

/-- A box one step further along the ranks. -/
def stepAlong (direction : Direction) (options : Options α) (b : Box α) : Box α :=
  let sign : α := if direction.isReversed then -1 else 1
  if direction.isVertical then { b with y := b.y + sign * (b.height + options.rankSep) }
  else { b with x := b.x + sign * (b.width + options.rankSep) }

/-- A box pushed along the ranks until it is clear, by so many steps at most. -/
def nudge (direction : Direction) (options : Options α) (placed : List (Box α)) :
    Nat → Box α → Box α
  | 0, b => b
  | attempts + 1, b =>
    if collides b placed then
      nudge direction options placed attempts (stepAlong direction options b)
    else b

/-- The most steps that a box is pushed. -/
def nudgeAttempts : Nat := 20

/-- Nodes with the boxes computed for them; those without a place are pushed clear in turn. -/
def fillPlaces (direction : Direction) (options : Options α) :
    List (Box α) → List (Node α × Box α) → List (Node α)
  | _, [] => []
  | placed, (n, computed) :: rest =>
    match n.box with
    | some _ => n :: fillPlaces direction options placed rest
    | none =>
      let b := nudge direction options placed nudgeAttempts computed
      { n with box := some b } :: fillPlaces direction options (placed ++ [b]) rest

/-- The size that a node is laid out with: that of its box, or the one it needs. -/
def layoutSize (sizeOf : Node α → Size α) (n : Node α) : Size α :=
  match n.box with
  | some b => ⟨b.width, b.height⟩
  | none => sizeOf n

/-- Whether every node has a place. -/
def isPlaced (d : Diagram α) : Bool := d.nodes.all fun n => n.box.isSome

/-- A diagram whose nodes all have a place. -/
def rankedLayout (sizeOf : Node α → Size α) (options : Options α) (d : Diagram α) : Diagram α :=
  if !options.forceRelayout && isPlaced d then d
  else
    let computed := rankBoxes d options (d.nodes.map (layoutSize sizeOf))
    if options.forceRelayout then
      { d with nodes := (d.nodes.zip computed).map fun p => { p.1 with box := some p.2 } }
    else
      let placed := d.nodes.filterMap (·.box)
      { d with nodes := fillPlaces d.direction options placed (d.nodes.zip computed) }

theorem length_fillPlaces (direction : Direction) (options : Options α) (placed : List (Box α))
    (ps : List (Node α × Box α)) :
    (fillPlaces direction options placed ps).length = ps.length := by
  induction ps generalizing placed with
  | nil => rfl
  | cons p ps ih =>
    obtain ⟨n, b⟩ := p
    rw [fillPlaces]
    split <;> simp [ih]

theorem length_rankBoxes (d : Diagram α) (options : Options α) (sizes : List (Size α)) :
    (rankBoxes d options sizes).length = sizes.length := by
  simp [rankBoxes]

/-- A layout keeps the number of nodes. -/
theorem length_nodes_rankedLayout (sizeOf : Node α → Size α) (options : Options α)
    (d : Diagram α) : (rankedLayout sizeOf options d).nodes.length = d.nodes.length := by
  unfold rankedLayout
  split
  · rfl
  · dsimp only
    split <;> simp [length_fillPlaces, length_rankBoxes]

/-- A diagram whose nodes are all placed stays as it is. -/
theorem rankedLayout_of_placed {sizeOf : Node α → Size α} {options : Options α} {d : Diagram α}
    (hf : options.forceRelayout = false) (hp : isPlaced d = true) :
    rankedLayout sizeOf options d = d := by
  simp [rankedLayout, hf, hp]

end DiagramBoard.Layout
