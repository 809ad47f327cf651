/-
DiagramBoard.Layout.Incremental — placing new nodes beside those that have a place.

New nodes are placed in the order of their ids, one that is joined to a placed node before one that
is not.  A node goes behind the node that the first edge into it comes from, else before the node
that the first edge out of it goes to, and past all boxes if neither is placed.  From there it moves
across the ranks, to both sides in turn, to the first free place.

Main statement: a new node is put at the first of its fifty places that is free, and at the last one
if none is (`displace_eq`).
-/
import DiagramBoard.Layout.Ranked

namespace DiagramBoard.Layout

variable {α : Type} [Scalar α]

/-! ## Where a box can go -/

/-- The box of a node placed next to another along the ranks, the centres in line. -/
def beside (direction : Direction) (options : Options α) (neighbour : Box α) (s : Size α) :
    Box α :=
  let centredX := neighbour.x + (neighbour.width - s.width) / 2
  let centredY := neighbour.y + (neighbour.height - s.height) / 2
  let (x, y) := match direction with
    | .down => (centredX, neighbour.bottom + options.rankSep)
    | .up => (centredX, neighbour.y - options.rankSep - s.height)
    | .right => (neighbour.right + options.rankSep, centredY)
    | .left => (neighbour.x - options.rankSep - s.width, centredY)
  ⟨x, y, s.width, s.height⟩

/-- The least or greatest of some numbers, the first one being given. -/
def extreme (choose : α → α → α) (first : α) (rest : List α) : α := rest.foldl choose first

/-- The box of a node placed past all boxes, or at the margin where there are none. -/
def pastExtent (direction : Direction) (options : Options α) (boxes : List (Box α))
    (s : Size α) : Box α :=
  match boxes with
  | [] => ⟨layoutMargin, layoutMargin, s.width, s.height⟩
  | b :: bs =>
    let minX := extreme Scalar.smaller b.x (bs.map (·.x))
    let minY := extreme Scalar.smaller b.y (bs.map (·.y))
    let maxX := extreme Scalar.larger b.right (bs.map Box.right)
    let maxY := extreme Scalar.larger b.bottom (bs.map Box.bottom)
    let (x, y) := match direction with
      | .down => (minX, maxY + options.rankSep)
      | .up => (minX, minY - options.rankSep - s.height)
      | .right => (maxX + options.rankSep, minY)
      | .left => (minX - options.rankSep - s.width, minY)
    ⟨x, y, s.width, s.height⟩

/-- The number of places that are tried for a box. -/
def placementAttempts : Nat := 50

/-- Place number `k` of a box: its origin, then one step to each side, then two, and so on. -/
def candidate (direction : Direction) (options : Options α) (origin : Box α) (k : Nat) : Box α :=
  if k = 0 then origin
  else
    let steps : α := (((k + 1) / 2 : Nat) : α)
    let sign : α := if k % 2 = 1 then 1 else -1
    if direction.isVertical then
      { origin with x := origin.x + sign * steps * (origin.width + options.nodeSep) }
    else { origin with y := origin.y + sign * steps * (origin.height + options.nodeSep) }

/-- The first free place of a box from place `k` on, or the last of so many more. -/
def displaceFrom (direction : Direction) (options : Options α) (boxes : List (Box α))
    (origin : Box α) (k : Nat) : Nat → Box α
  | 0 => candidate direction options origin k
  | more + 1 =>
    let b := candidate direction options origin k
    if collides b boxes then displaceFrom direction options boxes origin (k + 1) more else b

/-- The first free place of a box, or the last place. -/
def displace (direction : Direction) (options : Options α) (boxes : List (Box α))
    (origin : Box α) : Box α :=
  displaceFrom direction options boxes origin 0 (placementAttempts - 1)

/-- All places of a box, in the order in which they are tried. -/
def candidates (direction : Direction) (options : Options α) (origin : Box α) : List (Box α) :=
  (List.range placementAttempts).map (candidate direction options origin)

theorem displaceFrom_eq (direction : Direction) (options : Options α) (boxes : List (Box α))
    (origin : Box α) (k more : Nat) :
    displaceFrom direction options boxes origin k more =
      (((List.range' k (more + 1)).map (candidate direction options origin)).find?
        fun b => !collides b boxes).getD (candidate direction options origin (k + more)) := by
  induction more generalizing k with
  | zero =>
    cases h : collides (candidate direction options origin k) boxes <;>
      simp [displaceFrom, h]
  | succ more ih =>
    rw [displaceFrom, List.range'_succ, List.map_cons]
    cases h : collides (candidate direction options origin k) boxes
    · simp [h]
    · simp only [↓reduceIte, ih]
      rw [List.find?_cons_of_neg (by simp [h]), Nat.add_right_comm, Nat.add_assoc]

/-- A box goes to the first of its places that is free, and to the last one if none is. -/
theorem displace_eq (direction : Direction) (options : Options α) (boxes : List (Box α))
    (origin : Box α) :
    displace direction options boxes origin =
      ((candidates direction options origin).find? fun b => !collides b boxes).getD
        (candidate direction options origin (placementAttempts - 1)) := by
  rw [displace, displaceFrom_eq, candidates, List.range_eq_range']
  simp [placementAttempts]

/-! ## Placing new nodes -/

/-- The boxes of the nodes that have one, by id. -/
abbrev Placed (α : Type) := List (String × Box α)

/-- The box of the first placed node that an edge comes from to a node, else of the first one that
an edge goes to from it. -/
def placedNeighbour? (edges : List (Edge α)) (placed : Placed α) (id : String) :
    Option (Box α) :=
  ((edges.filter fun e => e.target = id).findSome? fun e => placed.lookup e.source).or
    ((edges.filter fun e => e.source = id).findSome? fun e => placed.lookup e.target)

/-- The first node with a placed neighbour, or else the first node, and the others. -/
def nextPending (edges : List (Edge α)) (placed : Placed α) (first : Node α)
    (rest : List (Node α)) : Node α × List (Node α) :=
  let pending := first :: rest
  match pending.findIdx? fun n => (placedNeighbour? edges placed n.id).isSome with
  | some i => (pending.getD i first, pending.eraseIdx i)
  | none => (first, rest)

/-- The box of a new node. -/
def newBox (d : Diagram α) (sizeOf : Node α → Size α) (options : Options α) (placed : Placed α)
    (boxes : List (Box α)) (n : Node α) : Box α :=
  let s := sizeOf n
  let origin := match placedNeighbour? d.edges placed n.id with
    | some neighbour => beside d.direction options neighbour s
    | none => pastExtent d.direction options boxes s
  displace d.direction options boxes origin

omit [Scalar α] in
theorem length_nextPending (edges : List (Edge α)) (placed : Placed α) (first : Node α)
    (rest : List (Node α)) : (nextPending edges placed first rest).2.length = rest.length := by
  unfold nextPending
  dsimp only
  split
  · rename_i i hi
    have := (List.findIdx?_eq_some_iff_getElem.1 hi).1
    simp only [List.length_cons] at this
    rw [List.length_eraseIdx]
    simp only [List.length_cons]
    split <;> omega
  · rfl

/-- The boxes of the pending nodes, in the order in which they are placed. -/
def placePending (d : Diagram α) (sizeOf : Node α → Size α) (options : Options α)
    (placed : Placed α) (boxes : List (Box α)) (pending : List (Node α)) : Placed α :=
  match pending with
  | [] => []
  | first :: rest =>
    let next := nextPending d.edges placed first rest
    let b := newBox d sizeOf options placed boxes next.1
    (next.1.id, b)
      :: placePending d sizeOf options ((next.1.id, b) :: placed) (boxes ++ [b]) next.2
termination_by pending.length
decreasing_by
  simp [length_nextPending]

/-- A diagram in which the nodes with new ids are placed beside the others. -/
def incrementalLayout (sizeOf : Node α → Size α) (options : Options α) (newIds : List String)
    (d : Diagram α) : Diagram α :=
  let isNew := fun (n : Node α) => newIds.contains n.id
  let kept : Placed α := (d.nodes.filter fun n => !isNew n).filterMap fun n =>
    n.box.map fun b => (n.id, b)
  let placed := kept.reverse
  let boxes := d.nodes.filterMap fun n => placed.lookup n.id
  let pending := (d.nodes.filter isNew).mergeSort fun a b => a.id ≤ b.id
  (placePending d sizeOf options placed boxes pending).foldl
    (fun d p => d.modifyNode p.1 fun n => { n with box := some p.2 }) d

end DiagramBoard.Layout
