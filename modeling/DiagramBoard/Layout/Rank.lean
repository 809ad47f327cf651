/-
DiagramBoard.Layout.Rank — ranks of nodes and their order within a rank.

Nodes are numbered in the order of the diagram.  The rank of a node is one more than the largest
rank of its predecessors; while the rank of a node is being computed, edges back into the path that
led to it are passed over, so that a cycle is cut where it closes.  Ranks that are known are kept in
a table.

Within a rank, nodes are ordered by the mean place of their predecessors in earlier ranks, and nodes
without any by their number in the rank.

Main statements: every node has one rank (`length_ranks`), and a layer holds exactly the nodes of
its rank (`mem_orderLayer`).
-/
import DiagramBoard.Diagram.Basic

namespace DiagramBoard.Layout

/-- The number of the last id of a list that is equal to a given one. -/
def lastIndex? (id : String) : List String → Option Nat
  | [] => none
  | a :: r =>
    match lastIndex? id r with
    | some i => some (i + 1)
    | none => if a = id then some 0 else none

/-- The numbers of the two ends of an edge, if they are two nodes. -/
def link? {α : Type} (ids : List String) (e : Edge α) : Option (Nat × Nat) :=
  match lastIndex? e.source ids, lastIndex? e.target ids with
  | some s, some t => if s = t then none else some (s, t)
  | _, _ => none

/-- The predecessors of a node, each once, in the order of the edges. -/
def predecessorsOf (links : List (Nat × Nat)) (i : Nat) : List Nat :=
  ((links.filter fun l => l.2 = i).map (·.1)).eraseDups

/-- The predecessors of every node. -/
def predecessors {α : Type} (d : Diagram α) : List (List Nat) :=
  let links := d.edges.filterMap (link? d.nodeIds)
  (List.range d.nodes.length).map (predecessorsOf links)

/-! ## Ranks -/

/-- Ranks that are known, by node. -/
abbrev RankTable := List (Nat × Nat)

mutual

/-- The rank of a node, and the table with it.  `free` are the nodes that are not on the path. -/
def rankOf (preds : List (List Nat)) (free : List Nat) (i : Nat) (known : RankTable) :
    Nat × RankTable :=
  match known.lookup i with
  | some r => (r, known)
  | none =>
    let p := rankAfter preds free (preds.getD i []) 0 known
    (p.1, (i, p.1) :: p.2)
termination_by (free.length, 1, 0)

/-- The least rank that is at least `least` and above those of some predecessors. -/
def rankAfter (preds : List (List Nat)) (free : List Nat) (ps : List Nat) (least : Nat)
    (known : RankTable) : Nat × RankTable :=
  match ps with
  | [] => (least, known)
  | p :: ps =>
    if h : p ∈ free then
      have : (free.erase p).length < free.length := by
        have := List.length_pos_of_mem h
        rw [List.length_erase_of_mem h]
        omega
      let q := rankOf preds (free.erase p) p known
      rankAfter preds free ps (max least (q.1 + 1)) q.2
    else rankAfter preds free ps least known
termination_by (free.length, 0, ps.length)

end

/-- The ranks of the nodes before `n`, computed in turn. -/
def rankTable (preds : List (List Nat)) : RankTable :=
  let all := List.range preds.length
  all.foldl (fun known i => (rankOf preds (all.erase i) i known).2) []

/-- The rank of every node. -/
def ranks (preds : List (List Nat)) : List Nat :=
  let known := rankTable preds
  (List.range preds.length).map fun i => (known.lookup i).getD 0

theorem length_ranks (preds : List (List Nat)) : (ranks preds).length = preds.length := by
  simp [ranks]

/-! ## Layers -/

variable {α : Type} [Scalar α]

/-- The nodes of a rank, in their order in the diagram. -/
def layer (ranks : List Nat) (rank : Nat) : List Nat :=
  (List.range ranks.length).filter fun i => ranks.getD i 0 = rank

/-- The places of nodes within their ranks. -/
abbrev Places := List (Nat × Nat)

/-- What orders the node that is number `position` of its layer. -/
def orderKey (preds : List (List Nat)) (ranks : List Nat) (places : Places) (rank position : Nat)
    (i : Nat) : α :=
  match (preds.getD i []).filter fun p => ranks.getD p 0 < rank with
  | [] => (position : α)
  | earlier =>
    Scalar.sum (earlier.map fun p => ((places.lookup p).getD 0 : α)) / (earlier.length : α)

/-- A layer in the order of its keys; equal keys keep the order of the diagram. -/
def orderLayer (α : Type) [Scalar α] (preds : List (List Nat)) (ranks : List Nat)
    (places : Places) (rank : Nat) : List Nat :=
  let keyed := (layer ranks rank).zipIdx.map fun p =>
    (p.1, (orderKey preds ranks places rank p.2 p.1 : α))
  (keyed.mergeSort fun a b => a.2 ≤ b.2).map (·.1)

/-- The layers of `count` ranks from `rank` on, each ordered after the ones before it. -/
def orderFrom (α : Type) [Scalar α] (preds : List (List Nat)) (ranks : List Nat)
    (places : Places) (rank : Nat) : Nat → List (List Nat)
  | 0 => []
  | count + 1 =>
    let l := orderLayer α preds ranks places rank
    l :: orderFrom α preds ranks (l.zipIdx ++ places) (rank + 1) count

/-- The layers of a diagram, by rank. -/
def layers (α : Type) [Scalar α] (preds : List (List Nat)) : List (List Nat) :=
  match ranks preds with
  | [] => []
  | rs => orderFrom α preds rs [] 0 (rs.foldl max 0 + 1)

/-- An ordered layer holds exactly the nodes of its rank. -/
theorem mem_orderLayer {preds : List (List Nat)} {ranks : List Nat} {places : Places}
    {rank i : Nat} :
    i ∈ orderLayer α preds ranks places rank ↔ i < ranks.length ∧ ranks.getD i 0 = rank := by
  have : i ∈ orderLayer α preds ranks places rank ↔ i ∈ layer ranks rank := by
    unfold orderLayer
    simp only [List.mem_map, List.mem_mergeSort]
    constructor
    · rintro ⟨a, ⟨p, hp, rfl⟩, rfl⟩
      exact List.fst_mem_of_mem_zipIdx hp
    · intro hi
      obtain ⟨k, hk⟩ := List.mem_iff_getElem?.1 hi
      exact ⟨_, ⟨(i, k), List.mem_zipIdx_iff_getElem?.2 hk, rfl⟩, rfl⟩
  simp [this, layer]

end DiagramBoard.Layout
