/-
DiagramBoard.Change — what differs between two states of a diagram.

A node has changed if its label, its shape or its group has; an edge if its label has.  Where
something is drawn and how it looks is no change.  Nodes are matched by id.  Edges are matched by
their two ends, and several edges between the same two nodes in the order in which they occur.

Main statements: a node of the new diagram is added exactly if the old one has none of its id
(`mem_addedNodes`), and the edges of the new diagram number those added, updated and unchanged
(`length_edgeChange`).
-/
import DiagramBoard.Diagram.Basic

namespace DiagramBoard

/-- Something before and after a change. -/
structure Replaced (β : Type) where
  before : β
  after : β
deriving Repr, Inhabited

/-- The parts of two lists that differ and those that do not. -/
structure Change (β : Type) where
  added : List β := []
  removed : List β := []
  updated : List (Replaced β) := []
  unchanged : List β := []
deriving Repr, Inhabited

/-- All that differs between two states of a diagram. -/
structure DiagramChange (α : Type) where
  nodes : Change (Node α)
  edges : Change (Edge α)
  directionChanged : Bool
  needsRelayout : Bool
deriving Repr, Inhabited

namespace Change

variable {α : Type}

/-! ## Nodes -/

/-- What becomes of one thing in the newer list. -/
inductive Fate (β : Type)
  | added (after : β)
  | updated (before after : β)
  | unchanged (after : β)

namespace Fate

variable {β : Type}

/-- The thing, if it is added. -/
def added? : Fate β → Option β
  | .added b => some b
  | _ => none

/-- The thing before and after, if it is updated. -/
def updated? : Fate β → Option (Replaced β)
  | .updated a b => some ⟨a, b⟩
  | _ => none

/-- The thing, if it is unchanged. -/
def unchanged? : Fate β → Option β
  | .unchanged b => some b
  | _ => none

end Fate

/-- The change with these fates and removals. -/
def ofFates {β : Type} (fates : List (Fate β)) (removed : List β) : Change β :=
  { added := fates.filterMap Fate.added?
    removed := removed
    updated := fates.filterMap Fate.updated?
    unchanged := fates.filterMap Fate.unchanged? }

/-- The last node with an id. -/
def lastNode? (nodes : List (Node α)) (id : String) : Option (Node α) :=
  nodes.reverse.find? (·.id = id)

/-- Whether two nodes say the same. -/
def sameNode (a b : Node α) : Bool :=
  a.id = b.id && a.label = b.label && a.shape = b.shape && a.group = b.group

/-- What becomes of a node; an unchanged one has its old place if there was one. -/
def nodeFate (old : List (Node α)) (n : Node α) : Fate (Node α) :=
  match lastNode? old n.id with
  | none => .added n
  | some before =>
    if sameNode before n then .unchanged { n with box := before.box.or n.box }
    else .updated before n

/-- How nodes differ. -/
def ofNodes (old new : List (Node α)) : Change (Node α) :=
  ofFates (new.map (nodeFate old)) (old.filter fun n => !new.any (·.id = n.id))

/-! ## Edges -/

/-- Whether two edges have the same ends. -/
def sameEnds (a b : Edge α) : Bool := a.source = b.source && a.target = b.target

/-- Every edge with the number of earlier edges that have its ends. -/
def occurrencesAfter (earlier : List (Edge α)) : List (Edge α) → List (Edge α × Nat)
  | [] => []
  | e :: rest => (e, earlier.countP (sameEnds e)) :: occurrencesAfter (e :: earlier) rest

/-- Every edge of a list with the number of earlier ones that have its ends. -/
def occurrences (edges : List (Edge α)) : List (Edge α × Nat) := occurrencesAfter [] edges

/-- The edge of a list with the same ends and the same number as another. -/
def partner? (others : List (Edge α × Nat)) (e : Edge α × Nat) : Option (Edge α) :=
  (others.find? fun o => sameEnds e.1 o.1 && o.2 = e.2).map (·.1)

/-- What becomes of an edge. -/
def edgeFate (old : List (Edge α × Nat)) (e : Edge α × Nat) : Fate (Edge α) :=
  match partner? old e with
  | none => .added e.1
  | some before => if before.label = e.1.label then .unchanged e.1 else .updated before e.1

/-- How edges differ. -/
def ofEdges (old new : List (Edge α)) : Change (Edge α) :=
  let olds := occurrences old
  let news := occurrences new
  ofFates (news.map (edgeFate olds))
    ((olds.filter fun o => (partner? news o).isNone).map (·.1))

/-! ## Counting -/

theorem length_ofFates {β : Type} (fates : List (Fate β)) (removed : List β) :
    (ofFates fates removed).added.length + (ofFates fates removed).updated.length
      + (ofFates fates removed).unchanged.length = fates.length := by
  induction fates with
  | nil => rfl
  | cons f fates ih =>
    simp only [ofFates, List.filterMap_cons, List.length_cons] at ih ⊢
    cases f <;> simp only [Fate.added?, Fate.updated?, Fate.unchanged?, List.length_cons] <;> omega

theorem length_occurrencesAfter (earlier edges : List (Edge α)) :
    (occurrencesAfter earlier edges).length = edges.length := by
  induction edges generalizing earlier with
  | nil => rfl
  | cons e edges ih => simp [occurrencesAfter, ih]

/-- The edges of the new diagram number those added, updated and unchanged. -/
theorem length_edgeChange (old new : List (Edge α)) :
    (ofEdges old new).added.length + (ofEdges old new).updated.length
      + (ofEdges old new).unchanged.length = new.length := by
  rw [ofEdges, length_ofFates, List.length_map, occurrences, length_occurrencesAfter]

theorem lastNode?_eq_none_iff {nodes : List (Node α)} {id : String} :
    lastNode? nodes id = none ↔ ∀ n ∈ nodes, n.id ≠ id := by
  simp [lastNode?]

/-- A node of the new diagram is added exactly if the old one has no node of its id. -/
theorem mem_addedNodes {old new : List (Node α)} {n : Node α} :
    n ∈ (ofNodes old new).added ↔ n ∈ new ∧ ∀ m ∈ old, m.id ≠ n.id := by
  simp only [ofNodes, ofFates, List.mem_filterMap, List.mem_map]
  constructor
  · rintro ⟨f, ⟨m, hm, rfl⟩, hf⟩
    unfold nodeFate at hf
    split at hf
    · rename_i h
      obtain rfl : m = n := by simpa [Fate.added?] using hf
      exact ⟨hm, lastNode?_eq_none_iff.1 h⟩
    · split at hf <;> simp [Fate.added?] at hf
  · rintro ⟨hn, ho⟩
    refine ⟨.added n, ⟨n, hn, ?_⟩, rfl⟩
    simp [nodeFate, lastNode?_eq_none_iff.2 ho]

end Change

namespace DiagramChange

variable {α : Type}

/-- The share of additions and removals, in tenths of the nodes, above which a diagram should be
laid out again. -/
def relayoutTenths : Nat := 3

/-- How two states of a diagram differ. -/
def between (old new : Diagram α) : DiagramChange α :=
  let nodes := Change.ofNodes old.nodes new.nodes
  let edges := Change.ofEdges old.edges new.edges
  let directionChanged : Bool := old.direction ≠ new.direction
  let topology := nodes.added.length + nodes.removed.length + edges.added.length
    + edges.removed.length
  let total := max (max old.nodes.length new.nodes.length) 1
  { nodes := nodes
    edges := edges
    directionChanged := directionChanged
    needsRelayout := directionChanged || !nodes.added.isEmpty || !nodes.removed.isEmpty
      || relayoutTenths * total < 10 * topology }

/-- The ids of the nodes that were added. -/
def addedIds (c : DiagramChange α) : List String := c.nodes.added.map (·.id)

/-- The place that a node had before, unless it was added; of several changes to one id an update
counts before an unchanged node, and the last one of a kind. -/
def previousBox? (c : DiagramChange α) (id : String) : Option (Box α) :=
  ((c.nodes.updated.reverse.filter (·.after.id = id)).findSome? (·.before.box)).or
    ((c.nodes.unchanged.reverse.filter (·.id = id)).findSome? (·.box))

/-- A diagram with the places that its nodes had before. -/
def carryPlaces (c : DiagramChange α) (new : Diagram α) : Diagram α :=
  { new with nodes := new.nodes.map fun n =>
      { n with box := (c.previousBox? n.id).or n.box } }

end DiagramChange

end DiagramBoard
