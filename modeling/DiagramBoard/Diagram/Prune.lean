/-
DiagramBoard.Diagram.Prune — dropping what refers to nothing.

An edge stays if both its ends are nodes.  A group keeps its children that are nodes and stays if it
has at least two of them.  A node keeps its group if some group that stays lists it.

Main statements: every edge of a pruned diagram joins nodes (`hasNode_of_mem_edges_prune`) and
pruning leaves the ids of the nodes alone (`nodeIds_prune`).
-/
import DiagramBoard.Diagram.Basic

namespace DiagramBoard.Diagram

variable {α : Type}

/-- The groups that stay, with the children that are nodes. -/
def prunedGroups (d : Diagram α) : List Group :=
  (d.groups.map fun g => { g with children := g.children.filter fun c => d.hasNode c }).filter
    fun g => 2 ≤ g.children.length

/-- The edges that stay. -/
def prunedEdges (d : Diagram α) : List (Edge α) :=
  d.edges.filter fun e => d.hasNode e.source && d.hasNode e.target

/-- A node with its group, if that stays. -/
def prunedNode (groups : List Group) (n : Node α) : Node α :=
  if groups.any fun g => g.children.contains n.id then n else { n with group := none }

/-- The diagram without edges to nothing and without groups of fewer than two nodes. -/
def prune (d : Diagram α) : Diagram α :=
  { d with
    edges := d.prunedEdges
    groups := d.prunedGroups
    nodes := d.nodes.map (prunedNode d.prunedGroups) }

@[simp] theorem prunedNode_id (groups : List Group) (n : Node α) :
    (prunedNode groups n).id = n.id := by
  unfold prunedNode
  split <;> rfl

/-- Pruning leaves the ids of the nodes alone. -/
@[simp] theorem nodeIds_prune (d : Diagram α) : d.prune.nodeIds = d.nodeIds := by
  simp [nodeIds, prune, Function.comp_def]

theorem hasNode_eq (d : Diagram α) (id : String) : d.hasNode id = d.nodeIds.contains id := by
  rw [Bool.eq_iff_iff]
  simp [hasNode, nodeIds]

/-- Every edge of a pruned diagram joins nodes of it. -/
theorem hasNode_of_mem_edges_prune {d : Diagram α} {e : Edge α} (h : e ∈ d.prune.edges) :
    d.prune.hasNode e.source = true ∧ d.prune.hasNode e.target = true := by
  rw [hasNode_eq, hasNode_eq, nodeIds_prune, ← hasNode_eq, ← hasNode_eq]
  simpa using (List.mem_filter.1 h).2

end DiagramBoard.Diagram
