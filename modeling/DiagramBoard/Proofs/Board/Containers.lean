/-
DiagramBoard.Proofs.Board.Containers — the container that shows a node of a board.

Of several containers that show a node the first one counts, for the place of the node as well as
for the elements that show it.

Main statements: a node that is read off a board is at the place of its container
(`box_node?_read`), and its elements start with that container (`container_node?_read`).
-/
import DiagramBoard.Proofs.Board.Identity

namespace DiagramBoard.Board

variable {α : Type}

/-- The first live container that shows a node. -/
def shownContainer? (elements : List (Element α)) (id : String) : Option (Element α) :=
  (live elements).find? fun e => e.kind.isContainer && e.shownNodeId = id

theorem find?_containers (alive : List (Element α)) (id : String) :
    (containers alive).find? (·.nodeId = id)
      = (alive.find? fun e => e.kind.isContainer && e.shownNodeId = id).map
        (Container.ofElement alive) := by
  rw [containers, find?_eraseDupsBy Container.nodeId, List.find?_map, List.find?_filter]
  congr 2
  funext e
  show decide (e.kind.isContainer = true ∧ decide (e.shownNodeId = id) = true) = _
  simp

theorem any_containers (alive : List (Element α)) (id : String) :
    (containers alive).any (·.nodeId = id)
      = alive.any fun e => e.kind.isContainer && e.shownNodeId = id := by
  rw [← List.isSome_find?, find?_containers, Option.isSome_map, List.isSome_find?]

variable [Scalar α]

/-- The table starts the elements of a node with its container. -/
theorem container_node?_read (elements : List (Element α)) (id : String) :
    ((Board.read elements).identity.node? id).map (·.container)
      = (shownContainer? elements id).map (·.id) := by
  simp only [Board.read]
  rw [node?_shownIdentity _ (nodup_containers _), find?_containers, Option.map_map, Option.map_map]
  rfl

omit [Scalar α] in
/-- Pruning changes at most the group of a node. -/
theorem prunedNode_eq (groups : List Group) (n : Node α) :
    Diagram.prunedNode groups n = { n with group := (Diagram.prunedNode groups n).group } := by
  unfold Diagram.prunedNode
  split <;> rfl

/-- The nodes of a board are its containers, each in one of the groups or in none. -/
theorem nodes_read (elements : List (Element α)) :
    ∃ group : Container α → Option String, (Board.read elements).diagram.nodes
      = (containers (live elements)).map fun c => { c.node with group := group c } := by
  let cs := containers (live elements)
  let grouped : Container α → Node α := fun c =>
    { c.node with group := groupOf? (groupsOf (memberships (live elements) cs)) c.nodeId }
  let groups := (shownDiagram (live elements) cs).prunedGroups
  refine ⟨fun c => (Diagram.prunedNode groups (grouped c)).group, ?_⟩
  have hnodes : (Board.read elements).diagram.nodes
      = cs.map fun c => Diagram.prunedNode groups (grouped c) := by
    simp only [Board.read, Diagram.prune, groups, cs, grouped]
    rw [shownDiagram, List.map_map]
    rfl
  rw [hnodes]
  exact List.map_congr_left fun c _ => prunedNode_eq groups (grouped c)

/-- A node that is read off a board is that of its container, in one of the groups or in none. -/
theorem node?_diagram_read (elements : List (Element α)) (id : String) :
    ∃ group : Container α → Option String, (Board.read elements).diagram.node? id
      = (shownContainer? elements id).map fun e =>
        { (Container.ofElement (live elements) e).node with
          group := group (Container.ofElement (live elements) e) } := by
  obtain ⟨group, hnodes⟩ := nodes_read elements
  refine ⟨group, ?_⟩
  have hfind := find?_containers (live elements) id
  rw [Diagram.node?, hnodes, List.find?_map]
  show Option.map _ ((containers (live elements)).find? (·.nodeId = id)) = _
  rw [hfind, Option.map_map, shownContainer?]
  rfl

/-- A node that is read off a board is at the place of its container. -/
theorem box_node?_read (elements : List (Element α)) (id : String) :
    ((Board.read elements).diagram.node? id).map (·.box)
      = (shownContainer? elements id).map fun e => some e.box := by
  obtain ⟨group, hnode⟩ := node?_diagram_read elements id
  rw [hnode, Option.map_map]
  rfl

end DiagramBoard.Board
