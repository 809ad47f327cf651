/-
DiagramBoard.Proofs.Board.Identity — what reading a board enters into its table.

The table is filled in three passes: the containers, the lifelines, the arrows.  Each pass is a fold
over a list, and each of them is described by what it leaves under a name: the elements of the last
container, arrow or lifeline of that name, or else what was there before.

Main statements: the elements of a node (`node?_shownIdentity`) and of an edge
(`edge?_shownIdentity`) in the table of a board.
-/
import DiagramBoard.Board.Reading
import DiagramBoard.Proofs.Keyed

namespace DiagramBoard

namespace Table

variable {β γ : Type}

theorem get?_put (t : Table β) (name other : String) (value : β) :
    (t.put name value).get? other = if other = name then some value else t.get? other := by
  by_cases h : other = name
  · rw [h, get?_put_self, if_pos rfl]
  · rw [get?_put_of_ne h, if_neg h]

/-- After values were put under their names in turn, the last one counts. -/
theorem get?_foldl_put (key : γ → String) (value : γ → β) (xs : List γ) (t : Table β)
    (name : String) :
    (xs.foldl (fun t x => t.put (key x) (value x)) t).get? name =
      ((xs.filter fun x => key x = name).getLast?.map value).or (t.get? name) := by
  induction xs generalizing t with
  | nil => rfl
  | cons x xs ih =>
    rw [List.foldl_cons, ih, get?_put, getLast?_filter_cons]
    by_cases hx : key x = name
    · cases (xs.filter fun x => key x = name).getLast? <;> simp [hx]
    · have hne : name ≠ key x := fun h => hx h.symm
      simp [hx, hne]

end Table

namespace Identity

/-! ## Folds -/

variable {β : Type}

theorem nodes_foldl_insertNode (key : β → String) (value : β → NodeElements) (xs : List β)
    (t : Identity) :
    (xs.foldl (fun t x => t.insertNode (key x) (value x)) t).nodes
      = xs.foldl (fun t x => t.put (key x) (value x)) t.nodes := by
  induction xs generalizing t with
  | nil => rfl
  | cons x xs ih => rw [List.foldl_cons, ih]; rfl

theorem edges_foldl_insertNode (key : β → String) (value : β → NodeElements) (xs : List β)
    (t : Identity) : (xs.foldl (fun t x => t.insertNode (key x) (value x)) t).edges = t.edges := by
  induction xs generalizing t with
  | nil => rfl
  | cons x xs ih => rw [List.foldl_cons, ih]; rfl

theorem edges_foldl_insertEdge (key : β → String) (value : β → EdgeElements) (xs : List β)
    (t : Identity) :
    (xs.foldl (fun t x => t.insertEdge (key x) (value x)) t).edges
      = xs.foldl (fun t x => t.put (key x) (value x)) t.edges := by
  induction xs generalizing t with
  | nil => rfl
  | cons x xs ih => rw [List.foldl_cons, ih]; rfl

theorem nodes_foldl_insertEdge (key : β → String) (value : β → EdgeElements) (xs : List β)
    (t : Identity) : (xs.foldl (fun t x => t.insertEdge (key x) (value x)) t).nodes = t.nodes := by
  induction xs generalizing t with
  | nil => rfl
  | cons x xs ih => rw [List.foldl_cons, ih]; rfl

end Identity

namespace Board

variable {α : Type}

/-! ## Lifelines -/

theorem edges_enterLifeline (cs : List (Container α)) (t : Identity) (e : Element α) :
    (enterLifeline cs t e).edges = t.edges := by
  unfold enterLifeline
  split
  · rfl
  · split <;> rfl

/-- A lifeline is entered for its participant and nobody else. -/
theorem node?_enterLifeline (cs : List (Container α)) (t : Identity) (e : Element α)
    (id : String) :
    (enterLifeline cs t e).node? id = (t.node? id).map fun n =>
      { n with lifeline := if lifelineOf? cs e = some id then some e.id else n.lifeline } := by
  unfold enterLifeline
  split
  · next h =>
    simp only [h, reduceCtorEq, ↓reduceIte]
    cases t.node? id <;> rfl
  · next p h =>
    simp only [h, Option.some.injEq]
    split
    · next hnone =>
      by_cases hp : p = id
      · subst hp
        rw [hnone]
        rfl
      · simp only [hp, ↓reduceIte]
        cases t.node? id <;> rfl
    · next elements hsome =>
      simp only [Identity.node?, Identity.insertNode, Table.get?_put] at hsome ⊢
      by_cases hp : p = id
      · subst hp
        simp [hsome]
      · have hne : id ≠ p := fun h => hp h.symm
        simp only [hp, hne, ↓reduceIte]
        cases t.nodes.get? id <;> rfl

/-- The last of some elements that is the lifeline of a participant. -/
def lastLifeline? (cs : List (Container α)) (elements : List (Element α)) (id : String) :
    Option (Element α) :=
  (elements.filter fun e => lifelineOf? cs e = some id).getLast?

/-- After lifelines were entered in turn, each node has the last one of its own. -/
theorem node?_foldl_enterLifeline (cs : List (Container α)) (elements : List (Element α))
    (t : Identity) (id : String) :
    (elements.foldl (enterLifeline cs) t).node? id = (t.node? id).map fun n =>
      { n with lifeline := ((lastLifeline? cs elements id).map (·.id)).or n.lifeline } := by
  induction elements generalizing t with
  | nil =>
    simp only [List.foldl_nil, lastLifeline?, List.filter_nil, List.getLast?_nil, Option.map_none,
      Option.none_or]
    cases t.node? id <;> rfl
  | cons e elements ih =>
    rw [List.foldl_cons, ih, node?_enterLifeline, Option.map_map]
    congr 1
    funext n
    simp only [Function.comp_apply, lastLifeline?, getLast?_filter_cons, decide_eq_true_eq]
    cases (elements.filter fun e => lifelineOf? cs e = some id).getLast? with
    | some x => rfl
    | none => by_cases h : lifelineOf? cs e = some id <;> simp [h]

theorem edges_foldl_enterLifeline (cs : List (Container α)) (elements : List (Element α))
    (t : Identity) : (elements.foldl (enterLifeline cs) t).edges = t.edges := by
  induction elements generalizing t with
  | nil => rfl
  | cons e elements ih => rw [List.foldl_cons, ih, edges_enterLifeline]

/-! ## The table of a board -/

variable [Scalar α]

/-- The elements of a node are those of the first container that shows it, with the node's last
lifeline. -/
theorem node?_shownIdentity (live : List (Element α)) {cs : List (Container α)}
    (hcs : (cs.map (·.nodeId)).Nodup) (id : String) :
    (shownIdentity live cs).node? id = (cs.find? (·.nodeId = id)).map fun c =>
      { c.elements with lifeline := (lastLifeline? cs live id).map (·.id) } := by
  have hlast : (cs.foldl (fun t c => t.insertNode c.nodeId c.elements) ({} : Identity)).node? id
      = (cs.find? (·.nodeId = id)).map (·.elements) := by
    rw [Identity.node?, Identity.nodes_foldl_insertNode, Table.get?_foldl_put,
      getLast?_filter_of_nodup _ hcs, Table.get?_empty, Option.or_none]
  rw [Identity.node?, shownIdentity, Identity.nodes_foldl_insertEdge, ← Identity.node?,
    node?_foldl_enterLifeline, hlast, Option.map_map]
  congr 1
  funext c
  simp [Container.elements]

/-- The elements of an edge are those of the last arrow that shows it. -/
theorem edge?_shownIdentity (live : List (Element α)) (cs : List (Container α)) (id : String) :
    (shownIdentity live cs).edge? id =
      (((connectors (shownKind live cs) live cs).filter (·.edgeId = id)).getLast?).map
        (·.elements) := by
  rw [Identity.edge?, shownIdentity, Identity.edges_foldl_insertEdge, Table.get?_foldl_put,
    edges_foldl_enterLifeline, Identity.edges_foldl_insertNode, Table.get?_empty, Option.or_none]

end Board

end DiagramBoard
