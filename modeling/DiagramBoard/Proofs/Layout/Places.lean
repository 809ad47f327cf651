/-
DiagramBoard.Proofs.Layout.Places — what a layout changes and what it leaves alone.

A layout in ranks, of the whole diagram or of its new nodes, changes the places of nodes and nothing
else.  A node that has a place keeps it, unless a new layout is forced or the node counts as new.

Main statements: ranked and incremental layouts only place nodes (`unplaced_rankedLayout`,
`unplaced_incrementalLayout`), and they keep the nodes that have a place
(`mem_rankedLayout_of_placed`, `mem_incrementalLayout_of_old`).  Diagrams are laid out in one of two
ways, by their kind (`layout_of_ranks`, `layout_of_lanes`), and no layout changes what a diagram says
(`content_layout`, `content_layoutNew`).
-/
import DiagramBoard.Layout
import DiagramBoard.Proofs.Diagram.Nodes
import DiagramBoard.Proofs.Keyed

namespace DiagramBoard

variable {α : Type}

/-- A node without its place. -/
def Node.unplaced (n : Node α) : Node α := { n with box := none }

/-- A diagram without the places of its nodes. -/
def Diagram.unplaced (d : Diagram α) : Diagram α := { d with nodes := d.nodes.map Node.unplaced }

/-- A node without its place and its lifeline. -/
def Node.unlaned (n : Node α) : Node α := { n with box := none, lifelineEnd := none }

/-- An edge without its way. -/
def Edge.unrouted (e : Edge α) : Edge α := { e with points := none }

/-- A diagram without the places and lifelines of its nodes and the ways of its edges. -/
def Diagram.unlaned (d : Diagram α) : Diagram α :=
  { d with nodes := d.nodes.map Node.unlaned, edges := d.edges.map Edge.unrouted }

theorem Diagram.unlaned_of_unplaced {d d' : Diagram α} (h : d'.unplaced = d.unplaced) :
    d'.unlaned = d.unlaned := by
  have hplaces : ∀ x : Diagram α, x.unplaced.unlaned = x.unlaned := by
    intro x
    rw [unplaced, unlaned, List.map_map]
    rfl
  rw [← hplaces d', h, hplaces d]

namespace Layout

variable [Scalar α]

/-! ## Ranks -/

theorem unplaced_fillPlaces (direction : Direction) (options : Options α)
    (placed : List (Box α)) (ps : List (Node α × Box α)) :
    (fillPlaces direction options placed ps).map Node.unplaced
      = ps.map fun p => p.1.unplaced := by
  induction ps generalizing placed with
  | nil => rfl
  | cons p ps ih =>
    obtain ⟨n, b⟩ := p
    rw [fillPlaces]
    cases n.box with
    | none => simp [ih, Node.unplaced]
    | some _ => simp [ih]

/-- Filling places leaves the nodes alone that have one. -/
theorem mem_fillPlaces (direction : Direction) (options : Options α) (placed : List (Box α))
    (ps : List (Node α × Box α)) {p : Node α × Box α} (hp : p ∈ ps)
    (hbox : p.1.box.isSome = true) : p.1 ∈ fillPlaces direction options placed ps := by
  induction ps generalizing placed with
  | nil => simp at hp
  | cons q ps ih =>
    obtain ⟨n, b⟩ := q
    rw [fillPlaces]
    cases hn : n.box with
    | none =>
      rcases List.mem_cons.1 hp with rfl | hp
      · simp [hn] at hbox
      · exact List.mem_cons_of_mem _ (ih _ hp)
    | some _ =>
      rcases List.mem_cons.1 hp with rfl | hp
      · exact List.mem_cons_self
      · exact List.mem_cons_of_mem _ (ih _ hp)

/-- The boxes of a ranked layout are as many as its nodes. -/
theorem length_computed (sizeOf : Node α → Size α) (options : Options α) (d : Diagram α) :
    (rankBoxes d options (d.nodes.map (layoutSize sizeOf))).length = d.nodes.length := by
  rw [length_rankBoxes, List.length_map]

theorem map_zip_computed (sizeOf : Node α → Size α) (options : Options α) (d : Diagram α) :
    ((d.nodes.zip (rankBoxes d options (d.nodes.map (layoutSize sizeOf)))).map
      fun p => p.1.unplaced) = d.nodes.map Node.unplaced := by
  have h : (d.nodes.zip (rankBoxes d options (d.nodes.map (layoutSize sizeOf)))).map Prod.fst
      = d.nodes := List.map_fst_zip (by rw [length_computed])
  conv_rhs => rw [← h, List.map_map]
  rfl

/-- A layout in ranks only places nodes. -/
theorem unplaced_rankedLayout (sizeOf : Node α → Size α) (options : Options α) (d : Diagram α) :
    (rankedLayout sizeOf options d).unplaced = d.unplaced := by
  unfold rankedLayout
  split
  · rfl
  · simp only
    split
    · simp only [Diagram.unplaced, List.map_map]
      exact congrArg (fun ns => { d with nodes := ns }) (map_zip_computed sizeOf options d)
    · simp only [Diagram.unplaced, unplaced_fillPlaces, map_zip_computed]

/-- A layout in ranks keeps every node that has a place, unless it is forced. -/
theorem mem_rankedLayout_of_placed {sizeOf : Node α → Size α} {options : Options α}
    {d : Diagram α} (hforce : options.forceRelayout = false) {n : Node α} (hn : n ∈ d.nodes)
    (hbox : n.box.isSome = true) : n ∈ (rankedLayout sizeOf options d).nodes := by
  unfold rankedLayout
  split
  · exact hn
  · simp only [hforce, Bool.false_eq_true, ↓reduceIte]
    have h : n ∈ (d.nodes.zip (rankBoxes d options (d.nodes.map (layoutSize sizeOf)))).map
        Prod.fst := by
      rw [List.map_fst_zip (by rw [length_computed])]
      exact hn
    obtain ⟨p, hp, rfl⟩ := List.mem_map.1 h
    exact mem_fillPlaces d.direction options _ _ hp hbox

/-! ## New nodes -/

omit [Scalar α] in
theorem unplaced_change (id : String) (b : Box α) (ns : List (Node α)) :
    (Diagram.modifyNode.change id (fun n => { n with box := some b }) ns).map Node.unplaced
      = ns.map Node.unplaced := by
  induction ns with
  | nil => rfl
  | cons n ns ih =>
    rw [Diagram.modifyNode.change]
    split
    · rfl
    · rw [List.map_cons, ih, List.map_cons]

omit [Scalar α] in
theorem mem_change_of_ne {id : String} {f : Node α → Node α} {ns : List (Node α)} {n : Node α}
    (hn : n ∈ ns) (hid : n.id ≠ id) : n ∈ Diagram.modifyNode.change id f ns := by
  induction ns with
  | nil => simp at hn
  | cons m ns ih =>
    rw [Diagram.modifyNode.change]
    split
    · next hm =>
      rcases List.mem_cons.1 hn with rfl | hn
      · exact absurd hm hid
      · exact List.mem_cons_of_mem _ hn
    · rcases List.mem_cons.1 hn with rfl | hn
      · exact List.mem_cons_self
      · exact List.mem_cons_of_mem _ (ih hn)

/-- Puts boxes at the nodes of their ids, in turn. -/
def putBoxes (boxes : Placed α) (d : Diagram α) : Diagram α :=
  boxes.foldl (fun d p => d.modifyNode p.1 fun n => { n with box := some p.2 }) d

omit [Scalar α] in
theorem unplaced_putBoxes (boxes : Placed α) (d : Diagram α) :
    (putBoxes boxes d).unplaced = d.unplaced := by
  induction boxes generalizing d with
  | nil => rfl
  | cons p boxes ih =>
    rw [putBoxes, List.foldl_cons, ← putBoxes, ih]
    simp only [Diagram.unplaced, Diagram.modifyNode, unplaced_change]

omit [Scalar α] in
/-- Boxes of other ids leave a node alone. -/
theorem mem_putBoxes {boxes : Placed α} {d : Diagram α} {n : Node α} (hn : n ∈ d.nodes)
    (hid : n.id ∉ boxes.map (·.1)) : n ∈ (putBoxes boxes d).nodes := by
  induction boxes generalizing d with
  | nil => exact hn
  | cons p boxes ih =>
    rw [List.map_cons, List.mem_cons, not_or] at hid
    rw [putBoxes, List.foldl_cons, ← putBoxes]
    exact ih (mem_change_of_ne hn hid.1) hid.2

omit [Scalar α] in
theorem mem_nextPending (edges : List (Edge α)) (placed : Placed α) (first : Node α)
    (rest : List (Node α)) :
    (nextPending edges placed first rest).1 ∈ first :: rest
      ∧ ∀ n ∈ (nextPending edges placed first rest).2, n ∈ first :: rest := by
  unfold nextPending
  simp only
  split
  · next i hi =>
    have hlt := (List.findIdx?_eq_some_iff_getElem.1 hi).1
    refine ⟨?_, fun n hn => List.mem_of_mem_eraseIdx hn⟩
    rw [List.getD_eq_getElem _ _ hlt]
    exact List.getElem_mem hlt
  · exact ⟨List.mem_cons_self, fun n hn => List.mem_cons_of_mem _ hn⟩

/-- Only pending nodes get a box. -/
theorem mem_placePending {d : Diagram α} {sizeOf : Node α → Size α} {options : Options α}
    {placed : Placed α} {boxes : List (Box α)} {pending : List (Node α)} {id : String}
    (h : id ∈ (placePending d sizeOf options placed boxes pending).map (·.1)) :
    ∃ n ∈ pending, n.id = id := by
  fun_induction placePending d sizeOf options placed boxes pending with
  | case1 => simp at h
  | case2 placed boxes first rest next b ih =>
    have hnext := mem_nextPending d.edges placed first rest
    rw [List.map_cons, List.mem_cons] at h
    rcases h with rfl | h
    · exact ⟨_, hnext.1, rfl⟩
    · obtain ⟨n, hn, hid⟩ := ih h
      exact ⟨n, hnext.2 n hn, hid⟩

/-- A layout of new nodes only places nodes. -/
theorem unplaced_incrementalLayout (sizeOf : Node α → Size α) (options : Options α)
    (newIds : List String) (d : Diagram α) :
    (incrementalLayout sizeOf options newIds d).unplaced = d.unplaced :=
  unplaced_putBoxes _ d

/-- A layout of new nodes keeps every other node. -/
theorem mem_incrementalLayout_of_old {sizeOf : Node α → Size α} {options : Options α}
    {newIds : List String} {d : Diagram α} {n : Node α} (hn : n ∈ d.nodes) (hold : n.id ∉ newIds) :
    n ∈ (incrementalLayout sizeOf options newIds d).nodes := by
  refine mem_putBoxes hn fun hmem => ?_
  obtain ⟨m, hm, hid⟩ := mem_placePending hmem
  rw [List.mem_mergeSort, List.mem_filter, List.contains_iff_mem, hid] at hm
  exact hold hm.2

/-! ## Lanes -/

/-- Only the sizes of participants matter for where they stand. -/
theorem participantBox_of_placed (options : Options α) (i j : Nat) {n m : Node α}
    (h : m.box = some (participantBox options i n)) :
    participantBox options j m = participantBox options j n := by
  unfold participantBox
  rw [h]
  rfl

/-- Lanes are ways and nothing else. -/
theorem map_unrouted_laneEdges (centers : List (String × α)) (lane : α) (edges : List (Edge α)) :
    (laneEdges centers lane edges).1.map Edge.unrouted = edges.map Edge.unrouted := by
  fun_induction laneEdges centers lane edges with
  | case1 => rfl
  | case2 lane e rest x₁ x₂ ht hs q ih => exact congrArg (e.unrouted :: ·) ih
  | case3 lane e rest q hne ih => exact congrArg (e.unrouted :: ·) ih

/-- A layout in lanes only places participants, ends their lifelines and leads their messages. -/
theorem unlaned_laneLayout (options : Options α) (d : Diagram α) :
    (laneLayout options d).unlaned = d.unlaned := by
  have hnodes : (laneLayout options d).nodes.map Node.unlaned = d.nodes.map Node.unlaned := by
    conv_rhs => rw [← List.zipIdx_map_fst 0 d.nodes, List.map_map]
    rw [laneLayout, List.map_map]
    rfl
  simp only [Diagram.unlaned, hnodes]
  simp only [laneLayout, map_unrouted_laneEdges]

/-! ## Diagrams of a kind -/

/-- The size that a node of a diagram needs: one of a class for its members, any other for its
label. -/
def neededSize (kind : DiagramKind) (options : Options α) (n : Node α) : Size α :=
  if kind.strategy = .classRanks then classSize options n else nodeSize options n

variable {options : Options α} {d : Diagram α}

/-- Diagrams that have ranks are laid out in them. -/
theorem layout_of_ranks (hkind : d.kind.strategy ≠ .lanes) :
    d.layout options = rankedLayout (neededSize d.kind options) options d := by
  unfold Diagram.layout neededSize
  cases hstrategy : d.kind.strategy with
  | ranks => simp
  | classRanks => simp
  | lanes => exact absurd hstrategy hkind

/-- Diagrams without ranks are laid out in lanes. -/
theorem layout_of_lanes (hkind : d.kind.strategy = .lanes) :
    d.layout options = laneLayout options d := by
  rw [Diagram.layout, hkind]

/-- New nodes of diagrams that have ranks are placed beside the others. -/
theorem layoutNew_of_ranks (hkind : d.kind.strategy ≠ .lanes) (newIds : List String) :
    d.layoutNew options newIds
      = incrementalLayout (neededSize d.kind options) options (newIds ++ d.unplacedIds) d := by
  unfold Diagram.layoutNew neededSize
  cases hstrategy : d.kind.strategy with
  | ranks => simp
  | classRanks => simp
  | lanes => exact absurd hstrategy hkind

/-- Diagrams without ranks are laid out in lanes also when nodes are new. -/
theorem layoutNew_of_lanes (hkind : d.kind.strategy = .lanes) (newIds : List String) :
    d.layoutNew options newIds = laneLayout options d := by
  rw [Diagram.layoutNew, hkind]

end Layout

namespace Diagram

variable [Scalar α] {options : Layout.Options α} {d : Diagram α}

/-- A layout in ranks keeps every node that has a place, unless it is forced. -/
theorem mem_layout_of_placed (hranks : d.kind.strategy ≠ .lanes)
    (hforce : options.forceRelayout = false) {n : Node α} (hn : n ∈ d.nodes)
    (hbox : n.box.isSome = true) : n ∈ (d.layout options).nodes := by
  rw [Layout.layout_of_ranks hranks]
  exact Layout.mem_rankedLayout_of_placed hforce hn hbox

/-- A layout of new nodes keeps every other node that has a place. -/
theorem mem_layoutNew_of_old {newIds : List String} (hranks : d.kind.strategy ≠ .lanes)
    {n : Node α} (hn : n ∈ d.nodes) (hnew : n.id ∉ newIds) (hplaced : n.id ∉ d.unplacedIds) :
    n ∈ (d.layoutNew options newIds).nodes := by
  have hids : n.id ∉ newIds ++ d.unplacedIds := by
    rw [List.mem_append, not_or]
    exact ⟨hnew, hplaced⟩
  rw [Layout.layoutNew_of_ranks hranks]
  exact Layout.mem_incrementalLayout_of_old hn hids

theorem unplaced_layout (hranks : d.kind.strategy ≠ .lanes) :
    (d.layout options).unplaced = d.unplaced := by
  rw [Layout.layout_of_ranks hranks]
  exact Layout.unplaced_rankedLayout ..

theorem unplaced_layoutNew {newIds : List String} (hranks : d.kind.strategy ≠ .lanes) :
    (d.layoutNew options newIds).unplaced = d.unplaced := by
  rw [Layout.layoutNew_of_ranks hranks]
  exact Layout.unplaced_incrementalLayout ..

/-- A layout only places nodes, and also ends the lifelines of participants and leads their
messages. -/
theorem unlaned_layout (options : Layout.Options α) (d : Diagram α) :
    (d.layout options).unlaned = d.unlaned := by
  by_cases hlanes : d.kind.strategy = .lanes
  · rw [Layout.layout_of_lanes hlanes]
    exact Layout.unlaned_laneLayout options d
  · exact unlaned_of_unplaced (unplaced_layout hlanes)

theorem unlaned_layoutNew (options : Layout.Options α) (newIds : List String) (d : Diagram α) :
    (d.layoutNew options newIds).unlaned = d.unlaned := by
  by_cases hlanes : d.kind.strategy = .lanes
  · rw [Layout.layoutNew_of_lanes hlanes]
    exact Layout.unlaned_laneLayout options d
  · exact unlaned_of_unplaced (unplaced_layoutNew hlanes)

end Diagram

/-! ## What a diagram says -/

/-- A node without its place, its looks and its lifeline. -/
def Node.content (n : Node α) : Node α := { n with box := none, style := none, lifelineEnd := none }

/-- A diagram without what a layout or a board adds to it. -/
def Diagram.content (d : Diagram α) : Diagram α :=
  { d with nodes := d.nodes.map Node.content, edges := d.edges.map Edge.unrouted }

theorem Diagram.content_of_unlaned {d d' : Diagram α} (h : d'.unlaned = d.unlaned) :
    d'.content = d.content := by
  have hplain : ∀ x : Diagram α,
      x.content = { x.unlaned with nodes := x.unlaned.nodes.map Node.content } := by
    intro x
    rw [content, unlaned, List.map_map]
    rfl
  rw [hplain d', h, ← hplain d]

namespace Diagram

variable {d d' : Diagram α}

/-- The nodes of diagrams that say the same say the same. -/
theorem forall₂_nodes_of_content (h : d'.content = d.content) :
    List.Forall₂ (fun n t : Node α => n.content = t.content) d'.nodes d.nodes := by
  have hnodes : d'.nodes.map Node.content = d.nodes.map Node.content := congrArg (·.nodes) h
  rwa [← List.forall₂_eq_eq_eq, List.forall₂_map_left_iff, List.forall₂_map_right_iff] at hnodes

/-- The edges of diagrams that say the same say the same. -/
theorem forall₂_edges_of_content (h : d'.content = d.content) :
    List.Forall₂ (fun e t : Edge α => e.unrouted = t.unrouted) d'.edges d.edges := by
  have hedges : d'.edges.map Edge.unrouted = d.edges.map Edge.unrouted := congrArg (·.edges) h
  rwa [← List.forall₂_eq_eq_eq, List.forall₂_map_left_iff, List.forall₂_map_right_iff] at hedges

theorem nodeIds_of_content (h : d'.content = d.content) : d'.nodeIds = d.nodeIds := by
  have hmap := congrArg (fun x : Diagram α => x.nodes.map (·.id)) h
  simp only [content, List.map_map] at hmap
  exact hmap

theorem edgeIds_of_content (h : d'.content = d.content) :
    d'.edges.map (·.id) = d.edges.map (·.id) := by
  have hmap := congrArg (fun x : Diagram α => x.edges.map (·.id)) h
  simp only [content, List.map_map] at hmap
  exact hmap

/-- The edges of diagrams that say the same join nodes in the one if they do in the other. -/
theorem ends_of_content (h : d'.content = d.content)
    (hends : ∀ e ∈ d.edges, e.source ∈ d.nodeIds ∧ e.target ∈ d.nodeIds) :
    ∀ e ∈ d'.edges, e.source ∈ d'.nodeIds ∧ e.target ∈ d'.nodeIds := by
  intro e he
  obtain ⟨t, ht, hsame⟩ := exists_of_forall₂ (forall₂_edges_of_content h).flip e he
  rw [nodeIds_of_content h, show e.source = t.source from congrArg (·.source) hsame,
    show e.target = t.target from congrArg (·.target) hsame]
  exact hends t ht

end Diagram

namespace Diagram

variable [Scalar α]

/-- A layout does not change what a diagram says. -/
theorem content_layout (options : Layout.Options α) (d : Diagram α) :
    (d.layout options).content = d.content :=
  content_of_unlaned (unlaned_layout options d)

/-- A layout of new nodes does not change what a diagram says. -/
theorem content_layoutNew (options : Layout.Options α) (newIds : List String) (d : Diagram α) :
    (d.layoutNew options newIds).content = d.content :=
  content_of_unlaned (unlaned_layoutNew options newIds d)

end Diagram

end DiagramBoard
