/-
DiagramBoard.Proofs.RoundTrip.StateGraph — state diagrams of any origin, written and read again.

States may have any label on one line, also one that looks like a transition or like a declaration.
The node of the start and end is the only one without a line of its own: it comes back through the
transitions that touch it, behind all states, so the nodes come back in some order.

Main statement: a state diagram is read from its text with its direction, its nodes and its
transitions (`parse_render_stateGraph`).
-/
import DiagramBoard.Proofs.RoundTrip.State

namespace DiagramBoard.Grammar.State

open Text

variable {α : Type} {d : Diagram α}

/-- A state diagram whose names, shapes and transitions its text can say.  The node of the start and
end is what its mark stands for, and a transition mentions it. -/
structure IsStateGraph (d : Diagram α) : Prop where
  kind_eq : d.kind = .state
  nodup_nodeIds : d.nodeIds.Nodup
  isWord : ∀ id ∈ d.nodeIds, IsWord id.toList
  state : ∀ n ∈ d.nodes, n.id ≠ startEndId →
    (n.shape = .rounded ∨ n.shape = .diamond) ∧ '\n' ∉ n.label.toList
  startEnd : ∀ n ∈ d.nodes, n.id = startEndId → n.shape = .circle ∧ n.label = startEndLabel
    ∧ ∃ e ∈ d.edges, e.source = startEndId ∨ e.target = startEndId
  ends : ∀ e ∈ d.edges, e.source ∈ d.nodeIds ∧ e.target ∈ d.nodeIds
  plain : ∀ e ∈ d.edges, e.startHead = .none ∧ e.endHead = .arrow ∧ e.style = none
  source_ne : ∀ e ∈ d.edges, e.source ≠ "direction" ∧ e.source ≠ "note"
  isTidy : ∀ e ∈ d.edges, ∀ l ∈ e.label, IsTidy l.toList

theorem IsStateGraph.isWritable (h : IsStateGraph d) : IsWritable d where
  nodup_nodeIds := h.nodup_nodeIds
  isWord := h.isWord
  lineFeed_notMem n hn := by
    by_cases hid : n.id = startEndId
    · rw [(h.startEnd n hn hid).2.1]
      decide
    · exact (h.state n hn hid).2
  ends := h.ends
  source_ne := h.source_ne
  isTidy := h.isTidy

/-! ## The nodes -/

/-- A state comes back with its label and its shape. -/
theorem face_writtenNode {n : Node α} (h : n.shape = .rounded ∨ n.shape = .diamond) :
    (writtenNode n).face = n.face := by
  rw [writtenNode, Node.face, Node.face]
  rcases h with h | h <;> simp [h]

/-- The start and end comes back with its label and its shape. -/
theorem face_startEnd (h : IsStateGraph d) {n : Node α} (hn : n ∈ d.nodes)
    (hid : n.id = startEndId) : n.face = (stateNode startEndId : Node α).face := by
  obtain ⟨hshape, hlabel, -⟩ := h.startEnd n hn hid
  rw [Node.face, hid, hshape, hlabel]
  rfl

theorem nodup_nodeIds_written (h : IsStateGraph d) : (written d).nodeIds.Nodup := by
  have hstates : (d.nodes.filter (·.id ≠ startEndId)).map (·.id) |>.Nodup :=
    h.nodup_nodeIds.sublist ((List.filter_sublist (l := d.nodes)).map (·.id))
  have hnot : startEndId ∉ (d.nodes.filter (·.id ≠ startEndId)).map (·.id) := by
    intro hm
    obtain ⟨n, hn, hid⟩ := List.mem_map.1 hm
    exact absurd hid (of_decide_eq_true (List.mem_filter.1 hn).2)
  have hids : (written d).nodeIds = (d.nodes.filter (·.id ≠ startEndId)).map (·.id)
      ++ if d.edges.any touchesStartEnd then [startEndId] else [] := by
    rw [Diagram.nodeIds, nodes_written, List.map_append, List.map_map]
    split
    · rw [List.map_singleton, stateNode_id]
      rfl
    · rfl
  rw [hids]
  split
  · exact hstates.append (List.nodup_singleton _) (List.disjoint_singleton.2 hnot)
  · rwa [List.append_nil]

/-- The nodes that come back are the nodes of the diagram with their labels and shapes. -/
theorem perm_faces_written (h : IsStateGraph d) :
    ((written d).nodes.map Node.face).Perm (d.nodes.map Node.face) := by
  have hfst : ∀ g : Diagram α, (g.nodes.map Node.face).map Prod.fst = g.nodeIds := by
    intro g
    rw [List.map_map]
    rfl
  have hnodup : ∀ g : Diagram α, g.nodeIds.Nodup → (g.nodes.map Node.face).Nodup := by
    intro g hg
    rw [← hfst] at hg
    exact .of_map _ hg
  refine (List.perm_ext_iff_of_nodup (hnodup _ (nodup_nodeIds_written h))
    (hnodup _ h.nodup_nodeIds)).2 fun p => ?_
  rw [nodes_written, List.map_append, List.mem_append]
  constructor
  · rintro (hp | hp)
    · obtain ⟨m, hm, rfl⟩ := List.mem_map.1 hp
      obtain ⟨n, hn, rfl⟩ := List.mem_map.1 hm
      obtain ⟨hn, hid⟩ := List.mem_filter.1 hn
      rw [face_writtenNode (h.state n hn (of_decide_eq_true hid)).1]
      exact List.mem_map_of_mem hn
    · split at hp
      · -- a transition touches the start and end, so the diagram has it
        rename_i ht
        obtain ⟨n, hn, hid⟩ := List.mem_map.1 (startEndId_mem_of_touched h.isWritable ht)
        rw [List.map_singleton, List.mem_singleton] at hp
        rw [hp, ← face_startEnd h hn hid]
        exact List.mem_map_of_mem hn
      · simp at hp
  · intro hp
    obtain ⟨n, hn, rfl⟩ := List.mem_map.1 hp
    by_cases hid : n.id = startEndId
    · obtain ⟨-, -, e, he, hte⟩ := h.startEnd n hn hid
      have ht : d.edges.any touchesStartEnd = true :=
        List.any_eq_true.2 ⟨e, he, by simpa [touchesStartEnd] using hte⟩
      right
      rw [if_pos ht, face_startEnd h hn hid]
      exact List.mem_singleton.2 rfl
    · left
      rw [← face_writtenNode (h.state n hn hid).1]
      exact List.mem_map_of_mem (List.mem_map_of_mem (List.mem_filter.2 ⟨hn, by simpa using hid⟩))

/-! ## The transitions -/

theorem statement_writtenEdge {e : Edge α} (index : Nat) (hstart : e.startHead = .none)
    (hend : e.endHead = .arrow) (hstyle : e.style = none) :
    (writtenEdge index e).statement = e.statement := by
  rw [Edge.statement, Edge.statement, Edge.isDashed, Edge.isDashed, Edge.strokeStyle,
    Edge.strokeStyle, hstart, hend, hstyle]
  rfl

theorem statements_written (h : IsStateGraph d) :
    (written d).edges.map Edge.statement = d.edges.map Edge.statement := by
  have hedges : (written d).edges = d.edges.zipIdx.map fun p => writtenEdge p.2 p.1 := rfl
  have hone : ∀ p ∈ d.edges.zipIdx, (writtenEdge p.2 p.1).statement = p.1.statement := by
    intro p hp
    have he : p.1 ∈ d.edges := List.fst_mem_of_mem_zipIdx hp
    obtain ⟨hstart, hend, hstyle⟩ := h.plain p.1 he
    exact statement_writtenEdge p.2 hstart hend hstyle
  calc (written d).edges.map Edge.statement
      = d.edges.zipIdx.map fun p => (writtenEdge p.2 p.1).statement := by
        rw [hedges, List.map_map]
        rfl
    _ = d.edges.zipIdx.map (Edge.statement ∘ Prod.fst) := List.map_congr_left hone
    _ = d.edges.map Edge.statement := by rw [← List.map_map, List.zipIdx_map_fst]

/-! ## The whole diagram -/

/-- A state diagram is read from its text with its direction, its nodes in some order with their
labels and shapes, and its transitions in their order. -/
theorem parse_render_stateGraph [Scalar α] (h : IsStateGraph d) (compact : Bool) :
    ∃ d' : Diagram α, Diagram.parse (d.render compact) = .ok d'
      ∧ d'.kind = .state ∧ d'.direction = d.direction
      ∧ (d'.nodes.map Node.face).Perm (d.nodes.map Node.face)
      ∧ d'.edges.map Edge.statement = d.edges.map Edge.statement := by
  exact ⟨written d, parse_render h.kind_eq h.isWritable, kind_written d, direction_written d,
    perm_faces_written h, statements_written h⟩

/-- States named by keywords, with labels full of tokens, a choice, and the start and end in front of
a state. -/
def review : Diagram Float where
  kind := .state
  direction := .right
  nodes :=
    [{ id := "state", label := "\"A\" --> [*] : #35;", shape := .rounded },
      { id := "start_end", label := "Start/End", shape := .circle },
      { id := "note", label := "", shape := .diamond },
      { id := "as", label := "as", shape := .rounded }]
  edges :=
    [{ id := "1", source := "start_end", target := "state" },
      { id := "2", source := "state", target := "note", label := some "\"x --> y\" : #quot;" },
      { id := "3", source := "as", target := "as" }]

theorem isStateGraph_review : IsStateGraph review where
  kind_eq := rfl
  nodup_nodeIds := by decide
  isWord := by decide +kernel
  state := by decide +kernel
  startEnd := by decide
  ends := by decide
  plain := by simp [review]
  source_ne := by decide
  isTidy := by decide +kernel

theorem parse_render_review : IsStateGraph review
    ∧ ∃ d' : Diagram Float, Diagram.parse (review.render true) = .ok d'
      ∧ d'.kind = .state ∧ d'.direction = review.direction
      ∧ (d'.nodes.map Node.face).Perm (review.nodes.map Node.face)
      ∧ d'.edges.map Edge.statement = review.edges.map Edge.statement :=
  ⟨isStateGraph_review, parse_render_stateGraph isStateGraph_review true⟩

end DiagramBoard.Grammar.State
