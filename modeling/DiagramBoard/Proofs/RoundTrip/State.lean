/-
DiagramBoard.Proofs.RoundTrip.State — a state diagram, written and read again.

Main statements: the diagram that is read from a written state diagram (`parse_render`), which has
the content of the written one (`sameContent_written`) and is written the same (`render_written`).
-/
import DiagramBoard.Proofs.Content
import DiagramBoard.Proofs.Grammar.State

namespace DiagramBoard.Grammar.State

open Text
open Writer (indent colonLabel directionLines lineFeed_notMem_colonLabel content_directionLines)
open Writer.State (reference stateLine transitionLine body)

variable {α : Type}

/-! ## Every line carries content -/

theorem lineFeed_notMem_reference {id : String} (hw : IsWord id.toList) : '\n' ∉ reference id := by
  intro hm
  have := isBlank_reference hw _ hm
  revert this
  decide

theorem content_stateLine {n : Node α} (hw : IsWord n.id.toList) (hl : '\n' ∉ n.label.toList) :
    '\n' ∉ stateLine n ∧ IsContent (trim (stateLine n)) := by
  constructor
  · have hid := hw.isName.lineFeed_notMem
    have hlab := Entity.notMem_encode (c := '\n') (by decide) hl
    rw [stateLine_eq, nameText, stereotypeText]
    split <;> split <;> simp [indent, hid, hlab]
  · rw [trim_stateLine hw]
    exact isContent_cons (by decide) _

theorem isContent_reference {id : String} (hw : IsWord id.toList) (r : List Char) :
    IsContent (reference id ++ r) := by
  unfold reference
  split
  · exact isContent_cons (by decide) _
  · obtain ⟨c, w, hcw, hc⟩ := hw.exists_cons
    rw [hcw]
    refine isContent_cons ?_ _
    rintro rfl
    revert hc
    decide

theorem content_transitionLine {e : Edge α} (hs : IsWord e.source.toList)
    (ht : IsWord e.target.toList) (hl : ∀ l ∈ e.label, IsTidy l.toList) :
    '\n' ∉ transitionLine e ∧ IsContent (trim (transitionLine e)) := by
  constructor
  · have h1 := lineFeed_notMem_reference hs
    have h2 := lineFeed_notMem_reference ht
    have h3 := lineFeed_notMem_colonLabel fun l hm => (hl l hm).lineFeed_notMem
    simp [transitionLine, indent, h1, h2, h3]
  · rw [trim_transitionLine hs ht hl]
    exact isContent_reference hs _

theorem content_body {d : Diagram α} (h : IsWritable d) :
    ∀ l ∈ body d, '\n' ∉ l ∧ IsContent (trim l) := by
  intro l hl
  rcases List.mem_append.1 hl with hl | hl
  · rcases List.mem_append.1 hl with hl | hl
    · exact content_directionLines d.direction l hl
    · obtain ⟨n, hn, rfl⟩ := List.mem_map.1 hl
      have hn := (List.mem_filter.1 hn).1
      exact content_stateLine (h.isWord _ (Diagram.mem_nodeIds hn)) (h.lineFeed_notMem n hn)
  · obtain ⟨e, he, rfl⟩ := List.mem_map.1 hl
    exact content_transitionLine (h.isWord _ (h.ends e he).1) (h.isWord _ (h.ends e he).2)
      (h.isTidy e he)

/-! ## The diagram that comes back -/

/-- A state diagram as its lines describe it. -/
def written (d : Diagram α) : Diagram α :=
  { withStartEnd (d.edges.any touchesStartEnd)
      { kind := .state
        direction := d.direction
        nodes := (d.nodes.filter (·.id ≠ startEndId)).map writtenNode } with
    edges := d.edges.zipIdx.map fun p => writtenEdge p.2 p.1 }

theorem foldl_directionLines (direction : Direction) :
    ((directionLines direction).map trim).foldl readLine ({ kind := .state } : Diagram α)
      = { kind := .state, direction := direction } := by
  cases direction <;> rfl

/-- The lines of a written state diagram are read as the diagram they describe. -/
theorem parse_body {d : Diagram α} (h : IsWritable d) {ls : List Line}
    (hls : ls.map (·.text) = (body d).map trim) : State.parse ls = written d := by
  have hparse : State.parse ls
      = (ls.map (·.text)).foldl readLine ({ kind := .state } : Diagram α) := by
    rw [State.parse, List.foldl_map]
  have hmem : ∀ n ∈ d.nodes.filter (·.id ≠ startEndId), n ∈ d.nodes := fun n hn =>
    (List.mem_filter.1 hn).1
  rw [hparse, hls, body, List.map_append, List.map_append, List.foldl_append, List.foldl_append,
    foldl_directionLines, List.map_map, List.map_map]
  have hstates := foldl_stateLines (d.nodes.filter (·.id ≠ startEndId))
    ({ kind := .state, direction := d.direction } : Diagram α)
    (fun n hn => h.isWord _ (Diagram.mem_nodeIds (hmem n hn)))
    (fun n hn => by simpa using (List.mem_filter.1 hn).2)
    (h.nodup_nodeIds.sublist (by
      simpa [Diagram.nodeIds] using (List.filter_sublist (l := d.nodes)).map (·.id)))
  rw [Function.comp_def, hstates, Function.comp_def, foldl_transitionLines]
  · simp [written]
  · exact fun e he => ⟨h.isWord _ (h.ends e he).1, h.isWord _ (h.ends e he).2⟩
  · exact h.isTidy
  · exact h.source_ne
  · intro e he id hid
    by_cases hs : id = startEndId
    · exact .inr hs
    · have hid' : id ∈ d.nodeIds := by
        rcases List.mem_cons.1 hid with rfl | hid
        · exact (h.ends e he).1
        · rw [List.mem_singleton.1 hid]
          exact (h.ends e he).2
      obtain ⟨n, hn, rfl⟩ := List.mem_map.1 hid'
      left
      simp only [Diagram.nodeIds, List.nil_append, List.map_map, List.mem_map]
      exact ⟨n, List.mem_filter.2 ⟨hn, by simpa using hs⟩, rfl⟩

/-- What is read from a written state diagram. -/
theorem parse_render [Scalar α] {compact : Bool} {d : Diagram α} (hk : d.kind = .state) (h : IsWritable d) :
    (Diagram.parse (d.render compact) : Except SyntaxError (Diagram α)) = .ok (written d) := by
  have hbody : d.bodyLines compact = body d := by rw [Diagram.bodyLines, hk]
  obtain ⟨ls, hls, htext⟩ := Diagram.contentLines_render compact d
    (by rw [hbody]; exact content_body h)
  have hheader : Header.ofWord? (firstWord d.header) = some .state := by
    rw [Diagram.header, hk]
    rfl
  rw [Diagram.parse_of_contentLines hls, parseBody, hheader]
  rw [hbody] at htext
  simp only [parse_body h htext]

theorem nodes_withStartEnd (b : Bool) (d : Diagram α) :
    (withStartEnd b d).nodes = d.nodes
      ∨ (withStartEnd b d).nodes = d.nodes ++ [stateNode startEndId] := by
  unfold withStartEnd Diagram.ensureNode
  split
  · split
    · exact .inl rfl
    · exact .inr rfl
  · exact .inl rfl

theorem stateLine_writtenNode (n : Node α) : stateLine (writtenNode n) = stateLine n := by
  by_cases h : n.shape = .diamond <;> simp [stateLine, writtenNode, h]

theorem kind_written (d : Diagram α) : (written d).kind = .state := by
  unfold written withStartEnd
  split <;> simp

theorem direction_written (d : Diagram α) : (written d).direction = d.direction := by
  unfold written withStartEnd
  split <;> simp

/-- The diagram that is read from a written state diagram is written the same. -/
theorem render_written [Scalar α] {compact : Bool} {d : Diagram α} (hk : d.kind = .state) :
    (written d).render compact = d.render compact := by
  have hfilter : (written d).nodes.filter (·.id ≠ startEndId)
      = (d.nodes.filter (·.id ≠ startEndId)).map writtenNode := by
    have hmap : ((d.nodes.filter (·.id ≠ startEndId)).map writtenNode).filter (·.id ≠ startEndId)
        = (d.nodes.filter (·.id ≠ startEndId)).map writtenNode := by
      rw [List.filter_eq_self]
      intro n hn
      obtain ⟨m, hm, rfl⟩ := List.mem_map.1 hn
      exact (List.mem_filter.1 hm).2
    have hstart : (stateNode startEndId : Node α).id = startEndId := stateNode_id _
    rcases nodes_withStartEnd (d.edges.any touchesStartEnd)
      ({ kind := .state, direction := d.direction, nodes := (d.nodes.filter (·.id ≠ startEndId)).map writtenNode } : Diagram α)
      with h | h
    · rw [written, h, hmap]
    · rw [written, h, List.filter_append, hmap]
      simp [hstart]
  refine Diagram.render_congr (by rw [Diagram.header, Diagram.header, kind_written, hk]) ?_
  rw [Diagram.bodyLines, kind_written, Diagram.bodyLines, hk]
  show body (written d) = body d
  have hlines : (d.nodes.filter (·.id ≠ startEndId)).map (stateLine ∘ writtenNode)
      = (d.nodes.filter (·.id ≠ startEndId)).map stateLine :=
    List.map_congr_left fun n _ => stateLine_writtenNode n
  have hedges : (written d).edges.map transitionLine = d.edges.map transitionLine := by
    have : (written d).edges = d.edges.zipIdx.map fun p => writtenEdge p.2 p.1 := rfl
    rw [this, List.map_map]
    have hcomp : (transitionLine ∘ fun p : Edge α × Nat => writtenEdge p.2 p.1)
        = transitionLine ∘ Prod.fst := by
      funext p
      rfl
    rw [hcomp, ← List.map_map, List.zipIdx_map_fst]
  rw [body, body, direction_written, hfilter, List.map_map, hlines, hedges]

/-- The start and end comes back if it is called so and a transition touches it. -/
def StartEndComesBack (d : Diagram α) : Prop :=
  ∀ n ∈ d.nodes, n.id = startEndId → n.label = startEndLabel ∧ d.edges.any touchesStartEnd = true

theorem startEndId_mem_of_touched {d : Diagram α} (h : IsWritable d)
    (ht : d.edges.any touchesStartEnd = true) : startEndId ∈ d.nodeIds := by
  obtain ⟨e, he, hte⟩ := List.any_eq_true.1 ht
  rw [touchesStartEnd, Bool.or_eq_true, decide_eq_true_eq, decide_eq_true_eq] at hte
  rcases hte with hte | hte
  · rw [← hte]
    exact (h.ends e he).1
  · rw [← hte]
    exact (h.ends e he).2

theorem nodes_written {d : Diagram α} :
    (written d).nodes = (d.nodes.filter (·.id ≠ startEndId)).map writtenNode
      ++ if d.edges.any touchesStartEnd then [stateNode startEndId] else [] := by
  have hnot : (stateNode startEndId : Node α).id ∉ ((d.nodes.filter (·.id ≠ startEndId)).map writtenNode).map (·.id) := by
    rw [stateNode_id]
    intro hm
    obtain ⟨n, hn, hid⟩ := List.mem_map.1 hm
    obtain ⟨m, hm, rfl⟩ := List.mem_map.1 hn
    have := (List.mem_filter.1 hm).2
    exact absurd hid (of_decide_eq_true this)
  by_cases ht : d.edges.any touchesStartEnd = true
  · rw [written, withStartEnd, if_pos ht, if_pos ht, Diagram.ensureNode_of_notMem hnot]
  · rw [written, withStartEnd, if_neg ht, if_neg ht, List.append_nil]

/-- The diagram that is read from a written state diagram says the same. -/
theorem sameContent_written {d : Diagram α} (h : IsWritable d) (hs : StartEndComesBack d) :
    d.SameContent (written d) := by
  refine .of_edges (fun p => ?_) ?_
  · rw [Diagram.nodeLabels, Diagram.nodeLabels, nodes_written]
    simp only [List.mem_map, List.mem_append]
    constructor
    · rintro ⟨n, hn, rfl⟩
      by_cases hid : n.id = startEndId
      · obtain ⟨hlabel, ht⟩ := hs n hn hid
        refine ⟨stateNode startEndId, .inr (by simp [ht]), ?_⟩
        simp [stateNode, hid, hlabel]
      · exact ⟨writtenNode n, .inl ⟨n, List.mem_filter.2 ⟨hn, by simpa using hid⟩, rfl⟩, rfl⟩
    · rintro ⟨m, ⟨n, hn, rfl⟩ | hm, rfl⟩
      · exact ⟨n, (List.mem_filter.1 hn).1, rfl⟩
      · split at hm
        · rename_i ht
          obtain rfl := List.mem_singleton.1 hm
          obtain ⟨n, hn, hid⟩ := List.mem_map.1 (startEndId_mem_of_touched h ht)
          refine ⟨n, hn, ?_⟩
          simp [stateNode, hid, (hs n hn hid).1]
        · simp at hm
  · show _ = (d.edges.zipIdx.map fun p => writtenEdge p.2 p.1).map _
    rw [List.map_map]
    have hcomp : ((fun x : Edge α => (x.source, x.target, x.label)) ∘
        fun p : Edge α × Nat => writtenEdge p.2 p.1)
        = (fun x : Edge α => (x.source, x.target, x.label)) ∘ Prod.fst := by
      funext p
      rfl
    rw [hcomp, ← List.map_map, List.zipIdx_map_fst]

end DiagramBoard.Grammar.State
