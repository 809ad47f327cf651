/-
DiagramBoard.Proofs.Board.HandDrawn — boards drawn by hand are described as they are.

Nobody wrote the texts on such a board for a diagram.  They have several lines and start and end in
blanks, elements are in any groups, and arrows run side by side.  Ids are made for the nodes, labels
are put on one line, and the board is described as a flowchart that says the same.

Main statement: the text of a board without metadata is read as a flowchart with its nodes and edges
(`retells_describe`).
-/
import DiagramBoard.Board.Describe
import DiagramBoard.Proofs.Board.DiagramReading
import DiagramBoard.Proofs.RoundTrip.Retold

namespace DiagramBoard

open Grammar (IsWord IsLegible)

/-! ## Labels -/

namespace Text

theorem mem_join {c : Char} {separator : List Char} {ls : List (List Char)}
    (h : c ∈ join separator ls) : c ∈ separator ∨ ∃ l ∈ ls, c ∈ l := by
  fun_induction join separator ls with
  | case1 => exact absurd h List.not_mem_nil
  | case2 l => exact .inr ⟨l, List.mem_singleton_self l, h⟩
  | case3 l ls _ ih =>
    rcases List.mem_append.1 h with h | h
    · rcases List.mem_append.1 h with h | h
      · exact .inr ⟨l, List.mem_cons_self, h⟩
      · exact .inl h
    · rcases ih h with h | ⟨m, hm, hc⟩
      · exact .inl h
      · exact .inr ⟨m, List.mem_cons_of_mem _ hm, hc⟩

namespace Label

theorem lineFeed_notMem_ofCanvas (text : List Char) : '\n' ∉ ofCanvas text := by
  intro h
  rcases mem_join h with h | ⟨l, hl, h⟩
  · revert h
    decide
  · obtain ⟨line, hline, rfl⟩ := List.mem_map.1 hl
    refine lineFeed_notMem_of_mem_lines hline ?_
    obtain ⟨t, ht, -⟩ := trimEnd_prefix_eq line
    rw [ht]
    exact List.mem_append_left _ h

/-- A label says something if it is not empty: a single line does not end in a blank, and several
lines have a break between them. -/
theorem trim_ofCanvas_ne_nil {text : List Char} (h : ofCanvas text ≠ []) :
    trim (ofCanvas text) ≠ [] := by
  unfold ofCanvas at h ⊢
  cases hlines : Text.lines text with
  | nil => simp [hlines, join] at h
  | cons l ls =>
    rw [hlines] at h
    cases ls with
    | nil =>
      have hne : trimEnd l ≠ [] := h
      exact trim_ne_nil (List.getLast_mem hne) (trimEnd_last l _ (List.getLast?_eq_some_getLast hne))
    | cons m ls =>
      have hbreak : '<' ∈ join "<br/>".toList ((l :: m :: ls).map trimEnd) := by
        rw [List.map_cons, List.map_cons, join]
        · simp
        · simp
      exact trim_ne_nil hbreak (by decide)

end Label

end Text

variable {α : Type}

namespace Board

/-- The text of an element is legible as a label. -/
theorem isLegible_of_labelText? {label : Option (Element α)} {l : String}
    (h : labelText? label = some l) : IsLegible l.toList := by
  rw [labelText?, Option.filter_eq_some_iff, Option.map_eq_some_iff] at h
  obtain ⟨⟨e, -, rfl⟩, hne⟩ := h
  rw [String.toList_ofList]
  refine ⟨Text.Label.trim_ofCanvas_ne_nil fun hnil => ?_, Text.Label.lineFeed_notMem_ofCanvas _⟩
  simp [hnil] at hne

end Board

/-! ## Ids -/

namespace Element

/-- The id that is made for a node is a word. -/
theorem isWord_madeNodeId (elementId : String) : IsWord (madeNodeId elementId).toList := by
  rw [madeNodeId, String.toList_ofList]
  refine ⟨by simp, fun c hc => ?_⟩
  rcases List.mem_append.1 hc with hc | hc
  · have hstart : c = 'n' ∨ c = '_' := by simpa using hc
    rcases hstart with rfl | rfl
    · exact Text.isWordChar_of_isAlphanum (by decide)
    · simp [Text.isWordChar]
  · obtain ⟨d, -, rfl⟩ := List.mem_map.1 hc
    cases hd : d.isAlphanum with
    | true => simpa [hd] using Text.isWordChar_of_isAlphanum hd
    | false => simp [Text.isWordChar]

/-- It starts with an n, as no keyword of the flowcharts does. -/
theorem madeNodeId_ne {word : String} (h : word.toList.head? ≠ some 'n') (elementId : String) :
    madeNodeId elementId ≠ word := by
  rintro rfl
  refine h ?_
  rw [madeNodeId, String.toList_ofList]
  rfl

end Element

/-- Whether a container was drawn by hand: its node has a made id, and it is no class. -/
def Container.IsMade (c : Container α) : Prop :=
  (∃ id, c.nodeId = Element.madeNodeId id) ∧ c.sections = none

namespace Container

open Grammar.Flowchart (IsId isId_of_isWord)

variable {c : Container α}

theorem IsMade.isId (h : c.IsMade) : IsId c.nodeId.toList := by
  obtain ⟨⟨id, hid⟩, -⟩ := h
  exact hid ▸ isId_of_isWord (Element.isWord_madeNodeId id)

theorem IsMade.ne (h : c.IsMade) {word : String} (hword : word.toList.head? ≠ some 'n') :
    c.nodeId ≠ word := by
  obtain ⟨⟨id, hid⟩, -⟩ := h
  exact hid ▸ Element.madeNodeId_ne hword id

/-- A node without a text is labelled with its id. -/
theorem IsMade.isLegible [Scalar α] (h : c.IsMade) : IsLegible c.node.label.toList := by
  show IsLegible ((Board.labelText? c.label).getD c.nodeId).toList
  cases htext : Board.labelText? c.label with
  | none => exact h.isId.isName.isTidy.isLegible
  | some l => exact Board.isLegible_of_labelText? htext

end Container

namespace Board

variable {alive : List (Element α)} {cs : List (Container α)}

/-! ## Boards without metadata -/

theorem isMade_of_mem_containers (hplain : ∀ e ∈ alive, e.metadata = none) {c : Container α}
    (hc : c ∈ containers alive) : c.IsMade := by
  obtain ⟨e, he, rfl⟩ := List.mem_map.1 (mem_of_mem_eraseDupsBy _ hc)
  have hmetadata := hplain e (List.mem_filter.1 he).1
  have howned : ∀ owner, alive.filter (isOwnedBy owner) = [] := fun owner => by
    refine List.filter_eq_nil_iff.2 fun x hx => ?_
    simp [isOwnedBy, hplain x hx]
  have hsegments : segmentsOf? alive e.shownNodeId = none := by
    rw [segmentsOf?, howned]
  refine ⟨⟨e.id, ?_⟩, ?_⟩
  · show e.shownNodeId = _
    rw [Element.shownNodeId, hmetadata]
    rfl
  · have htag := Element.tag?_of_metadata hmetadata
    simp [Container.sections, Container.ofElement, hsegments, htag]

/-- A board without metadata shows a flowchart. -/
theorem shownKind_of_metadata (hplain : ∀ e ∈ alive, e.metadata = none) :
    shownKind alive (containers alive) = .flowchart := by
  have hnamed : namedKind alive = .flowchart := by
    have hheading : heading? alive = none := by
      rw [heading?, List.findSome?_eq_none_iff]
      intro e he
      rw [hplain e (List.mem_filter.1 he).1, Option.filter_none]
    rw [namedKind, hheading]
    rfl
  rw [shownKind_eq_namedKind (fun e he => Element.isStill_of_metadata (hplain e he))
    fun _ c hc => (isMade_of_mem_containers hplain hc).2, hnamed]

/-- What a group of a board is called, some element of the board lists. -/
theorem exists_of_mem_groupsOf {g : Group} (hg : g ∈ groupsOf (memberships alive cs)) :
    g.label = g.id ∧ ∃ e ∈ alive, g.id ∈ e.groupIds := by
  rw [groupsOf, List.mem_filter, List.mem_map] at hg
  obtain ⟨⟨id, hid, rfl⟩, -⟩ := hg
  refine ⟨rfl, ?_⟩
  rw [List.mem_eraseDups, List.mem_map] at hid
  obtain ⟨⟨id, node⟩, hmem, rfl⟩ := hid
  rw [memberships_eq] at hmem
  obtain ⟨e, he, hmem⟩ := List.mem_flatMap.1 hmem
  exact ⟨e, he, (mem_listedBy.1 hmem).2⟩

variable [Scalar α] {elements : List (Element α)}

/-- The diagram of a board without metadata is a flowchart whose text can be read. -/
theorem isTellable_diagram (hplain : ∀ e ∈ elements, e.metadata = none)
    (hgroups : ∀ e ∈ elements, ∀ g ∈ e.groupIds, '\n' ∉ g.toList) :
    Grammar.Flowchart.IsTellable (diagram elements) := by
  have hlive : ∀ e ∈ live elements, e ∈ elements := fun e he => (List.mem_filter.1 he).1
  have hmade : ∀ n ∈ (diagram elements).nodes, ∃ c : Container α, c.IsMade
      ∧ n.id = c.nodeId ∧ n.label = c.node.label := by
    intro n hn
    rw [diagram_eq] at hn
    obtain ⟨c, hc, rfl⟩ := List.mem_map.1 hn
    exact ⟨c, isMade_of_mem_containers (fun e he => hplain e (hlive e he)) hc, rfl, rfl⟩
  refine ⟨(isClosed_diagram elements).nodup_nodeIds, fun id hid => ?_, fun n hn => ?_,
    fun e he l hl => ?_, (isClosed_diagram elements).ends, fun g hg => ?_⟩
  · obtain ⟨n, hn, rfl⟩ := List.mem_map.1 hid
    obtain ⟨c, hc, hn, -⟩ := hmade n hn
    exact hn ▸ ⟨hc.isId, hc.ne (by decide), hc.ne (by decide)⟩
  · obtain ⟨c, hc, -, hlabel⟩ := hmade n hn
    exact hlabel ▸ hc.isLegible
  · rw [diagram_eq] at he
    obtain ⟨c, -, rfl⟩ := List.mem_map.1 (List.mem_filter.1 he).1
    exact isLegible_of_labelText? hl
  · rw [diagram_eq] at hg
    obtain ⟨hlabel, e, he, hid⟩ := exists_of_mem_groupsOf hg
    have hn := hgroups e (hlive e he) g.id hid
    exact ⟨hn, hlabel ▸ hn⟩

/-- The text of a board without metadata is read as a flowchart that says what the board shows. -/
theorem retells_describe (hplain : ∀ e ∈ elements, e.metadata = none)
    (hgroups : ∀ e ∈ elements, ∀ g ∈ e.groupIds, '\n' ∉ g.toList) (compact : Bool) :
    ∃ d, Diagram.parse (describe compact elements) = .ok d ∧ d.Retells (diagram elements) := by
  have hkind : (diagram elements).kind = .flowchart := by
    rw [diagram_eq]
    exact shownKind_of_metadata fun e he => hplain e (List.mem_filter.1 he).1
  exact Grammar.Flowchart.retells_of_isTellable (.inl hkind) (isTellable_diagram hplain hgroups)
    compact

/-- Two boxes and a deleted one, with two arrows side by side, an arrow from the second box to
itself and an arrow to the deleted box.  Both boxes are in a group that is called like the end of a
group, and the second one is twice in another group. -/
def sketch : List (Element Float) :=
  [{ Element.bare "gate-1" .rectangle with groupIds := ["end"] },
    { Element.bare "gate-1-text" .text with
      containerId := some "gate-1", text := some "  Gate \n\"end\"] --> A" },
    { Element.bare "store" .diamond with groupIds := ["team [eu", "end", "team [eu"] },
    { Element.bare "old" .ellipse with isDeleted := true },
    { Element.bare "put" .arrow with
      startBinding := some (.onto "gate-1"), endBinding := some (.onto "store") },
    { Element.bare "get" .arrow with
      startBinding := some (.onto "gate-1"), endBinding := some (.onto "store") },
    { Element.bare "get-text" .text with containerId := some "get", text := some "get" },
    { Element.bare "again" .arrow with
      startBinding := some (.onto "store"), endBinding := some (.onto "store") },
    { Element.bare "again-text" .text with containerId := some "again", text := some " | again" },
    { Element.bare "drop" .arrow with
      startBinding := some (.onto "store"), endBinding := some (.onto "old") }]

theorem retells_describe_sketch : ∃ d : Diagram Float,
    Diagram.parse (describe true sketch) = .ok d ∧ d.Retells (diagram sketch)
      ∧ (diagram sketch).nodes.map (fun n => (n.id, n.label, n.shape)) =
        [("n_gate_1", "  Gate<br/>\"end\"] --> A", .rectangle), ("n_store", "n_store", .diamond)]
      ∧ (diagram sketch).edges.map (fun e => (e.source, e.target, e.label)) =
        [("n_gate_1", "n_store", none), ("n_gate_1", "n_store", some "get"),
          ("n_store", "n_store", some " | again")]
      ∧ (diagram sketch).groups.map (·.children) =
        [["n_gate_1", "n_store"], ["n_store", "n_store"]] := by
  have hplain : ∀ e ∈ sketch, e.metadata = none := by decide
  have hgroups : ∀ e ∈ sketch, ∀ g ∈ e.groupIds, '\n' ∉ g.toList := by decide
  obtain ⟨d, hparse, hretells⟩ := retells_describe hplain hgroups true
  exact ⟨d, hparse, hretells, by decide +kernel, by decide +kernel, by decide +kernel⟩

end Board

end DiagramBoard
