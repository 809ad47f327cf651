/-
DiagramBoard.Proofs.Grammar.Described — what every diagram is that a text describes.

A text says nothing about places, lifelines and the looks of nodes, and of an edge only whether its
line is dashed or thick.  Its nodes and edges have ids of their own: the edges of a flowchart are
named by their ends, which no two of them share, and those of all other diagrams are numbered.

Main statement: whatever text it comes from, a diagram is of this form (`isDescribed_of_parse`).
-/
import DiagramBoard.Proofs.Diagram.Coherent
import DiagramBoard.Proofs.Grammar.ClassDraft
import DiagramBoard.Proofs.Grammar.Parsed
import DiagramBoard.Proofs.Grammar.Sequence
import DiagramBoard.Proofs.Grammar.State

namespace DiagramBoard

open Text

variable {α : Type}

/-! ## The ids of edges -/

/-- What stands behind the last of a character is told by the whole. -/
theorem append_cons_inj_of_notMem {c : Char} {s s' t t' : List Char} (ht : c ∉ t) (ht' : c ∉ t')
    (h : s ++ c :: t = s' ++ c :: t') : s = s' ∧ t = t' := by
  rcases List.append_eq_append_iff.1 h with ⟨a, rfl, ha⟩ | ⟨a, rfl, ha⟩
  · cases a with
    | nil => simpa using ha
    | cons x a =>
      refine absurd ?_ ht
      rw [(List.cons.inj ha).2]
      simp
  · cases a with
    | nil => simpa using ha.symm
    | cons x a =>
      refine absurd ?_ ht'
      rw [(List.cons.inj ha).2]
      simp

theorem Edge.pairId_inj {s s' t t' : String} (ht : '>' ∉ t.toList) (ht' : '>' ∉ t'.toList)
    (h : Edge.pairId s t = Edge.pairId s' t') : s = s' ∧ t = t' := by
  have hlist : (s.toList ++ ['-']) ++ '>' :: t.toList = (s'.toList ++ ['-']) ++ '>' :: t'.toList := by
    simpa [Edge.pairId] using congrArg String.toList h
  obtain ⟨hs, ht⟩ := append_cons_inj_of_notMem ht ht' hlist
  exact ⟨String.toList_injective (List.append_cancel_right hs), String.toList_injective ht⟩

theorem underscore_notMem_toString (n : Nat) : '_' ∉ (toString n).toList := by
  intro h
  rw [Nat.toString_eq_repr, Nat.toList_repr] at h
  exact absurd (Nat.isDigit_of_mem_toDigits (by decide) (by decide) h) (by decide)

/-- A number at the end of an id, behind a low line, is told by the id. -/
theorem eq_of_numbered {s s' : String} {i j : Nat}
    (h : s ++ "_" ++ toString i = s' ++ "_" ++ toString j) : i = j := by
  have hlist : s.toList ++ '_' :: (toString i).toList = s'.toList ++ '_' :: (toString j).toList := by
    simpa using congrArg String.toList h
  have := append_cons_inj_of_notMem (underscore_notMem_toString i) (underscore_notMem_toString j) hlist
  exact Nat.repr_inj.1 (String.toList_injective this.2)

/-! ## Nodes and edges -/

/-- A node as a text has it: without a place, without looks and without a lifeline. -/
structure Node.IsPlain (n : Node α) : Prop where
  box : n.box = none
  style : n.style = none
  lifelineEnd : n.lifelineEnd = none

/-- An edge as a text has it: without a way of its own, its line dashed or thick at most. -/
structure Edge.IsPlain [Scalar α] (e : Edge α) : Prop where
  points : e.points = none
  style : e.style ∈ [none, some (.stroke .dashed), some (.width Grammar.Flowchart.Draft.thickWidth)]

variable [Scalar α]

theorem Edge.isPlain_of_stroke {e : Edge α} {dashed : Bool} (hpoints : e.points = none)
    (hstyle : e.style = if dashed then some (.stroke .dashed) else none) : e.IsPlain := by
  refine ⟨hpoints, ?_⟩
  cases dashed <;> simp [hstyle]

/-! ## Diagrams with numbered edges -/

namespace Diagram

/-- A diagram without groups whose edges have numbers in their ids. -/
structure IsNumbered (hasMembers : Bool) (d : Diagram α) : Prop where
  groups_eq : d.groups = []
  nodes : ∀ n ∈ d.nodes, n.IsPlain ∧ n.group = none ∧ (hasMembers = false → n.sections = none)
  edges : ∀ e ∈ d.edges, e.IsPlain
  ids : ∀ p ∈ d.edges.zipIdx, ∃ stem, p.1.id = stem ++ "_" ++ toString p.2

variable {hasMembers : Bool} {d : Diagram α}

theorem IsNumbered.ensureNode (h : d.IsNumbered hasMembers) {n : Node α} (hn : n.IsPlain)
    (hgroup : n.group = none) (hsections : hasMembers = false → n.sections = none) :
    (d.ensureNode n).IsNumbered hasMembers where
  groups_eq := by rw [groups_ensureNode, h.groups_eq]
  nodes m hm := by
    rcases mem_ensureNode hm with hm | rfl
    · exact h.nodes m hm
    · exact ⟨hn, hgroup, hsections⟩
  edges := by
    rw [edges_ensureNode]
    exact h.edges
  ids := by
    rw [edges_ensureNode]
    exact h.ids

theorem IsNumbered.modifyNode (h : d.IsNumbered hasMembers) (id : String) {f : Node α → Node α}
    (hplain : ∀ n, n.IsPlain → (f n).IsPlain) (hgroup : ∀ n, (f n).group = n.group)
    (hsections : hasMembers = false → ∀ n, (f n).sections = n.sections) :
    (d.modifyNode id f).IsNumbered hasMembers where
  groups_eq := h.groups_eq
  nodes m hm := by
    rcases mem_modifyNode hm with hm | ⟨n, hn, -, rfl⟩
    · exact h.nodes m hm
    · obtain ⟨h1, h2, h3⟩ := h.nodes n hn
      exact ⟨hplain n h1, (hgroup n).trans h2, fun hm => (hsections hm n).trans (h3 hm)⟩
  edges := h.edges
  ids := h.ids

theorem IsNumbered.addEdge (h : d.IsNumbered hasMembers) {e : Edge α} (he : e.IsPlain)
    {stem : String} (hid : e.id = stem ++ "_" ++ toString d.edges.length) :
    (d.addEdge e).IsNumbered hasMembers where
  groups_eq := h.groups_eq
  nodes := h.nodes
  edges x hx := by
    rcases List.mem_append.1 hx with hx | hx
    · exact h.edges x hx
    · obtain rfl := List.mem_singleton.1 hx
      exact he
  ids p hp := by
    rw [Diagram.addEdge, List.zipIdx_append] at hp
    rcases List.mem_append.1 hp with hp | hp
    · exact h.ids p hp
    · obtain rfl : p = (e, d.edges.length) := by simpa using hp
      exact ⟨stem, hid⟩

/-- Numbered edges have ids of their own. -/
theorem IsNumbered.nodup_edgeIds (h : d.IsNumbered hasMembers) : (d.edges.map (·.id)).Nodup := by
  rw [List.nodup_iff_injective_getElem]
  intro i j hij
  have hid : ∀ i : Fin (d.edges.map (·.id)).length,
      ∃ stem, (d.edges.map (·.id))[i] = stem ++ "_" ++ toString i.val := by
    intro i
    have hi : i.val < d.edges.length := by simpa using i.isLt
    have hmem : (d.edges[i.val], i.val) ∈ d.edges.zipIdx := by
      rw [List.mk_mem_zipIdx_iff_getElem?, List.getElem?_eq_getElem hi]
    obtain ⟨stem, hstem⟩ := h.ids _ hmem
    exact ⟨stem, by simpa using hstem⟩
  obtain ⟨si, hi⟩ := hid i
  obtain ⟨sj, hj⟩ := hid j
  exact Fin.ext (eq_of_numbered (hi.symm.trans (hij.trans hj)))

end Diagram

namespace Grammar

open Diagram (IsNumbered)

/-! ## Sequence diagrams -/

theorem Sequence.isNumbered_of_isRead {d : Diagram α} (h : Sequence.IsRead d) :
    d.IsNumbered false where
  groups_eq := h.groups_eq
  nodes n hn := by
    rw [(h.isParticipant n hn).eq]
    exact ⟨⟨rfl, rfl, rfl⟩, rfl, fun _ => rfl⟩
  edges e he := by
    rw [← List.zipIdx_map_fst 0 d.edges] at he
    obtain ⟨p, hp, rfl⟩ := List.mem_map.1 he
    rw [(h.isMessage p hp).eq]
    exact Edge.isPlain_of_stroke rfl rfl
  ids p hp := by
    rw [(h.isMessage p hp).eq]
    exact ⟨_, rfl⟩

/-! ## State diagrams -/

namespace State

omit [Scalar α] in
theorem isPlain_stateNode (id : String) : (stateNode id : Node α).IsPlain
    ∧ (stateNode id : Node α).group = none ∧ (stateNode id : Node α).sections = none := by
  unfold stateNode
  split <;> exact ⟨⟨rfl, rfl, rfl⟩, rfl, rfl⟩

theorem isNumbered_ensureNode {d : Diagram α} (h : d.IsNumbered false) (id : String) :
    (d.ensureNode (stateNode id)).IsNumbered false :=
  have ⟨hplain, hgroup, hsections⟩ := isPlain_stateNode (α := α) id
  h.ensureNode hplain hgroup fun _ => hsections

theorem isNumbered_apply {d : Diagram α} (h : d.IsNumbered false) (item : Item) :
    (apply d item).IsNumbered false := by
  cases item with
  | declaration id label shape =>
    exact (isNumbered_ensureNode h _).modifyNode _ (fun _ hn => ⟨hn.box, hn.style, hn.lifelineEnd⟩)
      (fun _ => rfl) fun _ _ => rfl
  | transition source target label =>
    exact (isNumbered_ensureNode (isNumbered_ensureNode h _) _).addEdge ⟨rfl, by simp [transitionEdge]⟩
      rfl
  | description id text =>
    exact (isNumbered_ensureNode h _).modifyNode _ (fun _ hn => ⟨hn.box, hn.style, hn.lifelineEnd⟩)
      (fun _ => rfl) fun _ _ => rfl

theorem isNumbered_readLine {d : Diagram α} (h : d.IsNumbered false) (text : List Char) :
    (readLine d text).IsNumbered false := by
  unfold readLine
  split
  · split
    · exact ⟨h.groups_eq, h.nodes, h.edges, h.ids⟩
    · exact h
  · split
    · exact isNumbered_apply h _
    · exact h

theorem isNumbered_parse (lines : List Line) : (parse lines : Diagram α).IsNumbered false :=
  List.foldlRecOn (motive := fun d : Diagram α => d.IsNumbered false) _ _
    ⟨rfl, by simp, by simp, by simp⟩ fun _ hd l _ => isNumbered_readLine hd l.text

end State

/-! ## Class and entity diagrams -/

namespace Class

theorem isNumbered_ensureNode {d : Diagram α} (h : d.IsNumbered true) (id : String) :
    (d.ensureNode (classNode id)).IsNumbered true :=
  h.ensureNode ⟨rfl, rfl, rfl⟩ rfl (by simp)

theorem isNumbered_addMember {d : Diagram α} (h : d.IsNumbered true) (owner : String)
    (text : List Char) : (addMember d owner text).IsNumbered true :=
  (isNumbered_ensureNode h owner).modifyNode owner
    (fun _ hn => ⟨hn.box, hn.style, hn.lifelineEnd⟩) (fun _ => rfl) (by simp)

theorem isNumbered_apply {d : Draft α} (h : d.diagram.IsNumbered true) (item : Item) :
    (d.apply item).diagram.IsNumbered true := by
  cases item with
  | direction direction =>
    cases direction with
    | none => exact h
    | some direction => exact ⟨h.groups_eq, h.nodes, h.edges, h.ids⟩
  | remark => exact h
  | other => exact h
  | declaration id label opensBlock =>
    have hd := isNumbered_ensureNode h (String.ofList id)
    cases label with
    | none => exact hd
    | some l =>
      exact hd.modifyNode _ (fun _ hn => ⟨hn.box, hn.style, hn.lifelineEnd⟩) (fun _ => rfl) (by simp)
  | relation l =>
    exact (isNumbered_ensureNode (isNumbered_ensureNode h _) _).addEdge
      (Edge.isPlain_of_stroke rfl rfl) rfl
  | member owner text => exact isNumbered_addMember h _ _

theorem isNumbered_readLine {d : Draft α} (h : d.diagram.IsNumbered true) (text : List Char) :
    (d.readLine text).diagram.IsNumbered true := by
  unfold Draft.readLine
  split
  · split
    · exact h
    · split
      · exact h
      · exact isNumbered_addMember h _ _
  · exact isNumbered_apply h _

theorem isNumbered_parse (kind : DiagramKind) (lines : List Line) :
    (parse kind lines : Diagram α).IsNumbered true :=
  List.foldlRecOn (motive := fun d : Draft α => d.diagram.IsNumbered true) _ _
    ⟨rfl, by simp, by simp, by simp⟩ fun _ hd l _ => isNumbered_readLine hd l.text

end Class

/-! ## Flowcharts -/

namespace Flowchart

/-- A flowchart as far as it was read: its edges are named by their ends, and a group lists nodes
that are in it. -/
structure IsDrafted (d : Diagram α) : Prop where
  nodes : ∀ n ∈ d.nodes, n.IsPlain ∧ n.sections = none
  edges : ∀ e ∈ d.edges, e.IsPlain ∧ e.id = Edge.pairId e.source e.target
  grouped : ∀ g ∈ d.groups, ∀ c ∈ g.children, ∃ n ∈ d.nodes, n.id = c ∧ n.group = some g.id

omit [Scalar α] in
theorem exists_mem_refineFirst (m : NodeMention) {ns : List (Node α)} {n : Node α} (hn : n ∈ ns) :
    ∃ n' ∈ Draft.refineFirst m ns, n'.id = n.id ∧ n'.group = n.group := by
  induction ns with
  | nil => simp at hn
  | cons k ns ih =>
    rw [Draft.refineFirst]
    split
    · rcases List.mem_cons.1 hn with rfl | hn
      · exact ⟨_, List.mem_cons_self, rfl, rfl⟩
      · exact ⟨n, List.mem_cons_of_mem _ hn, rfl, rfl⟩
    · rcases List.mem_cons.1 hn with rfl | hn
      · exact ⟨n, List.mem_cons_self, rfl, rfl⟩
      · obtain ⟨n', hn', hsame⟩ := ih hn
        exact ⟨n', List.mem_cons_of_mem _ hn', hsame⟩

/-- A mention of a node that is known leaves it in its group. -/
theorem IsDrafted.mention_known {d : Draft α} (h : IsDrafted d.diagram) {m : NodeMention}
    (hany : d.nodes.any (·.id = m.id) = true) : IsDrafted (d.mention m).diagram := by
  rw [Draft.mention_of_known hany]
  refine ⟨fun n hn => ?_, h.edges, fun g hg c hc => ?_⟩
  · obtain ⟨n', hn', rfl | rfl⟩ := mem_refineFirst hn
    · exact h.nodes n hn'
    · obtain ⟨hplain, hsections⟩ := h.nodes n' hn'
      exact ⟨⟨hplain.box, hplain.style, hplain.lifelineEnd⟩, hsections⟩
  · obtain ⟨n, hn, hid, hgroup⟩ := h.grouped g hg c hc
    obtain ⟨n', hn', hid', hgroup'⟩ := exists_mem_refineFirst m hn
    exact ⟨n', hn', hid'.trans hid, hgroup'.trans hgroup⟩

/-- A mention of a node that is new puts it into the innermost group. -/
theorem IsDrafted.mention_new {d : Draft α} (h : IsDrafted d.diagram) {m : NodeMention}
    (hany : d.nodes.any (·.id = m.id) = false) : IsDrafted (d.mention m).diagram := by
  have hnodes : ∀ group, ∀ n ∈ d.nodes ++ [(Draft.firstMention m group : Node α)],
      n.IsPlain ∧ n.sections = none := by
    intro group n hn
    rcases List.mem_append.1 hn with hn | hn
    · exact h.nodes n hn
    · rw [List.mem_singleton.1 hn]
      exact ⟨⟨rfl, rfl, rfl⟩, rfl⟩
  have hold : ∀ g ∈ d.diagram.groups, ∀ c ∈ g.children, ∀ more, ∃ n ∈ d.nodes ++ more,
      n.id = c ∧ n.group = some g.id := by
    intro g hg c hc more
    obtain ⟨n, hn, hsame⟩ := h.grouped g hg c hc
    exact ⟨n, List.mem_append_left _ hn, hsame⟩
  cases ho : d.opened with
  | nil =>
    rw [Draft.mention_of_nil hany ho]
    exact ⟨hnodes none, h.edges, fun g hg c hc => hold g hg c hc _⟩
  | cons k ks =>
    rw [Draft.mention_of_cons hany ho]
    refine ⟨hnodes (some k.id), h.edges, fun g hg c hc => ?_⟩
    rcases List.mem_append.1 hg with hg | hg
    · exact hold g (List.mem_append_left _ hg) c hc _
    · rcases List.mem_cons.1 hg with rfl | hg
      · rcases List.mem_append.1 hc with hc | hc
        · exact hold k (List.mem_append_right _ (by simp [ho])) c hc _
        · obtain rfl := List.mem_singleton.1 hc
          exact ⟨_, List.mem_append_right _ (List.mem_singleton_self _), rfl, rfl⟩
      · exact hold g (List.mem_append_right _ (by simp [ho, hg])) c hc _

theorem IsDrafted.mention {d : Draft α} (h : IsDrafted d.diagram) (m : NodeMention) :
    IsDrafted (d.mention m).diagram := by
  cases hany : d.nodes.any (·.id = m.id) with
  | true => exact h.mention_known hany
  | false => exact h.mention_new hany

theorem IsDrafted.connect {d : Draft α} (h : IsDrafted d.diagram) (link : Link)
    (source target : String) : IsDrafted (Draft.connect link d source target).diagram := by
  unfold Draft.connect
  split
  · exact h
  · refine ⟨h.nodes, fun e he => ?_, h.grouped⟩
    rcases List.mem_append.1 he with he | he
    · exact h.edges e he
    · obtain rfl := List.mem_singleton.1 he
      refine ⟨⟨rfl, ?_⟩, rfl⟩
      cases hs : link.stroke <;> simp [Draft.linkEdge, Draft.strokeHints, hs]

theorem IsDrafted.readItem {d : Draft α} (h : IsDrafted d.diagram) (item : Item) :
    IsDrafted (d.readItem item).diagram := by
  cases item with
  | opening title =>
    refine ⟨h.nodes, h.edges, fun g hg c hc => ?_⟩
    rcases List.mem_append.1 hg with hg | hg
    · exact h.grouped g (List.mem_append_left _ hg) c hc
    · rcases List.mem_cons.1 hg with rfl | hg
      · simp at hc
      · exact h.grouped g (List.mem_append_right _ hg) c hc
  | closing =>
    show IsDrafted d.closeGroup.diagram
    rwa [Draft.diagram_closeGroup]
  | statement stmt =>
    exact Draft.apply_induction (P := fun d => IsDrafted d.diagram) (fun m _ d hd => hd.mention m)
      (fun p _ d source target hd => hd.connect p.1 source target) h
  | directive => exact h
  | trailing _ => exact h
  | unreadable => exact h

theorem isDrafted_readLines {lenient : Bool} {lines : List Line} {d : Draft α}
    (h : Draft.readLines lenient ({} : Draft α) lines = .ok d) : IsDrafted d.diagram := by
  rw [Draft.readLines_eq h]
  exact List.foldlRecOn (motive := fun d : Draft α => IsDrafted d.diagram) _ _
    ⟨by simp [Draft.diagram], by simp [Draft.diagram], by simp [Draft.diagram]⟩
    fun d hd i _ => hd.readItem i

end Flowchart

end Grammar

/-! ## All diagrams -/

/-- What every diagram is that a text describes. -/
structure Diagram.IsDescribed (d : Diagram α) : Prop where
  nodup_nodeIds : d.nodeIds.Nodup
  nodup_edgeIds : (d.edges.map (·.id)).Nodup
  ends : ∀ e ∈ d.edges, e.source ∈ d.nodeIds ∧ e.target ∈ d.nodeIds
  nodes : ∀ n ∈ d.nodes, n.IsPlain
  edges : ∀ e ∈ d.edges, e.IsPlain
  /-- Only classes and entities have members, and they are in no group. -/
  sections_eq : d.kind.isClassLike = false → ∀ n ∈ d.nodes, n.sections = none
  group_eq : d.kind.isClassLike = true → ∀ n ∈ d.nodes, n.group = none
  /-- No node is alone in its group. -/
  shared : ∀ n ∈ d.nodes, ∀ g ∈ n.group, ∃ m ∈ d.nodes, m.id ≠ n.id ∧ m.group = some g
  members : d.kind = .classes → ∀ n ∈ d.nodes, ∀ s ∈ n.sections,
    Grammar.Class.SectionsComeBack .classes s
  nodes_nil : d.kind = .gantt → d.nodes = []

namespace Grammar

/-! ### Numbered edges -/

theorem isDescribed_of_isNumbered {hasMembers : Bool} {d : Diagram α}
    (h : d.IsNumbered hasMembers) (hkind : d.kind.isClassLike = hasMembers)
    (hnodup : d.nodeIds.Nodup) (hends : ∀ e ∈ d.edges, e.source ∈ d.nodeIds ∧ e.target ∈ d.nodeIds)
    (hmembers : d.kind = .classes → ∀ n ∈ d.nodes, ∀ s ∈ n.sections,
      Class.SectionsComeBack .classes s) (hgantt : d.kind ≠ .gantt) : d.IsDescribed where
  nodup_nodeIds := hnodup
  nodup_edgeIds := h.nodup_edgeIds
  ends := hends
  nodes n hn := (h.nodes n hn).1
  edges := h.edges
  sections_eq hk n hn := (h.nodes n hn).2.2 (hkind ▸ hk)
  group_eq _ n hn := (h.nodes n hn).2.1
  shared n hn g hg := by
    rw [(h.nodes n hn).2.1] at hg
    exact absurd hg (Option.not_mem_none g)
  members := hmembers
  nodes_nil hk := absurd hk hgantt

/-! ### Flowcharts -/

namespace Flowchart

omit [Scalar α] in
theorem group_prunedNode {groups : List Group} {n : Node α} {g : String}
    (h : (Diagram.prunedNode groups n).group = some g) :
    n.group = some g ∧ ∃ k ∈ groups, n.id ∈ k.children := by
  unfold Diagram.prunedNode at h
  split at h
  · next hany =>
    obtain ⟨k, hk, hc⟩ := List.any_eq_true.1 hany
    exact ⟨h, k, hk, by simpa using hc⟩
  · exact nomatch h

omit [Scalar α] in
theorem prunedNode_of_mem {groups : List Group} {n : Node α} {k : Group} (hk : k ∈ groups)
    (hn : n.id ∈ k.children) : Diagram.prunedNode groups n = n := by
  rw [Diagram.prunedNode, if_pos]
  exact List.any_eq_true.2 ⟨k, hk, by simpa using hn⟩

/-- Whoever a group that stays lists is in that group. -/
theorem exists_of_mem_prunedGroups {d : Diagram α} (h : IsDrafted d) {k : Group}
    (hk : k ∈ d.prunedGroups) {c : String} (hc : c ∈ k.children) :
    ∃ n ∈ d.nodes, n.id = c ∧ n.group = some k.id := by
  obtain ⟨-, k', hk', hid, -, hsub⟩ := mem_prunedGroups hk
  exact hid ▸ h.grouped k' hk' c (hsub.subset hc)

/-- A node is in a group if and only if a group of that id lists it. -/
theorem group_eq_some_iff_prune {d : Diagram α} (hread : IsRead d) (h : IsDrafted d) {n : Node α}
    (hn : n ∈ d.prune.nodes) {g : String} :
    n.group = some g ↔ ∃ k ∈ d.prune.groups, k.id = g ∧ n.id ∈ k.children := by
  obtain ⟨m, hm, rfl⟩ := List.mem_map.1 hn
  -- the group that lists a node is the one that the node is in
  have hlisted : ∀ k ∈ d.prunedGroups, m.id ∈ k.children → m.group = some k.id := by
    intro k hk hc
    obtain ⟨m', hm', hid, hgroup⟩ := exists_of_mem_prunedGroups h hk hc
    obtain rfl : m' = m := List.inj_on_of_nodup_map hread.nodup_nodeIds hm' hm hid
    exact hgroup
  rw [Diagram.prunedNode_id]
  constructor
  · intro hg
    obtain ⟨hg, k, hk, hc⟩ := group_prunedNode hg
    exact ⟨k, hk, Option.some.inj ((hlisted k hk hc).symm.trans hg), hc⟩
  · rintro ⟨k, (hk : k ∈ d.prunedGroups), rfl, hc⟩
    rw [prunedNode_of_mem hk hc]
    exact hlisted k hk hc

omit [Scalar α] in
/-- A group that stays has two different nodes. -/
theorem hasTwo_of_mem_prunedGroups {d : Diagram α} (hread : IsRead d) {k : Group}
    (hk : k ∈ d.prunedGroups) : k.HasTwo := by
  obtain ⟨htwo, k', hk', -, -, hsub⟩ := mem_prunedGroups hk
  exact Group.hasTwo_of_nodup htwo
    (((List.nodup_flatMap.1 hread.nodup_children).1 k' hk').sublist hsub)

/-- No node is left alone in its group. -/
theorem shared_prune {d : Diagram α} (hread : IsRead d) (h : IsDrafted d) :
    ∀ n ∈ d.prune.nodes, ∀ g ∈ n.group, ∃ m ∈ d.prune.nodes, m.id ≠ n.id ∧ m.group = some g := by
  intro n hn g hg
  obtain ⟨k, (hk : k ∈ d.prunedGroups), rfl, -⟩ := (group_eq_some_iff_prune hread h hn).1 hg
  obtain ⟨c, hc, hne⟩ := (hasTwo_of_mem_prunedGroups hread hk).exists_ne n.id
  obtain ⟨m, hm, rfl, hgroup⟩ := exists_of_mem_prunedGroups h hk hc
  refine ⟨_, List.mem_map_of_mem hm, by simpa using hne, ?_⟩
  rw [prunedNode_of_mem hk hc, hgroup]

/-- Edges that are named by their ends have ids of their own. -/
theorem nodup_edgeIds_prune {d : Diagram α} (hread : IsRead d) (h : IsDrafted d) :
    (d.prune.edges.map (·.id)).Nodup := by
  have hpruned := hread.prune
  have hmem : ∀ e ∈ d.prune.edges, e ∈ d.edges := fun e he => (List.mem_filter.1 he).1
  have hjoined : d.prune.edges.Pairwise fun e f => (e.source, e.target) ≠ (f.source, f.target) :=
    List.pairwise_map.1 hpruned.nodup_joined
  refine List.pairwise_map.2 (hjoined.imp_of_mem fun {e f} he hf hne hid => hne ?_)
  have htarget : ∀ e ∈ d.prune.edges, '>' ∉ e.target.toList := fun e he hc =>
    absurd ((hpruned.isId _ (hpruned.ends e he).2).isName.isNameChar _ hc) (by decide)
  rw [(h.edges e (hmem e he)).2, (h.edges f (hmem f hf)).2] at hid
  obtain ⟨hs, ht⟩ := Edge.pairId_inj (htarget e he) (htarget f hf) hid
  rw [hs, ht]

theorem isDescribed_finish {d : Draft α} (hread : IsRead d.diagram) (h : IsDrafted d.diagram)
    {kind : DiagramKind} (hkind : kind.isClassLike = false) (hgantt : kind ≠ .gantt)
    (direction : Direction) :
    Diagram.IsDescribed { d.finish with kind := kind, direction := direction } where
  nodup_nodeIds := hread.prune.nodup_nodeIds
  nodup_edgeIds := nodup_edgeIds_prune hread h
  ends := hread.prune.ends
  nodes n hn := by
    obtain ⟨m, hm, rfl⟩ := List.mem_map.1 hn
    have hplain := (h.nodes m hm).1
    unfold Diagram.prunedNode
    split
    · exact hplain
    · exact ⟨hplain.box, hplain.style, hplain.lifelineEnd⟩
  edges e he := (h.edges e (List.mem_filter.1 he).1).1
  sections_eq _ n hn := by
    obtain ⟨m, hm, rfl⟩ := List.mem_map.1 hn
    have hsections := (h.nodes m hm).2
    unfold Diagram.prunedNode
    split <;> exact hsections
  group_eq hk := by simp [hkind] at hk
  shared := shared_prune hread h
  members hk := by
    subst hk
    exact absurd hkind (by decide)
  nodes_nil hk := absurd hk hgantt

theorem isDescribed_parse {lenient : Bool} {lines : List Line} {d : Diagram α}
    (ht : ∀ l ∈ lines, '\n' ∉ l.text) (h : parse lenient lines = .ok d) {kind : DiagramKind}
    (hkind : kind.isClassLike = false) (hgantt : kind ≠ .gantt) (direction : Direction) :
    Diagram.IsDescribed { d with kind := kind, direction := direction } := by
  obtain ⟨draft, hdraft, rfl⟩ := exists_of_parse h
  exact isDescribed_finish (isRead_readLines ht hdraft) (isDrafted_readLines hdraft) hkind hgantt
    direction

end Flowchart

/-! ### All grammars -/

/-- A diagram that only has a kind and a direction. -/
theorem isDescribed_empty (kind : DiagramKind) (direction : Direction) :
    Diagram.IsDescribed ({ kind := kind, direction := direction } : Diagram α) :=
  ⟨by simp [Diagram.nodeIds], by simp, by simp, by simp, by simp, by simp, by simp, by simp,
    by simp, by simp⟩

theorem Class.isDescribed_parse {kind : DiagramKind} (hkind : kind.isClassLike = true)
    {body : List Line} (hb : ∀ l ∈ body, '\n' ∉ l.text) :
    (Class.parse kind body : Diagram α).IsDescribed := by
  have hread := Class.isRead_parse (α := α) kind hb
  refine isDescribed_of_isNumbered (Class.isNumbered_parse kind body) (by rw [hread.kind_eq, hkind])
    hread.nodup_nodeIds hread.ends (fun hk n hn s hs => ?_) ?_
  · obtain ⟨s', hs', hback⟩ := hread.sections n hn
    rw [hread.kind_eq] at hk
    obtain rfl : s' = s := Option.some.inj (hs'.symm.trans hs)
    exact hk ▸ hback
  · rw [hread.kind_eq]
    rintro rfl
    exact absurd hkind (by decide)

theorem Sequence.isDescribed_parse {body : List Line} (hb : ∀ l ∈ body, '\n' ∉ l.text) :
    (Sequence.parse body : Diagram α).IsDescribed := by
  have hread := Sequence.isRead_parse (α := α) hb
  have hkind := hread.kind_eq
  refine isDescribed_of_isNumbered (Sequence.isNumbered_of_isRead hread) (by rw [hkind]; rfl)
    hread.nodup_nodeIds hread.ends (fun hk => ?_) (by simp [hkind])
  rw [hkind] at hk
  exact absurd hk (by decide)

theorem State.isDescribed_parse {body : List Line} (hb : ∀ l ∈ body, '\n' ∉ l.text) :
    (State.parse body : Diagram α).IsDescribed := by
  have hread := State.isRead_parse (α := α) hb
  have hkind := State.kind_parse (α := α) body
  refine isDescribed_of_isNumbered (State.isNumbered_parse body) (by rw [hkind]; rfl)
    hread.nodup_nodeIds hread.ends (fun hk => ?_) (by simp [hkind])
  rw [hkind] at hk
  exact absurd hk (by decide)

end Grammar

/-- Whatever text it comes from, a diagram has no places, no lifelines and no looks but dashed and
thick lines, its nodes and edges have ids of their own, and its edges join its nodes. -/
theorem Diagram.isDescribed_of_parse {text : String} {d : Diagram α}
    (h : Diagram.parse text = .ok d) : d.IsDescribed := by
  cases isParsed_of_parse h with
  | blank => exact Grammar.isDescribed_empty _ _
  | gantt => exact Grammar.isDescribed_empty _ _
  | mindmap => exact Grammar.isDescribed_empty _ _
  | sequence lines hlines => exact Grammar.Sequence.isDescribed_parse hlines
  | classes kind hkind lines hlines => exact Grammar.Class.isDescribed_parse hkind hlines
  | state lines hlines => exact Grammar.State.isDescribed_parse hlines
  | flowchart kind hkind direction hlines hparse =>
    have hlike : kind.isClassLike = false := by rcases hkind with rfl | rfl <;> rfl
    have hgantt : kind ≠ .gantt := by rcases hkind with rfl | rfl <;> simp
    exact Grammar.Flowchart.isDescribed_parse hlines hparse hlike hgantt direction

end DiagramBoard
