/-
DiagramBoard.Proofs.Grammar.WellFormed — the diagrams of texts are well formed.

Lines mention nodes before they declare them, subgraphs are nested, opened again under the same id or
never closed, and edges are repeated.  Whatever a text does, ids tell nodes and edges apart, edges
join nodes, and nodes and groups say the same about who is in which group.

Main statement: every diagram that a text describes is well formed (`isWellFormed_of_parse`).
-/
import DiagramBoard.Proofs.Grammar.Described

namespace DiagramBoard

variable {α : Type}

/-- A diagram as everything else relies on it. -/
structure Diagram.IsWellFormed (d : Diagram α) : Prop where
  nodup_nodeIds : d.nodeIds.Nodup
  nodup_edgeIds : (d.edges.map (·.id)).Nodup
  ends : ∀ e ∈ d.edges, e.source ∈ d.nodeIds ∧ e.target ∈ d.nodeIds
  /-- No two edges of a flowchart join the same nodes in the same direction. -/
  nodup_joined : d.kind = .flowchart ∨ d.kind = .c4 → d.joined.Nodup
  two_children : ∀ g ∈ d.groups, g.HasTwo
  children : ∀ g ∈ d.groups, ∀ c ∈ g.children, c ∈ d.nodeIds
  /-- Nothing is listed twice, neither by one group nor by two. -/
  nodup_children : (d.groups.flatMap (·.children)).Nodup
  group_eq_some_iff : ∀ n ∈ d.nodes, ∀ id,
    n.group = some id ↔ ∃ g ∈ d.groups, g.id = id ∧ n.id ∈ g.children
  isSome_sections : ∀ n ∈ d.nodes, n.sections.isSome = d.kind.isClassLike
  box_eq : ∀ n ∈ d.nodes, n.box = none

namespace Diagram

variable {d : Diagram α}

theorem IsWellFormed.isCoherent (h : d.IsWellFormed) : d.IsCoherent where
  nodup_nodeIds := h.nodup_nodeIds
  ends := h.ends
  children := h.children
  listed n hn id hid := (h.group_eq_some_iff n hn id).1 hid
  two_children := h.two_children
  sections n hn hsome := h.isSome_sections n hn ▸ hsome

variable [Scalar α]

/-- Nodes have sections exactly in the diagrams of classes and entities, where all of them do. -/
theorem IsDescribed.isSome_sections (h : d.IsDescribed)
    (hsections : d.kind.isClassLike = true → ∀ n ∈ d.nodes, n.sections.isSome = true) {n : Node α}
    (hn : n ∈ d.nodes) : n.sections.isSome = d.kind.isClassLike := by
  cases hlike : d.kind.isClassLike with
  | true => exact hsections hlike n hn
  | false => rw [h.sections_eq hlike n hn, Option.isSome_none]

/-- A diagram without groups, where nobody is in one. -/
theorem IsDescribed.isWellFormed_of_groups_eq_nil (h : d.IsDescribed) (hgroups : d.groups = [])
    (hgroup : ∀ n ∈ d.nodes, n.group = none)
    (hjoined : d.kind = .flowchart ∨ d.kind = .c4 → d.joined.Nodup)
    (hsections : d.kind.isClassLike = true → ∀ n ∈ d.nodes, n.sections.isSome = true) :
    d.IsWellFormed where
  nodup_nodeIds := h.nodup_nodeIds
  nodup_edgeIds := h.nodup_edgeIds
  ends := h.ends
  nodup_joined := hjoined
  two_children := by simp [hgroups]
  children := by simp [hgroups]
  nodup_children := by simp [hgroups]
  group_eq_some_iff n hn id := by simp [hgroups, hgroup n hn]
  isSome_sections _ := h.isSome_sections hsections
  box_eq n hn := (h.nodes n hn).box

/-- A diagram with numbered edges. -/
theorem IsDescribed.isWellFormed_of_isNumbered {hasMembers : Bool} (h : d.IsDescribed)
    (hnumbered : d.IsNumbered hasMembers) (hkind : d.kind ≠ .flowchart ∧ d.kind ≠ .c4)
    (hsections : d.kind.isClassLike = true → ∀ n ∈ d.nodes, n.sections.isSome = true) :
    d.IsWellFormed :=
  h.isWellFormed_of_groups_eq_nil hnumbered.groups_eq (fun n hn => (hnumbered.nodes n hn).2.1)
    (fun hflow => (not_or.2 hkind hflow).elim) hsections

end Diagram

namespace Grammar

variable [Scalar α]

theorem Class.isWellFormed_parse {kind : DiagramKind} (hkind : kind.isClassLike = true)
    {lines : List Line} (hlines : ∀ l ∈ lines, '\n' ∉ l.text) :
    (Class.parse kind lines : Diagram α).IsWellFormed := by
  have hread := Class.isRead_parse (α := α) kind hlines
  refine (Class.isDescribed_parse hkind hlines).isWellFormed_of_isNumbered
    (Class.isNumbered_parse kind lines) ?_ fun _ n hn => ?_
  · rw [hread.kind_eq]
    constructor <;> rintro rfl <;> exact nomatch hkind
  · obtain ⟨s, hs, -⟩ := hread.sections n hn
    rw [hs, Option.isSome_some]

theorem Sequence.isWellFormed_parse {lines : List Line} (hlines : ∀ l ∈ lines, '\n' ∉ l.text) :
    (Sequence.parse lines : Diagram α).IsWellFormed := by
  have hread := Sequence.isRead_parse (α := α) hlines
  refine (Sequence.isDescribed_parse hlines).isWellFormed_of_isNumbered
    (Sequence.isNumbered_of_isRead hread) ?_ ?_
  · simp [hread.kind_eq]
  · simp [hread.kind_eq, DiagramKind.isClassLike]

theorem State.isWellFormed_parse {lines : List Line} (hlines : ∀ l ∈ lines, '\n' ∉ l.text) :
    (State.parse lines : Diagram α).IsWellFormed := by
  have hkind := State.kind_parse (α := α) lines
  refine (State.isDescribed_parse hlines).isWellFormed_of_isNumbered (State.isNumbered_parse lines)
    ?_ ?_
  · simp [hkind]
  · simp [hkind, DiagramKind.isClassLike]

namespace Flowchart

/-- What is read of a flowchart is well formed once it is pruned. -/
theorem isWellFormed_finish {d : Draft α} (hread : IsRead d.diagram) (h : IsDrafted d.diagram)
    {kind : DiagramKind} (hkind : kind = .flowchart ∨ kind = .c4) (direction : Direction) :
    Diagram.IsWellFormed { d.finish with kind := kind, direction := direction } := by
  have hlike : kind.isClassLike = false := by rcases hkind with rfl | rfl <;> rfl
  have hdescribed := isDescribed_finish hread h hlike (by rcases hkind with rfl | rfl <;> simp)
    direction
  exact
    { nodup_nodeIds := hdescribed.nodup_nodeIds
      nodup_edgeIds := hdescribed.nodup_edgeIds
      ends := hdescribed.ends
      nodup_joined := fun _ => hread.prune.nodup_joined
      two_children := fun g hg => hasTwo_of_mem_prunedGroups hread hg
      children := hread.prune.children
      nodup_children := hread.prune.nodup_children
      group_eq_some_iff := fun n hn id => group_eq_some_iff_prune hread h hn
      isSome_sections := fun _ => hdescribed.isSome_sections (by simp [hlike])
      box_eq := fun n hn => (hdescribed.nodes n hn).box }

end Flowchart

end Grammar

variable [Scalar α]

/-- Every diagram that a text describes is well formed. -/
theorem Diagram.isWellFormed_of_parse {text : String} {d : Diagram α}
    (h : Diagram.parse text = .ok d) : d.IsWellFormed := by
  have hempty : ∀ (kind : DiagramKind) (direction : Direction),
      IsWellFormed ({ kind := kind, direction := direction } : Diagram α) := fun kind direction =>
    (Grammar.isDescribed_empty kind direction).isWellFormed_of_groups_eq_nil rfl (by simp)
      (by simp [joined]) (by simp)
  cases isParsed_of_parse h with
  | blank => exact hempty _ _
  | gantt => exact hempty _ _
  | mindmap => exact hempty _ _
  | sequence lines hlines => exact Grammar.Sequence.isWellFormed_parse hlines
  | classes kind hkind lines hlines => exact Grammar.Class.isWellFormed_parse hkind hlines
  | state lines hlines => exact Grammar.State.isWellFormed_parse hlines
  | flowchart kind hkind direction hlines hparse =>
    obtain ⟨draft, hdraft, rfl⟩ := Grammar.Flowchart.exists_of_parse hparse
    exact Grammar.Flowchart.isWellFormed_finish (Grammar.Flowchart.isRead_readLines hlines hdraft)
      (Grammar.Flowchart.isDrafted_readLines hdraft) hkind direction

/-- Subgraphs that are nested, opened again under the same id and left open, with edges repeated. -/
def reopened : String :=
  "graph TD\nsubgraph g\nA\nsubgraph h\nB --> A & B\nC\nend\nend\nsubgraph g\nD --> A\nB --> A\nE"

/-- Of the groups with the same id the one that is left with one node is dropped. -/
theorem Diagram.isWellFormed_reopened : ∃ d : Diagram Float, Diagram.parse reopened = .ok d
    ∧ d.groups.map (fun g => (g.id, g.children)) = [("h", ["B", "C"]), ("g", ["D", "E"])]
    ∧ d.IsWellFormed := by
  have hgroups : ((Diagram.parse reopened : Except SyntaxError (Diagram Float)).toOption.map fun d =>
      d.groups.map fun g => (g.id, g.children)) = some [("h", ["B", "C"]), ("g", ["D", "E"])] := by
    decide +kernel
  cases hparse : (Diagram.parse reopened : Except SyntaxError (Diagram Float)) with
  | error e => simp [hparse, Except.toOption] at hgroups
  | ok d =>
    rw [hparse] at hgroups
    exact ⟨d, rfl, Option.some.inj hgroups, isWellFormed_of_parse hparse⟩

end DiagramBoard
