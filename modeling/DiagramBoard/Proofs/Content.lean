/-
DiagramBoard.Proofs.Content — what two diagrams have in common if they say the same.

Two diagrams have the same content if they agree, as sets, on the ids of their nodes, on the labels
of the nodes, on the pairs of nodes that edges join, and on these pairs together with the labels of
the labelled edges.

Main statement: the content lines of a rendered diagram are its header and the lines of its body,
trimmed (`contentLines_render`).
-/
import DiagramBoard.Proofs.Grammar.Words
import DiagramBoard.Writer

namespace DiagramBoard

open Text

variable {α : Type}

/-- Whether an edge leads from a node to another. -/
def Edge.joins (source target : String) (e : Edge α) : Bool := e.source = source && e.target = target

theorem Edge.joins_iff {source target : String} {e : Edge α} :
    e.joins source target = true ↔ e.source = source ∧ e.target = target := by
  simp [joins]

namespace Diagram

/-- The ids of the nodes with their labels. -/
def nodeLabels (d : Diagram α) : List (String × String) := d.nodes.map fun n => (n.id, n.label)

/-- The pairs of nodes that edges join. -/
def joined (d : Diagram α) : List (String × String) := d.edges.map fun e => (e.source, e.target)

/-- The first edge from a node to another. -/
def edgeBetween? (d : Diagram α) (source target : String) : Option (Edge α) :=
  d.edges.find? (·.joins source target)

/-- The pairs of nodes that edges with labels join, with these labels. -/
def labelled (d : Diagram α) : List (String × String × String) :=
  d.edges.filterMap fun e => e.label.map fun l => (e.source, e.target, l)

theorem mem_joined_iff {d : Diagram α} {source target : String} :
    (source, target) ∈ d.joined ↔ (d.edgeBetween? source target).isSome = true := by
  rw [edgeBetween?, List.isSome_find?, List.any_eq_true, joined, List.mem_map]
  simp only [Edge.joins_iff, Prod.mk.injEq]

/-- Where no two edges join the same nodes, every edge is the first one between its ends. -/
theorem edgeBetween?_of_nodup {d : Diagram α} (h : d.joined.Nodup) {e : Edge α} (he : e ∈ d.edges) :
    d.edgeBetween? e.source e.target = some e := by
  have hsome : (d.edgeBetween? e.source e.target).isSome = true :=
    mem_joined_iff.1 (List.mem_map_of_mem he)
  obtain ⟨f, hf⟩ := Option.isSome_iff_exists.1 hsome
  obtain ⟨hsource, htarget⟩ := Edge.joins_iff.1 (List.find?_some hf)
  rw [hf, List.inj_on_of_nodup_map h (List.mem_of_find?_eq_some hf) he (Prod.ext hsource htarget)]

/-- Two diagrams say the same: they have the same nodes, labels, edges and labels of edges. -/
structure SameContent (d e : Diagram α) : Prop where
  nodeIds : ∀ id, id ∈ d.nodeIds ↔ id ∈ e.nodeIds
  nodeLabels : ∀ p, p ∈ d.nodeLabels ↔ p ∈ e.nodeLabels
  joined : ∀ p, p ∈ d.joined ↔ p ∈ e.joined
  labelled : ∀ p, p ∈ d.labelled ↔ p ∈ e.labelled

/-- Diagrams with the same labels on their nodes and edges in the same order say the same. -/
theorem SameContent.of_edges {d e : Diagram α} (hn : ∀ p, p ∈ d.nodeLabels ↔ p ∈ e.nodeLabels)
    (he : d.edges.map (fun x => (x.source, x.target, x.label))
      = e.edges.map fun x => (x.source, x.target, x.label)) : SameContent d e where
  nodeIds id := by
    have hids : ∀ g : Diagram α, id ∈ g.nodeIds ↔ ∃ l, (id, l) ∈ g.nodeLabels := by
      intro g
      simp [Diagram.nodeIds, Diagram.nodeLabels]
    rw [hids, hids]
    simp only [hn]
  nodeLabels := hn
  joined p := by
    have := congrArg (List.map fun x : String × String × Option String => (x.1, x.2.1)) he
    simp only [List.map_map, Function.comp_def] at this
    rw [Diagram.joined, Diagram.joined, this]
  labelled p := by
    have := congrArg (List.filterMap fun x : String × String × Option String =>
      x.2.2.map fun l => (x.1, x.2.1, l)) he
    simp only [List.filterMap_map, Function.comp_def] at this
    rw [Diagram.labelled, Diagram.labelled, this]

end Diagram

/-! ## What a text can say of nodes and edges -/

/-- What a text says of an edge: all but its id, its look and its way. -/
structure Edge.Statement where
  source : String
  target : String
  label : Option String
  startHead : ArrowHead
  endHead : ArrowHead
  isDashed : Bool
deriving DecidableEq, Repr

section Statements

variable {α : Type}

def Edge.statement (e : Edge α) : Edge.Statement :=
  ⟨e.source, e.target, e.label, e.startHead, e.endHead, e.isDashed⟩

/-- A node as the lines of a class say it. -/
def Node.entry (n : Node α) : String × String × Option Sections := (n.id, n.label, n.sections)

/-- A node as the line of a state says it. -/
def Node.face (n : Node α) : String × String × Shape := (n.id, n.label, n.shape)

/-- Two diagrams with the same nodes, with their labels and members, and the same edges, both in the
same order. -/
structure Diagram.SameInOrder (d e : Diagram α) : Prop where
  kind : d.kind = e.kind
  direction : d.direction = e.direction
  entries : d.nodes.map Node.entry = e.nodes.map Node.entry
  statements : d.edges.map Edge.statement = e.edges.map Edge.statement

end Statements

/-! ## The lines of a rendered diagram -/

namespace Diagram

variable {α : Type}

theorem header_chars (d : Diagram α) : trim d.header = d.header ∧ '\n' ∉ d.header
    ∧ Grammar.IsContent d.header ∧ d.header ≠ "---".toList := by
  have hflow : ∀ dir : Direction, trim ("graph ".toList ++ dir.name.toList)
      = "graph ".toList ++ dir.name.toList ∧ '\n' ∉ "graph ".toList ++ dir.name.toList
      ∧ Grammar.IsContent ("graph ".toList ++ dir.name.toList)
      ∧ "graph ".toList ++ dir.name.toList ≠ "---".toList := by
    intro dir
    cases dir <;> exact ⟨by decide, by decide, Grammar.isContent_cons (by decide) _, by decide⟩
  have hword : ∀ w ∈ ["sequenceDiagram", "classDiagram", "erDiagram", "stateDiagram-v2", "C4Context"],
      trim w.toList = w.toList ∧ '\n' ∉ w.toList ∧ Grammar.IsContent w.toList
        ∧ w.toList ≠ "---".toList := by
    intro w hw
    simp only [List.mem_cons, List.not_mem_nil, or_false] at hw
    rcases hw with rfl | rfl | rfl | rfl | rfl <;>
      exact ⟨by decide, by decide, Grammar.isContent_cons (by decide) _, by decide⟩
  unfold header
  split
  · exact hword _ (by simp)
  · exact hword _ (by simp)
  · exact hword _ (by simp)
  · exact hword _ (by simp)
  · exact hword _ (by simp)
  · exact hflow _
  · exact hflow _
  · exact hflow _

variable [Scalar α]

/-- The content lines of a rendered diagram, if each line of its body carries content. -/
theorem contentLines_render (compact : Bool) (d : Diagram α)
    (h : ∀ l ∈ d.bodyLines compact, '\n' ∉ l ∧ Grammar.IsContent (trim l)) :
    ∃ ls, Grammar.contentLines (d.render compact).toList = ⟨1, d.header⟩ :: ls
      ∧ ls.map (·.text) = (d.bodyLines compact).map trim := by
  obtain ⟨h1, h2, h3, h4⟩ := header_chars d
  have hn : ∀ l ∈ d.header :: d.bodyLines compact, '\n' ∉ l := by
    intro l hl
    rcases List.mem_cons.1 hl with rfl | hl
    · exact h2
    · exact (h l hl).1
  have hc : ∀ l ∈ d.header :: d.bodyLines compact, Grammar.IsContent (trim l) := by
    intro l hl
    rcases List.mem_cons.1 hl with rfl | hl
    · rwa [h1]
    · exact (h l hl).2
  obtain ⟨ls, hls, ht⟩ := Grammar.contentLines_flatMap hn hc (by rwa [h1])
  rw [h1] at hls
  refine ⟨ls, ?_, ht⟩
  rw [render, String.toList_ofList, hls]

/-- The text of a diagram depends on its header and the lines of its body only. -/
theorem render_congr {compact : Bool} {d e : Diagram α} (hh : d.header = e.header)
    (hb : d.bodyLines compact = e.bodyLines compact) : d.render compact = e.render compact := by
  rw [render, render, hh, hb]

/-- Reading a text whose content lines are known. -/
theorem parse_of_contentLines {text : String} {header : Grammar.Line} {body : List Grammar.Line}
    (h : Grammar.contentLines text.toList = header :: body) :
    (Diagram.parse text : Except SyntaxError (Diagram α)) = Grammar.parseBody header body := by
  rw [Diagram.parse, h]

end Diagram

end DiagramBoard
