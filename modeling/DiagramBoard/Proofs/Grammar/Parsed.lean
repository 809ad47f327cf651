/-
DiagramBoard.Proofs.Grammar.Parsed — which grammar a diagram comes from.

The header of a text selects one grammar for the lines below it.  What holds of every diagram that a
text describes is shown for each of the grammars, for lines without line feeds.

Main statement: a diagram that a text describes is what one of the grammars makes of such lines
(`isParsed_of_parse`).
-/
import DiagramBoard.Proofs.Grammar.FlowchartDraft

namespace DiagramBoard

open Text

variable {α : Type} [Scalar α]

/-- What the grammars make of lines. -/
inductive Diagram.IsParsed : Diagram α → Prop
  | blank : IsParsed {}
  | gantt : IsParsed { kind := .gantt, direction := .right }
  | mindmap : IsParsed { kind := .mindmap, direction := .right }
  | sequence (lines : List Grammar.Line) (hlines : ∀ l ∈ lines, '\n' ∉ l.text) :
      IsParsed (Grammar.Sequence.parse lines)
  | classes (kind : DiagramKind) (hkind : kind.isClassLike = true) (lines : List Grammar.Line)
      (hlines : ∀ l ∈ lines, '\n' ∉ l.text) : IsParsed (Grammar.Class.parse kind lines)
  | state (lines : List Grammar.Line) (hlines : ∀ l ∈ lines, '\n' ∉ l.text) :
      IsParsed (Grammar.State.parse lines)
  | flowchart (kind : DiagramKind) (hkind : kind = .flowchart ∨ kind = .c4) (direction : Direction)
      {lenient : Bool} {lines : List Grammar.Line} (hlines : ∀ l ∈ lines, '\n' ∉ l.text)
      {d : Diagram α} (hparse : Grammar.Flowchart.parse lenient lines = .ok d) :
      IsParsed { d with kind := kind, direction := direction }

namespace Grammar

open Diagram (IsParsed)

theorem isParsed_parseBody {header : Line} {body : List Line} {d : Diagram α}
    (hb : ∀ l ∈ body, '\n' ∉ l.text) (h : parseBody header body = .ok d) : d.IsParsed := by
  unfold parseBody at h
  dsimp only at h
  split at h
  case h_1 => exact Except.ok.inj h ▸ .sequence body hb
  case h_2 => exact Except.ok.inj h ▸ .classes .classes rfl body hb
  case h_3 => exact Except.ok.inj h ▸ .state body hb
  case h_4 => exact Except.ok.inj h ▸ .classes .er rfl body hb
  case h_5 => exact Except.ok.inj h ▸ .gantt
  case h_6 => exact Except.ok.inj h ▸ .mindmap
  case h_7 =>
    -- what cannot be read as a line of a flowchart is passed over
    cases hp : (Flowchart.parse true body : Except SyntaxError (Diagram α)) with
    | error e => simp [hp, Except.map] at h
    | ok g =>
      rw [hp] at h
      exact Except.ok.inj h ▸ .flowchart .c4 (.inr rfl) g.direction hb hp
  case h_8 =>
    -- a flowchart has the direction of its header
    cases hd : headerDirection header with
    | error e => simp [hd, Except.bind] at h
    | ok direction =>
      cases hp : (Flowchart.parse false body : Except SyntaxError (Diagram α)) with
      | error e => simp [hd, hp, Except.bind, Except.map] at h
      | ok g =>
        simp only [hd, hp, Except.bind, Except.map, Except.ok.injEq] at h
        have hkind : g.kind = .flowchart := Flowchart.kind_of_parse hp
        exact h ▸ hkind ▸ .flowchart g.kind (.inl hkind) direction hb hp
  case h_9 => simp at h

end Grammar

/-- A diagram that a text describes comes from one of the grammars. -/
theorem Diagram.isParsed_of_parse {text : String} {d : Diagram α}
    (h : Diagram.parse text = .ok d) : d.IsParsed := by
  unfold Diagram.parse at h
  split at h
  · exact Except.ok.inj h ▸ .blank
  · next header body hc =>
    refine Grammar.isParsed_parseBody (fun l hl => ?_) h
    exact Grammar.lineFeed_notMem_of_mem_contentLines
      (by rw [hc]; exact List.mem_cons_of_mem _ hl)

end DiagramBoard
