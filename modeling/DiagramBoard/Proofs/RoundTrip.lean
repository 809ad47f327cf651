/-
DiagramBoard.Proofs.RoundTrip — a diagram text, written in one of its two forms and read again.

The grammars read more than the writers can say.  A label in quotes keeps its blanks, which are
dropped when it is read again; a keyword can be the id of a node; an entity can have a label.  A
diagram with none of these comes back.

Main statement: the form of a text whose diagram can be written again is accepted, describes the same
diagram and is its own form (`roundTrips_of_isRewritable`).
-/
import DiagramBoard.Proofs.Grammar.Parsed
import DiagramBoard.Proofs.Grammar.Sequence
import DiagramBoard.Proofs.RoundTrip.Class
import DiagramBoard.Proofs.RoundTrip.Flowchart
import DiagramBoard.Proofs.RoundTrip.State

namespace DiagramBoard

open Text

variable {α : Type}

/-! ## What can be written again -/

namespace Diagram

/-- No label of an edge starts or ends in a blank. -/
def HasTrimmedLabels (d : Diagram α) : Prop :=
  ∀ e ∈ d.edges, ∀ l ∈ e.label, trim l.toList = l.toList

/-- No edge starts at a node that is named by one of these words. -/
def AvoidsSources (words : List String) (d : Diagram α) : Prop := ∀ e ∈ d.edges, e.source ∉ words

/-- No member looks like a closing brace, an annotation or a comment. -/
def HasPlainMembers (d : Diagram α) : Prop :=
  ∀ n ∈ d.nodes, ∀ m ∈ Grammar.Class.membersOf n, ∀ mark ∈ ["\x7d", "<<", "%%"],
    startsWith mark m.shown = false

/-- Whether a node is on a line alone in compact form. -/
def isBare (d : Diagram α) (n : Node α) : Bool :=
  Writer.Flowchart.isPlainNode n
    && (Writer.Flowchart.isGrouped d n.id || !Writer.Flowchart.isLinked d n.id)

/-- Whether the text of a diagram describes the diagram.

* In flowcharts `subgraph` and `end` are keywords at the start of some lines.
* In state diagrams `direction` and `note` are, and the start and end has no label of its own.
* In class diagrams `direction` is, a class is named by a word without hyphens, and a member has a
  line of its own.
* In entity diagrams an entity has no label of its own and no name that is read as something else. -/
def IsRewritable (compact : Bool) (d : Diagram α) : Prop :=
  match d.kind with
  | .flowchart | .c4 => d.HasTrimmedLabels ∧ d.AvoidsSources ["subgraph"]
    ∧ (compact = true → ∀ n ∈ d.nodes, d.isBare n = true → n.id ∉ ["subgraph", "end"])
  | .state => d.HasTrimmedLabels ∧ d.AvoidsSources ["direction", "note"]
    ∧ Grammar.State.StartEndComesBack d
  | .classes => d.HasTrimmedLabels ∧ d.AvoidsSources ["direction"]
    ∧ (∀ id ∈ d.nodeIds, '-' ∉ id.toList) ∧ d.HasPlainMembers
  | .er => (∀ n ∈ d.nodes, n.label = n.id ∧ n.id ≠ "direction"
      ∧ (Grammar.Class.membersOf n = [] → Grammar.Class.classRelation? n.id.toList = none))
    ∧ d.HasPlainMembers
  | .sequence | .gantt | .mindmap => False

instance (d : Diagram α) : Decidable d.HasTrimmedLabels :=
  inferInstanceAs (Decidable (∀ e ∈ d.edges, ∀ l ∈ e.label, trim l.toList = l.toList))

instance (words : List String) (d : Diagram α) : Decidable (d.AvoidsSources words) :=
  inferInstanceAs (Decidable (∀ e ∈ d.edges, e.source ∉ words))

instance (d : Diagram α) : Decidable d.HasPlainMembers :=
  inferInstanceAs (Decidable (∀ n ∈ d.nodes, ∀ m ∈ Grammar.Class.membersOf n,
    ∀ mark ∈ ["\x7d", "<<", "%%"], startsWith mark m.shown = false))

instance (d : Diagram α) : Decidable (Grammar.State.StartEndComesBack d) :=
  inferInstanceAs (Decidable (∀ n ∈ d.nodes, n.id = Grammar.State.startEndId →
    n.label = Grammar.State.startEndLabel
      ∧ d.edges.any Grammar.State.touchesStartEnd = true))

instance (compact : Bool) (d : Diagram α) : Decidable (d.IsRewritable compact) := by
  unfold IsRewritable
  split <;> infer_instance

/-! ## What is read from any text -/

/-- What a diagram is, by its kind, that was read from a text. -/
def IsRead (d : Diagram α) : Prop :=
  match d.kind with
  | .flowchart | .c4 => Grammar.Flowchart.IsPruned d
  | .state => Grammar.State.IsRead d
  | .classes => Grammar.Class.IsRead .classes d
  | .er => Grammar.Class.IsRead .er d
  | .sequence | .gantt | .mindmap => True

end Diagram

namespace Grammar

/-- A flowchart is one of either kind and in every direction. -/
theorem Flowchart.IsPruned.withHeader {d : Diagram α} (h : Flowchart.IsPruned d)
    (kind : DiagramKind) (direction : Direction) :
    Flowchart.IsPruned { d with kind := kind, direction := direction } :=
  ⟨⟨h.nodup_nodeIds, h.isId, h.isTidy, h.label, h.nodup_joined, h.group, h.children,
    h.nodup_children⟩, h.ends, h.two_children⟩

end Grammar

/-! ## The round trip -/

theorem Diagram.isRead_of_parse [Scalar α] {text : String} {d : Diagram α}
    (h : Diagram.parse text = .ok d) : d.IsRead := by
  cases isParsed_of_parse h with
  | blank =>
    exact ⟨⟨by simp [Diagram.nodeIds], by simp [Diagram.nodeIds], by simp, by simp,
      by simp [Diagram.joined], by simp, by simp, by simp⟩, by simp, by simp⟩
  | gantt => trivial
  | mindmap => trivial
  | sequence lines hlines =>
    rw [IsRead, (Grammar.Sequence.isRead_parse (α := α) hlines).kind_eq]
    trivial
  | classes kind hkind lines hlines =>
    have hread := Grammar.Class.isRead_parse (α := α) kind hlines
    rw [IsRead, hread.kind_eq]
    cases kind with
    | classes => exact hread
    | er => exact hread
    | _ => exact absurd hkind (by decide)
  | state lines hlines =>
    rw [IsRead, Grammar.State.kind_parse]
    exact Grammar.State.isRead_parse hlines
  | flowchart kind hkind direction hlines hparse =>
    have hpruned := (Grammar.Flowchart.isPruned_parse hlines hparse).withHeader kind direction
    rcases hkind with rfl | rfl <;> exact hpruned

/-- A member that comes back from its one-line form and looks like nothing else has a line. -/
theorem Grammar.Class.isMemberLine {kind : DiagramKind} {isMethod : Bool} {m : Member}
    (h : ComesBack kind isMethod m)
    (hm : ∀ mark ∈ ["\x7d", "<<", "%%"], startsWith mark m.shown = false) : IsMemberLine m where
  lineFeed_notMem := h.lineFeed_notMem
  isContent := by
    rw [h.trimmed]
    exact ⟨h.ne_nil, hm "%%" (by simp)⟩
  notBrace := by
    rw [h.trimmed]
    exact hm "\x7d" (by simp)
  notRemark := by
    rw [h.trimmed]
    exact hm "<<" (by simp)

theorem Grammar.Class.isWritable {kind : DiagramKind} {d : Diagram α} (h : IsRead kind d)
    (hm : d.HasPlainMembers) (hs : ∀ e ∈ d.edges, e.source ≠ "direction") : IsWritable kind d where
  toIsRead := h
  members n hn m hmem := by
    obtain ⟨s, hsec, hback⟩ := h.sections n hn
    have hmarks := hm n hn m hmem
    rw [membersOf, hsec, Option.getD_some] at hmem
    rcases List.mem_append.1 hmem with hmem | hmem
    · exact isMemberLine (hback.attributes m hmem) hmarks
    · exact isMemberLine (hback.methods m hmem) hmarks
  source_ne := hs

theorem Diagram.HasTrimmedLabels.isTidy {d : Diagram α} (ht : d.HasTrimmedLabels) {e : Edge α}
    (he : e ∈ d.edges) (hl : ∀ l ∈ e.label, l.toList ≠ [] ∧ '\n' ∉ l.toList) :
    ∀ l ∈ e.label, Grammar.IsTidy l.toList :=
  fun l hm => ⟨(hl l hm).1, ht e he l hm, (hl l hm).2⟩

section

variable [Scalar α] {compact : Bool} {d : Diagram α}

theorem Grammar.Flowchart.exists_parse_render (hthick : (Draft.thickWidth : α) ≤ Draft.thickWidth)
    (hk : d.kind = .flowchart ∨ d.kind = .c4) (hread : IsPruned d) (ht : d.HasTrimmedLabels)
    (hsource : d.AvoidsSources ["subgraph"])
    (hbare : compact = true → ∀ n ∈ d.nodes, d.isBare n = true → n.id ∉ ["subgraph", "end"]) :
    ∃ d', Diagram.parse (d.render compact) = .ok d' ∧ d.SameContent d'
      ∧ d'.render compact = d.render compact := by
  have hd : IsWritable compact d :=
    { toIsPruned := hread
      edge_isTidy := fun e he => ht.isTidy he (hread.label e he)
      source_ne := fun e he => by simpa using hsource e he
      bare_ne := fun hc n hn hp hg => by
        have hne := hbare hc n hn (by rw [Diagram.isBare, hp, hg]; rfl)
        simpa using hne }
  obtain ⟨d', hparse, hkind, hheader, hback⟩ := parse_render hk hd
  refine ⟨d', hparse, hback.sameContent hd, Diagram.render_congr hheader ?_⟩
  have hbody := hback.body hthick hd
  rw [Diagram.bodyLines, Diagram.bodyLines, hkind]
  rcases hk with hk | hk <;> rw [hk] <;> exact hbody

theorem Grammar.State.exists_parse_render (hk : d.kind = .state) (hread : IsRead d)
    (ht : d.HasTrimmedLabels) (hsource : d.AvoidsSources ["direction", "note"])
    (hback : StartEndComesBack d) :
    ∃ d', Diagram.parse (d.render compact) = .ok d' ∧ d.SameContent d'
      ∧ d'.render compact = d.render compact := by
  have hd : IsWritable d :=
    { nodup_nodeIds := hread.nodup_nodeIds
      isWord := hread.isWord
      lineFeed_notMem := hread.lineFeed_notMem
      ends := hread.ends
      source_ne := fun e he => by simpa using hsource e he
      isTidy := fun e he => ht.isTidy he (hread.label e he) }
  exact ⟨_, parse_render hk hd, sameContent_written hd hback, render_written hk⟩

theorem Grammar.Class.exists_parse_render_classes (hread : IsRead .classes d)
    (ht : d.HasTrimmedLabels) (hsource : d.AvoidsSources ["direction"])
    (hhyphen : ∀ id ∈ d.nodeIds, '-' ∉ id.toList) (hmembers : d.HasPlainMembers) :
    ∃ d', Diagram.parse (d.render compact) = .ok d' ∧ d.SameContent d'
      ∧ d'.render compact = d.render compact := by
  have hd : IsClassWritable d :=
    { toIsWritable := isWritable hread hmembers fun e he => by simpa using hsource e he
      isWord := fun id hid => (hread.isName id hid).isWord (hhyphen id hid)
      isTidy := fun e he => ht.isTidy he (hread.label e he) }
  exact ⟨_, parse_render_classes hd, sameContent_written _ _, render_written_classes hread.kind_eq⟩

theorem Grammar.Class.exists_parse_render_er (hread : IsRead .er d)
    (hnodes : ∀ n ∈ d.nodes, n.label = n.id ∧ n.id ≠ "direction"
      ∧ (membersOf n = [] → classRelation? n.id.toList = none))
    (hmembers : d.HasPlainMembers) :
    ∃ d', Diagram.parse (d.render compact) = .ok d' ∧ d.SameContent d'
      ∧ d'.render compact = d.render compact := by
  have hne : ∀ id ∈ d.nodeIds, id ≠ "direction" := by
    intro id hid
    obtain ⟨n, hn, rfl⟩ := List.mem_map.1 hid
    exact (hnodes n hn).2.1
  have hd : IsEntityWritable d :=
    { toIsWritable := isWritable hread hmembers fun e he => hne _ (hread.ends e he).1
      label_eq := fun n hn => (hnodes n hn).1
      node_ne := hne
      unrelated := fun n hn => (hnodes n hn).2.2 }
  exact ⟨_, parse_render_er hd, sameContent_written _ _, render_written_er hread.kind_eq⟩

/-- The text of a diagram that can be written again describes the same diagram, whose text it is. -/
theorem Diagram.parse_render
    (hthick : (Grammar.Flowchart.Draft.thickWidth : α) ≤ Grammar.Flowchart.Draft.thickWidth)
    (h : d.IsRead) (hw : d.IsRewritable compact) :
    ∃ d', Diagram.parse (d.render compact) = .ok d' ∧ d.SameContent d'
      ∧ d'.render compact = d.render compact := by
  unfold IsRead at h
  unfold IsRewritable at hw
  cases hk : d.kind with
  | flowchart =>
    rw [hk] at h hw
    obtain ⟨ht, hsource, hbare⟩ := hw
    exact Grammar.Flowchart.exists_parse_render hthick (.inl hk) h ht hsource hbare
  | c4 =>
    rw [hk] at h hw
    obtain ⟨ht, hsource, hbare⟩ := hw
    exact Grammar.Flowchart.exists_parse_render hthick (.inr hk) h ht hsource hbare
  | state =>
    rw [hk] at h hw
    obtain ⟨ht, hsource, hback⟩ := hw
    exact Grammar.State.exists_parse_render hk h ht hsource hback
  | classes =>
    rw [hk] at h hw
    obtain ⟨ht, hsource, hhyphen, hmembers⟩ := hw
    exact Grammar.Class.exists_parse_render_classes h ht hsource hhyphen hmembers
  | er =>
    rw [hk] at h hw
    obtain ⟨hnodes, hmembers⟩ := hw
    exact Grammar.Class.exists_parse_render_er h hnodes hmembers
  | sequence | gantt | mindmap =>
    rw [hk] at hw
    exact hw.elim

end

/-- A text is accepted, and its form is a text that is accepted, describes the same and is its own
form. -/
def RoundTrips (compact : Bool) (text : String) : Prop :=
  ∃ (d d' : Diagram Float) (s : String), Diagram.parse text = .ok d ∧ format compact text = .ok s
    ∧ Diagram.parse s = .ok d' ∧ d.SameContent d' ∧ format compact s = .ok s

/-- Whether a text is accepted with a diagram that can be written again. -/
def isRewritableText (compact : Bool) (text : String) : Bool :=
  match (Diagram.parse text : Except SyntaxError (Diagram Float)) with
  | .ok d => d.IsRewritable compact
  | .error _ => false

theorem exists_of_isRewritableText {compact : Bool} {text : String}
    (h : isRewritableText compact text = true) :
    ∃ d : Diagram Float, Diagram.parse text = .ok d ∧ d.IsRewritable compact := by
  unfold isRewritableText at h
  split at h
  · rename_i d hd
    exact ⟨d, hd, of_decide_eq_true h⟩
  · simp at h

/-- The form of a text whose diagram can be written again describes the same diagram and is its own
form. -/
theorem roundTrips_of_isRewritable {compact : Bool} {text : String} {d : Diagram Float}
    (h : Diagram.parse text = .ok d) (hw : d.IsRewritable compact) : RoundTrips compact text := by
  obtain ⟨d', hparse, hsame, hrender⟩ :=
    Diagram.parse_render (by decide) (Diagram.isRead_of_parse h) hw
  refine ⟨d, d', d.render compact, h, ?_, hparse, hsame, ?_⟩
  · rw [format, h]
    rfl
  · rw [format, hparse]
    exact congrArg Except.ok hrender

/-- A compact flowchart with a group, a link back and a label that needs quotes. -/
theorem roundTrips_login : isRewritableText true
      "graph LR\nsubgraph g [Web]\nA[Login]\nB\nend\nA -->|\"say #quot;hi#quot;\"| B\nB -.-> C\nC --> A"
      = true
    ∧ RoundTrips true
      "graph LR\nsubgraph g [Web]\nA[Login]\nB\nend\nA -->|\"say #quot;hi#quot;\"| B\nB -.-> C\nC --> A" := by
  have h : isRewritableText true
      "graph LR\nsubgraph g [Web]\nA[Login]\nB\nend\nA -->|\"say #quot;hi#quot;\"| B\nB -.-> C\nC --> A"
      = true := by decide +kernel
  obtain ⟨d, hd, hw⟩ := exists_of_isRewritableText h
  exact ⟨h, roundTrips_of_isRewritable hd hw⟩

/-! ## Texts that do not come back -/

/-- The form of the form of a text that comes back is its form. -/
theorem RoundTrips.again {compact : Bool} {text : String} (h : RoundTrips compact text) :
    ((format compact text).toOption.bind fun s => (format compact s).toOption)
      = (format compact text).toOption := by
  obtain ⟨-, -, s, -, hs, -, -, hagain⟩ := h
  rw [hs]
  simp [Except.toOption, hagain]

/-- What an accepted text says about its nodes and edges. -/
def said (text : String) : List (String × String) :=
  ((Diagram.parse text : Except SyntaxError (Diagram Float)).toOption.map fun d =>
    d.nodeLabels ++ d.joined).getD []

/-- The form of a text that comes back says all that the text says. -/
theorem RoundTrips.said_subset {compact : Bool} {text : String} (h : RoundTrips compact text) :
    said text ⊆ said ((format compact text).toOption.getD "") := by
  obtain ⟨d, d', s, hd, hs, hd', hsame, -⟩ := h
  have hform : (format compact text).toOption.getD "" = s := by rw [hs]; rfl
  rw [hform, said, said, hd, hd']
  intro p hp
  rcases List.mem_append.1 hp with hp | hp
  · exact List.mem_append_left _ ((hsame.nodeLabels p).1 hp)
  · exact List.mem_append_right _ ((hsame.joined p).1 hp)

/-- What keeps a text from coming back: blanks around a label in quotes; a keyword in front of a link
or, in compact form, alone on a line; a start and end that nothing touches; a class with a hyphen in
its name or a member that closes the braces; an entity with a label, with the name of a keyword or
with one that reads as a relation. -/
theorem not_roundTrips :
    ¬ RoundTrips false "graph TD\nA -- \" x \" --> B"
    ∧ ¬ RoundTrips false "graph TD\nsubgraph-->B"
    ∧ ¬ RoundTrips true "graph TD\nend[end]"
    ∧ ¬ RoundTrips false "stateDiagram-v2\nA --> B : \" x \""
    ∧ ¬ RoundTrips false "stateDiagram-v2\nnote-->B"
    ∧ ¬ RoundTrips false "stateDiagram-v2\nstate start_end"
    ∧ ¬ RoundTrips false "classDiagram\nA --> B : \" x \""
    ∧ ¬ RoundTrips false "classDiagram\ndirection-->B"
    ∧ ¬ RoundTrips false "classDiagram\nmy-class \x7b\n\x7d"
    ∧ ¬ RoundTrips false "classDiagram\nA : \x7dx"
    ∧ ¬ RoundTrips false "erDiagram\nclass A[\"L\"]"
    ∧ ¬ RoundTrips false "erDiagram\nB ||--|| direction : x\nC"
    ∧ ¬ RoundTrips false "erDiagram\na--b \x7b\n\x7d" := by
  refine ⟨fun h => absurd h.again ?_, fun h => absurd h.said_subset ?_,
    fun h => absurd h.said_subset ?_, fun h => absurd h.again ?_, fun h => absurd h.said_subset ?_,
    fun h => absurd h.said_subset ?_, fun h => absurd h.again ?_, fun h => absurd h.said_subset ?_,
    fun h => absurd h.said_subset ?_, fun h => absurd h.again ?_,
    fun h => absurd h.said_subset ?_, fun h => absurd h.again ?_, fun h => absurd h.said_subset ?_⟩ <;>
    decide +kernel

end DiagramBoard
