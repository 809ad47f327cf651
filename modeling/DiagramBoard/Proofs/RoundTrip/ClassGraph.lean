/-
DiagramBoard.Proofs.RoundTrip.ClassGraph — class and entity diagrams of any origin, written and read
again.

A diagram need not have been read from a text: its nodes may have been relabelled on a board.  The
text of a class diagram puts each label into brackets and quotes and escapes the quotes only, so a
closing bracket inside a label ends the label early, and the line is read as no class at all.  The
text of an entity diagram has no line for its direction.

Main statements: a class diagram is read from its text as it was, nodes and edges in their order, if
and only if no label has a closing bracket (`parse_render_classGraph`); an entity diagram is, if and
only if it runs downwards (`parse_render_entityGraph`).
-/
import DiagramBoard.Proofs.RoundTrip

namespace DiagramBoard.Grammar.Class

open Text

variable {α : Type} {d : Diagram α}

/-! ## Members -/

/-- A member that is read from its one-line form, as a method or as an attribute, where this form is
neither a closing brace nor a remark nor a comment. -/
structure IsPlainMember (isMethod : Bool) (m : Member) : Prop where
  parse? : Member.parse? m.shown = some (m, isMethod)
  lineFeed_notMem : '\n' ∉ m.shown
  marks : ∀ mark ∈ ["\x7d", "<<", "%%"], startsWith mark m.shown = false

theorem IsPlainMember.comesBack {isMethod : Bool} {m : Member} (h : IsPlainMember isMethod m) :
    ComesBack .classes isMethod m :=
  comesBack_of_parse? (by decide) h.lineFeed_notMem h.parse?

/-! ## Classes -/

/-- A class diagram whose names, members and relations its text can say.  Its labels are any texts on
one line. -/
structure IsClassGraph (d : Diagram α) : Prop where
  kind_eq : d.kind = .classes
  nodup_nodeIds : d.nodeIds.Nodup
  isWord : ∀ id ∈ d.nodeIds, IsWord id.toList
  lineFeed_notMem : ∀ n ∈ d.nodes, '\n' ∉ n.label.toList
  sections : ∀ n ∈ d.nodes, ∃ s, n.sections = some s
    ∧ (∀ m ∈ s.attributes, IsPlainMember false m) ∧ ∀ m ∈ s.methods, IsPlainMember true m
  ends : ∀ e ∈ d.edges, e.source ∈ d.nodeIds ∧ e.target ∈ d.nodeIds
  source_ne : ∀ e ∈ d.edges, e.source ≠ "direction"
  relation : ∀ e ∈ d.edges, ⟨e.startHead, e.endHead, e.isDashed⟩ ∈ relationTokens.map (·.2)
  isTidy : ∀ e ∈ d.edges, ∀ l ∈ e.label, IsTidy l.toList

theorem IsClassGraph.members (h : IsClassGraph d) :
    ∀ n ∈ d.nodes, ∀ m ∈ membersOf n, IsMemberLine m := by
  intro n hn m hm
  obtain ⟨s, hs, hattributes, hmethods⟩ := h.sections n hn
  rw [membersOf, hs, Option.getD_some] at hm
  rcases List.mem_append.1 hm with hm | hm
  · exact isMemberLine (hattributes m hm).comesBack (hattributes m hm).marks
  · exact isMemberLine (hmethods m hm).comesBack (hmethods m hm).marks

/-- Without closing brackets in its labels, a class diagram comes back from its text. -/
theorem IsClassGraph.isClassWritable (h : IsClassGraph d)
    (hl : ∀ n ∈ d.nodes, ']' ∉ n.label.toList) : IsClassWritable d where
  kind_eq := h.kind_eq
  nodup_nodeIds := h.nodup_nodeIds
  isName id hid := (h.isWord id hid).isName
  label_chars n hn := ⟨h.lineFeed_notMem n hn, hl n hn⟩
  sections n hn := by
    obtain ⟨s, hs, hattributes, hmethods⟩ := h.sections n hn
    exact ⟨s, hs, fun m hm => (hattributes m hm).comesBack, fun m hm => (hmethods m hm).comesBack⟩
  ends := h.ends
  label e he l hl := ⟨(h.isTidy e he l hl).ne_nil, (h.isTidy e he l hl).lineFeed_notMem⟩
  members := h.members
  source_ne := h.source_ne
  isWord := h.isWord
  isTidy := h.isTidy

/-- Each of the relations that have a token comes back as it was. -/
theorem writtenRelation_eq_self {startHead endHead : ArrowHead} {dashed : Bool}
    (h : ⟨startHead, endHead, dashed⟩ ∈ relationTokens.map (·.2)) :
    writtenRelation startHead endHead dashed = ⟨startHead, endHead, dashed⟩ := by
  have hall : ∀ r ∈ relationTokens.map (·.2),
      writtenRelation r.startHead r.endHead r.dashed = r := by decide
  exact hall _ h

/-- What comes back of a diagram has its nodes and, if its relations come back, its edges. -/
theorem sameInOrder_written {kind : DiagramKind} {direction : Direction}
    {relation : Edge α → Relation} (hk : d.kind = kind) (hdir : d.direction = direction)
    (hrel : ∀ e ∈ d.edges, relation e = ⟨e.startHead, e.endHead, e.isDashed⟩) :
    d.SameInOrder (written kind direction relation d) where
  kind := hk
  direction := hdir
  entries := by
    rw [written, List.map_map]
    rfl
  statements := by
    refine (map_relationEdges relation d.edges (fun e he i => ?_) 0).symm
    have hdashed := isDashed_relationEdge (α := α) i
      ⟨e.source.toList, e.target.toList, relation e, e.label⟩
    rw [Edge.statement, hdashed, relationEdge, hrel e he]
    simp [Edge.statement]

/-- No label that was read from lines has a closing bracket, so none comes back. -/
theorem bracket_notMem_of_entries {d' : Diagram α} (hread : IsRead .classes d')
    (h : d.nodes.map Node.entry = d'.nodes.map Node.entry) :
    ∀ n ∈ d.nodes, ']' ∉ n.label.toList := by
  intro n hn
  have hentry : n.entry ∈ d'.nodes.map Node.entry := h ▸ List.mem_map_of_mem hn
  obtain ⟨n', hn', heq⟩ := List.mem_map.1 hentry
  have hlabel : n'.label = n.label := congrArg (fun p => p.2.1) heq
  rw [← hlabel]
  exact (hread.label_chars n' hn').2

/-- The text of a class diagram is read as a class diagram, and it is the same diagram if and only if
no label has a closing bracket. -/
theorem parse_render_classGraph [Scalar α] (h : IsClassGraph d) (compact : Bool) :
    ∃ d', Diagram.parse (d.render compact) = .ok d' ∧ d'.kind = .classes
      ∧ (d.SameInOrder d' ↔ ∀ n ∈ d.nodes, ']' ∉ n.label.toList) := by
  have hbody : d.bodyLines compact = Writer.Class.body d := by rw [Diagram.bodyLines, h.kind_eq]
  have hcontent : ∀ l ∈ d.bodyLines compact, '\n' ∉ l ∧ IsContent (trim l) := by
    rw [hbody]
    exact content_classBody h.isWord h.lineFeed_notMem h.members h.ends h.isTidy
  obtain ⟨ls, htext, hparse⟩ := exists_parse_render compact (.inl rfl) h.kind_eq hcontent
  have hlf : ∀ l ∈ ls, '\n' ∉ l.text := by
    intro l hl
    have hl' : l.text ∈ (d.bodyLines compact).map trim := htext ▸ List.mem_map_of_mem hl
    obtain ⟨t, ht, heq⟩ := List.mem_map.1 hl'
    rw [← heq]
    exact fun hm => (hcontent t ht).1 (trim_subset t hm)
  have hread : IsRead .classes (Class.parse .classes ls : Diagram α) := isRead_parse .classes hlf
  refine ⟨Class.parse .classes ls, hparse, hread.kind_eq, ?_, ?_⟩
  · intro hsame
    exact bracket_notMem_of_entries hread hsame.entries
  · intro hl
    have hwritten : (Diagram.parse (d.render compact) : Except SyntaxError (Diagram α))
        = .ok (written .classes d.direction classRelation d) :=
      parse_render_classes (h.isClassWritable hl)
    rw [hparse] at hwritten
    rw [Except.ok.inj hwritten]
    exact sameInOrder_written h.kind_eq rfl fun e he => writtenRelation_eq_self (h.relation e he)

/-- A class named by a keyword, a label full of tokens, an empty label, members with marks and
relations of several kinds. -/
def collections : Diagram Float where
  kind := .classes
  direction := .right
  nodes :=
    [{ id := "class", label := "List<\"T\"> #35; --|>"
       sections := some {
        attributes := [{ text := "size: int", visibility := some .ownClass, isStatic := true }]
        methods := [{ text := "get(i)", visibility := some .everyone, isAbstract := true }] } },
      { id := "o", label := "", sections := some {} }]
  edges :=
    [{ id := "1", source := "o", target := "class", label := some "is: a", endHead := .triangle },
      { id := "2", source := "class", target := "o", startHead := .arrow, endHead := .arrow },
      { id := "3", source := "class", target := "class", endHead := .none
        style := some (.stroke .dashed) }]

theorem isClassGraph_collections : IsClassGraph collections where
  kind_eq := rfl
  nodup_nodeIds := by decide
  isWord := by decide +kernel
  lineFeed_notMem := by decide +kernel
  sections := by
    have hmember : ∀ n ∈ collections.nodes, ∀ s ∈ n.sections,
        ∀ p ∈ [(false, s.attributes), (true, s.methods)], ∀ m ∈ p.2,
          Member.parse? m.shown = some (m, p.1) ∧ '\n' ∉ m.shown
          ∧ ∀ mark ∈ ["\x7d", "<<", "%%"], startsWith mark m.shown = false := by decide +kernel
    have hsome : ∀ n ∈ collections.nodes, n.sections.isSome = true := by decide
    intro n hn
    obtain ⟨s, hs⟩ := Option.isSome_iff_exists.1 (hsome n hn)
    have hm := hmember n hn s hs
    refine ⟨s, hs, fun m hm' => ?_, fun m hm' => ?_⟩
    · obtain ⟨h1, h2, h3⟩ := hm (false, s.attributes) (by simp) m hm'
      exact ⟨h1, h2, h3⟩
    · obtain ⟨h1, h2, h3⟩ := hm (true, s.methods) (by simp) m hm'
      exact ⟨h1, h2, h3⟩
  ends := by decide
  source_ne := by decide
  relation := by decide
  isTidy := by decide +kernel

theorem parse_render_collections : ∃ d', Diagram.parse (collections.render true) = .ok d'
    ∧ collections.SameInOrder d' := by
  obtain ⟨d', hparse, -, hiff⟩ := parse_render_classGraph isClassGraph_collections true
  exact ⟨d', hparse, hiff.2 (by decide +kernel)⟩

/-- A class called by the type of an array. -/
def arrayClass : Diagram Float where
  kind := .classes
  nodes := [{ id := "A", label := "int[]", sections := some {} }]

theorem isClassGraph_arrayClass : IsClassGraph arrayClass where
  kind_eq := rfl
  nodup_nodeIds := by decide
  isWord := by decide +kernel
  lineFeed_notMem := by decide
  sections := by simp [arrayClass]
  ends := by simp [arrayClass]
  source_ne := by simp [arrayClass]
  relation := by simp [arrayClass]
  isTidy := by simp [arrayClass]

/-- The text of a class with a closing bracket in its label describes another diagram. -/
theorem not_sameInOrder_arrayClass : ∃ d', Diagram.parse (arrayClass.render false) = .ok d'
    ∧ ¬ arrayClass.SameInOrder d' := by
  obtain ⟨d', hparse, -, hiff⟩ := parse_render_classGraph isClassGraph_arrayClass false
  refine ⟨d', hparse, fun hsame => ?_⟩
  exact absurd (hiff.1 hsame) (by decide)

/-! ## Entities -/

/-- The heads that cardinalities express. -/
def cardinalityHeads : List ArrowHead := [.bar, .dot, .triangle, .triangleOutline]

/-- An attribute of an entity: a text that is neither a closing brace nor a remark nor a comment. -/
structure IsPlainAttribute (m : Member) : Prop where
  eq_text : m = { text := m.text }
  isTidy : IsTidy m.text.toList
  marks : ∀ mark ∈ ["\x7d", "<<", "%%"], startsWith mark m.text.toList = false

/-- An entity diagram of which its text can say all but the direction. -/
structure IsEntityGraph (d : Diagram α) : Prop where
  kind_eq : d.kind = .er
  nodup_nodeIds : d.nodeIds.Nodup
  isName : ∀ id ∈ d.nodeIds, IsName id.toList ∧ ¬ ['-', '-'] <:+: id.toList ∧ id ≠ "direction"
  label_eq : ∀ n ∈ d.nodes, n.label = n.id
  sections : ∀ n ∈ d.nodes, ∃ ms, n.sections = some { attributes := ms }
    ∧ ∀ m ∈ ms, IsPlainAttribute m
  ends : ∀ e ∈ d.edges, e.source ∈ d.nodeIds ∧ e.target ∈ d.nodeIds
  heads : ∀ e ∈ d.edges, e.startHead ∈ cardinalityHeads ∧ e.endHead ∈ cardinalityHeads
  label : ∀ e ∈ d.edges, ∀ l ∈ e.label, l.toList ≠ [] ∧ '\n' ∉ l.toList

/-- The token of a relation between classes has two hyphens in a row or a dot. -/
theorem hyphens_or_dot_of_token : ∀ k ∈ relationTokens.map (·.1),
    ['-', '-'] <:+: k.toList ∨ '.' ∈ k.toList := by
  decide

/-- A name without two hyphens in a row is no relation between classes. -/
theorem classRelation?_name {w : List Char} (hw : IsName w) (hh : ¬ ['-', '-'] <:+: w) :
    classRelation? w = none := by
  unfold classRelation?
  cases hword : word? w with
  | none => rfl
  | some p =>
    obtain ⟨source, r⟩ := p
    have hsuffix : skipSpaces r <:+ w :=
      (List.dropWhile_suffix _).trans ⟨source, (append_of_takeSome? hword).symm⟩
    have hquote : optionally multiplicity? (skipSpaces r) = (none, skipSpaces r) := by
      refine optionally_of_none ?_
      rw [multiplicity?, quoted?_eq_none, Option.map_none]
      intro c hc
      have hmem := hsuffix.subset (List.mem_of_mem_head? hc)
      exact isNameChar_ne (hw.isNameChar c hmem) (by decide)
    have htoken : token? relationTokens (skipSpaces r) = none := by
      cases ht : token? relationTokens (skipSpaces r) with
      | none => rfl
      | some q =>
        obtain ⟨k, hk, hkt⟩ := List.exists_of_findSome?_eq_some ht
        obtain ⟨t, ha, -⟩ := Option.map_eq_some_iff.1 hkt
        rw [after?_eq_some] at ha
        have hpart : k.1.toList <:+: w :=
          List.IsInfix.trans ⟨[], t, by rw [ha]; rfl⟩ hsuffix.isInfix
        rcases hyphens_or_dot_of_token k.1 (List.mem_map_of_mem hk) with h | h
        · exact absurd (h.trans hpart) hh
        · have hdot := hw.isNameChar '.' (hpart.subset h)
          exact absurd rfl (isNameChar_ne hdot (by decide))
    rw [Option.bind_some, hquote, htoken]
    rfl

theorem IsPlainAttribute.comesBack {m : Member} (h : IsPlainAttribute m) :
    ComesBack .er false m := by
  rw [h.eq_text]
  exact comesBack_plain h.isTidy

theorem IsPlainAttribute.isMemberLine {m : Member} (h : IsPlainAttribute m) : IsMemberLine m := by
  have hshown : m.shown = m.text.toList := by
    rw [h.eq_text]
    simp [Member.shown]
  refine Class.isMemberLine h.comesBack ?_
  rw [hshown]
  exact h.marks

/-- An entity diagram comes back from its text, but for its direction. -/
theorem IsEntityGraph.isEntityWritable (h : IsEntityGraph d) : IsEntityWritable d where
  kind_eq := h.kind_eq
  nodup_nodeIds := h.nodup_nodeIds
  isName id hid := (h.isName id hid).1
  label_chars n hn := by
    have hid := (h.isName n.id (Diagram.mem_nodeIds hn)).1
    rw [h.label_eq n hn]
    exact ⟨hid.lineFeed_notMem,
      fun hm => absurd rfl (isNameChar_ne (hid.isNameChar _ hm) (by decide))⟩
  sections n hn := by
    obtain ⟨ms, hs, hms⟩ := h.sections n hn
    exact ⟨_, hs, fun m hm => (hms m hm).comesBack, by simp⟩
  ends := h.ends
  label := h.label
  members n hn m hm := by
    obtain ⟨ms, hs, hms⟩ := h.sections n hn
    rw [membersOf, hs, Option.getD_some] at hm
    exact (hms m (by simpa [Sections.members] using hm)).isMemberLine
  source_ne e he := (h.isName _ (h.ends e he).1).2.2
  label_eq := h.label_eq
  node_ne id hid := (h.isName id hid).2.2
  unrelated n hn _ :=
    let hid := h.isName n.id (Diagram.mem_nodeIds hn)
    classRelation?_name hid.1 hid.2.1

/-- Each head that a cardinality expresses comes back as it was. -/
theorem writtenCardinality_eq_self {head : ArrowHead} (h : head ∈ cardinalityHeads) :
    writtenCardinality head = head := by
  revert h
  cases head <;> decide

/-- The text of an entity diagram is read as the diagram that runs downwards, so it is the same
diagram if and only if it runs downwards. -/
theorem parse_render_entityGraph [Scalar α] (h : IsEntityGraph d) (compact : Bool) :
    ∃ d', Diagram.parse (d.render compact) = .ok d'
      ∧ ({ d with direction := .down } : Diagram α).SameInOrder d'
      ∧ (d.SameInOrder d' ↔ d.direction = .down) := by
  have hrel : ∀ e ∈ d.edges, entityRelation e = ⟨e.startHead, e.endHead, e.isDashed⟩ := by
    intro e he
    rw [entityRelation, writtenCardinality_eq_self (h.heads e he).1,
      writtenCardinality_eq_self (h.heads e he).2]
  refine ⟨written .er .down entityRelation d, parse_render_er h.isEntityWritable, ?_, ?_, ?_⟩
  · exact sameInOrder_written (d := { d with direction := .down }) h.kind_eq rfl hrel
  · intro hsame
    exact hsame.direction
  · intro hdir
    exact sameInOrder_written h.kind_eq hdir hrel

/-- Two entities from left to right, one named by a keyword, with attributes that look like members
of classes and a label that needs its quotes. -/
def orders : Diagram Float where
  kind := .er
  direction := .right
  nodes :=
    [{ id := "ORDER-LINE", label := "ORDER-LINE"
       sections := some { attributes := [{ text := "string(8) sku PK" }, { text := "-int qty$" }] } },
      { id := "class", label := "class", sections := some {} }]
  edges :=
    [{ id := "1", source := "class", target := "ORDER-LINE", label := some " \"of\" "
       startHead := .bar, endHead := .triangleOutline },
      { id := "2", source := "ORDER-LINE", target := "ORDER-LINE", startHead := .dot
        endHead := .triangle, style := some (.stroke .dashed) }]

theorem isEntityGraph_orders : IsEntityGraph orders where
  kind_eq := rfl
  nodup_nodeIds := by decide
  isName := by decide +kernel
  label_eq := by decide
  sections := by
    have hmember : ∀ n ∈ orders.nodes, ∀ s ∈ n.sections, s = { attributes := s.attributes }
        ∧ ∀ m ∈ s.attributes, m = { text := m.text } ∧ IsTidy m.text.toList
          ∧ ∀ mark ∈ ["\x7d", "<<", "%%"], startsWith mark m.text.toList = false := by
      decide +kernel
    have hsome : ∀ n ∈ orders.nodes, n.sections.isSome = true := by decide
    intro n hn
    obtain ⟨s, hs⟩ := Option.isSome_iff_exists.1 (hsome n hn)
    obtain ⟨heq, hm⟩ := hmember n hn s hs
    refine ⟨s.attributes, heq ▸ hs, fun m hm' => ?_⟩
    obtain ⟨h1, h2, h3⟩ := hm m hm'
    exact ⟨h1, h2, h3⟩
  ends := by decide
  heads := by decide
  label := by decide +kernel

/-- Entities from left to right come back as the same entities, one below the other. -/
theorem not_sameInOrder_orders : ∃ d', Diagram.parse (orders.render false) = .ok d'
    ∧ ({ orders with direction := .down } : Diagram Float).SameInOrder d'
    ∧ ¬ orders.SameInOrder d' := by
  obtain ⟨d', hparse, hdown, hiff⟩ := parse_render_entityGraph isEntityGraph_orders false
  refine ⟨d', hparse, hdown, fun hsame => ?_⟩
  exact absurd (hiff.1 hsame) (by decide)

end DiagramBoard.Grammar.Class
