/-
DiagramBoard.Proofs.Grammar.ClassDraft — what every class or entity diagram is that was read from
lines.

Its nodes are named by hyphenated names and have sections of members that come back from their
one-line forms; its edges join its nodes.

Main statements: one more line keeps this (`IsRead.readLine`), so every diagram that is read has it
(`isRead_parse`).
-/
import DiagramBoard.Proofs.Grammar.Class

namespace DiagramBoard.Grammar.Class

open Text

variable {α : Type} {kind : DiagramKind}

/-! ## Members -/

/-- A member that is added to sections, as a method or as an attribute, from its one-line form. -/
structure ComesBack (kind : DiagramKind) (isMethod : Bool) (m : Member) : Prop where
  add : ∀ s, addToSections kind m.shown s =
    if isMethod then { s with methods := s.methods ++ [m] }
    else { s with attributes := s.attributes ++ [m] }
  trimmed : trim m.shown = m.shown
  ne_nil : m.shown ≠ []
  lineFeed_notMem : '\n' ∉ m.shown

/-- A member that is read from some text comes back, but for the attributes of entities. -/
theorem comesBack_of_parse? {text : List Char} {m : Member} {isMethod : Bool} (hk : kind ≠ .er)
    (ht : '\n' ∉ text) (hp : Member.parse? text = some (m, isMethod)) :
    ComesBack kind isMethod m where
  add s := by
    rw [addToSections, if_neg hk, Member.parse?_shown hp]
    cases isMethod <;> rfl
  trimmed := Member.trim_shown hp
  ne_nil := Member.shown_ne_nil hp
  lineFeed_notMem := Member.lineFeed_notMem_shown ht hp

/-- An attribute of an entity comes back if it is nothing but a tidy text. -/
theorem comesBack_plain {text : String} (h : IsTidy text.toList) :
    ComesBack .er false { text := text } := by
  have hshown : Member.shown { text := text } = text.toList := by simp [Member.shown]
  refine ⟨fun s => ?_, by rw [hshown, h.trimmed], by rw [hshown]; exact h.ne_nil,
    by rw [hshown]; exact h.lineFeed_notMem⟩
  rw [addToSections, if_pos rfl, hshown, h.trimmed]
  split
  · rename_i hnil
    exact absurd hnil h.ne_nil
  · simp

/-- Sections whose members come back. -/
structure SectionsComeBack (kind : DiagramKind) (s : Sections) : Prop where
  attributes : ∀ m ∈ s.attributes, ComesBack kind false m
  methods : ∀ m ∈ s.methods, ComesBack kind true m

theorem SectionsComeBack.empty : SectionsComeBack kind {} := ⟨by simp, by simp⟩

theorem foldl_attributes {ms : List Member} (h : ∀ m ∈ ms, ComesBack kind false m) (s : Sections) :
    addMembers kind ms s = { s with attributes := s.attributes ++ ms } := by
  induction ms generalizing s with
  | nil => simp [addMembers]
  | cons m ms ih =>
    have hm := h m List.mem_cons_self
    have := ih (fun x hx => h x (List.mem_cons_of_mem _ hx))
    simp only [addMembers] at this
    simp [addMembers, hm.trimmed, hm.add, this]

theorem foldl_methods {ms : List Member} (h : ∀ m ∈ ms, ComesBack kind true m) (s : Sections) :
    addMembers kind ms s = { s with methods := s.methods ++ ms } := by
  induction ms generalizing s with
  | nil => simp [addMembers]
  | cons m ms ih =>
    have hm := h m List.mem_cons_self
    have := ih (fun x hx => h x (List.mem_cons_of_mem _ hx))
    simp only [addMembers] at this
    simp [addMembers, hm.trimmed, hm.add, this]

/-- Sections whose members come back are made again of these members. -/
theorem addMembers_members {s : Sections} (h : SectionsComeBack kind s) :
    addMembers kind s.members {} = s := by
  have hsplit : addMembers kind s.members {}
      = addMembers kind s.methods (addMembers kind s.attributes {}) := by
    rw [addMembers, Sections.members, List.foldl_append]
    rfl
  rw [hsplit, foldl_attributes h.attributes, foldl_methods h.methods]
  simp

/-- Members that are added from a line without a line feed come back. -/
theorem sectionsComeBack_addToSections {text : List Char} (ht : '\n' ∉ text) {s : Sections}
    (h : SectionsComeBack kind s) : SectionsComeBack kind (addToSections kind text s) := by
  unfold addToSections
  split
  · rename_i hk
    split
    · exact h
    · rename_i htrim
      refine ⟨fun m hm => ?_, h.methods⟩
      rcases List.mem_append.1 hm with hm | hm
      · exact h.attributes m hm
      · obtain rfl := List.mem_singleton.1 hm
        rw [hk]
        refine comesBack_plain ?_
        rw [String.toList_ofList]
        exact ⟨htrim, trim_trim text, fun hm => ht (trim_subset text hm)⟩
  · rename_i hk
    split
    · exact h
    · rename_i m hp
      refine ⟨h.attributes, fun x hx => ?_⟩
      rcases List.mem_append.1 hx with hx | hx
      · exact h.methods x hx
      · obtain rfl := List.mem_singleton.1 hx
        exact comesBack_of_parse? hk ht hp
    · rename_i m hp
      refine ⟨fun x hx => ?_, h.methods⟩
      rcases List.mem_append.1 hx with hx | hx
      · exact h.attributes x hx
      · obtain rfl := List.mem_singleton.1 hx
        exact comesBack_of_parse? hk ht hp

/-! ## What a line says -/

/-- What a line says when it has no line feed. -/
def Item.IsOneLine : Item → Prop
  | .direction _ | .remark | .other => True
  | .declaration id label _ => IsName id ∧ ∀ l ∈ label, '\n' ∉ l.toList ∧ ']' ∉ l.toList
  | .relation l => IsName l.source ∧ IsName l.target
      ∧ ∀ label ∈ l.label, label.toList ≠ [] ∧ '\n' ∉ label.toList
  | .member owner text => IsName owner ∧ '\n' ∉ text

theorem isOneLine_of_classHeader? {s : List Char} {item : Item} (hs : '\n' ∉ s)
    (h : classHeader? s = some item) : item.IsOneLine := by
  obtain ⟨id, hid, h⟩ := Option.bind_eq_some_iff.1 h
  dsimp only at h
  split at h
  · obtain rfl := Option.some.inj h
    refine ⟨(isWord_of_word? hid).isName, fun l hl => ?_⟩
    obtain ⟨t, ht, rfl⟩ := Option.map_eq_some_iff.1 hl
    obtain ⟨r, hr⟩ := optionally_eq_some ht
    obtain ⟨u, hu, hcut⟩ := Option.bind_eq_some_iff.1 hr
    have hsub : stripQuotes (trim t) ⊆ t := fun c hc => trim_subset t (stripQuotes_subset _ hc)
    rw [String.toList_ofList]
    constructor
    · refine Entity.notMem_decode (by decide) fun hm => hs ?_
      have h1 := subset_of_after? hu ((subset_of_cutAt? hcut).1 (hsub hm))
      exact (subset_of_takeSome? hid).2 h1
    · exact Entity.notMem_decode (by decide) fun hm => notMem_of_cutAt? hcut (hsub hm)
  · simp at h

theorem isOneLine_of_entityBlock? {s : List Char} {item : Item}
    (h : entityBlock? s = some item) : item.IsOneLine := by
  obtain ⟨id, hid, h⟩ := Option.bind_eq_some_iff.1 h
  split at h
  · obtain rfl := Option.some.inj h
    exact ⟨isName_of_name? hid, by simp⟩
  · simp at h

theorem isOneLine_of_bareEntity? {s : List Char} {item : Item}
    (h : bareEntity? s = some item) : item.IsOneLine := by
  obtain ⟨id, hid, h⟩ := Option.bind_eq_some_iff.1 h
  split at h
  · obtain rfl := Option.some.inj h
    exact ⟨isName_of_name? hid, by simp⟩
  · simp at h

theorem multiplicity?_subset {s w r : List Char} (h : multiplicity? s = some (w, r)) : r ⊆ s := by
  obtain ⟨p, hp, heq⟩ := Option.map_eq_some_iff.1 h
  obtain ⟨-, rfl⟩ := Prod.mk.inj heq
  exact fun c hc => (subset_of_quoted? hp).2 (skipSpaces_subset _ hc)

theorem subset_of_cardinality? {brace : Char} {s r : List Char} {head : ArrowHead}
    (h : cardinality? brace s = some (head, r)) : r ⊆ s := by
  unfold cardinality? at h
  split at h
  · dsimp only at h
    split at h
    · obtain ⟨-, rfl⟩ := Prod.mk.inj (Option.some.inj h)
      exact fun c hc => by simp [hc]
    · simp at h
  · simp at h

theorem of_relationLabel? {s : List Char} {label : Option String} (hs : '\n' ∉ s)
    (h : relationLabel? s = some label) :
    ∀ l ∈ label, l.toList ≠ [] ∧ '\n' ∉ l.toList := by
  obtain ⟨x, hx, rfl⟩ := Option.map_eq_some_iff.1 h
  exact fun l hl => of_textAfterColon?_bind (fun hm => hs (skipSpaces_subset s hm)) hx hl

theorem isOneLine_of_classRelation? {s : List Char} {l : RelationLine} (hs : '\n' ∉ s)
    (h : classRelation? s = some l) : (Item.relation l).IsOneLine := by
  obtain ⟨source, hsource, h⟩ := Option.bind_eq_some_iff.1 h
  obtain ⟨relation, hrelation, h⟩ := Option.bind_eq_some_iff.1 h
  obtain ⟨target, htarget, h⟩ := Option.bind_eq_some_iff.1 h
  obtain ⟨label, hlabel, rfl⟩ := Option.map_eq_some_iff.1 h
  refine ⟨(isWord_of_word? hsource).isName, (isWord_of_word? htarget).isName, ?_⟩
  refine of_relationLabel? (fun hm => hs ?_) hlabel
  have h1 := optionally_subset multiplicity?_subset _ ((subset_of_takeSome? htarget).2 hm)
  have h2 := subset_of_token? hrelation (skipSpaces_subset _ h1)
  have h3 := optionally_subset multiplicity?_subset _ h2
  exact (subset_of_takeSome? hsource).2 (skipSpaces_subset _ h3)

theorem isOneLine_of_entityRelation? {s : List Char} {l : RelationLine} (hs : '\n' ∉ s)
    (h : entityRelation? s = some l) : (Item.relation l).IsOneLine := by
  obtain ⟨source, hsource, h⟩ := Option.bind_eq_some_iff.1 h
  obtain ⟨r1, h1, h⟩ := Option.bind_eq_some_iff.1 h
  obtain ⟨left, h2, h⟩ := Option.bind_eq_some_iff.1 h
  obtain ⟨line, h3, h⟩ := Option.bind_eq_some_iff.1 h
  obtain ⟨right, h4, h⟩ := Option.bind_eq_some_iff.1 h
  obtain ⟨r5, h5, h⟩ := Option.bind_eq_some_iff.1 h
  obtain ⟨target, htarget, h⟩ := Option.bind_eq_some_iff.1 h
  obtain ⟨label, hlabel, rfl⟩ := Option.map_eq_some_iff.1 h
  refine ⟨isName_of_name? hsource, isName_of_name? htarget, ?_⟩
  refine of_relationLabel? (fun hm => hs ?_) hlabel
  have m1 := subset_of_skipSomeSpaces? h5 ((subset_of_takeSome? htarget).2 hm)
  have m2 := subset_of_token? h3 (subset_of_cardinality? h4 m1)
  exact (subset_of_takeSome? hsource).2
    (subset_of_skipSomeSpaces? h1 (subset_of_cardinality? h2 m2))

theorem isOneLine_of_ownedMember? {s : List Char} {item : Item} (hs : '\n' ∉ s)
    (h : ownedMember? s = some item) : item.IsOneLine := by
  obtain ⟨owner, howner, h⟩ := Option.bind_eq_some_iff.1 h
  obtain ⟨r, hr, rfl⟩ := Option.map_eq_some_iff.1 h
  refine ⟨(isWord_of_word? howner).isName, fun hm => hs ?_⟩
  exact (subset_of_takeSome? howner).2
    (skipSpaces_subset _ (subset_of_after? hr (trim_subset r hm)))

/-- A keyword's line has what follows the keyword. -/
theorem subset_of_afterKeyword? {k : String} {s t : List Char} (h : afterKeyword? k s = some t) :
    t ⊆ s := by
  rcases afterKeyword?_eq_some h with ⟨rfl, rfl⟩ | ⟨c, r, -, rfl, rfl⟩
  · simp
  · exact fun x hx => List.mem_append_right _ ((List.dropWhile_sublist _).subset hx)

theorem isOneLine_read {s : List Char} (hs : '\n' ∉ s) : (Item.read s).IsOneLine := by
  unfold Item.read
  split
  · trivial
  · split
    · trivial
    · cases hr : ((((((afterKeyword? "class" s).bind classHeader?).or
        (entityBlock? s)).or ((classRelation? s).map .relation)).or
        ((entityRelation? s).map .relation)).or (ownedMember? s)).or (bareEntity? s) with
      | none => trivial
      | some item =>
        show item.IsOneLine
        rcases Option.or_eq_some_iff.1 hr with hr | ⟨-, hr⟩
        · rcases Option.or_eq_some_iff.1 hr with hr | ⟨-, hr⟩
          · rcases Option.or_eq_some_iff.1 hr with hr | ⟨-, hr⟩
            · rcases Option.or_eq_some_iff.1 hr with hr | ⟨-, hr⟩
              · rcases Option.or_eq_some_iff.1 hr with hr | ⟨-, hr⟩
                · obtain ⟨t, ht, hr⟩ := Option.bind_eq_some_iff.1 hr
                  exact isOneLine_of_classHeader? (fun hm => hs (subset_of_afterKeyword? ht hm)) hr
                · exact isOneLine_of_entityBlock? hr
              · obtain ⟨l, hl, rfl⟩ := Option.map_eq_some_iff.1 hr
                exact isOneLine_of_classRelation? hs hl
            · obtain ⟨l, hl, rfl⟩ := Option.map_eq_some_iff.1 hr
              exact isOneLine_of_entityRelation? hs hl
          · exact isOneLine_of_ownedMember? hs hr
        · exact isOneLine_of_bareEntity? hr

/-! ## What is read from any lines -/

/-- What a class or entity diagram is that was read from lines. -/
structure IsRead (kind : DiagramKind) (d : Diagram α) : Prop where
  kind_eq : d.kind = kind
  nodup_nodeIds : d.nodeIds.Nodup
  isName : ∀ id ∈ d.nodeIds, IsName id.toList
  label_chars : ∀ n ∈ d.nodes, '\n' ∉ n.label.toList ∧ ']' ∉ n.label.toList
  sections : ∀ n ∈ d.nodes, ∃ s, n.sections = some s ∧ SectionsComeBack kind s
  ends : ∀ e ∈ d.edges, e.source ∈ d.nodeIds ∧ e.target ∈ d.nodeIds
  label : ∀ e ∈ d.edges, ∀ l ∈ e.label, l.toList ≠ [] ∧ '\n' ∉ l.toList

theorem IsRead.ensureNode {d : Diagram α} (h : IsRead kind d) {id : String} (hid : IsName id.toList) :
    IsRead kind (d.ensureNode (classNode id)) where
  kind_eq := by rw [Diagram.kind_ensureNode, h.kind_eq]
  nodup_nodeIds := Diagram.nodup_nodeIds_ensureNode h.nodup_nodeIds _
  isName x hx := by
    rcases Diagram.mem_nodeIds_ensureNode.1 hx with hx | rfl
    · exact h.isName x hx
    · exact hid
  label_chars n hn := by
    rcases Diagram.mem_ensureNode hn with hn | rfl
    · exact h.label_chars n hn
    · exact ⟨hid.lineFeed_notMem, fun hm => absurd (hid.isNameChar _ hm) (by decide)⟩
  sections n hn := by
    rcases Diagram.mem_ensureNode hn with hn | rfl
    · exact h.sections n hn
    · exact ⟨{}, rfl, .empty⟩
  ends e he := by
    rw [Diagram.edges_ensureNode] at he
    exact ⟨Diagram.mem_nodeIds_ensureNode.2 (.inl (h.ends e he).1),
      Diagram.mem_nodeIds_ensureNode.2 (.inl (h.ends e he).2)⟩
  label e he := h.label e (Diagram.edges_ensureNode d _ ▸ he)

theorem IsRead.modifyNode {d : Diagram α} (h : IsRead kind d) (id : String) {f : Node α → Node α}
    (hid : ∀ n, (f n).id = n.id)
    (hlabel : ∀ n ∈ d.nodes, '\n' ∉ (f n).label.toList ∧ ']' ∉ (f n).label.toList)
    (hsections : ∀ n ∈ d.nodes, ∃ s, (f n).sections = some s ∧ SectionsComeBack kind s) :
    IsRead kind (d.modifyNode id f) where
  kind_eq := h.kind_eq
  nodup_nodeIds := by rw [Diagram.nodeIds_modifyNode d id hid]; exact h.nodup_nodeIds
  isName := by rw [Diagram.nodeIds_modifyNode d id hid]; exact h.isName
  label_chars n hn := by
    rcases Diagram.mem_modifyNode hn with hn | ⟨m, hm, -, rfl⟩
    · exact h.label_chars n hn
    · exact hlabel m hm
  sections n hn := by
    rcases Diagram.mem_modifyNode hn with hn | ⟨m, hm, -, rfl⟩
    · exact h.sections n hn
    · exact hsections m hm
  ends := by rw [Diagram.nodeIds_modifyNode d id hid]; exact h.ends
  label := h.label

theorem IsRead.addEdge {d : Diagram α} (h : IsRead kind d) {e : Edge α}
    (hs : e.source ∈ d.nodeIds) (ht : e.target ∈ d.nodeIds)
    (hl : ∀ l ∈ e.label, l.toList ≠ [] ∧ '\n' ∉ l.toList) : IsRead kind (d.addEdge e) where
  kind_eq := h.kind_eq
  nodup_nodeIds := h.nodup_nodeIds
  isName := h.isName
  label_chars := h.label_chars
  sections := h.sections
  ends x hx := by
    rcases List.mem_append.1 hx with hx | hx
    · exact h.ends x hx
    · obtain rfl := List.mem_singleton.1 hx
      exact ⟨hs, ht⟩
  label x hx := by
    rcases List.mem_append.1 hx with hx | hx
    · exact h.label x hx
    · obtain rfl := List.mem_singleton.1 hx
      exact hl

theorem IsRead.addMember {d : Diagram α} (h : IsRead kind d) {owner : String}
    (howner : IsName owner.toList) {text : List Char} (ht : '\n' ∉ text) :
    IsRead kind (addMember d owner text) := by
  have hd := h.ensureNode howner
  refine hd.modifyNode owner (fun _ => rfl) (fun n hn => hd.label_chars n hn) fun n hn => ?_
  obtain ⟨s, hs, hback⟩ := hd.sections n hn
  refine ⟨_, rfl, ?_⟩
  rw [hs, Option.getD_some, h.kind_eq]
  exact sectionsComeBack_addToSections ht hback

/-- What a draft is: its diagram was read from lines, and the class whose members are being read has
a name. -/
structure Draft.IsRead (kind : DiagramKind) (d : Draft α) : Prop where
  diagram : Class.IsRead kind d.diagram
  owner : ∀ o ∈ d.owner, IsName o.toList

theorem Draft.IsRead.apply {d : Draft α} (h : d.IsRead kind) {item : Item}
    (hi : item.IsOneLine) : (d.apply item).IsRead kind := by
  cases item with
  | direction direction =>
    cases direction with
    | none => exact h
    | some direction =>
      have hd := h.diagram
      exact ⟨⟨hd.kind_eq, hd.nodup_nodeIds, hd.isName, hd.label_chars, hd.sections, hd.ends,
        hd.label⟩, h.owner⟩
  | remark => exact h
  | other => exact h
  | declaration id label opensBlock =>
    have hid : IsName (String.ofList id).toList := by rw [String.toList_ofList]; exact hi.1
    have hd := h.diagram.ensureNode hid
    refine ⟨?_, ?_⟩
    · cases label with
      | none => exact hd
      | some l =>
        exact hd.modifyNode _ (fun _ => rfl) (fun _ _ => hi.2 l rfl) fun n hm => hd.sections n hm
    · intro o ho
      simp only [Draft.apply] at ho
      cases opensBlock with
      | false => simp at ho
      | true =>
        obtain rfl : String.ofList id = o := by simpa using ho
        exact hid
  | relation l =>
    have hs : IsName (String.ofList l.source).toList := by rw [String.toList_ofList]; exact hi.1
    have ht : IsName (String.ofList l.target).toList := by rw [String.toList_ofList]; exact hi.2.1
    refine ⟨((h.diagram.ensureNode hs).ensureNode ht).addEdge ?_ ?_ hi.2.2, h.owner⟩
    · exact Diagram.mem_nodeIds_ensureNode.2 (.inl (Diagram.mem_nodeIds_ensureNode.2 (.inr rfl)))
    · exact Diagram.mem_nodeIds_ensureNode.2 (.inr rfl)
  | member owner text =>
    have ho : IsName (String.ofList owner).toList := by rw [String.toList_ofList]; exact hi.1
    exact ⟨h.diagram.addMember ho hi.2, h.owner⟩

/-- One more line keeps what a draft is. -/
theorem Draft.IsRead.readLine {d : Draft α} (h : d.IsRead kind) {text : List Char}
    (ht : '\n' ∉ text) : (d.readLine text).IsRead kind := by
  unfold Draft.readLine
  split
  · rename_i owner howner
    split
    · exact ⟨h.diagram, by simp⟩
    · split
      · exact h
      · exact ⟨h.diagram.addMember (h.owner owner howner) ht, h.owner⟩
  · exact h.apply (isOneLine_read ht)

/-- Every class or entity diagram that is read has names for ids, members that come back and edges
between its nodes. -/
theorem isRead_parse (kind : DiagramKind) {lines : List Line} (ht : ∀ l ∈ lines, '\n' ∉ l.text) :
    IsRead kind (parse kind lines : Diagram α) := by
  refine (List.foldlRecOn (motive := Draft.IsRead kind) _ _ ⟨?_, by simp⟩ fun d hd l hl =>
    Draft.IsRead.readLine hd (ht l hl)).diagram
  exact ⟨rfl, by simp [Diagram.nodeIds], by simp [Diagram.nodeIds], by simp, by simp, by simp, by simp⟩

end DiagramBoard.Grammar.Class
