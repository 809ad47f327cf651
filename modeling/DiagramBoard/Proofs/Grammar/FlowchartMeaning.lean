/-
DiagramBoard.Proofs.Grammar.FlowchartMeaning — a flowchart is what its lines mean.

Its nodes are what the events on the lines declare, and its edges are what the first connections of
two nodes mean.  A draft keeps a stack of open subgraphs and changes nodes in place; one more event
leaves a draft that holds what the events mean (`IsMeant.after`), and pruning takes the groups with
fewer than two nodes away (`IsMeant.prunedNode`).

Main statement: a flowchart whose lines are all read has the nodes and edges that they mean
(`parse_eq_meaning`).
-/
import DiagramBoard.Board.Container
import DiagramBoard.Proofs.Grammar.FlowchartEvents
import DiagramBoard.Proofs.Grammar.FlowchartMentions

namespace DiagramBoard.Grammar.Flowchart

variable {α : Type}

/-- The node that events declare for an id. -/
def declaredNode (es : List Event) (id : String) : Node α :=
  { id := id
    label := declaredLabel es id
    shape := declaredShape es id
    group := declaredGroup es id }

/-! ## What lines mean -/

/-- The nodes that lines mean. -/
def meantNodes (items : List Item) : List (Node α) :=
  let es := items.flatMap Item.events
  (mentionedIds es).map (declaredNode es)

/-- Whether two connections join the same nodes in the same direction. -/
def Connection.isParallel (c d : Connection) : Bool := (c.source, c.target) == (d.source, d.target)

/-- The edges that lines mean: of all connections, the first from a node to another. -/
def meantEdges [Scalar α] (items : List Item) : List (Edge α) :=
  ((items.flatMap Item.connections).eraseDupsBy Connection.isParallel).map Connection.edge

/-! ## What a draft holds -/

/-- The subgraph of a place, with the nodes that are first mentioned in it. -/
def subgraph (es : List Event) (k : Nat) : Group :=
  { id := (subgraphAt es k).1
    label := (subgraphAt es k).2
    children := members es k }

/-- The node that a draft has for an id, in its subgraph however few nodes that has. -/
def draftedNode (es : List Event) (id : String) : Node α :=
  { id := id
    label := declaredLabel es id
    shape := declaredShape es id
    group := (home? es id).map fun k => (subgraphAt es k).1 }

/-- The places where subgraphs open. -/
def openings (es : List Event) : List Nat :=
  (List.range es.length).filter fun k => es[k]?.any Event.isOpening

theorem mem_openings {es : List Event} {k : Nat} :
    k ∈ openings es ↔ k < es.length ∧ es[k]?.any Event.isOpening = true := by
  simp [openings]

theorem openings_concat (es : List Event) (e : Event) :
    openings (es ++ [e]) = openings es ++ if e.isOpening then [es.length] else [] := by
  have hfilter : (List.range es.length).filter (fun k => (es ++ [e])[k]?.any Event.isOpening)
      = openings es :=
    List.filter_congr fun k hk => by rw [List.getElem?_append_left (List.mem_range.1 hk)]
  rw [openings, List.length_append, List.length_singleton, List.range_succ, List.filter_append,
    hfilter, List.filter_singleton]
  simp

theorem length_openings (es : List Event) : (openings es).length = es.countP Event.isOpening := by
  induction es using List.reverseRecOn with
  | nil => rfl
  | append_singleton es e ih =>
    rw [openings_concat, List.length_append, ih, List.countP_append, List.countP_singleton]
    cases e.isOpening <;> rfl

theorem openings_of_not (es : List Event) {e : Event} (he : e.isOpening = false) :
    openings (es ++ [e]) = openings es := by
  rw [openings_concat, he]
  exact List.append_nil _

theorem mem_openings_of_mem_openPlaces {es : List Event} {k : Nat} (h : k ∈ openPlaces es) :
    k ∈ openings es := by
  obtain ⟨hk, hopen⟩ := mem_openPlaces.1 h
  exact mem_openings.2 ⟨hk, (Bool.and_eq_true_iff.1 hopen).1⟩

theorem mem_openings_of_innermost? {es : List Event} {k : Nat} (h : innermost? es = some k) :
    k ∈ openings es :=
  mem_openings_of_mem_openPlaces (List.mem_of_head? h)

theorem mem_openings_append {es : List Event} {k : Nat} (h : k ∈ openings es) (fs : List Event) :
    k ∈ openings (es ++ fs) := by
  obtain ⟨hk, hopen⟩ := mem_openings.1 h
  refine mem_openings.2 ⟨?_, by rwa [List.getElem?_append_left hk]⟩
  rw [List.length_append]
  omega

/-- The subgraph of a node is one that opens. -/
theorem mem_openings_of_home? {es : List Event} {id : String} {k : Nat}
    (h : home? es id = some k) : k ∈ openings es := by
  obtain ⟨fs, hfs⟩ := List.takeWhile_prefix (l := es) fun e : Event => !e.isMentionOf id
  exact hfs ▸ mem_openings_append (mem_openings_of_innermost? h) fs

/-- Further events leave the ids of the subgraphs alone. -/
theorem map_subgraphAt_append {es : List Event} {place : Option Nat}
    (h : ∀ k, place = some k → k ∈ openings es) (fs : List Event) :
    place.map (fun k => (subgraphAt (es ++ fs) k).1) = place.map fun k => (subgraphAt es k).1 :=
  Option.map_congr fun k hk => by rw [subgraphAt_append (mem_openings.1 (h k hk)).1]

/-- What a draft is that holds what events mean. -/
structure IsMeant (es : List Event) (d : Draft α) : Prop where
  nodes : d.nodes = (mentionedIds es).map (draftedNode es)
  opened : d.opened = (openPlaces es).map (subgraph es)
  closed : ∃ ks, d.closed = ks.map (subgraph es) ∧ (ks ++ openPlaces es).Perm (openings es)

/-- A draft after one more event. -/
def Draft.after (d : Draft α) : Event → Draft α
  | .opening title => d.openGroup title
  | .closing => d.closeGroup
  | .mention m => d.mention m

/-! ## One more event: subgraphs and nodes -/

/-- A subgraph stays what it is when no new node is mentioned. -/
theorem subgraph_of_known {es : List Event} {e : Event} (he : MentionsKnown es e) {k : Nat}
    (hk : k < es.length) :
    subgraph (es ++ [e]) k = subgraph es k := by
  rw [subgraph, subgraphAt_append hk, members_of_known he, subgraph]

/-- The innermost subgraph gets a node that is new, and no other does. -/
theorem subgraph_of_new {es : List Event} {m : NodeMention} (hm : m.id ∉ mentionedIds es) {k : Nat}
    (hk : k < es.length) :
    subgraph (es ++ [.mention m]) k = if innermost? es = some k
      then { subgraph es k with children := (subgraph es k).children ++ [m.id] }
      else subgraph es k := by
  rw [subgraph, subgraphAt_append hk, members_of_new hm]
  split <;> simp [subgraph]

/-- A subgraph that opens has no nodes yet. -/
theorem subgraph_opening (es : List Event) (title : List Char) :
    subgraph (es ++ [.opening title]) es.length
      = { id := (subgraphTitle title (es.countP Event.isOpening)).1
          label := (subgraphTitle title (es.countP Event.isOpening)).2 } := by
  have hempty : members es es.length = [] := by
    rw [members, List.filter_eq_nil_iff]
    intro id _ hhome
    exact Nat.lt_irrefl _ (mem_openings.1 (mem_openings_of_home? (of_decide_eq_true hhome))).1
  rw [subgraph, members_of_known (mentionsKnown_of_none rfl), hempty]
  simp [subgraphAt, Event.title?]

/-- A node that an event does not mention stays what it is. -/
theorem draftedNode_of_other {es : List Event} {e : Event} {id : String}
    (hid : id ∈ mentionedIds es) (he : e.isMentionOf id = false) :
    (draftedNode (es ++ [e]) id : Node α) = draftedNode es id := by
  have hnone : e.mention?.filter (·.id = id) = none := by
    cases hm : e.mention? with
    | none => rfl
    | some m =>
      have hne : m.id ≠ id := by simpa [Event.isMentionOf, hm] using he
      simp [Option.filter, hne]
  have hlast : ∀ {β : Type} (part : NodeMention → Option β),
      lastDeclared part (es ++ [e]) id = lastDeclared part es id := fun part => by
    rw [lastDeclared_concat, hnone]
    rfl
  rw [draftedNode, declaredLabel, hlast, declaredShape, hlast, home?_append hid,
    map_subgraphAt_append fun _ => mem_openings_of_home?]
  rfl

theorem lastDeclared_mention {β : Type} (part : NodeMention → Option β) (es : List Event)
    (m : NodeMention) :
    lastDeclared part (es ++ [.mention m]) m.id = (part m).or (lastDeclared part es m.id) := by
  rw [lastDeclared_concat]
  simp [Event.mention?, Option.filter]

/-- A label or shape that does not count, in another way. -/
theorem getD_filter_ne {β : Type} [DecidableEq β] (o : Option β) (x : β) :
    (o.filter (· ≠ x)).getD x = o.getD x := by
  cases o with
  | none => rfl
  | some y => by_cases hy : y = x <;> simp [Option.filter, hy]

theorem refine_eq (m : NodeMention) (n : Node α) :
    Draft.refine m n = { n with
      label := (m.label.filter (· ≠ m.id)).getD n.label
      shape := (m.shape.filter (· ≠ .rectangle)).getD n.shape } := by
  unfold Draft.refine
  congr 1
  · cases m.label with
    | none => rfl
    | some l => by_cases hl : l = m.id <;> simp [Option.filter, hl]
  · cases m.shape with
    | none => rfl
    | some s => cases s <;> rfl

/-- Another mention refines a node. -/
theorem draftedNode_of_known {es : List Event} {m : NodeMention} (hm : m.id ∈ mentionedIds es) :
    (draftedNode (es ++ [.mention m]) m.id : Node α) = Draft.refine m (draftedNode es m.id) := by
  rw [draftedNode, declaredLabel, lastDeclared_mention, declaredShape, lastDeclared_mention,
    home?_append hm, map_subgraphAt_append fun _ => mem_openings_of_home?, refine_eq,
    Option.getD_or, Option.getD_or]
  rfl

/-- The first mention of a node makes it. -/
theorem draftedNode_of_new {es : List Event} {m : NodeMention} (hm : m.id ∉ mentionedIds es) :
    (draftedNode (es ++ [.mention m]) m.id : Node α)
      = Draft.firstMention m ((innermost? es).map fun k => (subgraphAt es k).1) := by
  rw [draftedNode, declaredLabel, lastDeclared_mention, lastDeclared_of_new _ hm, declaredShape,
    lastDeclared_mention, lastDeclared_of_new _ hm, home?_of_new hm,
    map_subgraphAt_append fun _ => mem_openings_of_innermost?, Option.or_none, Option.or_none,
    getD_filter_ne, getD_filter_ne, Draft.firstMention]

/-- Refining the node of one id among different ones. -/
theorem refineFirst_map (m : NodeMention) {ids : List String} (h : ids.Nodup)
    {f : String → Node α} (hf : ∀ id, (f id).id = id) :
    Draft.refineFirst m (ids.map f)
      = ids.map fun id => if id = m.id then Draft.refine m (f id) else f id := by
  induction ids with
  | nil => rfl
  | cons id ids ih =>
    obtain ⟨hid, hids⟩ := List.nodup_cons.1 h
    rw [List.map_cons, Draft.refineFirst, List.map_cons, hf]
    split
    · next heq =>
      congr 1
      refine List.map_congr_left fun other hother => ?_
      rw [if_neg]
      rintro rfl
      exact hid (heq ▸ hother)
    · rw [ih hids]

theorem IsMeant.any_id {es : List Event} {d : Draft α} (h : IsMeant es d) (id : String) :
    d.nodes.any (·.id = id) = true ↔ id ∈ mentionedIds es := by
  rw [List.any_eq_true, h.nodes]
  simp [draftedNode]

theorem map_subgraph_of_known {es : List Event} {e : Event} (he : MentionsKnown es e)
    {ks : List Nat} (hks : ∀ k ∈ ks, k ∈ openings es) :
    ks.map (subgraph (es ++ [e])) = ks.map (subgraph es) :=
  List.map_congr_left fun k hk => subgraph_of_known he (mem_openings.1 (hks k hk)).1

/-- Subgraphs other than the innermost get no node. -/
theorem map_subgraph_of_new {es : List Event} {m : NodeMention} (hm : m.id ∉ mentionedIds es)
    {ks : List Nat} (hks : ∀ k ∈ ks, k ∈ openings es) (hother : ∀ k ∈ ks, innermost? es ≠ some k) :
    ks.map (subgraph (es ++ [.mention m])) = ks.map (subgraph es) :=
  List.map_congr_left fun k hk => by
    rw [subgraph_of_new hm (mem_openings.1 (hks k hk)).1, if_neg (hother k hk)]

theorem map_draftedNode_of_known {es : List Event} {e : Event} (he : e.mention? = none) :
    ((mentionedIds (es ++ [e])).map (draftedNode (es ++ [e])) : List (Node α))
      = (mentionedIds es).map (draftedNode es) := by
  rw [mentionedIds_of_known (mentionsKnown_of_none he)]
  exact List.map_congr_left fun id hid =>
    draftedNode_of_other hid (by simp [Event.isMentionOf, he])

/-! ## One more event: drafts -/

section Step

variable {es : List Event} {d : Draft α}

/-- A draft has as many subgraphs as were opened. -/
theorem IsMeant.length_groups (h : IsMeant es d) :
    d.closed.length + d.opened.length = es.countP Event.isOpening := by
  obtain ⟨ks, hks, hperm⟩ := h.closed
  rw [hks, h.opened, List.length_map, List.length_map, ← List.length_append, hperm.length_eq,
    length_openings]

theorem IsMeant.opening (h : IsMeant es d) (title : List Char) :
    IsMeant (es ++ [.opening title]) (d.after (.opening title)) := by
  have hknown : MentionsKnown es (.opening title) := mentionsKnown_of_none rfl
  have hplaces : openPlaces (es ++ [.opening title]) = es.length :: openPlaces es :=
    openPlaces_of_ne (by simp)
  obtain ⟨ks, hks, hperm⟩ := h.closed
  have hmem : ∀ k ∈ ks, k ∈ openings es := fun k hk =>
    hperm.subset (List.mem_append_left _ hk)
  refine ⟨h.nodes.trans (map_draftedNode_of_known rfl).symm, ?_, ks, ?_, ?_⟩
  · rw [hplaces, List.map_cons, subgraph_opening,
      map_subgraph_of_known hknown fun k hk => mem_openings_of_mem_openPlaces hk, ← h.opened,
      ← h.length_groups]
    rfl
  · rw [map_subgraph_of_known hknown hmem]
    exact hks
  · rw [hplaces, openings_concat]
    show (ks ++ es.length :: openPlaces es).Perm (openings es ++ [es.length])
    exact List.perm_middle.trans
      ((List.Perm.cons _ hperm).trans (List.perm_append_singleton _ _).symm)

theorem IsMeant.closing (h : IsMeant es d) : IsMeant (es ++ [.closing]) (d.after .closing) := by
  have hknown : MentionsKnown es .closing := mentionsKnown_of_none rfl
  obtain ⟨ks, hks, hperm⟩ := h.closed
  have hmem : ∀ k ∈ ks ++ openPlaces es, k ∈ openings es := fun k hk => hperm.subset hk
  have hopenings := openings_of_not es (e := .closing) rfl
  have hnodes : d.nodes = (mentionedIds (es ++ [.closing])).map (draftedNode (es ++ [.closing])) :=
    h.nodes.trans (map_draftedNode_of_known rfl).symm
  have hopened := h.opened
  show IsMeant _ d.closeGroup
  unfold Draft.closeGroup
  cases hplaces : openPlaces es with
  | nil =>
    rw [hplaces] at hopened hperm hmem
    rw [hopened]
    refine ⟨hnodes, ?_, ks, ?_, ?_⟩
    · rw [openPlaces_closing, hplaces]
      exact hopened
    · rw [map_subgraph_of_known hknown fun k hk => hmem k (List.mem_append_left _ hk)]
      exact hks
    · rw [openPlaces_closing, hplaces, hopenings]
      exact hperm
  | cons j js =>
    rw [hplaces, List.map_cons] at hopened
    rw [hplaces] at hperm hmem
    rw [hopened]
    have hmem' : ∀ k ∈ ks ++ [j], k ∈ openings es := fun k hk =>
      hmem k (List.mem_append.2 ((List.mem_append.1 hk).imp_right fun hk =>
        List.mem_cons.2 (.inl (List.mem_singleton.1 hk))))
    refine ⟨hnodes, ?_, ks ++ [j], ?_, ?_⟩
    · rw [openPlaces_closing, hplaces, List.tail_cons, map_subgraph_of_known hknown fun k hk =>
        hmem k (by simp [hk])]
    · rw [map_subgraph_of_known hknown hmem', List.map_append, ← hks]
      rfl
    · rw [openPlaces_closing, hplaces, List.tail_cons, hopenings, List.append_assoc]
      exact hperm

theorem IsMeant.mention_known (h : IsMeant es d) {m : NodeMention} (hm : m.id ∈ mentionedIds es) :
    IsMeant (es ++ [.mention m]) (d.after (.mention m)) := by
  have hknown := mentionsKnown_mention hm
  have hplaces : openPlaces (es ++ [.mention m]) = openPlaces es := openPlaces_of_ne (by simp)
  have hopenings := openings_of_not es (e := .mention m) rfl
  obtain ⟨ks, hks, hperm⟩ := h.closed
  have hmention : d.after (.mention m) = { d with nodes := Draft.refineFirst m d.nodes } :=
    Draft.mention_of_known ((h.any_id m.id).2 hm)
  rw [hmention]
  refine ⟨?_, ?_, ks, ?_, ?_⟩
  · show Draft.refineFirst m d.nodes = _
    rw [h.nodes, refineFirst_map m (nodup_mentionedIds es) fun _ => rfl, mentionedIds_of_known hknown]
    refine List.map_congr_left fun id hid => ?_
    split
    · next heq => rw [heq, draftedNode_of_known hm]
    · next hne =>
      rw [draftedNode_of_other hid (by simpa [Event.isMentionOf, Event.mention?] using Ne.symm hne)]
  · rw [hplaces, map_subgraph_of_known hknown fun k hk => mem_openings_of_mem_openPlaces hk]
    exact h.opened
  · rw [map_subgraph_of_known hknown fun k hk => hperm.subset (List.mem_append_left _ hk)]
    exact hks
  · rw [hplaces, hopenings]
    exact hperm

theorem IsMeant.mention_new (h : IsMeant es d) {m : NodeMention} (hm : m.id ∉ mentionedIds es) :
    IsMeant (es ++ [.mention m]) (d.after (.mention m)) := by
  have hplaces : openPlaces (es ++ [.mention m]) = openPlaces es := openPlaces_of_ne (by simp)
  have hopenings := openings_of_not es (e := .mention m) rfl
  obtain ⟨ks, hks, hperm⟩ := h.closed
  have hnodup : (ks ++ openPlaces es).Nodup := hperm.nodup_iff.2 (List.nodup_range.filter _)
  have hnodes : d.nodes ++ [Draft.firstMention m ((innermost? es).map fun k => (subgraphAt es k).1)]
      = (mentionedIds (es ++ [.mention m])).map (draftedNode (es ++ [.mention m])) := by
    rw [mentionedIds_of_new hm, List.map_append, List.map_singleton, draftedNode_of_new hm, h.nodes]
    congr 1
    refine List.map_congr_left fun id hid => (draftedNode_of_other hid ?_).symm
    have hne : m.id ≠ id := fun heq => hm (heq ▸ hid)
    simpa [Event.isMentionOf, Event.mention?] using hne
  -- the subgraph that gets the node is open, so the closed ones stay as they are
  have hclosed : d.closed = ks.map (subgraph (es ++ [.mention m])) := by
    rw [hks]
    refine (map_subgraph_of_new hm (fun k hk => hperm.subset (List.mem_append_left _ hk))
      fun k hk hinner => ?_).symm
    exact (List.nodup_append.1 hnodup).2.2 k hk k (List.mem_of_head? hinner) rfl
  have hperm' : (ks ++ openPlaces (es ++ [.mention m])).Perm (openings (es ++ [.mention m])) := by
    rwa [hplaces, hopenings]
  have hnew : d.nodes.any (·.id = m.id) = false :=
    Bool.eq_false_iff.2 fun hany => hm ((h.any_id m.id).1 hany)
  have hopened := h.opened
  show IsMeant _ (d.mention m)
  cases hcases : openPlaces es with
  | nil =>
    rw [hcases] at hopened
    rw [Draft.mention_of_nil hnew hopened]
    rw [innermost?, hcases] at hnodes
    refine ⟨hnodes, ?_, ks, hclosed, hperm'⟩
    rw [hplaces, hcases]
    exact hopened
  | cons j js =>
    have hinner : innermost? es = some j := by rw [innermost?, hcases, List.head?_cons]
    have hmem : ∀ k ∈ j :: js, k ∈ openings es := fun k hk =>
      mem_openings_of_mem_openPlaces (hcases ▸ hk)
    have hbelow : ∀ k ∈ js, j > k :=
      (List.pairwise_cons.1 (hcases ▸ pairwise_openPlaces es)).1
    rw [hcases, List.map_cons] at hopened
    rw [Draft.mention_of_cons hnew hopened]
    rw [hinner] at hnodes
    refine ⟨hnodes, ?_, ks, hclosed, hperm'⟩
    rw [hplaces, hcases, List.map_cons,
      subgraph_of_new hm (mem_openings.1 (hmem j List.mem_cons_self)).1, if_pos hinner,
      map_subgraph_of_new hm (fun k hk => hmem k (List.mem_cons_of_mem _ hk)) fun k hk heq => ?_]
    obtain rfl := Option.some.inj (hinner.symm.trans heq)
    exact Nat.lt_irrefl j (hbelow j hk)

/-- One more event keeps what a draft means. -/
theorem IsMeant.after (h : IsMeant es d) (e : Event) : IsMeant (es ++ [e]) (d.after e) := by
  cases e with
  | opening title => exact h.opening title
  | closing => exact h.closing
  | mention m =>
    by_cases hm : m.id ∈ mentionedIds es
    · exact h.mention_known hm
    · exact h.mention_new hm

end Step

/-- A draft holds what the events mean that made it. -/
theorem isMeant_foldl (es : List Event) : IsMeant es (es.foldl Draft.after ({} : Draft α)) := by
  induction es using List.reverseRecOn with
  | nil => exact ⟨rfl, rfl, [], rfl, List.Perm.refl _⟩
  | append_singleton es e ih =>
    rw [List.foldl_append]
    exact ih.after e

/-! ## Pruning -/

/-- The subgraphs that stay are those with two nodes. -/
theorem IsMeant.mem_prunedGroups_iff {es : List Event} {d : Draft α} (h : IsMeant es d) {g : Group} :
    g ∈ d.diagram.prunedGroups
      ↔ ∃ k ∈ openings es, 2 ≤ (members es k).length ∧ g = subgraph es k := by
  obtain ⟨ks, hks, hperm⟩ := h.closed
  have hgroups : d.diagram.groups = (ks ++ openPlaces es).map (subgraph es) := by
    rw [List.map_append, ← hks, ← h.opened]
    rfl
  -- all members are nodes, so no subgraph loses one
  have hchildren : ∀ k, (members es k).filter (fun id => d.diagram.hasNode id) = members es k :=
    fun k => List.filter_eq_self.2 fun id hid => (h.any_id id).2 (List.mem_filter.1 hid).1
  have hsame : d.diagram.groups.map (fun g =>
      { g with children := g.children.filter fun id => d.diagram.hasNode id })
      = (ks ++ openPlaces es).map (subgraph es) := by
    rw [hgroups, List.map_map]
    refine List.map_congr_left fun k _ => ?_
    show Group.mk _ _ ((members es k).filter _) = _
    rw [hchildren, subgraph]
  rw [Diagram.prunedGroups, hsame, List.mem_filter, List.mem_map]
  constructor
  · rintro ⟨⟨k, hk, rfl⟩, hlen⟩
    exact ⟨k, hperm.subset hk, of_decide_eq_true hlen, rfl⟩
  · rintro ⟨k, hk, hlen, rfl⟩
    exact ⟨⟨k, hperm.symm.subset hk, rfl⟩, decide_eq_true hlen⟩

/-- Pruning leaves a node in its subgraph if that has another node. -/
theorem IsMeant.prunedNode {es : List Event} {d : Draft α} (h : IsMeant es d) {id : String}
    (hid : id ∈ mentionedIds es) :
    Diagram.prunedNode d.diagram.prunedGroups (draftedNode es id : Node α) = declaredNode es id := by
  have hany : (d.diagram.prunedGroups.any fun g => g.children.contains id) = true
      ↔ ∃ k, home? es id = some k ∧ 2 ≤ (members es k).length := by
    rw [List.any_eq_true]
    constructor
    · rintro ⟨g, hg, hmem⟩
      obtain ⟨k, -, hlen, rfl⟩ := h.mem_prunedGroups_iff.1 hg
      have hmem : id ∈ members es k := by simpa [subgraph] using hmem
      exact ⟨k, of_decide_eq_true (List.mem_filter.1 hmem).2, hlen⟩
    · rintro ⟨k, hhome, hlen⟩
      refine ⟨subgraph es k, h.mem_prunedGroups_iff.2
        ⟨k, mem_openings_of_home? hhome, hlen, rfl⟩, ?_⟩
      have hmem : id ∈ members es k := List.mem_filter.2 ⟨hid, by simpa using hhome⟩
      simpa [subgraph] using hmem
  rw [Diagram.prunedNode]
  split
  · next hstays =>
    obtain ⟨k, hhome, hlen⟩ := hany.1 hstays
    simp [draftedNode, declaredNode, declaredGroup, hhome, Option.filter, hlen]
  · next hgoes =>
    have hnone : declaredGroup es id = none := by
      cases hhome : home? es id with
      | none => simp [declaredGroup, hhome]
      | some k =>
        have hlen : ¬ 2 ≤ (members es k).length := fun hlen => hgoes (hany.2 ⟨k, hhome, hlen⟩)
        simp [declaredGroup, hhome, Option.filter, hlen]
    rw [declaredNode, hnone]
    rfl

theorem mem_mentionedIds_of_mem_mentions {items : List Item} {i : Item} (hi : i ∈ items)
    {m : NodeMention} (hm : m ∈ i.mentions) :
    m.id ∈ mentionedIds (items.flatMap Item.events) := by
  refine mem_mentionedIds.2 ⟨.mention m, List.mem_flatMap.2 ⟨i, hi, ?_⟩, ?_⟩
  · cases i with
    | statement stmt => exact List.mem_map_of_mem hm
    | _ => simp [Item.mentions] at hm
  · simp [Event.isMentionOf, Event.mention?]

/-! ## Edges -/

/-- An edge more, unless there is one between its nodes. -/
def addFirst (edges : List (Edge α)) (e : Edge α) : List (Edge α) :=
  if edges.any (·.joins e.source e.target) then edges else edges ++ [e]

/-- Adding edges one by one adds the first ones between nodes that are not joined yet. -/
theorem foldl_addFirst (es fs : List (Edge α)) :
    es.foldl addFirst fs
      = fs ++ (es.filter fun e => !fs.any (·.joins e.source e.target)).eraseDupsBy
          fun e f => (e.source, e.target) == (f.source, f.target) := by
  induction es generalizing fs with
  | nil => simp
  | cons e es ih =>
    rw [List.foldl_cons, ih, addFirst, List.filter_cons]
    cases hany : fs.any (·.joins e.source e.target) with
    | true => simp
    | false =>
      simp only [Bool.false_eq_true, if_false, Bool.not_false, if_true, List.eraseDupsBy_cons,
        List.filter_filter, List.append_assoc, List.singleton_append]
      congr 3
      refine List.filter_congr fun x _ => ?_
      have hpair : ((x.source, x.target) == (e.source, e.target))
          = e.joins x.source x.target := by
        rw [Bool.eq_iff_iff, beq_iff_eq, Edge.joins_iff, Prod.mk.injEq]
        exact and_congr eq_comm eq_comm
      rw [List.any_append, Bool.not_or, Bool.and_comm, hpair]
      simp

/-! ## Lines -/

/-- A draft with other edges reads events alike. -/
theorem Draft.after_edges (d : Draft α) (edges : List (Edge α)) (e : Event) :
    Draft.after { d with edges := edges } e = { d.after e with edges := edges } := by
  cases e with
  | opening title => rfl
  | closing =>
    show Draft.closeGroup _ = { d.closeGroup with edges := edges }
    cases hopened : d.opened <;> simp [Draft.closeGroup, hopened]
  | mention m =>
    show Draft.mention _ m = { d.mention m with edges := edges }
    unfold Draft.mention
    split
    · rfl
    · cases d.opened <;> rfl

theorem Draft.foldl_after_edges (d : Draft α) (edges : List (Edge α)) (es : List Event) :
    es.foldl Draft.after { d with edges := edges }
      = { es.foldl Draft.after d with edges := edges } := by
  induction es generalizing d with
  | nil => rfl
  | cons e es ih => rw [List.foldl_cons, Draft.after_edges, ih, List.foldl_cons]

variable [Scalar α]

/-- Links add edges and nothing else. -/
theorem Draft.connectChain_eq (first : List NodeMention) (next : List (Link × List NodeMention))
    (d : Draft α) :
    d.connectChain first next = { d with edges := (d.connectChain first next).edges } := by
  refine connectChain_induction (P := fun x => x = { d with edges := x.edges }) ?_ first rfl
  intro p _ x source target hx
  rw [hx, connect]
  split <;> rfl

/-- But for edges, a line is read event by event. -/
theorem Draft.readItem_eq (d : Draft α) (i : Item) :
    d.readItem i = { i.events.foldl Draft.after d with edges := (d.readItem i).edges } := by
  cases i with
  | closing =>
    show d.closeGroup = { d.closeGroup with edges := d.closeGroup.edges }
    rfl
  | statement stmt =>
    show Draft.connectChain _ stmt.first stmt.next = _
    rw [Draft.connectChain_eq, Item.events, List.foldl_map]
    rfl
  | _ => rfl

theorem Draft.foldl_readItem_eq (d : Draft α) (items : List Item) :
    items.foldl Draft.readItem d
      = { (items.flatMap Item.events).foldl Draft.after d with
          edges := (items.foldl Draft.readItem d).edges } := by
  induction items generalizing d with
  | nil => rfl
  | cons i items ih =>
    rw [List.foldl_cons, ih, List.flatMap_cons, List.foldl_append, Draft.readItem_eq,
      Draft.foldl_after_edges]

/-- A draft holds what the events of its lines mean. -/
theorem isMeant_foldl_readItem (items : List Item) :
    IsMeant (items.flatMap Item.events) (items.foldl Draft.readItem ({} : Draft α)) := by
  have h : IsMeant (items.flatMap Item.events) _ := isMeant_foldl (α := α) _
  rw [Draft.foldl_readItem_eq]
  exact ⟨h.nodes, h.opened, h.closed⟩

theorem edges_foldl_connect (link : Link) (ps : List (String × String)) (d : Draft α) :
    (ps.foldl (fun d p => Draft.connect link d p.1 p.2) d).edges
      = (ps.map fun p => Draft.linkEdge link p.1 p.2).foldl addFirst d.edges := by
  induction ps generalizing d with
  | nil => rfl
  | cons p ps ih =>
    rw [List.foldl_cons, ih, List.map_cons, List.foldl_cons]
    congr 1
    exact apply_ite Draft.edges _ _ _

theorem edges_connectChain (first : List NodeMention) (next : List (Link × List NodeMention))
    (d : Draft α) :
    (d.connectChain first next).edges
      = ((connections first next).map Connection.edge).foldl addFirst d.edges := by
  induction next generalizing d first with
  | nil => rfl
  | cons p next ih =>
    rw [Draft.connectChain, ih, edges_foldl_connect, map_edge_connections_cons, List.foldl_append]

theorem edges_readItem (d : Draft α) (i : Item) :
    (d.readItem i).edges = i.links.foldl addFirst d.edges := by
  cases i with
  | closing =>
    show d.closeGroup.edges = d.edges
    exact congrArg (·.edges) d.diagram_closeGroup
  | statement stmt =>
    show (Draft.connectChain _ stmt.first stmt.next).edges = _
    rw [edges_connectChain, edges_foldl_mention]
    rfl
  | _ => rfl

theorem edges_foldl_readItem (items : List Item) (d : Draft α) :
    (items.foldl Draft.readItem d).edges = (items.flatMap Item.links).foldl addFirst d.edges := by
  induction items generalizing d with
  | nil => rfl
  | cons i items ih =>
    rw [List.foldl_cons, ih, edges_readItem, List.flatMap_cons, List.foldl_append]

theorem edges_meant (items : List Item) :
    (items.foldl Draft.readItem ({} : Draft α)).edges = meantEdges items := by
  have hlinks : (items.flatMap Item.links : List (Edge α))
      = (items.flatMap Item.connections).map Connection.edge := List.map_flatMap.symm
  rw [edges_foldl_readItem, foldl_addFirst, hlinks]
  simp only [List.any_nil, Bool.not_false, List.filter_true, List.nil_append]
  exact eraseDupsBy_map Connection.edge (fun e => (e.source, e.target)) _

/-- A chain connects nodes that it mentions. -/
theorem ends_of_mem_connections {first : List NodeMention} {next : List (Link × List NodeMention)}
    {c : Connection} (hc : c ∈ connections first next) :
    (∃ s ∈ first ++ next.flatMap (·.2), c.source = s.id)
      ∧ ∃ t ∈ first ++ next.flatMap (·.2), c.target = t.id := by
  obtain ⟨⟨sources, link, targets⟩, hlink, hc⟩ := List.mem_flatMap.1 hc
  obtain ⟨s, hs, hc⟩ := List.mem_flatMap.1 hc
  obtain ⟨t, ht, rfl⟩ := List.mem_map.1 hc
  obtain ⟨hsources, hnext⟩ := List.of_mem_zip hlink
  constructor
  · refine ⟨s, ?_, rfl⟩
    rcases List.mem_cons.1 hsources with rfl | hsources
    · exact List.mem_append_left _ hs
    · obtain ⟨p, hp, rfl⟩ := List.mem_map.1 hsources
      exact List.mem_append_right _ (List.mem_flatMap.2 ⟨p, hp, hs⟩)
  · exact ⟨t, List.mem_append_right _ (List.mem_flatMap.2 ⟨_, hnext, ht⟩), rfl⟩

/-- All edges that lines mean join nodes that they mention. -/
theorem ends_of_mem_flatMap_connections {items : List Item} {c : Connection}
    (hc : c ∈ items.flatMap Item.connections) :
    c.source ∈ mentionedIds (items.flatMap Item.events)
      ∧ c.target ∈ mentionedIds (items.flatMap Item.events) := by
  obtain ⟨i, hi, hc⟩ := List.mem_flatMap.1 hc
  cases i with
  | statement stmt =>
    obtain ⟨⟨s, hs, hsource⟩, t, ht, htarget⟩ := ends_of_mem_connections hc
    rw [hsource, htarget]
    exact ⟨mem_mentionedIds_of_mem_mentions hi hs, mem_mentionedIds_of_mem_mentions hi ht⟩
  | _ => simp [Item.connections] at hc

/-! ## What flowcharts mean -/

/-- The draft of lines, pruned, has the nodes that they mean. -/
theorem nodes_finish (items : List Item) :
    (items.foldl Draft.readItem ({} : Draft α)).finish.nodes = meantNodes items := by
  have h := isMeant_foldl_readItem (α := α) items
  show (Draft.nodes _).map (Diagram.prunedNode (Draft.diagram _).prunedGroups) = _
  rw [h.nodes, List.map_map]
  exact List.map_congr_left fun id hid => h.prunedNode hid

/-- The draft of lines, pruned, has the edges that they mean. -/
theorem edges_finish (items : List Item) :
    (items.foldl Draft.readItem ({} : Draft α)).finish.edges = meantEdges items := by
  have h := isMeant_foldl_readItem (α := α) items
  show (Draft.edges _).filter _ = _
  rw [edges_meant, List.filter_eq_self]
  intro e he
  obtain ⟨c, hc, rfl⟩ := List.mem_map.1 he
  obtain ⟨hsource, htarget⟩ := ends_of_mem_flatMap_connections (Board.mem_of_mem_eraseDupsBy _ hc)
  exact Bool.and_eq_true_iff.2 ⟨(h.any_id _).2 hsource, (h.any_id _).2 htarget⟩

/-- A flowchart whose lines are all read has the nodes and the edges that they mean. -/
theorem parse_eq_meaning (lenient : Bool) {ls : List Line}
    (h : ∀ l ∈ ls, (Item.read l.text).isRead = true) :
    ∃ d : Diagram α, parse lenient ls = .ok d
      ∧ d.nodes = meantNodes (ls.map fun l => Item.read l.text)
      ∧ d.edges = meantEdges (ls.map fun l => Item.read l.text) := by
  refine ⟨_, ?_, nodes_finish _, edges_finish _⟩
  rw [parse, Draft.readLines_of_isRead lenient _ h]
  rfl

/-- Subgraphs that are nested, of the same id, with one node, closed too often and left open, links of
all looks, and nodes and edges that come back. -/
def tangledLines : List Line :=
  ["b --> c", "subgraph one [First]", "a[Alpha] & b --> c & a", "subgraph one", "d{Choice}", "end",
    "e -.-> a -->|again| b", "end", "end", "a((Round)) == x ==> f", "subgraph", "g & h --- g[g]",
    "style a fill:#fff", "f <-.-> b <==>|late| c"].zipIdx.map fun p => ⟨p.2 + 2, p.1.toList⟩

/-- The second subgraph of the id `one` has one node, which stays without a group.  The thick link from
`b` to `c` in the last line comes too late. -/
theorem parse_tangledLines :
    (∀ l ∈ tangledLines, (Item.read l.text).isRead = true)
      ∧ ∃ d : Diagram Rat, parse false tangledLines = .ok d
        ∧ d.nodes.map (fun n => (n.id, n.label, n.shape, n.group))
          = [("b", "b", .rectangle, none), ("c", "c", .rectangle, none),
            ("a", "Round", .circle, some "one"), ("d", "Choice", .diamond, none),
            ("e", "e", .rectangle, some "one"), ("f", "f", .rectangle, none),
            ("g", "g", .rectangle, some "subgraph_2"), ("h", "h", .rectangle, some "subgraph_2")]
        ∧ d.edges.map (fun e => (e.source, e.target, e.label))
          = [("b", "c", none), ("a", "c", none), ("a", "a", none), ("b", "a", none),
            ("e", "a", none), ("a", "b", some "again"), ("a", "f", some "x"), ("g", "g", none),
            ("h", "g", none), ("f", "b", none)]
        ∧ d.edges.map (fun e => (e.startHead, e.endHead,
            e.style.map fun s => (s.strokeStyle, s.strokeWidth)))
          = [(.none, .arrow, none), (.none, .arrow, none), (.none, .arrow, none),
            (.none, .arrow, none), (.none, .arrow, some (some .dashed, none)),
            (.none, .arrow, none), (.none, .arrow, some (none, some 4)), (.none, .none, none),
            (.none, .none, none), (.arrow, .arrow, some (some .dashed, none))] := by
  have hread : ∀ l ∈ tangledLines, (Item.read l.text).isRead = true := by decide +kernel
  obtain ⟨d, hparse, hnodes, hedges⟩ := parse_eq_meaning (α := Rat) false hread
  refine ⟨hread, d, hparse, ?_, ?_, ?_⟩
  · rw [hnodes]
    decide +kernel
  · rw [hedges]
    decide +kernel
  · rw [hedges]
    decide +kernel

end DiagramBoard.Grammar.Flowchart
