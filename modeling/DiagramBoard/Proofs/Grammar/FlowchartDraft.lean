/-
DiagramBoard.Proofs.Grammar.FlowchartDraft — what every flowchart is that was read from lines.

Its nodes have ids and tidy labels, no two edges join the same nodes in the same direction, and no
node is in two groups.

Main statements: one more line keeps this of a draft (`Draft.IsRead.readItem`), so every flowchart
that is read has it (`isRead_parse`).
-/
import DiagramBoard.Proofs.Content
import DiagramBoard.Proofs.Diagram.Nodes
import DiagramBoard.Proofs.Grammar.Flowchart

namespace DiagramBoard.Grammar.Flowchart

open Text

variable {α : Type}

/-! ## What a statement says -/

/-- What a mention of a node says: an id, and a tidy label if there is one. -/
structure IsMention (m : NodeMention) : Prop where
  isId : IsId m.id.toList
  isTidy : ∀ l ∈ m.label, IsTidy l.toList

/-- The label of a link that was read from a line. -/
def IsLinkLabel (label : Option String) : Prop := ∀ l ∈ label, l.toList ≠ [] ∧ '\n' ∉ l.toList

theorem of_bracketed? {o c : String} {s l r : List Char} (hs : '\n' ∉ s)
    (h : bracketed? o c s = some (l, r)) : trim l = l ∧ '\n' ∉ l ∧ '\n' ∉ r := by
  have hdecode : ∀ p : List Char, '\n' ∉ p →
      trim (Entity.decode (trim p)) = Entity.decode (trim p) ∧ '\n' ∉ Entity.decode (trim p) :=
    fun p hp => ⟨Entity.trim_decode (trim_trim p),
      Entity.notMem_decode (by decide) fun hm => hp (trim_subset p hm)⟩
  obtain ⟨t, ht, h⟩ := Option.bind_eq_some_iff.1 h
  have ht' : '\n' ∉ t := fun hm => hs (subset_of_after? ht hm)
  split at h
  · obtain ⟨p, hp, h⟩ := Option.bind_eq_some_iff.1 h
    obtain ⟨u, hu, heq⟩ := Option.map_eq_some_iff.1 h
    obtain ⟨rfl, rfl⟩ := Prod.mk.inj heq
    have hsub := subset_of_quoted? hp
    obtain ⟨h1, h2⟩ := hdecode p.1 fun hm => ht' (hsub.1 hm)
    exact ⟨h1, h2, fun hm => ht' (hsub.2 (subset_of_after? hu hm))⟩
  · obtain ⟨p, hp, heq⟩ := Option.map_eq_some_iff.1 h
    obtain ⟨rfl, rfl⟩ := Prod.mk.inj heq
    have hsub := subset_of_cutAt? hp
    obtain ⟨h1, h2⟩ := hdecode p.1 fun hm => ht' (hsub.1 hm)
    exact ⟨h1, h2, fun hm => ht' (hsub.2 hm)⟩

theorem of_shaped? {s l r : List Char} {shape : Shape} (hs : '\n' ∉ s)
    (h : shaped? s = some ((shape, l), r)) : trim l = l ∧ '\n' ∉ l ∧ '\n' ∉ r := by
  obtain ⟨b, -, hb⟩ := List.exists_of_findSome?_eq_some h
  obtain ⟨q, hq, heq⟩ := Option.map_eq_some_iff.1 hb
  obtain ⟨hl, rfl⟩ := Prod.mk.inj heq
  obtain ⟨-, rfl⟩ := Prod.mk.inj hl
  exact of_bracketed? hs hq

theorem of_shapeOf {w s : List Char} (hw : IsId w) (hs : '\n' ∉ s) :
    IsMention (shapeOf w s).1 ∧ '\n' ∉ (shapeOf w s).2 := by
  have hid : IsId (String.ofList w).toList := by rwa [String.toList_ofList]
  have hbare : IsMention { id := String.ofList w } := ⟨hid, by simp⟩
  have hshaped : ∀ shape l r, shaped? s = some ((shape, l), r) →
      IsTidy (String.ofList (if l = [] then w else l)).toList ∧ '\n' ∉ r := by
    intro shape l r h
    obtain ⟨h1, h2, h3⟩ := of_shaped? hs h
    rw [String.toList_ofList]
    split
    · exact ⟨hw.isName.isTidy, h3⟩
    · rename_i hne
      exact ⟨⟨hne, h1, h2⟩, h3⟩
  have hdrop : '\n' ∉ s.dropWhile fun c => !isBlank c := fun hm =>
    hs ((List.dropWhile_sublist _).subset hm)
  unfold shapeOf
  split
  all_goals first | exact ⟨hbare, hs⟩ | skip
  all_goals
    split
    · rename_i shape l r h
      obtain ⟨h1, h2⟩ := hshaped shape l r h
      exact ⟨⟨hid, by simpa using h1⟩, h2⟩
    · exact ⟨⟨hid, by simp⟩, hdrop⟩

theorem notMem_of_id? {s w r : List Char} (hs : '\n' ∉ s) (h : id? s = some (w, r)) : '\n' ∉ r := by
  have happ := append_takeId false s
  unfold id? at h
  split at h
  · simp at h
  · obtain ⟨-, rfl⟩ := Prod.mk.inj (Option.some.inj h)
    intro hm
    exact hs (happ ▸ List.mem_append_right _ hm)

theorem styleClass?_subset {s w r : List Char} (h : styleClass? s = some (w, r)) : r ⊆ s := by
  obtain ⟨t, ht, hr⟩ := Option.bind_eq_some_iff.1 h
  exact fun c hc => subset_of_after? ht ((subset_of_takeSome? hr).2 hc)

theorem of_node? {s r : List Char} {m : NodeMention} (hs : '\n' ∉ s)
    (h : node? s = some (m, r)) : IsMention m ∧ '\n' ∉ r := by
  obtain ⟨⟨w, t⟩, hp, heq⟩ := Option.map_eq_some_iff.1 h
  obtain ⟨rfl, rfl⟩ := Prod.mk.inj heq
  obtain ⟨h1, h2⟩ := of_shapeOf (isId_of_id? hp) (notMem_of_id? hs hp)
  exact ⟨h1, fun hm => h2 (optionally_subset styleClass?_subset _ hm)⟩

theorem of_joinedNode? {s r : List Char} {m : NodeMention} (hs : '\n' ∉ s)
    (h : joinedNode? s = some (m, r)) : IsMention m ∧ '\n' ∉ r := by
  obtain ⟨t, ht, h⟩ := Option.bind_eq_some_iff.1 h
  exact of_node? (fun hm => hs (skipSpaces_subset s
    (subset_of_after? ht (skipSpaces_subset t hm)))) h

theorem of_joinedNodes {s : List Char} (hs : '\n' ∉ s) :
    (∀ m ∈ (joinedNodes s).1, IsMention m) ∧ '\n' ∉ (joinedNodes s).2 := by
  fun_induction joinedNodes s with
  | case1 => exact ⟨by simp, hs⟩
  | case2 s n r h _ p ih =>
    obtain ⟨h1, h2⟩ := of_joinedNode? hs h
    obtain ⟨h3, h4⟩ := ih h2
    exact ⟨List.forall_mem_cons.2 ⟨h1, h3⟩, h4⟩

theorem of_nodeGroup? {s r : List Char} {ms : List NodeMention} (hs : '\n' ∉ s)
    (h : nodeGroup? s = some (ms, r)) : (∀ m ∈ ms, IsMention m) ∧ '\n' ∉ r := by
  obtain ⟨⟨m, t⟩, hp, heq⟩ := Option.map_eq_some_iff.1 h
  obtain ⟨rfl, rfl⟩ := Prod.mk.inj heq
  obtain ⟨h1, h2⟩ := of_node? hs hp
  obtain ⟨h3, h4⟩ := of_joinedNodes h2
  exact ⟨List.forall_mem_cons.2 ⟨h1, h3⟩, h4⟩

theorem of_linkLabel {s : List Char} (hs : '\n' ∉ s) : IsLinkLabel (linkLabel s) := by
  intro l hl
  unfold linkLabel at hl
  split at hl
  · simp at hl
  · rename_i t hne
    obtain rfl := Option.some.inj hl
    rw [String.toList_ofList]
    exact ⟨by simpa using hne, Entity.notMem_decode (by decide) fun hm =>
      hs (trim_subset s (stripQuotes_subset _ hm))⟩

theorem of_barLabel? {s r : List Char} {label : Option String} (hs : '\n' ∉ s)
    (h : barLabel? s = some (label, r)) : IsLinkLabel label ∧ '\n' ∉ r := by
  obtain ⟨t, ht, h⟩ := Option.bind_eq_some_iff.1 h
  have ht' : '\n' ∉ t := fun hm => hs (subset_of_after? ht hm)
  rcases Option.or_eq_some_iff.1 h with h | ⟨-, h⟩
  · obtain ⟨p, hp, h⟩ := Option.bind_eq_some_iff.1 h
    obtain ⟨u, hu, heq⟩ := Option.map_eq_some_iff.1 h
    obtain ⟨rfl, rfl⟩ := Prod.mk.inj heq
    have hsub := subset_of_quoted? hp
    exact ⟨of_linkLabel fun hm => ht' (skipSpaces_subset t (hsub.1 hm)),
      fun hm => ht' (skipSpaces_subset t (hsub.2 (skipSpaces_subset p.2 (subset_of_after? hu hm))))⟩
  · obtain ⟨p, hp, heq⟩ := Option.map_eq_some_iff.1 h
    obtain ⟨rfl, rfl⟩ := Prod.mk.inj heq
    have hsub := subset_of_cutAt? hp
    exact ⟨of_linkLabel fun hm => ht' (hsub.1 hm), fun hm => ht' (hsub.2 hm)⟩

theorem of_labelledLink? {o c : String} {l k : Link} {s r : List Char} (hs : '\n' ∉ s)
    (h : labelledLink? o c l s = some (k, r)) : IsLinkLabel k.label ∧ '\n' ∉ r := by
  obtain ⟨t, ht, h⟩ := Option.bind_eq_some_iff.1 h
  obtain ⟨u, hu, h⟩ := Option.bind_eq_some_iff.1 h
  obtain ⟨p, hp, heq⟩ := Option.map_eq_some_iff.1 h
  obtain ⟨rfl, rfl⟩ := Prod.mk.inj heq
  have hu' : '\n' ∉ u := fun hm => hs (subset_of_after? ht (subset_of_skipSomeSpaces? hu hm))
  have happ := (append_of_cutAfterSome? hp).1
  refine ⟨of_linkLabel fun hm => hu' ?_, fun hm => hu' ?_⟩ <;> rw [happ] <;> simp [hm]

theorem of_link? {s r : List Char} {l : Link} (hs : '\n' ∉ s) (h : link? s = some (l, r)) :
    IsLinkLabel l.label ∧ '\n' ∉ r := by
  rcases Option.or_eq_some_iff.1 h with h | ⟨-, h⟩
  · obtain ⟨t, -, ht⟩ := List.exists_of_findSome?_eq_some h
    exact of_labelledLink? hs ht
  · obtain ⟨⟨k, t⟩, hp, heq⟩ := Option.map_eq_some_iff.1 h
    obtain ⟨rfl, rfl⟩ := Prod.mk.inj heq
    obtain ⟨b, -, hb⟩ := List.exists_of_findSome?_eq_some hp
    obtain ⟨u, hu, heq⟩ := Option.map_eq_some_iff.1 hb
    obtain ⟨-, rfl⟩ := Prod.mk.inj heq
    have ht : '\n' ∉ u := fun hm => hs (subset_of_after? hu hm)
    have hskip : '\n' ∉ skipSpaces u := fun hm => ht (skipSpaces_subset u hm)
    show IsLinkLabel (optionally spacedBarLabel? u).1.join ∧ '\n' ∉ (optionally spacedBarLabel? u).2
    cases hbar : spacedBarLabel? u with
    | none =>
      rw [optionally_of_none hbar]
      exact ⟨by simp [IsLinkLabel], ht⟩
    | some q =>
      obtain ⟨label, r'⟩ := q
      rw [optionally_of_some hbar]
      exact of_barLabel? hskip hbar

/-- What the links of a statement and the node groups behind them say. -/
def IsChain (next : List (Link × List NodeMention)) : Prop :=
  ∀ p ∈ next, IsLinkLabel p.1.label ∧ ∀ m ∈ p.2, IsMention m

theorem of_chain? {s r : List Char} {next : List (Link × List NodeMention)} (hs : '\n' ∉ s)
    (h : chain? s = some (next, r)) : IsChain next := by
  fun_induction chain? s generalizing next r with
  | case1 =>
    obtain ⟨rfl, -⟩ := Prod.mk.inj (Option.some.inj h)
    simp [IsChain]
  | case2 => simp at h
  | case3 s l r' hl ns t hg _ ih =>
    obtain ⟨⟨rest, t'⟩, hp, heq⟩ := Option.map_eq_some_iff.1 h
    obtain ⟨rfl, rfl⟩ := Prod.mk.inj heq
    obtain ⟨h1, h2⟩ := of_link? (fun hm => hs (skipSpaces_subset s hm)) hl
    obtain ⟨h3, h4⟩ := of_nodeGroup? (fun hm => h2 (skipSpaces_subset r' hm)) hg
    exact List.forall_mem_cons.2 ⟨⟨h1, h3⟩, ih h4 hp⟩

/-- What a statement says. -/
structure IsStatement (stmt : Statement) : Prop where
  first : ∀ m ∈ stmt.first, IsMention m
  next : IsChain stmt.next

theorem of_statement? {s r : List Char} {stmt : Statement} (hs : '\n' ∉ s)
    (h : statement? s = some (stmt, r)) : IsStatement stmt := by
  obtain ⟨⟨ms, t⟩, hp, h⟩ := Option.bind_eq_some_iff.1 h
  obtain ⟨⟨next, u⟩, hq, heq⟩ := Option.map_eq_some_iff.1 h
  obtain ⟨rfl, rfl⟩ := Prod.mk.inj heq
  obtain ⟨h1, h2⟩ := of_nodeGroup? hs hp
  exact ⟨h1, of_chain? h2 hq⟩

/-- What a line says when it has no line feed. -/
def Item.IsOneLine : Item → Prop
  | .opening title => '\n' ∉ title
  | .statement stmt => IsStatement stmt
  | _ => True

theorem withoutSemicolons_subset (s : List Char) : withoutSemicolons s ⊆ s := by
  intro c hc
  obtain ⟨t, ht⟩ := trimEnd_prefix_eq (s.reverse.dropWhile (· == ';')).reverse
  have h1 : c ∈ (s.reverse.dropWhile (· == ';')).reverse := by
    rw [ht.1]
    exact List.mem_append_left _ hc
  exact List.mem_reverse.1 ((List.dropWhile_sublist _).subset (List.mem_reverse.1 h1))

theorem isOneLine_read {s : List Char} (hs : '\n' ∉ s) : (Item.read s).IsOneLine := by
  unfold Item.read
  split
  · rename_i title h
    rcases afterKeyword?_eq_some h with ⟨-, rfl⟩ | ⟨c, r, -, rfl, rfl⟩
    · simp [Item.IsOneLine]
    · exact fun hm => hs (List.mem_append_right _ ((List.dropWhile_sublist _).subset hm))
  · split
    · trivial
    · split
      · trivial
      · split
        · trivial
        · rename_i stmt r h
          have hstmt := of_statement? (fun hm => hs (withoutSemicolons_subset s hm)) h
          split
          · exact hstmt
          · trivial

/-! ## Titles of subgraphs -/

theorem isWordChar_slugStep {id : List Char} (h : ∀ c ∈ id, isWordChar c = true) (c : Char) :
    ∀ x ∈ slugStep id c, isWordChar x = true := by
  have hadd : ∀ d, isWordChar d = true → ∀ x ∈ id ++ [d], isWordChar x = true := by
    intro d hd x hx
    rcases List.mem_append.1 hx with hx | hx
    · exact h x hx
    · rwa [List.mem_singleton.1 hx]
  unfold slugStep
  split
  · rename_i hc
    exact hadd c (by simp [isWordChar, hc])
  · split
    · exact h
    · exact hadd '_' (by decide)

theorem isWordChar_foldl_slugStep (title id : List Char) (h : ∀ c ∈ id, isWordChar c = true) :
    ∀ x ∈ title.foldl slugStep id, isWordChar x = true := by
  induction title generalizing id with
  | nil => exact h
  | cons c title ih => exact ih _ (isWordChar_slugStep h c)

theorem isId_numberedId (ordinal : Nat) : IsId (numberedId ordinal).toList := by
  refine isId_of_isWord ⟨by simp [numberedId], fun c hc => ?_⟩
  rw [numberedId, String.toList_append, List.mem_append] at hc
  rcases hc with hc | hc
  · have hall : ∀ x ∈ "subgraph_".toList, isWordChar x = true := by
      simp [isWordChar, isAlphanumeric]
    exact hall c hc
  · rw [Nat.toString_eq_repr, Nat.toList_repr] at hc
    have hdigit := Nat.isDigit_of_mem_toDigits (by decide) (by decide) hc
    exact isWordChar_of_isAlphanum (by rw [Char.isAlphanum, hdigit, Bool.or_true])

theorem isId_slug (title : List Char) (ordinal : Nat) : IsId (slug title ordinal).toList := by
  unfold slug
  dsimp only
  split
  · exact isId_numberedId ordinal
  · rename_i hne
    rw [String.toList_ofList]
    refine isId_of_isWord ⟨by simpa using hne, fun c hc => ?_⟩
    have hc := (List.dropWhile_sublist _).subset (List.mem_reverse.1 hc)
    exact isWordChar_foldl_slugStep _ _ (by simp) c (List.mem_reverse.1 hc)

/-- The id of a subgraph is an id, and its label stands on one line. -/
theorem of_subgraphTitle {header : List Char} (hs : '\n' ∉ header) (ordinal : Nat) :
    IsId (subgraphTitle header ordinal).1.toList
      ∧ '\n' ∉ (subgraphTitle header ordinal).2.toList := by
  have htrim : '\n' ∉ trim header := fun hm => hs (trim_subset header hm)
  have hfree : IsId (freeTitle (trim header) ordinal).1.toList
      ∧ '\n' ∉ (freeTitle (trim header) ordinal).2.toList := by
    refine ⟨isId_slug _ _, ?_⟩
    rwa [freeTitle, String.toList_ofList]
  have hdecode : ∀ t, '\n' ∉ t → '\n' ∉ (String.ofList (Entity.decode (stripQuotes t))).toList := by
    intro t ht
    rw [String.toList_ofList]
    exact Entity.notMem_decode (by decide) fun hm => ht (stripQuotes_subset t hm)
  unfold subgraphTitle
  split
  · refine ⟨isId_numberedId ordinal, fun hm => ?_⟩
    exact absurd ((isId_numberedId ordinal).isName.isNameChar _ hm) (by decide)
  · rename_i r heq
    rw [heq] at htrim
    exact ⟨isId_slug _ _, hdecode _ htrim⟩
  · split
    · exact hfree
    · rename_i id r hid
      have hisId : IsId (String.ofList id).toList := by
        rw [String.toList_ofList]
        exact isId_of_id? hid
      split
      · refine ⟨hisId, fun hm => ?_⟩
        exact absurd (hisId.isName.isNameChar _ hm) (by decide)
      · split
        · rename_i hr _ inner hinner
          have hinner' : '\n' ∉ trim r := fun hm => notMem_of_id? htrim hid (trim_subset r hm)
          obtain ⟨t, ht, hlast⟩ := Option.bind_eq_some_iff.1 hinner
          refine ⟨hisId, hdecode _ fun hm => hinner' ?_⟩
          refine subset_of_after? ht ?_
          rw [beforeLast?_eq_some hlast]
          exact List.mem_append_left _ (trim_subset inner hm)
        · exact hfree

/-! ## What is read from any lines -/

/-- What a flowchart is that was read from lines. -/
structure IsRead (d : Diagram α) : Prop where
  nodup_nodeIds : d.nodeIds.Nodup
  isId : ∀ id ∈ d.nodeIds, IsId id.toList
  isTidy : ∀ n ∈ d.nodes, IsTidy n.label.toList
  label : ∀ e ∈ d.edges, IsLinkLabel e.label
  nodup_joined : d.joined.Nodup
  group : ∀ g ∈ d.groups, IsId g.id.toList ∧ '\n' ∉ g.label.toList
  children : ∀ g ∈ d.groups, ∀ c ∈ g.children, c ∈ d.nodeIds
  nodup_children : (d.groups.flatMap (·.children)).Nodup

/-- A draft as a diagram, with everything that refers to nothing. -/
def Draft.diagram (d : Draft α) : Diagram α :=
  { nodes := d.nodes, edges := d.edges, groups := d.closed ++ d.opened }

/-- A draft with what one more line says, which is nothing if it cannot be read. -/
def Draft.readItem [Scalar α] (d : Draft α) : Item → Draft α
  | .opening title => d.openGroup title
  | .closing => d.closeGroup
  | .statement stmt => d.apply stmt
  | .directive | .trailing _ | .unreadable => d

theorem Draft.readLine_eq [Scalar α] {lenient : Bool} {d e : Draft α} {l : Line}
    (h : d.readLine lenient l = .ok e) : e = d.readItem (Item.read l.text) := by
  unfold Draft.readLine at h
  split at h <;> rename_i heq <;> rw [heq]
  case h_5 | h_6 =>
    split at h
    · exact (Except.ok.inj h).symm
    · simp at h
  all_goals exact (Except.ok.inj h).symm

/-- Lines that are read are read item by item. -/
theorem Draft.readLines_eq [Scalar α] {lenient : Bool} {d e : Draft α} {ls : List Line}
    (h : d.readLines lenient ls = .ok e) :
    e = (ls.map fun l => Item.read l.text).foldl Draft.readItem d := by
  induction ls generalizing d with
  | nil => exact (Except.ok.inj h).symm
  | cons l ls ih =>
    rw [Draft.readLines] at h
    cases hl : d.readLine lenient l with
    | error err =>
      rw [hl] at h
      simp [Except.bind] at h
    | ok d' =>
      rw [hl] at h
      rw [ih h, Draft.readLine_eq hl]
      rfl

/-- Whether a line says something that a flowchart has. -/
def Item.isRead : Item → Bool
  | .trailing _ | .unreadable => false
  | _ => true

theorem Draft.readLine_of_isRead [Scalar α] (lenient : Bool) (d : Draft α) {l : Line}
    (h : (Item.read l.text).isRead = true) :
    d.readLine lenient l = .ok (d.readItem (Item.read l.text)) := by
  unfold Draft.readLine
  split <;> rename_i heq <;> rw [heq] at h ⊢
  case h_5 | h_6 => simp [Item.isRead] at h
  all_goals rfl

/-- Lines that all say something are read. -/
theorem Draft.readLines_of_isRead [Scalar α] (lenient : Bool) (d : Draft α) {ls : List Line}
    (h : ∀ l ∈ ls, (Item.read l.text).isRead = true) :
    d.readLines lenient ls = .ok ((ls.map fun l => Item.read l.text).foldl Draft.readItem d) := by
  induction ls generalizing d with
  | nil => rfl
  | cons l ls ih =>
    obtain ⟨hl, hls⟩ := List.forall_mem_cons.1 h
    rw [Draft.readLines, Draft.readLine_of_isRead lenient d hl]
    exact ih _ hls

/-! ## One more line -/

/-- A mention of a node that is known. -/
theorem Draft.mention_of_known {d : Draft α} {m : NodeMention}
    (hm : d.nodes.any (·.id = m.id) = true) :
    d.mention m = { d with nodes := Draft.refineFirst m d.nodes } := by
  rw [Draft.mention, if_pos hm]

/-- A mention of a new node outside every subgraph. -/
theorem Draft.mention_of_nil {d : Draft α} {m : NodeMention}
    (hm : d.nodes.any (·.id = m.id) = false) (hopened : d.opened = []) :
    d.mention m = { d with nodes := d.nodes ++ [Draft.firstMention m none] } := by
  rw [Draft.mention, if_neg (Bool.not_eq_true _ ▸ hm), hopened]

/-- A mention of a new node inside a subgraph. -/
theorem Draft.mention_of_cons {d : Draft α} {m : NodeMention}
    (hm : d.nodes.any (·.id = m.id) = false) {g : Group} {gs : List Group}
    (hopened : d.opened = g :: gs) :
    d.mention m = { d with
      nodes := d.nodes ++ [Draft.firstMention m (some g.id)]
      opened := { g with children := g.children ++ [m.id] } :: gs } := by
  rw [Draft.mention, if_neg (Bool.not_eq_true _ ▸ hm), hopened]

/-- A subgraph that closes stays one of the subgraphs. -/
theorem Draft.diagram_closeGroup (d : Draft α) : d.closeGroup.diagram = d.diagram := by
  unfold Draft.closeGroup
  split
  · rfl
  · rename_i g gs ho
    simp [Draft.diagram, ho]

/-- What every link keeps, a chain keeps. -/
theorem Draft.connectChain_induction [Scalar α] {P : Draft α → Prop}
    {next : List (Link × List NodeMention)}
    (hconnect : ∀ p ∈ next, ∀ d source target, P d → P (Draft.connect p.1 d source target))
    (first : List NodeMention) {d : Draft α} (h : P d) : P (d.connectChain first next) := by
  induction next generalizing d first with
  | nil => exact h
  | cons p next ih =>
    obtain ⟨link, group⟩ := p
    obtain ⟨hlink, hnext⟩ := List.forall_mem_cons.1 hconnect
    exact ih hnext group (List.foldlRecOn _ _ h fun d hd q _ => hlink d q.1 q.2 hd)

/-- What every mention and every link keeps, a statement keeps. -/
theorem Draft.apply_induction [Scalar α] {P : Draft α → Prop} {stmt : Statement}
    (hmention : ∀ m ∈ Draft.mentions stmt, ∀ d, P d → P (d.mention m))
    (hconnect : ∀ p ∈ stmt.next, ∀ d source target, P d → P (Draft.connect p.1 d source target))
    {d : Draft α} (h : P d) : P (d.apply stmt) :=
  Draft.connectChain_induction hconnect stmt.first
    (List.foldlRecOn _ _ h fun d hd m hm => hmention m hm d hd)

theorem ids_refineFirst (m : NodeMention) (ns : List (Node α)) :
    (Draft.refineFirst m ns).map (·.id) = ns.map (·.id) := by
  induction ns with
  | nil => rfl
  | cons n ns ih =>
    rw [Draft.refineFirst]
    split
    · rfl
    · rw [List.map_cons, ih, List.map_cons]

theorem mem_refineFirst {m : NodeMention} {ns : List (Node α)} {n : Node α}
    (h : n ∈ Draft.refineFirst m ns) : ∃ n' ∈ ns, n = n' ∨ n = Draft.refine m n' := by
  induction ns with
  | nil => simp [Draft.refineFirst] at h
  | cons x ns ih =>
    rw [Draft.refineFirst] at h
    split at h
    · rcases List.mem_cons.1 h with rfl | h
      · exact ⟨x, List.mem_cons_self, .inr rfl⟩
      · exact ⟨n, List.mem_cons_of_mem _ h, .inl rfl⟩
    · rcases List.mem_cons.1 h with rfl | h
      · exact ⟨n, List.mem_cons_self, .inl rfl⟩
      · obtain ⟨n', hn', hor⟩ := ih h
        exact ⟨n', List.mem_cons_of_mem _ hn', hor⟩

/-- A mention that refines no node leaves the nodes as they are. -/
theorem refineFirst_eq_self {m : NodeMention} {ns : List (Node α)}
    (h : ∀ n ∈ ns, n.id = m.id → Draft.refine m n = n) : Draft.refineFirst m ns = ns := by
  induction ns with
  | nil => rfl
  | cons n ns ih =>
    rw [Draft.refineFirst, ih fun k hk => h k (List.mem_cons_of_mem _ hk)]
    split
    · next hid => rw [h n List.mem_cons_self hid]
    · rfl

theorem isTidy_refine {m : NodeMention} (hm : IsMention m) {n : Node α} (hn : IsTidy n.label.toList) :
    IsTidy (Draft.refine m n).label.toList := by
  unfold Draft.refine
  dsimp only
  split
  · rename_i l hl
    split
    · exact hn
    · exact hm.isTidy l hl
  · exact hn

theorem isTidy_firstMention {m : NodeMention} (hm : IsMention m) (group : Option String) :
    IsTidy (Draft.firstMention m group : Node α).label.toList := by
  unfold Draft.firstMention
  cases hl : m.label with
  | none => exact hm.isId.isName.isTidy
  | some l => exact hm.isTidy l hl

/-- What a mention of a node that is new adds to the groups. -/
theorem groups_mention (d : Draft α) (m : NodeMention) (hm : d.nodes.any (·.id = m.id) = false) :
    d.opened = [] ∧ (d.mention m).closed ++ (d.mention m).opened = d.closed
      ∨ ∃ g gs, d.opened = g :: gs ∧ (d.mention m).closed ++ (d.mention m).opened
        = d.closed ++ { g with children := g.children ++ [m.id] } :: gs := by
  cases ho : d.opened with
  | nil =>
    rw [Draft.mention_of_nil hm ho]
    exact .inl ⟨rfl, by simp [ho]⟩
  | cons g gs =>
    rw [Draft.mention_of_cons hm ho]
    exact .inr ⟨g, gs, rfl, rfl⟩

/-- A group after such a mention is an old one, but for the new child. -/
theorem mem_groups_mention {d : Draft α} {m : NodeMention}
    (hm : d.nodes.any (·.id = m.id) = false) {g : Group} (hg : g ∈ (d.mention m).diagram.groups) :
    ∃ g' ∈ d.diagram.groups, g.id = g'.id ∧ g.label = g'.label
      ∧ ∀ c ∈ g.children, c ∈ g'.children ∨ c = m.id := by
  have hg : g ∈ (d.mention m).closed ++ (d.mention m).opened := hg
  rcases groups_mention d m hm with ⟨ho, heq⟩ | ⟨k, ks, ho, heq⟩
  · rw [heq] at hg
    exact ⟨g, List.mem_append_left _ hg, rfl, rfl, fun c hc => .inl hc⟩
  · rw [heq] at hg
    rcases List.mem_append.1 hg with hg | hg
    · exact ⟨g, List.mem_append_left _ hg, rfl, rfl, fun c hc => .inl hc⟩
    · rcases List.mem_cons.1 hg with rfl | hg
      · refine ⟨k, List.mem_append_right _ (by simp [ho]), rfl, rfl, fun c hc => ?_⟩
        rcases List.mem_append.1 hc with hc | hc
        · exact .inl hc
        · exact .inr (List.mem_singleton.1 hc)
      · exact ⟨g, List.mem_append_right _ (by simp [ho, hg]), rfl, rfl, fun c hc => .inl hc⟩

/-- The children after such a mention are the old ones and perhaps the new one. -/
theorem nodup_children_mention {d : Draft α} (h : (d.diagram.groups.flatMap (·.children)).Nodup)
    {m : NodeMention} (hm : d.nodes.any (·.id = m.id) = false)
    (hnew : m.id ∉ d.diagram.groups.flatMap (·.children)) :
    ((d.mention m).diagram.groups.flatMap (·.children)).Nodup := by
  show (((d.mention m).closed ++ (d.mention m).opened).flatMap (·.children)).Nodup
  have h : ((d.closed ++ d.opened).flatMap (·.children)).Nodup := h
  have hnew : m.id ∉ (d.closed ++ d.opened).flatMap (·.children) := hnew
  rcases groups_mention d m hm with ⟨ho, heq⟩ | ⟨k, ks, ho, heq⟩
  · rw [heq]
    rwa [ho, List.append_nil] at h
  · have hperm : ((d.closed ++ { k with children := k.children ++ [m.id] } :: ks).flatMap
        (·.children)).Perm (m.id :: (d.closed ++ d.opened).flatMap (·.children)) := by
      have hmiddle : (d.closed.flatMap (·.children) ++ k.children
          ++ m.id :: ks.flatMap (·.children)).Perm
          (m.id :: (d.closed.flatMap (·.children) ++ k.children ++ ks.flatMap (·.children))) :=
        List.perm_middle
      simpa [ho] using hmiddle
    rw [heq, hperm.nodup_iff, List.nodup_cons]
    exact ⟨hnew, h⟩

theorem nodes_mention (d : Draft α) (m : NodeMention) (hm : d.nodes.any (·.id = m.id) = false) :
    ∃ group, (d.mention m).nodes = d.nodes ++ [Draft.firstMention m group] := by
  cases ho : d.opened with
  | nil => exact ⟨none, by rw [Draft.mention_of_nil hm ho]⟩
  | cons g gs => exact ⟨some g.id, by rw [Draft.mention_of_cons hm ho]⟩

theorem edges_mention (d : Draft α) (m : NodeMention) : (d.mention m).edges = d.edges := by
  unfold Draft.mention
  split
  · rfl
  · cases d.opened <;> rfl

/-- A mention of a node that is known refines the node. -/
theorem IsRead.mention_known {d : Draft α} (h : IsRead d.diagram) {m : NodeMention}
    (hm : IsMention m) (hany : d.nodes.any (·.id = m.id) = true) : IsRead (d.mention m).diagram := by
  have hmention := Draft.mention_of_known hany
  have hids : (d.mention m).diagram.nodeIds = d.diagram.nodeIds := by
    rw [hmention]
    exact ids_refineFirst m d.nodes
  have hgroups : (d.mention m).diagram.groups = d.diagram.groups := by rw [hmention]; rfl
  have hedges : (d.mention m).diagram.edges = d.diagram.edges := edges_mention d m
  refine ⟨hids ▸ h.nodup_nodeIds, hids ▸ h.isId, fun n hn => ?_, hedges ▸ h.label, ?_,
    hgroups ▸ h.group, by rw [hids, hgroups]; exact h.children, hgroups ▸ h.nodup_children⟩
  · rw [hmention] at hn
    obtain ⟨n', hn', rfl | rfl⟩ := mem_refineFirst hn
    · exact h.isTidy n hn'
    · exact isTidy_refine hm (h.isTidy n' hn')
  · rw [Diagram.joined, hedges]
    exact h.nodup_joined

/-- A mention of a node that is new adds the node. -/
theorem IsRead.mention_new {d : Draft α} (h : IsRead d.diagram) {m : NodeMention}
    (hm : IsMention m) (hany : d.nodes.any (·.id = m.id) = false) : IsRead (d.mention m).diagram := by
  obtain ⟨group, hnodes⟩ := nodes_mention d m hany
  have hedges : (d.mention m).diagram.edges = d.diagram.edges := edges_mention d m
  have hids : (d.mention m).diagram.nodeIds = d.diagram.nodeIds ++ [m.id] := by
    rw [Diagram.nodeIds, Draft.diagram, hnodes, List.map_append]
    rfl
  have hnew : m.id ∉ d.diagram.nodeIds := fun hmem =>
    Bool.eq_false_iff.1 hany (Diagram.hasNode_iff.2 hmem)
  refine ⟨?_, fun id hid => ?_, fun n hn => ?_, hedges ▸ h.label, ?_, fun g hg => ?_,
    fun g hg c hc => ?_, nodup_children_mention h.nodup_children hany fun hmem => ?_⟩
  · rw [hids]
    refine List.nodup_append.2 ⟨h.nodup_nodeIds, by simp, ?_⟩
    rintro a ha b hb rfl
    exact hnew (List.mem_singleton.1 hb ▸ ha)
  · rw [hids] at hid
    rcases List.mem_append.1 hid with hid | hid
    · exact h.isId id hid
    · rw [List.mem_singleton.1 hid]
      exact hm.isId
  · rw [Draft.diagram, hnodes] at hn
    rcases List.mem_append.1 hn with hn | hn
    · exact h.isTidy n hn
    · rw [List.mem_singleton.1 hn]
      exact isTidy_firstMention hm group
  · rw [Diagram.joined, hedges]
    exact h.nodup_joined
  · obtain ⟨g', hg', hid, hlabel, -⟩ := mem_groups_mention hany hg
    rw [hid, hlabel]
    exact h.group g' hg'
  · obtain ⟨g', hg', -, -, hkids⟩ := mem_groups_mention hany hg
    rw [hids]
    rcases hkids c hc with hc | rfl
    · exact List.mem_append_left _ (h.children g' hg' c hc)
    · exact List.mem_append_right _ (List.mem_singleton_self _)
  · obtain ⟨g, hg, hc⟩ := List.mem_flatMap.1 hmem
    exact hnew (h.children g hg _ hc)

theorem IsRead.mention {d : Draft α} (h : IsRead d.diagram) {m : NodeMention} (hm : IsMention m) :
    IsRead (d.mention m).diagram := by
  cases hany : d.nodes.any (·.id = m.id) with
  | true => exact h.mention_known hm hany
  | false => exact h.mention_new hm hany

theorem IsRead.connect [Scalar α] {d : Draft α} (h : IsRead d.diagram) {link : Link}
    (hl : IsLinkLabel link.label) (source target : String) :
    IsRead (Draft.connect link d source target).diagram := by
  unfold Draft.connect
  split
  · exact h
  · rename_i hany
    refine ⟨h.nodup_nodeIds, h.isId, h.isTidy, fun e he => ?_, ?_, h.group, h.children,
      h.nodup_children⟩
    · rcases List.mem_append.1 he with he | he
      · exact h.label e he
      · rw [List.mem_singleton.1 he]
        exact hl
    · have hjoined : Diagram.joined
          { d with edges := d.edges ++ [Draft.linkEdge link source target] : Draft α }.diagram
          = d.diagram.joined ++ [(source, target)] := by
        rw [Diagram.joined, Draft.diagram, List.map_append]
        rfl
      rw [hjoined]
      refine List.nodup_append.2 ⟨h.nodup_joined, by simp, ?_⟩
      rintro a ha b hb rfl
      rw [List.mem_singleton.1 hb] at ha
      obtain ⟨e, he, heq⟩ := List.mem_map.1 ha
      refine hany (List.any_eq_true.2 ⟨e, he, ?_⟩)
      simpa using Prod.mk.inj heq

/-- A subgraph that opens has an id and a label, and no nodes yet. -/
theorem IsRead.openGroup {d : Draft α} (h : IsRead d.diagram) {title : List Char}
    (ht : '\n' ∉ title) : IsRead (d.openGroup title).diagram := by
  obtain ⟨hid, hlabel⟩ := of_subgraphTitle ht (d.closed.length + d.opened.length)
  have hmem : ∀ g ∈ (d.openGroup title).diagram.groups, g ∈ d.diagram.groups
      ∨ IsId g.id.toList ∧ '\n' ∉ g.label.toList ∧ g.children = [] := by
    intro g hg
    rcases List.mem_append.1 hg with hg | hg
    · exact .inl (List.mem_append_left _ hg)
    · rcases List.mem_cons.1 hg with rfl | hg
      · exact .inr ⟨hid, hlabel, rfl⟩
      · exact .inl (List.mem_append_right _ hg)
  refine ⟨h.nodup_nodeIds, h.isId, h.isTidy, h.label, h.nodup_joined, fun g hg => ?_,
    fun g hg => ?_, ?_⟩
  · rcases hmem g hg with hg | ⟨hid, hlabel, -⟩
    · exact h.group g hg
    · exact ⟨hid, hlabel⟩
  · rcases hmem g hg with hg | ⟨-, -, hchildren⟩
    · exact h.children g hg
    · simp [hchildren]
  · have hnodup := h.nodup_children
    simpa [Draft.diagram, Draft.openGroup] using hnodup

/-- One more line keeps what a draft is. -/
theorem Draft.IsRead.readItem [Scalar α] {d : Draft α} (h : IsRead d.diagram) {item : Item}
    (hi : item.IsOneLine) : IsRead (d.readItem item).diagram := by
  cases item with
  | opening title => exact h.openGroup hi
  | closing =>
    show IsRead d.closeGroup.diagram
    rwa [Draft.diagram_closeGroup]
  | statement stmt =>
    have hstmt : IsStatement stmt := hi
    refine Draft.apply_induction (P := fun d => IsRead d.diagram) (fun m hm d hd => ?_)
      (fun p hp d source target hd => hd.connect (hstmt.next p hp).1 source target) h
    rcases List.mem_append.1 hm with hm | hm
    · exact hd.mention (hstmt.first m hm)
    · obtain ⟨p, hp, hm⟩ := List.mem_flatMap.1 hm
      exact hd.mention ((hstmt.next p hp).2 m hm)
  | directive => exact h
  | trailing _ => exact h
  | unreadable => exact h

/-! ## Pruning -/

/-- What a flowchart is besides, after what refers to nothing was dropped. -/
structure IsPruned (d : Diagram α) : Prop extends IsRead d where
  ends : ∀ e ∈ d.edges, e.source ∈ d.nodeIds ∧ e.target ∈ d.nodeIds
  two_children : ∀ g ∈ d.groups, 2 ≤ g.children.length

theorem mem_prunedGroups {d : Diagram α} {g : Group} (hg : g ∈ d.prunedGroups) :
    2 ≤ g.children.length ∧ ∃ g' ∈ d.groups, g.id = g'.id ∧ g.label = g'.label
      ∧ g.children.Sublist g'.children := by
  obtain ⟨hg, hlen⟩ := List.mem_filter.1 hg
  obtain ⟨g', hg', rfl⟩ := List.mem_map.1 hg
  exact ⟨by simpa using hlen, g', hg', rfl, rfl, List.filter_sublist⟩

theorem prunedGroups_sublist (d : Diagram α) :
    (d.prunedGroups.flatMap (·.children)).Sublist (d.groups.flatMap (·.children)) := by
  unfold Diagram.prunedGroups
  induction d.groups with
  | nil => simp
  | cons g gs ih =>
    rw [List.map_cons, List.filter_cons]
    split
    · rw [List.flatMap_cons, List.flatMap_cons]
      exact List.Sublist.append List.filter_sublist ih
    · rw [List.flatMap_cons]
      exact ih.trans (List.sublist_append_right _ _)

theorem label_prunedNode (groups : List Group) (n : Node α) :
    (Diagram.prunedNode groups n).label = n.label := by
  unfold Diagram.prunedNode
  split <;> rfl

theorem IsRead.prune {d : Diagram α} (h : IsRead d) : IsPruned d.prune where
  nodup_nodeIds := by rw [Diagram.nodeIds_prune]; exact h.nodup_nodeIds
  isId := by rw [Diagram.nodeIds_prune]; exact h.isId
  isTidy n hn := by
    obtain ⟨m, hm, rfl⟩ := List.mem_map.1 hn
    rw [label_prunedNode]
    exact h.isTidy m hm
  label e he := h.label e (List.mem_filter.1 he).1
  nodup_joined := h.nodup_joined.sublist (List.filter_sublist.map _)
  group g hg := by
    obtain ⟨-, g', hg', hid, hlabel, -⟩ := mem_prunedGroups hg
    rw [hid, hlabel]
    exact h.group g' hg'
  children g hg c hc := by
    obtain ⟨-, g', hg', -, -, hsub⟩ := mem_prunedGroups hg
    rw [Diagram.nodeIds_prune]
    exact h.children g' hg' c (hsub.subset hc)
  nodup_children := h.nodup_children.sublist (prunedGroups_sublist d)
  ends e he := by
    obtain ⟨h1, h2⟩ := Diagram.hasNode_of_mem_edges_prune he
    exact ⟨Diagram.hasNode_iff.1 h1, Diagram.hasNode_iff.1 h2⟩
  two_children g hg := (mem_prunedGroups hg).1

/-- Every draft that is read is a flowchart, with everything that refers to nothing. -/
theorem isRead_readLines [Scalar α] {lenient : Bool} {lines : List Line} {d : Draft α}
    (ht : ∀ l ∈ lines, '\n' ∉ l.text) (h : Draft.readLines lenient ({} : Draft α) lines = .ok d) :
    IsRead d.diagram := by
  rw [Draft.readLines_eq h]
  refine List.foldlRecOn (motive := fun d : Draft α => IsRead d.diagram) _ _ ?_ fun d hd i hi => ?_
  · exact ⟨by simp [Draft.diagram, Diagram.nodeIds], by simp [Draft.diagram, Diagram.nodeIds],
      by simp [Draft.diagram], by simp [Draft.diagram],
      by simp [Draft.diagram, Diagram.joined], by simp [Draft.diagram], by simp [Draft.diagram],
      by simp [Draft.diagram]⟩
  · obtain ⟨l, hl, rfl⟩ := List.mem_map.1 hi
    exact Draft.IsRead.readItem hd (isOneLine_read (ht l hl))

/-- A flowchart is a draft of its lines, without what refers to nothing. -/
theorem exists_of_parse [Scalar α] {lenient : Bool} {lines : List Line} {d : Diagram α}
    (h : parse lenient lines = .ok d) :
    ∃ draft, Draft.readLines lenient ({} : Draft α) lines = .ok draft ∧ draft.finish = d := by
  unfold parse at h
  cases hr : Draft.readLines lenient ({} : Draft α) lines with
  | error e => simp [hr, Except.map] at h
  | ok draft =>
    rw [hr] at h
    exact ⟨draft, rfl, Except.ok.inj h⟩

/-- Every flowchart that is read is one without loose ends, and no two of its edges join the same
nodes. -/
theorem isPruned_parse [Scalar α] {lenient : Bool} {lines : List Line} {d : Diagram α}
    (ht : ∀ l ∈ lines, '\n' ∉ l.text) (h : parse lenient lines = .ok d) : IsPruned d := by
  obtain ⟨draft, hr, rfl⟩ := exists_of_parse h
  exact (isRead_readLines ht hr).prune

/-- The grammar of flowcharts leaves the kind to the header. -/
theorem kind_of_parse [Scalar α] {lenient : Bool} {ls : List Line} {d : Diagram α}
    (h : parse lenient ls = .ok d) :
    d.kind = .flowchart := by
  obtain ⟨draft, -, rfl⟩ := exists_of_parse h
  rfl

end DiagramBoard.Grammar.Flowchart
