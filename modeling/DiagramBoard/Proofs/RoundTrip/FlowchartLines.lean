/-
DiagramBoard.Proofs.RoundTrip.FlowchartLines — the lines of a written flowchart.

Main statement: each line of a written flowchart is read as the item that it was written for
(`says_body`).
-/
import DiagramBoard.Proofs.Diagram.Coherent
import DiagramBoard.Proofs.Grammar.FlowchartDraft

namespace DiagramBoard.Grammar.Flowchart

open Text
open Writer (indent trim_indent)
open Writer.Flowchart (labelText declaration linkToken isPlainNode groupHeader groupLines isLinked
  isGrouped nodeLine? edgeLine body)

variable {α : Type}

/-! ## Lines of nodes -/

/-- A node as its line mentions it. -/
def nodeText (compact : Bool) (n : Node α) : List Char :=
  if compact && isPlainNode n then n.id.toList else declaration compact n

/-- What the line of a node mentions if its label is tidy. -/
def nodeMention (compact : Bool) (n : Node α) : NodeMention :=
  if compact && isPlainNode n then { id := n.id } else declaredMention n

@[simp] theorem nodeMention_id (compact : Bool) (n : Node α) : (nodeMention compact n).id = n.id := by
  unfold nodeMention
  split <;> rfl

/-- What the line of a node mentions: its label loses the blanks around it. -/
def saidMention (compact : Bool) (n : Node α) : NodeMention :=
  if compact && isPlainNode n then { id := n.id } else declaredMention n.trimmed

theorem saidMention_eq_nodeMention (compact : Bool) {n : Node α} (h : IsTidy n.label.toList) :
    saidMention compact n = nodeMention compact n := by
  rw [saidMention, nodeMention, Node.trimmed_eq_self h]

/-- Two nodes that are written alike. -/
def Alike (n m : Node α) : Prop := n.id = m.id ∧ n.label = m.label ∧ n.shape = m.shape

theorem nodeText_of_alike {compact : Bool} {n m : Node α} (h : Alike n m) : nodeText compact n = nodeText compact m := by
  cases n
  cases m
  obtain ⟨rfl, rfl, rfl⟩ := h
  rfl

/-- A node that can stand on a line of its own. -/
structure IsNodeLine (compact : Bool) (n : Node α) : Prop where
  isId : IsId n.id.toList
  isLegible : IsLegible n.label.toList
  bare : compact = true → isPlainNode n = true → n.id ≠ "subgraph" ∧ n.id ≠ "end"

theorem read_nodeText {compact : Bool} {n : Node α} (h : IsNodeLine compact n) :
    Item.read (nodeText compact n) = .statement ⟨[saidMention compact n], []⟩ := by
  unfold nodeText saidMention
  split
  · rename_i hp
    obtain ⟨hc, hp⟩ := Bool.and_eq_true_iff.1 hp
    obtain ⟨h1, h2⟩ := h.bare hc hp
    have := read_bare h.isId (fun he => h1 (String.toList_inj.1 he))
      fun he => h2 (String.toList_inj.1 he)
    rwa [String.ofList_toList] at this
  · exact read_declaration h.isId h.isLegible.trim_ne_nil compact

theorem head_nodeText (compact : Bool) {n : Node α} (h : IsId n.id.toList) :
    ∃ c t, nodeText compact n = c :: t ∧ isWordChar c = true := by
  obtain ⟨c, t, hct, hc⟩ := h.exists_cons
  unfold nodeText
  split
  · exact ⟨c, t, hct, hc⟩
  · exact ⟨c, _, by simp only [declaration, hct, List.cons_append]; rfl, hc⟩

theorem lineFeed_notMem_labelText (compact : Bool) {l : String} (h : '\n' ∉ l.toList) :
    '\n' ∉ labelText compact l := by
  rcases labelText_cases compact l with he | ⟨he, -⟩
  · have := Entity.notMem_encode (c := '\n') (by decide) h
    simp [he, this]
  · rwa [he]

theorem lineFeed_notMem_nodeText {compact : Bool} {n : Node α} (h : IsNodeLine compact n) :
    '\n' ∉ nodeText compact n := by
  have hid := h.isId.isName.lineFeed_notMem
  have hlabel := lineFeed_notMem_labelText compact h.isLegible.lineFeed_notMem
  have hopen : '\n' ∉ (Writer.Flowchart.bracketsOf n.shape).1.toList := by
    cases n.shape <;> decide
  have hclose : '\n' ∉ (Writer.Flowchart.bracketsOf n.shape).2.toList := by
    cases n.shape <;> decide
  unfold nodeText
  split
  · exact hid
  · simp [declaration, hid, hlabel, hopen, hclose]

theorem trim_nodeText {compact : Bool} {n : Node α} (h : IsId n.id.toList) :
    trim (nodeText compact n) = nodeText compact n := by
  unfold nodeText
  split
  · exact trim_eq_self_of_forall h.isName.isBlank
  · obtain ⟨-, d, hd, hclose⟩ := bracketsOf_cons n.shape
    have hne : (Writer.Flowchart.bracketsOf n.shape).2.toList ≠ [] := by
      intro he
      simp [he] at hd
    have hsplit : declaration compact n = (n.id.toList
        ++ ((Writer.Flowchart.bracketsOf n.shape).1.toList ++ labelText compact n.label))
          ++ (Writer.Flowchart.bracketsOf n.shape).2.toList := by
      simp [declaration]
    rw [hsplit]
    refine trim_append_eq_self (by simp [h.ne_nil]) (fun c hc => ?_) hne fun c hc => ?_
    · rw [List.head?_append_of_ne_nil _ h.ne_nil] at hc
      exact h.isName.head c hc
    · obtain rfl : d = c := Option.mem_unique hd hc
      simp only [List.mem_cons, List.not_mem_nil, or_false] at hclose
      rcases hclose with rfl | rfl | rfl <;> decide

/-! ## Lines of groups -/

/-- The title of a group behind its keyword. -/
def groupTitle (g : Group) : List Char :=
  g.id.toList ++ if g.label = g.id then [] else ' ' :: '[' :: '"' :: (Entity.encode g.label.toList
    ++ ['"', ']'])

theorem trim_groupTitle {g : Group} (hw : IsId g.id.toList) : trim (groupTitle g) = groupTitle g := by
  unfold groupTitle
  split
  · rw [List.append_nil]
    exact trim_eq_self_of_forall hw.isName.isBlank
  · have hb : isBlank ']' = false := by decide
    refine trim_append_eq_self hw.ne_nil hw.isName.head (by simp) ?_
    have hlast : (' ' :: '[' :: '"' :: (Entity.encode g.label.toList ++ ['"', ']']))
        = (' ' :: '[' :: '"' :: (Entity.encode g.label.toList ++ ['"'])) ++ [']'] := by simp
    rw [hlast, List.getLast?_append_of_ne_nil _ (by simp)]
    simp [hb]

/-- A title that starts with an id has a label if one stands between brackets behind it. -/
theorem subgraphTitle_id {w r : List Char} (hw : IsId w) (hr : ∀ c ∈ r.head?, isNameChar c = false)
    (htrim : trim (w ++ r) = w ++ r) (ordinal : Nat) :
    subgraphTitle (w ++ r) ordinal = match trim r with
      | [] => (String.ofList w, String.ofList w)
      | r' => match insideBrackets? r' with
        | some inner => (String.ofList w, String.ofList (Entity.decode (stripQuotes (trim inner))))
        | none => freeTitle (w ++ r) ordinal := by
  obtain ⟨c, t, hct, hc⟩ := hw.exists_cons
  have hquote : c ≠ '"' := by
    rintro rfl
    revert hc
    decide
  have hid : id? (w ++ r) = some (w, r) := id?_append hw hr
  have hcons : w ++ r = c :: (t ++ r) := by rw [hct, List.cons_append]
  rw [subgraphTitle, htrim]
  split
  · rename_i heq
    rw [hcons] at heq
    simp at heq
  · rename_i heq
    rw [hcons] at heq
    exact absurd (List.cons.inj heq).1 hquote
  · generalize id? (w ++ r) = o at hid ⊢
    subst hid
    rfl

/-- The label of a group stands in quotes between its brackets. -/
theorem insideBrackets?_label (l : List Char) :
    ∃ r, trim (' ' :: '[' :: '"' :: (Entity.encode l ++ ['"', ']'])) = '[' :: r
      ∧ insideBrackets? ('[' :: r) = some ('"' :: (Entity.encode l ++ ['"'])) := by
  have hopen : isBlank '[' = false := by decide
  have hclose : isBlank ']' = false := by decide
  refine ⟨('"' :: (Entity.encode l ++ ['"'])) ++ [']'], ?_, beforeLast?_append ']' _⟩
  have hcons : '[' :: '"' :: (Entity.encode l ++ ['"', ']'])
      = ('[' :: '"' :: (Entity.encode l ++ ['"'])) ++ [']'] := by simp
  rw [trim_space, hcons]
  exact trim_append_eq_self (by simp) (by simp [hopen]) (by simp) (by simp [hclose])

/-- The title of a group says what its id and label are. -/
theorem subgraphTitle_groupTitle {g : Group} (hw : IsId g.id.toList) (ordinal : Nat) :
    subgraphTitle (groupTitle g) ordinal = (g.id, g.label) := by
  have htrim := trim_groupTitle hw
  by_cases hl : g.label = g.id
  · rw [groupTitle, if_pos hl] at htrim ⊢
    rw [subgraphTitle_id hw (by simp) htrim, trim_nil, hl, String.ofList_toList]
  · have hspace : isNameChar ' ' = false := by decide
    obtain ⟨r, hr, hinside⟩ := insideBrackets?_label g.label.toList
    rw [groupTitle, if_neg hl] at htrim ⊢
    rw [subgraphTitle_id hw (by simp [hspace]) htrim, hr]
    simp only [hinside, trim_quoted, stripQuotes_quoted, Entity.decode_encode, String.ofList_toList]

theorem groupHeader_eq (g : Group) :
    groupHeader g = indent ++ ("subgraph".toList ++ ' ' :: groupTitle g) := by
  unfold groupHeader groupTitle
  split <;> simp

/-- The first line of a group opens a subgraph, whatever its title is. -/
theorem read_groupHeader (g : Group) :
    Item.read (trim (groupHeader g)) = .opening (trim (groupTitle g)) := by
  have hs : isBlank 's' = false := by decide
  have hspace : isBlank ' ' = true := by decide
  have hkey : afterKeyword? "subgraph" (trim ("subgraph".toList ++ ' ' :: groupTitle g))
      = some (trim (groupTitle g)) := by
    obtain ⟨b, e, htitle, hb, he⟩ := exists_eq_append_trim (groupTitle g)
    by_cases hnil : trim (groupTitle g) = []
    · have hblank : ∀ c ∈ ' ' :: groupTitle g, isBlank c = true := by
        rw [hnil, List.append_nil] at htitle
        rw [htitle]
        exact List.forall_mem_cons.2 ⟨hspace, List.forall_mem_append.2 ⟨hb, he⟩⟩
      rw [hnil, trim_append_blank hblank]
      exact afterKeyword?_self "subgraph"
    · have hsplit : "subgraph".toList ++ ' ' :: groupTitle g
          = ("subgraph".toList ++ ' ' :: (b ++ trim (groupTitle g))) ++ e := by
        conv_lhs => rw [htitle]
        simp
      have htrim : trim ("subgraph".toList ++ ' ' :: (b ++ trim (groupTitle g)))
          = "subgraph".toList ++ ' ' :: (b ++ trim (groupTitle g)) := by
        refine trim_append_eq_self (by simp) (by simp [hs]) (by simp) ?_
        rw [← List.cons_append, List.getLast?_append_of_ne_nil _ hnil]
        exact trim_last _
      rw [hsplit, trim_append_blank he, htrim, afterKeyword?_space, trimStart,
        List.dropWhile_append_of_pos hb]
      exact congrArg some (trimStart_eq_self (trim_head _))
  rw [groupHeader_eq, trim_indent, Item.read, hkey]

theorem lineFeed_notMem_groupHeader {g : Group} (hid : '\n' ∉ g.id.toList)
    (hl : '\n' ∉ g.label.toList) : '\n' ∉ groupHeader g := by
  have hlabel := Entity.notMem_encode (c := '\n') (by decide) hl
  unfold groupHeader
  split <;> simp [indent, hid, hlabel]

/-! ## What the lines say -/

/-- A line that says what an item is. -/
structure Says (line : List Char) (item : Item) : Prop where
  lineFeed_notMem : '\n' ∉ line
  isContent : IsContent (trim line)
  read : Item.read (trim line) = item

/-- The statement of a node alone if its label is tidy. -/
def nodeItem (compact : Bool) (n : Node α) : Item := .statement ⟨[nodeMention compact n], []⟩

/-- The statement of a node alone. -/
def saidItem (compact : Bool) (n : Node α) : Item := .statement ⟨[saidMention compact n], []⟩

theorem saidItem_eq_nodeItem (compact : Bool) {n : Node α} (h : IsTidy n.label.toList) :
    saidItem compact n = nodeItem compact n := by
  rw [saidItem, saidMention_eq_nodeMention compact h, nodeItem]

variable {compact : Bool} {d : Diagram α}

theorem says_nodeLine {n : Node α} (h : IsNodeLine compact n) {s : List Char}
    (hs : s = indent ++ nodeText compact n ∨ s = indent ++ indent ++ nodeText compact n) :
    Says s (saidItem compact n) := by
  have htrim : trim s = nodeText compact n := by
    rcases hs with rfl | rfl
    · rw [trim_indent, trim_nodeText h.isId]
    · rw [List.append_assoc, trim_indent, trim_indent, trim_nodeText h.isId]
  have hn := lineFeed_notMem_nodeText h
  refine ⟨?_, ?_, by rw [htrim]; exact read_nodeText h⟩
  · rcases hs with rfl | rfl <;> simp [indent, hn]
  · obtain ⟨c, t, hct, hc⟩ := head_nodeText compact h.isId
    rw [htrim, hct]
    refine isContent_cons ?_ t
    rintro rfl
    revert hc
    decide

theorem says_groupHeader {g : Group} (h : '\n' ∉ groupHeader g) :
    Says (groupHeader g) (.opening (trim (groupTitle g))) where
  lineFeed_notMem := h
  isContent := by
    obtain ⟨r, hr⟩ := trim_cons (show isBlank 's' = false by decide)
      ("ubgraph".toList ++ ' ' :: groupTitle g)
    have hline : trim (groupHeader g) = 's' :: r := by
      rw [groupHeader_eq, trim_indent, ← hr]
      rfl
    rw [hline]
    exact isContent_cons (by decide) _
  read := read_groupHeader g

theorem edgeLine_eq [Scalar α] (e : Edge α) : edgeLine compact e = indent ++ edgeText compact e := by
  unfold edgeLine edgeText barText
  cases e.label <;> simp

theorem says_edgeLine [Scalar α] {e : Edge α} (hs : IsId e.source.toList) (ht : IsId e.target.toList)
    (hl : ∀ l ∈ e.label, IsLegible l.toList) (hsub : e.source ≠ "subgraph") :
    Says (edgeLine compact e) (.statement (edgeStatement e.trimmed)) := by
  obtain ⟨c, t, hct, hc⟩ := hs.exists_cons
  have htrim : trim (edgeLine compact e) = edgeText compact e := by
    rw [edgeLine_eq, trim_indent]
    have hsplit : edgeText compact e = (e.source.toList ++ ' ' :: ((linkToken e).toList
        ++ (barText compact e.label ++ [' ']))) ++ e.target.toList := by
      simp [edgeText]
    rw [hsplit]
    refine trim_append_eq_self (by simp) ?_ ht.ne_nil ht.isName.last
    rw [hct]
    simpa using isBlank_of_isWordChar hc
  refine ⟨?_, ?_, by
    rw [htrim]
    exact read_edgeText hs ht (fun l he => (hl l he).trim_ne_nil) hsub compact⟩
  · have h1 := hs.isName.lineFeed_notMem
    have h2 := ht.isName.lineFeed_notMem
    have h3 : '\n' ∉ barText compact e.label := by
      cases he : e.label with
      | none => simp [barText]
      | some l =>
        have := lineFeed_notMem_labelText compact (hl l he).lineFeed_notMem
        simp [barText, this]
    have h4 : '\n' ∉ (linkToken e).toList := by
      have hall : ∀ p ∈ writtenTokens, '\n' ∉ p.1.toList := by decide
      exact hall _ (linkToken_mem e)
    rw [edgeLine_eq]
    simp [indent, edgeText, h1, h2, h3, h4]
  · rw [htrim, edgeText, hct]
    refine isContent_cons ?_ _
    rintro rfl
    revert hc
    decide

/-! ## The nodes of a flowchart -/

theorem node?_of_mem (hnodup : d.nodeIds.Nodup) {n : Node α} (hn : n ∈ d.nodes) :
    d.node? n.id = some n := by
  unfold Diagram.node?
  cases hf : d.nodes.find? (·.id = n.id) with
  | none =>
    have := List.find?_eq_none.1 hf n hn
    simp at this
  | some m =>
    have hm := List.mem_of_find?_eq_some hf
    have hid : m.id = n.id := by simpa using List.find?_some hf
    rw [List.inj_on_of_nodup_map hnodup hm hn hid]

/-- The nodes of a group in a diagram. -/
def membersOf (d : Diagram α) (g : Group) : List (Node α) := g.children.filterMap d.node?

theorem mem_membersOf {g : Group} {n : Node α} (h : n ∈ membersOf d g) :
    n ∈ d.nodes ∧ n.id ∈ g.children := by
  obtain ⟨c, hc, hn⟩ := List.mem_filterMap.1 h
  have hid : n.id = c := by simpa using List.find?_some hn
  exact ⟨List.mem_of_find?_eq_some hn, hid ▸ hc⟩

theorem ids_membersOf (hnodup : d.nodeIds.Nodup) {g : Group} (hg : ∀ c ∈ g.children, c ∈ d.nodeIds) :
    (membersOf d g).map (·.id) = g.children := by
  rw [membersOf, List.map_filterMap]
  have hsome : ∀ c ∈ g.children, (d.node? c).map (·.id) = some c := by
    intro c hc
    obtain ⟨n, hn, rfl⟩ := List.mem_map.1 (hg c hc)
    rw [node?_of_mem hnodup hn, Option.map_some]
  rw [List.filterMap_congr hsome, List.filterMap_some]

/-- Whether a node has a line of its own outside the groups. -/
def standsAlone (compact : Bool) (d : Diagram α) (n : Node α) : Bool :=
  !isGrouped d n.id && (!compact || !isPlainNode n || !isLinked d n.id)

theorem nodeLine?_eq (compact : Bool) (d : Diagram α) (n : Node α) : nodeLine? compact d n
    = if standsAlone compact d n then some (indent ++ nodeText compact n) else none := by
  unfold nodeLine? standsAlone nodeText
  cases isGrouped d n.id <;> cases compact <;> cases isPlainNode n <;> cases isLinked d n.id <;> rfl

/-- A flowchart that comes back from its text. -/
structure IsWritable (compact : Bool) (d : Diagram α) : Prop extends IsPruned d where
  edge_isTidy : ∀ e ∈ d.edges, ∀ l ∈ e.label, IsTidy l.toList
  source_ne : ∀ e ∈ d.edges, e.source ≠ "subgraph"
  bare_ne : compact = true → ∀ n ∈ d.nodes, isPlainNode n = true →
    (isGrouped d n.id || !isLinked d n.id) = true → n.id ≠ "subgraph" ∧ n.id ≠ "end"

theorem isGrouped_of_mem {g : Group} (hg : g ∈ d.groups) {id : String} (hid : id ∈ g.children) :
    isGrouped d id = true :=
  List.any_eq_true.2 ⟨g, hg, by simpa using hid⟩

theorem isGrouped_iff {id : String} :
    isGrouped d id = true ↔ id ∈ d.groups.flatMap (·.children) := by
  simp [isGrouped]

/-- No node is listed twice among the groups and the nodes that stand alone. -/
theorem nodup_alone (h : IsWritable compact d) : (d.groups.flatMap (·.children)
    ++ (d.nodes.filter (standsAlone compact d)).map (·.id)).Nodup := by
  refine List.nodup_append.2 ⟨h.nodup_children,
    h.nodup_nodeIds.sublist (List.filter_sublist.map _), ?_⟩
  rintro c hc x hx rfl
  obtain ⟨g, hg, hc⟩ := List.mem_flatMap.1 hc
  obtain ⟨n, hn, rfl⟩ := List.mem_map.1 hx
  have halone := (List.mem_filter.1 hn).2
  rw [standsAlone, isGrouped_of_mem hg hc] at halone
  simp at halone

/-- A node that is grouped or stands alone has a line of its own. -/
theorem isNodeLine_of_mem (h : IsWritable compact d) {n : Node α} (hn : n ∈ d.nodes)
    (hline : isGrouped d n.id = true ∨ standsAlone compact d n = true) : IsNodeLine compact n := by
  refine ⟨h.isId _ (Diagram.mem_nodeIds hn), (h.isTidy n hn).isLegible, fun hc hp => h.bare_ne hc n hn hp ?_⟩
  rcases hline with hg | hs
  · simp [hg]
  · subst hc
    simp only [standsAlone, hp, Bool.and_eq_true] at hs
    have : isLinked d n.id = false := by simpa using hs.2
    simp [this]

/-! ## All lines -/

/-- The items of the lines of a flowchart, made of those of its groups, nodes and edges. -/
def itemsOf (opening : Group → Item) (item : Node α → Item) (link : Edge α → Item) (compact : Bool)
    (d : Diagram α) : List Item :=
  d.groups.flatMap (fun g => opening g :: (membersOf d g).map item ++ [.closing])
    ++ (d.nodes.filter (standsAlone compact d)).map item ++ d.edges.map link

/-- The items of the lines of a group. -/
def groupItems (compact : Bool) (d : Diagram α) (g : Group) : List Item :=
  .opening (groupTitle g) :: (membersOf d g).map (nodeItem compact) ++ [.closing]

/-- The lines of a group say what its first line and the lines of its nodes say. -/
theorem says_groupLines {opening : Group → Item} {item : Node α → Item} {g : Group}
    (hgroup : Says (groupHeader g) (opening g))
    (hnode : ∀ n ∈ membersOf d g, Says (indent ++ indent ++ nodeText compact n) (item n)) :
    List.Forall₂ Says (groupLines compact d g)
      (opening g :: (membersOf d g).map item ++ [.closing]) := by
  refine List.rel_append (.cons hgroup ?_) (.cons ?_ .nil)
  · rw [List.forall₂_map_left_iff, List.forall₂_map_right_iff]
    exact List.forall₂_same.2 hnode
  · exact ⟨by decide, isContent_cons (by decide) _, rfl⟩

theorem filterMap_nodeLine? (compact : Bool) (d : Diagram α) (ns : List (Node α)) :
    ns.filterMap (nodeLine? compact d)
      = (ns.filter (standsAlone compact d)).map fun n => indent ++ nodeText compact n := by
  induction ns with
  | nil => rfl
  | cons n ns ih =>
    rw [List.filterMap_cons, List.filter_cons, nodeLine?_eq, ih]
    cases standsAlone compact d n <;> rfl

variable [Scalar α]

/-- The items of the lines of a flowchart. -/
def bodyItems (compact : Bool) (d : Diagram α) : List Item :=
  d.groups.flatMap (groupItems compact d)
    ++ (d.nodes.filter (standsAlone compact d)).map (nodeItem compact)
    ++ d.edges.map fun e => .statement (edgeStatement e)

theorem bodyItems_eq (compact : Bool) (d : Diagram α) : bodyItems compact d
    = itemsOf (fun g => .opening (groupTitle g)) (nodeItem compact)
      (fun e => .statement (edgeStatement e)) compact d := rfl

/-- The lines of a flowchart say what the lines of its parts say. -/
theorem says_body_of_parts {opening : Group → Item} {item : Node α → Item} {link : Edge α → Item}
    (hgroup : ∀ g ∈ d.groups, Says (groupHeader g) (opening g))
    (hnode : ∀ n ∈ d.nodes, isGrouped d n.id = true ∨ standsAlone compact d n = true →
      ∀ s, s = indent ++ nodeText compact n ∨ s = indent ++ indent ++ nodeText compact n →
        Says s (item n))
    (hedge : ∀ e ∈ d.edges, Says (edgeLine compact e) (link e)) :
    List.Forall₂ Says (body compact d) (itemsOf opening item link compact d) := by
  have hgroups : ∀ g ∈ d.groups, List.Forall₂ Says (groupLines compact d g)
      (opening g :: (membersOf d g).map item ++ [.closing]) := by
    refine fun g hg => says_groupLines (hgroup g hg) fun n hn => ?_
    obtain ⟨hn, hc⟩ := mem_membersOf hn
    exact hnode n hn (.inl (isGrouped_of_mem hg hc)) _ (.inr rfl)
  have halone : List.Forall₂ Says (d.nodes.filterMap (nodeLine? compact d))
      ((d.nodes.filter (standsAlone compact d)).map item) := by
    rw [filterMap_nodeLine?, List.forall₂_map_left_iff, List.forall₂_map_right_iff]
    refine List.forall₂_same.2 fun n hn => ?_
    obtain ⟨hn, hs⟩ := List.mem_filter.1 hn
    exact hnode n hn (.inr hs) _ (.inl rfl)
  have hedges : List.Forall₂ Says (d.edges.map (edgeLine compact)) (d.edges.map link) := by
    rw [List.forall₂_map_left_iff, List.forall₂_map_right_iff]
    exact List.forall₂_same.2 hedge
  refine List.rel_append (List.rel_append ?_ halone) hedges
  refine List.rel_flatMap (R := fun g k => g = k ∧ g ∈ d.groups)
    (List.forall₂_same.2 fun g hg => ⟨rfl, hg⟩) ?_
  rintro g _ ⟨rfl, hg⟩
  exact hgroups g hg

/-- The lines of a flowchart say what its items are. -/
theorem says_body (h : IsWritable compact d) :
    List.Forall₂ Says (body compact d) (bodyItems compact d) := by
  rw [bodyItems_eq]
  refine says_body_of_parts (fun g hg => ?_) (fun n hn hline s hs => ?_) fun e he => ?_
  · obtain ⟨hw, hl⟩ := h.group g hg
    have hsays := says_groupHeader (lineFeed_notMem_groupHeader hw.isName.lineFeed_notMem hl)
    rwa [trim_groupTitle hw] at hsays
  · rw [← saidItem_eq_nodeItem compact (h.isTidy n hn)]
    exact says_nodeLine (isNodeLine_of_mem h hn hline) hs
  · have hsays : Says (edgeLine compact e) (.statement (edgeStatement e.trimmed)) :=
      says_edgeLine (h.isId _ (h.ends e he).1) (h.isId _ (h.ends e he).2)
        (fun l hl => (h.edge_isTidy e he l hl).isLegible) (h.source_ne e he)
    rwa [Edge.trimmed_eq_self (h.edge_isTidy e he)] at hsays

end DiagramBoard.Grammar.Flowchart
