/-
DiagramBoard.Proofs.Grammar.FlowchartEvents — subgraphs and mentions on the lines of a flowchart.

Nodes and subgraphs depend on events: a subgraph opens, one closes, a node is mentioned.  What they
mean is said without reading them one after the other.  An opening is still open if no run of events
right behind it closes more than it opens, and the innermost subgraph is the last one that is open.
A node belongs to the innermost subgraph before its first mention; its label and shape are the last
that some mention declares.

Main statements: what one more event does to this.  An event that closes nothing leaves what is open
open (`openPlaces_of_ne`), and a closing one takes the innermost subgraph away
(`openPlaces_closing`), since the excess of openings behind an open subgraph is the number of
subgraphs that are open inside it (`hasExcess`).  A mention adds an id or none
(`mentionedIds_of_new`, `mentionedIds_of_known`) and declares what it says (`lastDeclared_concat`).
-/
import DiagramBoard.Grammar.FlowchartDraft
import Mathlib

namespace DiagramBoard.Grammar.Flowchart

/-! ## Events -/

/-- What happens to nodes and subgraphs on the lines of a flowchart, one thing at a time. -/
inductive Event
  /-- A subgraph opens, with this title. -/
  | opening (title : List Char)
  /-- The innermost subgraph closes. -/
  | closing
  | mention (m : NodeMention)
deriving DecidableEq, Repr

namespace Event

/-- The title of a subgraph that opens. -/
def title? : Event → Option (List Char)
  | opening title => some title
  | _ => none

/-- Whether a subgraph opens. -/
def isOpening (e : Event) : Bool := e.title?.isSome

/-- The node that is mentioned. -/
def mention? : Event → Option NodeMention
  | mention m => some m
  | _ => none

/-- Whether the node with an id is mentioned. -/
def isMentionOf (id : String) (e : Event) : Bool := e.mention?.any (·.id = id)

end Event

/-- What happens on a line. -/
def Item.events : Item → List Event
  | .opening title => [.opening title]
  | .closing => [.closing]
  | .statement stmt => (stmt.first ++ stmt.next.flatMap (·.2)).map .mention
  | .directive | .trailing _ | .unreadable => []

/-! ## Open subgraphs

Subgraphs are told apart by the places of their openings, since two of them may have the same id. -/

/-- Whether no run of events from the first one on closes more subgraphs than it opens. -/
def staysInside (es : List Event) : Bool :=
  es.inits.all fun run => run.count .closing ≤ run.countP Event.isOpening

/-- Whether the event at a place opens a subgraph that is still open at the end. -/
def isOpenAt (es : List Event) (k : Nat) : Bool :=
  es[k]?.any Event.isOpening && staysInside (es.drop (k + 1))

/-- The places of the subgraphs that are open at the end, the innermost first. -/
def openPlaces (es : List Event) : List Nat :=
  ((List.range es.length).filter (isOpenAt es)).reverse

/-- The place of the innermost subgraph that is open at the end. -/
def innermost? (es : List Event) : Option Nat := (openPlaces es).head?

/-- The id and label of the subgraph that opens at a place. -/
def subgraphAt (es : List Event) (k : Nat) : String × String :=
  subgraphTitle ((es[k]?.bind Event.title?).getD []) ((es.take k).countP Event.isOpening)

/-! ## Nodes -/

/-- The nodes that are mentioned, mention by mention. -/
def mentionsIn (es : List Event) : List NodeMention := es.filterMap Event.mention?

/-- The ids that are mentioned, in the order of their first mentions. -/
def mentionedIds (es : List Event) : List String := ((mentionsIn es).map (·.id)).eraseDups

/-- The last thing that mentions of a node declare. -/
def lastDeclared {β : Type} (part : NodeMention → Option β) (es : List Event) (id : String) :
    Option β :=
  (((mentionsIn es).filter (·.id = id)).filterMap part).getLast?

/-- The last label of a node that is not its id, else its id. -/
def declaredLabel (es : List Event) (id : String) : String :=
  (lastDeclared (fun m => m.label.filter (· ≠ id)) es id).getD id

/-- The last shape of a node that is not the default one, else that. -/
def declaredShape (es : List Event) (id : String) : Shape :=
  (lastDeclared (fun m => m.shape.filter (· ≠ .rectangle)) es id).getD .rectangle

/-- The place of the innermost subgraph that is open at the first mention of a node. -/
def home? (es : List Event) (id : String) : Option Nat :=
  innermost? (es.takeWhile fun e => !e.isMentionOf id)

/-- The nodes that are first mentioned directly in the subgraph of a place. -/
def members (es : List Event) (k : Nat) : List String :=
  (mentionedIds es).filter fun id => home? es id = some k

/-- The group of a node: the subgraph of its first mention, if that has two nodes. -/
def declaredGroup (es : List Event) (id : String) : Option String :=
  ((home? es id).filter fun k => 2 ≤ (members es k).length).map fun k => (subgraphAt es k).1

/-! ## One more event: subgraphs -/

theorem staysInside_iff {es : List Event} :
    staysInside es = true ↔ ∀ run, run <+: es → run.count .closing ≤ run.countP Event.isOpening := by
  simp [staysInside, List.mem_inits]

theorem staysInside_concat {es : List Event} {e : Event} :
    staysInside (es ++ [e]) = true ↔ staysInside es = true
      ∧ (es ++ [e]).count .closing ≤ (es ++ [e]).countP Event.isOpening := by
  rw [staysInside_iff, staysInside_iff]
  constructor
  · intro h
    exact ⟨fun run hrun => h run (hrun.trans (List.prefix_append _ _)), h _ (List.prefix_refl _)⟩
  · rintro ⟨h, hall⟩ run hrun
    rcases List.prefix_concat_iff.1 hrun with rfl | hrun
    · exact hall
    · exact h run hrun

theorem staysInside_concat_of_ne {es : List Event} {e : Event} (he : e ≠ .closing) :
    staysInside (es ++ [e]) = staysInside es := by
  rw [Bool.eq_iff_iff, staysInside_concat]
  refine and_iff_left_of_imp fun h => ?_
  have hle := staysInside_iff.1 h es (List.prefix_refl _)
  rw [List.count_append, List.countP_append, List.count_singleton, if_neg (by simpa using he)]
  omega

theorem isOpenAt_concat {es : List Event} {e : Event} {k : Nat} (hk : k < es.length) :
    isOpenAt (es ++ [e]) k = (es[k]?.any Event.isOpening && staysInside (es.drop (k + 1) ++ [e])) := by
  rw [isOpenAt, List.getElem?_append_left hk, List.drop_append_of_le_length hk]

theorem isOpenAt_length (es : List Event) (e : Event) :
    isOpenAt (es ++ [e]) es.length = e.isOpening := by
  simp [isOpenAt, staysInside]

theorem openPlaces_concat (es : List Event) (e : Event) :
    openPlaces (es ++ [e]) = (if e.isOpening then [es.length] else [])
      ++ ((List.range es.length).filter (isOpenAt (es ++ [e]))).reverse := by
  rw [openPlaces, List.length_append, List.length_singleton, List.range_succ, List.filter_append,
    List.reverse_append, List.filter_singleton, isOpenAt_length]
  cases e.isOpening <;> rfl

/-- An event that closes nothing leaves what is open open. -/
theorem openPlaces_of_ne {es : List Event} {e : Event} (he : e ≠ .closing) :
    openPlaces (es ++ [e]) = (if e.isOpening then [es.length] else []) ++ openPlaces es := by
  have hfilter : (List.range es.length).filter (isOpenAt (es ++ [e]))
      = (List.range es.length).filter (isOpenAt es) :=
    List.filter_congr fun k hk => by
      rw [isOpenAt_concat (List.mem_range.1 hk), staysInside_concat_of_ne he, isOpenAt]
  rw [openPlaces_concat, hfilter, openPlaces]

theorem mem_openPlaces {es : List Event} {k : Nat} :
    k ∈ openPlaces es ↔ k < es.length ∧ isOpenAt es k = true := by
  simp [openPlaces]

theorem pairwise_openPlaces (es : List Event) : (openPlaces es).Pairwise (· > ·) :=
  List.pairwise_reverse.2 (List.pairwise_lt_range.filter _)

/-- What has something above it in a list that descends is everything but the first. -/
theorem filter_any_lt_eq_tail {ks : List Nat} (h : ks.Pairwise (· > ·)) :
    (ks.filter fun k => decide (0 < ks.countP (k < ·))) = ks.tail := by
  cases ks with
  | nil => rfl
  | cons j ks =>
    have habove := List.pairwise_cons.1 h
    have htop : (j :: ks).countP (j < ·) = 0 := by
      rw [List.countP_eq_zero]
      intro k hk
      rcases List.mem_cons.1 hk with rfl | hk
      · simp
      · simpa using Nat.le_of_lt (habove.1 k hk)
    rw [List.filter_cons_of_neg (by simp [htop]), List.tail_cons, List.filter_eq_self]
    intro k hk
    have hpos : 0 < (j :: ks).countP (k < ·) :=
      List.countP_pos_iff.2 ⟨j, List.mem_cons_self, by simpa using habove.1 k hk⟩
    simpa using hpos

/-- A closing event leaves those open inside which another subgraph is open. -/
theorem isOpenAt_closing {es : List Event} {k : Nat} (hk : k < es.length) :
    isOpenAt (es ++ [.closing]) k = true ↔ isOpenAt es k = true
      ∧ (es.drop (k + 1)).count .closing < (es.drop (k + 1)).countP Event.isOpening := by
  rw [isOpenAt_concat hk, Bool.and_eq_true, staysInside_concat, isOpenAt, Bool.and_eq_true,
    and_assoc]
  simp [List.count_append, List.countP_append, Event.isOpening, Event.title?]

/-- The excess of openings over closings behind an open subgraph is the number of subgraphs that are
open inside it. -/
def HasExcess (es : List Event) : Prop :=
  ∀ k ∈ openPlaces es, (es.drop (k + 1)).countP Event.isOpening
    = (es.drop (k + 1)).count .closing + (openPlaces es).countP (k < ·)

theorem HasExcess.openPlaces_closing {es : List Event} (h : HasExcess es) :
    openPlaces (es ++ [.closing]) = (openPlaces es).tail := by
  rw [← filter_any_lt_eq_tail (pairwise_openPlaces es), openPlaces_concat]
  show ((List.range es.length).filter (isOpenAt (es ++ [.closing]))).reverse = _
  rw [openPlaces, List.filter_reverse, List.filter_filter]
  congr 1
  refine List.filter_congr fun k hk => ?_
  have hk := List.mem_range.1 hk
  rw [Bool.eq_iff_iff, isOpenAt_closing hk, Bool.and_eq_true, and_comm, decide_eq_true_eq]
  refine and_congr_left fun hopen => ?_
  have hexcess := h k (mem_openPlaces.2 ⟨hk, hopen⟩)
  rw [openPlaces] at hexcess
  omega

theorem HasExcess.closing {es : List Event} (h : HasExcess es) : HasExcess (es ++ [.closing]) := by
  intro k hk
  rw [h.openPlaces_closing] at hk ⊢
  have hmem : k ∈ openPlaces es := List.mem_of_mem_tail hk
  have hlt := (mem_openPlaces.1 hmem).1
  -- the subgraph that closes is above every one that stays open
  have hcount : (openPlaces es).countP (k < ·) = (openPlaces es).tail.countP (k < ·) + 1 := by
    cases hplaces : openPlaces es with
    | nil => simp [hplaces] at hk
    | cons j ks =>
      rw [hplaces] at hk
      have habove := (List.pairwise_cons.1 (hplaces ▸ pairwise_openPlaces es)).1 k hk
      rw [List.countP_cons_of_pos (by simpa using habove), List.tail_cons]
  rw [List.drop_append_of_le_length hlt, List.countP_append, List.count_append, h k hmem, hcount]
  simp [Event.isOpening, Event.title?]
  omega

theorem HasExcess.of_ne {es : List Event} (h : HasExcess es) {e : Event} (he : e ≠ .closing) :
    HasExcess (es ++ [e]) := by
  intro k hk
  rw [openPlaces_of_ne he] at hk ⊢
  rcases List.mem_append.1 hk with hk | hk
  · -- the subgraph that opens has no events behind it
    obtain ⟨hopen, rfl⟩ : e.isOpening = true ∧ k = es.length := by
      cases hopen : e.isOpening <;> simp_all
    have hbelow : (openPlaces es).countP (es.length < ·) = 0 :=
      List.countP_eq_zero.2 fun j hj => by simpa using Nat.le_of_lt (mem_openPlaces.1 hj).1
    simp [hopen, hbelow]
  · have hlt := (mem_openPlaces.1 hk).1
    rw [List.drop_append_of_le_length hlt, List.countP_append, List.count_append,
      List.countP_append, h k hk, List.count_singleton, if_neg (by simpa using he),
      List.countP_singleton]
    cases e.isOpening <;> simp [hlt]
    omega

theorem hasExcess (es : List Event) : HasExcess es := by
  induction es using List.reverseRecOn with
  | nil => simp [HasExcess, openPlaces]
  | append_singleton es e ih =>
    by_cases he : e = .closing
    · exact he ▸ ih.closing
    · exact ih.of_ne he

/-- A closing event closes the innermost subgraph. -/
theorem openPlaces_closing (es : List Event) :
    openPlaces (es ++ [.closing]) = (openPlaces es).tail := (hasExcess es).openPlaces_closing

theorem subgraphAt_append {es : List Event} {k : Nat} (hk : k < es.length) (fs : List Event) :
    subgraphAt (es ++ fs) k = subgraphAt es k := by
  rw [subgraphAt, List.getElem?_append_left hk, List.take_append_of_le_length (Nat.le_of_lt hk),
    subgraphAt]

/-! ## One more event: nodes -/

theorem mentionsIn_concat (es : List Event) (e : Event) :
    mentionsIn (es ++ [e]) = mentionsIn es ++ e.mention?.toList := by
  rw [mentionsIn, List.filterMap_append]
  cases he : e.mention? <;> simp [he, mentionsIn]

theorem mem_mentionedIds {es : List Event} {id : String} :
    id ∈ mentionedIds es ↔ ∃ e ∈ es, e.isMentionOf id = true := by
  simp only [mentionedIds, mentionsIn, List.mem_eraseDups, List.mem_map, List.mem_filterMap,
    Event.isMentionOf, Option.any_eq_true, decide_eq_true_eq]
  constructor
  · rintro ⟨m, ⟨e, he, hm⟩, rfl⟩
    exact ⟨e, he, m, hm, rfl⟩
  · rintro ⟨e, he, m, hm, rfl⟩
    exact ⟨m, ⟨e, he, hm⟩, rfl⟩

/-- Whether an event mentions no node that is new. -/
def MentionsKnown (es : List Event) (e : Event) : Prop :=
  ∀ m, e.mention? = some m → m.id ∈ mentionedIds es

theorem mentionsKnown_of_none {es : List Event} {e : Event} (h : e.mention? = none) :
    MentionsKnown es e := fun m hm => by simp [h] at hm

theorem mentionsKnown_mention {es : List Event} {m : NodeMention} (h : m.id ∈ mentionedIds es) :
    MentionsKnown es (.mention m) := fun m' hm => by
  obtain rfl := Option.some.inj hm
  exact h

/-- An event that mentions no new node adds no id. -/
theorem mentionedIds_of_known {es : List Event} {e : Event} (h : MentionsKnown es e) :
    mentionedIds (es ++ [e]) = mentionedIds es := by
  rw [mentionedIds, mentionsIn_concat, List.map_append, List.eraseDups_append]
  cases he : e.mention? with
  | none => simp [mentionedIds]
  | some m =>
    have hm : m.id ∈ (mentionsIn es).map (·.id) := List.mem_eraseDups.1 (h m he)
    have hnone : [m.id].removeAll ((mentionsIn es).map (·.id)) = [] := by
      simp only [List.removeAll, List.filter_eq_nil_iff, List.mem_singleton]
      rintro _ rfl
      simpa using hm
    simp only [Option.toList_some, List.map_cons, List.map_nil, hnone]
    simp [mentionedIds]

/-- The first mention of a node adds its id. -/
theorem mentionedIds_of_new {es : List Event} {m : NodeMention} (h : m.id ∉ mentionedIds es) :
    mentionedIds (es ++ [.mention m]) = mentionedIds es ++ [m.id] := by
  have hm : m.id ∉ (mentionsIn es).map (·.id) := fun hm => h (List.mem_eraseDups.2 hm)
  have hone : [m.id].removeAll ((mentionsIn es).map (·.id)) = [m.id] := by
    rw [List.removeAll, List.filter_eq_self]
    rintro _ hx
    rw [List.mem_singleton.1 hx]
    simpa using hm
  rw [mentionedIds, mentionsIn_concat, List.map_append, List.eraseDups_append]
  simp only [Event.mention?, Option.toList_some, List.map_cons, List.map_nil, hone]
  simp [mentionedIds, List.eraseDups_cons]

/-- An event mentions no new node, or it is the first mention of one. -/
theorem known_or_new (es : List Event) (e : Event) :
    MentionsKnown es e ∨ ∃ m, e = .mention m ∧ m.id ∉ mentionedIds es := by
  cases e with
  | mention m =>
    by_cases hm : m.id ∈ mentionedIds es
    · exact .inl (mentionsKnown_mention hm)
    · exact .inr ⟨m, rfl, hm⟩
  | _ => exact .inl (mentionsKnown_of_none rfl)

theorem nodup_mentionedIds (es : List Event) : (mentionedIds es).Nodup := by
  induction es using List.reverseRecOn with
  | nil => simp [mentionedIds, mentionsIn]
  | append_singleton es e ih =>
    rcases known_or_new es e with h | ⟨m, rfl, h⟩
    · rwa [mentionedIds_of_known h]
    · rw [mentionedIds_of_new h]
      exact List.Nodup.append ih (List.nodup_singleton _) (List.disjoint_singleton.2 h)

/-- A node stays where it was mentioned first. -/
theorem home?_append {es : List Event} {id : String} (h : id ∈ mentionedIds es) (fs : List Event) :
    home? (es ++ fs) id = home? es id := by
  obtain ⟨e, he, hid⟩ := mem_mentionedIds.1 h
  rw [home?, List.takeWhile_append, if_neg, home?]
  intro hlen
  have hall := (List.takeWhile_prefix fun e : Event => !e.isMentionOf id).eq_of_length hlen
  have := List.mem_takeWhile_imp (hall ▸ he)
  simp [hid] at this

/-- The first mention of a node is inside the subgraph that is innermost then. -/
theorem home?_of_new {es : List Event} {m : NodeMention} (h : m.id ∉ mentionedIds es) :
    home? (es ++ [.mention m]) m.id = innermost? es := by
  have hall : ∀ e ∈ es, (!e.isMentionOf m.id) = true := by
    intro e he
    have : e.isMentionOf m.id ≠ true := fun hid => h (mem_mentionedIds.2 ⟨e, he, hid⟩)
    simpa using this
  rw [home?, List.takeWhile_append_of_pos hall]
  simp [Event.isMentionOf, Event.mention?]

theorem members_of_known {es : List Event} {e : Event} (h : MentionsKnown es e) (k : Nat) :
    members (es ++ [e]) k = members es k := by
  rw [members, mentionedIds_of_known h]
  exact List.filter_congr fun id hid => by rw [home?_append hid]

theorem members_of_new {es : List Event} {m : NodeMention} (h : m.id ∉ mentionedIds es) (k : Nat) :
    members (es ++ [.mention m]) k
      = members es k ++ if innermost? es = some k then [m.id] else [] := by
  rw [members, mentionedIds_of_new h, List.filter_append, List.filter_singleton, home?_of_new h]
  congr 1
  · exact List.filter_congr fun id hid => by rw [home?_append hid]
  · simp

/-- Every mention of a node declares what it says of it. -/
theorem lastDeclared_concat {β : Type} (part : NodeMention → Option β) (es : List Event) (e : Event)
    (id : String) :
    lastDeclared part (es ++ [e]) id
      = ((e.mention?.filter (·.id = id)).bind part).or (lastDeclared part es id) := by
  rw [lastDeclared, mentionsIn_concat, List.filter_append, List.filterMap_append,
    List.getLast?_append]
  congr 1
  cases e.mention? with
  | none => rfl
  | some m =>
    by_cases hid : m.id = id
    · cases hpart : part m <;> simp [Option.filter, hid, hpart]
    · simp [Option.filter, hid]

theorem lastDeclared_of_new {β : Type} (part : NodeMention → Option β) {es : List Event}
    {id : String} (h : id ∉ mentionedIds es) : lastDeclared part es id = none := by
  have hnone : (mentionsIn es).filter (·.id = id) = [] := by
    rw [List.filter_eq_nil_iff]
    intro m hm hid
    exact h (List.mem_eraseDups.2 (List.mem_map.2 ⟨m, hm, of_decide_eq_true hid⟩))
  rw [lastDeclared, hnone]
  rfl

end DiagramBoard.Grammar.Flowchart
