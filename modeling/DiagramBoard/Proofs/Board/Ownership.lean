/-
DiagramBoard.Proofs.Board.Ownership — who owns an element after a run of entries.

A table is filled entry by entry, and a part may be entered again with other elements: a board does
so for a participant and its lifeline, and for arrows that show the same edge.  From then on the
table leads from the part to the new elements only, but nobody takes the old ones from it: an element
has the last part as its owner that it was ever entered for.

Main statements: an element is owned by the part that it was entered for, as long as that is one part
only (`owner?_ofEntries`); so the two directions of a table agree exactly if no entry takes an element
from its part (`isBidirectional_ofEntries_iff`), which none does where every part is entered once
(`isBidirectional_of_nodup`).
-/
import DiagramBoard.Proofs.Board.Identity

namespace DiagramBoard

namespace Identity

/-! ## Entries -/

/-- A part of a diagram with the elements that are entered for it. -/
inductive Entry
  | node (id : String) (elements : NodeElements)
  | edge (id : String) (elements : EdgeElements)
deriving DecidableEq, Repr

namespace Entry

/-- The id of the part. -/
def part : Entry → String
  | node id _ => id
  | edge id _ => id

/-- The ids of the elements. -/
def ids : Entry → List String
  | node _ elements => elements.ids
  | edge _ elements => elements.ids

end Entry

/-- The table with one more entry. -/
def enter (t : Identity) : Entry → Identity
  | .node id elements => t.insertNode id elements
  | .edge id elements => t.insertEdge id elements

/-- The table after a run of entries. -/
def ofEntries (entries : List Entry) : Identity := entries.foldl enter {}

/-- Whether a table leads from a part to an element. -/
def Shows (t : Identity) (part element : String) : Prop :=
  (∃ n, t.node? part = some n ∧ element ∈ n.ids) ∨ ∃ e, t.edge? part = some e ∧ element ∈ e.ids

/-- Whether the two directions of a table agree: an element leads to the part that leads to it. -/
def IsBidirectional (t : Identity) : Prop :=
  ∀ element part, t.owner? element = some part ↔ t.Shows part element

/-- Whether no element is entered for two parts. -/
def AreApart (entries : List Entry) : Prop :=
  ∀ x ∈ entries, ∀ y ∈ entries, ∀ element ∈ x.ids, element ∈ y.ids → x.part = y.part

/-! ## One entry -/

variable {t : Identity} {x : Entry} {part element : String}

theorem owner?_enter (t : Identity) (x : Entry) (element : String) :
    (t.enter x).owner? element = if element ∈ x.ids then some x.part else t.owner? element := by
  cases x with
  | node id elements => exact owner?_insertNode t id element elements
  | edge id elements => exact owner?_insertEdge t id element elements

theorem node?_insertNode (t : Identity) (id other : String) (elements : NodeElements) :
    (t.insertNode id elements).node? other = if other = id then some elements else t.node? other :=
  Table.get?_put t.nodes id other elements

theorem edge?_insertEdge (t : Identity) (id other : String) (elements : EdgeElements) :
    (t.insertEdge id elements).edge? other = if other = id then some elements else t.edge? other :=
  Table.get?_put t.edges id other elements

/-- An entered part leads to its elements. -/
theorem shows_enter_self (t : Identity) (x : Entry) (h : element ∈ x.ids) :
    (t.enter x).Shows x.part element := by
  cases x with
  | node id elements => exact .inl ⟨elements, node?_insertNode_self t id elements, h⟩
  | edge id elements => exact .inr ⟨elements, edge?_insertEdge_self t id elements, h⟩

/-- The other parts lead where they led before. -/
theorem shows_enter_of_ne (h : part ≠ x.part) : (t.enter x).Shows part element ↔ t.Shows part element := by
  cases x with
  | node id elements =>
    have hne : part ≠ id := h
    have hnode : (t.insertNode id elements).node? part = t.node? part := by
      rw [node?_insertNode, if_neg hne]
    have hedge : (t.insertNode id elements).edge? part = t.edge? part := rfl
    rw [enter, Shows, hnode, hedge, Shows]
  | edge id elements =>
    have hne : part ≠ id := h
    have hnode : (t.insertEdge id elements).node? part = t.node? part := rfl
    have hedge : (t.insertEdge id elements).edge? part = t.edge? part := by
      rw [edge?_insertEdge, if_neg hne]
    rw [enter, Shows, hnode, hedge, Shows]

/-- An entry leads to no elements but its own. -/
theorem mem_ids_of_shows_enter (h : (t.enter x).Shows part element) :
    t.Shows part element ∨ x.part = part ∧ element ∈ x.ids := by
  by_cases hpart : part = x.part
  case neg => exact .inl ((shows_enter_of_ne hpart).1 h)
  subst hpart
  cases x with
  | node id elements =>
    rcases h with ⟨n, hn, hmem⟩ | hedge
    · obtain rfl : elements = n :=
        Option.some.inj ((node?_insertNode_self t id elements).symm.trans hn)
      exact .inr ⟨rfl, hmem⟩
    · exact .inl (.inr hedge)
  | edge id elements =>
    rcases h with hnode | ⟨e, he, hmem⟩
    · exact .inl (.inl hnode)
    · obtain rfl : elements = e :=
        Option.some.inj ((edge?_insertEdge_self t id elements).symm.trans he)
      exact .inr ⟨rfl, hmem⟩

/-! ## A run of entries -/

variable {entries : List Entry}

/-- The owner of an element is the part of the last entry that has it. -/
theorem owner?_foldl_enter (entries : List Entry) (t : Identity) (element : String) :
    (entries.foldl enter t).owner? element
      = ((entries.filter fun x => element ∈ x.ids).getLast?.map Entry.part).or (t.owner? element) := by
  induction entries generalizing t with
  | nil => rfl
  | cons x entries ih =>
    rw [List.foldl_cons, ih, owner?_enter, getLast?_filter_cons]
    by_cases hx : element ∈ x.ids
    · cases (entries.filter fun x => element ∈ x.ids).getLast? <;> simp [hx]
    · simp [hx]

/-- A part leads to nothing that was not entered for it. -/
theorem exists_of_shows_foldl_enter (h : (entries.foldl enter t).Shows part element) :
    t.Shows part element ∨ ∃ x ∈ entries, x.part = part ∧ element ∈ x.ids := by
  induction entries generalizing t with
  | nil => exact .inl h
  | cons x entries ih =>
    rcases ih h with h | ⟨y, hy, hsame⟩
    · rcases mem_ids_of_shows_enter h with h | hsame
      · exact .inl h
      · exact .inr ⟨x, List.mem_cons_self, hsame⟩
    · exact .inr ⟨y, List.mem_cons_of_mem _ hy, hsame⟩

/-- A part that is not entered again keeps leading where it leads. -/
theorem shows_foldl_enter_of_notMem (h : part ∉ entries.map Entry.part) :
    (entries.foldl enter t).Shows part element ↔ t.Shows part element := by
  induction entries generalizing t with
  | nil => rfl
  | cons x entries ih =>
    rw [List.map_cons, List.mem_cons, not_or] at h
    rw [List.foldl_cons, ih h.2, shows_enter_of_ne h.1]

theorem not_shows_empty (part element : String) : ¬ ({} : Identity).Shows part element := by
  rintro (⟨n, hn, -⟩ | ⟨e, he, -⟩)
  · exact nomatch hn
  · exact nomatch he

/-- Entries that do not share elements own what was ever entered for them. -/
theorem owner?_ofEntries (h : AreApart entries) :
    (ofEntries entries).owner? element = some part
      ↔ ∃ x ∈ entries, x.part = part ∧ element ∈ x.ids := by
  have howner : (ofEntries entries).owner? element
      = (entries.filter fun x => element ∈ x.ids).getLast?.map Entry.part := by
    rw [ofEntries, owner?_foldl_enter]
    exact Option.or_none
  rw [howner, Option.map_eq_some_iff]
  constructor
  · rintro ⟨x, hx, rfl⟩
    obtain ⟨hmem, hids⟩ := List.mem_filter.1 (List.mem_of_getLast? hx)
    exact ⟨x, hmem, rfl, by simpa using hids⟩
  · rintro ⟨x, hx, rfl, hids⟩
    have hne : (entries.filter fun x => element ∈ x.ids) ≠ [] :=
      List.ne_nil_of_mem (List.mem_filter.2 ⟨hx, by simpa using hids⟩)
    obtain ⟨last, hlast⟩ := Option.ne_none_iff_exists'.1 (mt List.getLast?_eq_none_iff.1 hne)
    obtain ⟨hmem, hlastIds⟩ := List.mem_filter.1 (List.mem_of_getLast? hlast)
    -- the last entry with the element is for the same part
    exact ⟨last, hlast, h last hmem x hx element (by simpa using hlastIds) hids⟩

/-- Whatever a part leads to is owned by it. -/
theorem owner?_of_shows (h : AreApart entries) (hshows : (ofEntries entries).Shows part element) :
    (ofEntries entries).owner? element = some part :=
  (owner?_ofEntries h).2
    ((exists_of_shows_foldl_enter hshows).resolve_left (not_shows_empty part element))

/-- The two directions of a table agree if and only if no entry took an element from its part. -/
theorem isBidirectional_ofEntries_iff (h : AreApart entries) :
    (ofEntries entries).IsBidirectional
      ↔ ∀ x ∈ entries, ∀ element ∈ x.ids, (ofEntries entries).Shows x.part element := by
  constructor
  · intro hboth x hx element hids
    exact (hboth element x.part).1 ((owner?_ofEntries h).2 ⟨x, hx, rfl, hids⟩)
  · intro hall element part
    refine ⟨fun howner => ?_, owner?_of_shows h⟩
    obtain ⟨x, hx, rfl, hids⟩ := (owner?_ofEntries h).1 howner
    exact hall x hx element hids

/-- Where every part is entered once, the two directions agree. -/
theorem isBidirectional_of_nodup (h : AreApart entries) (hnodup : (entries.map Entry.part).Nodup) :
    (ofEntries entries).IsBidirectional := by
  refine (isBidirectional_ofEntries_iff h).2 fun x hx element hids => ?_
  obtain ⟨before, after, rfl⟩ := List.append_of_mem hx
  have hafter : x.part ∉ after.map Entry.part := by
    rw [List.map_append, List.map_cons] at hnodup
    exact (List.nodup_cons.1 (List.nodup_append.1 hnodup).2.1).1
  rw [ofEntries, List.foldl_append, List.foldl_cons, shows_foldl_enter_of_notMem hafter]
  exact shows_enter_self _ x hids

/-- A node that is entered again without its label, as a run of entries. -/
def relabelled : List Entry :=
  [.node "A" { container := "a", text := some "t" }, .node "A" { container := "a" }]

/-- The label that a node had is still owned by the node, which does not lead to it any more. -/
theorem not_isBidirectional_relabelled :
    AreApart relabelled ∧ ¬ (ofEntries relabelled).IsBidirectional := by
  have hapart : AreApart relabelled := by
    unfold AreApart
    decide
  refine ⟨hapart, fun h => ?_⟩
  have hshows := (isBidirectional_ofEntries_iff hapart).1 h (.node "A" ⟨"a", some "t", none, []⟩)
    (by decide) "t" (by decide)
  rcases hshows with ⟨n, hn, hmem⟩ | ⟨e, he, -⟩
  · obtain rfl : ({ container := "a" } : NodeElements) = n := Option.some.inj hn
    revert hmem
    decide
  · exact nomatch he

end Identity

/-! ## The table of a board -/

namespace Board

open Identity (Entry)

variable {α : Type}

/-- The entry of a lifeline: its participant again, now with the lifeline. -/
def entryOfLifeline? (cs : List (Container α)) (e : Element α) : Option Entry :=
  (lifelineOf? cs e).bind fun p => (cs.find? (·.nodeId = p)).map fun c =>
    .node p { c.elements with lifeline := some e.id }

/-- A lifeline is entered as its entry says, as long as nodes have the elements of their containers,
lifelines apart. -/
theorem foldl_enterLifeline_eq {cs : List (Container α)} (elements : List (Element α)) (t : Identity)
    (ht : ∀ p, ∃ lifeline, t.node? p
      = (cs.find? (·.nodeId = p)).map fun c => { c.elements with lifeline := lifeline }) :
    elements.foldl (enterLifeline cs) t
      = (elements.filterMap (entryOfLifeline? cs)).foldl Identity.enter t := by
  induction elements generalizing t with
  | nil => rfl
  | cons e elements ih =>
    have hnext : ∀ p, ∃ lifeline, (enterLifeline cs t e).node? p
        = (cs.find? (·.nodeId = p)).map fun c => { c.elements with lifeline := lifeline } := by
      intro p
      obtain ⟨lifeline, hp⟩ := ht p
      rw [node?_enterLifeline, hp, Option.map_map]
      exact ⟨if lifelineOf? cs e = some p then some e.id else lifeline, rfl⟩
    rw [List.foldl_cons, ih _ hnext, List.filterMap_cons, entryOfLifeline?]
    cases hp : lifelineOf? cs e with
    | none => rw [enterLifeline, hp]; rfl
    | some p =>
      obtain ⟨lifeline, hnode⟩ := ht p
      rw [enterLifeline, hp]
      dsimp only
      rw [hnode, Option.bind_some]
      cases cs.find? (·.nodeId = p) <;> rfl

variable [Scalar α]

/-- The entries of a board: its containers, its lifelines and its arrows. -/
def entries (live : List (Element α)) (cs : List (Container α)) : List Entry :=
  cs.map (fun c => .node c.nodeId c.elements) ++ live.filterMap (entryOfLifeline? cs)
    ++ (connectors (shownKind live cs) live cs).map fun c => .edge c.edgeId c.elements

theorem shownIdentity_eq_ofEntries (live : List (Element α)) {cs : List (Container α)}
    (hcs : (cs.map (·.nodeId)).Nodup) :
    shownIdentity live cs = Identity.ofEntries (entries live cs) := by
  set nodes := cs.foldl (fun t c => t.insertNode c.nodeId c.elements) ({} : Identity) with hnodes
  have hnode : ∀ p, ∃ lifeline, nodes.node? p
      = (cs.find? (·.nodeId = p)).map fun c => { c.elements with lifeline := lifeline } := by
    intro p
    refine ⟨none, ?_⟩
    rw [hnodes, Identity.node?, Identity.nodes_foldl_insertNode, Table.get?_foldl_put,
      getLast?_filter_of_nodup _ hcs, Table.get?_empty, Option.or_none]
    rfl
  rw [shownIdentity, foldl_enterLifeline_eq live _ hnode, Identity.ofEntries, entries,
    List.foldl_append, List.foldl_append, List.foldl_map, List.foldl_map]
  rfl

/-- On a board that does not use an element for two parts, an element is owned by the part that it
was ever entered for, be it an earlier lifeline of a participant or an earlier arrow of an edge. -/
theorem owner?_read {elements : List (Element α)}
    (h : Identity.AreApart (entries (live elements) (containers (live elements))))
    (element part : String) : (read elements).identity.owner? element = some part
      ↔ ∃ x ∈ entries (live elements) (containers (live elements)),
        x.part = part ∧ element ∈ x.ids := by
  have hread : (read elements).identity
      = Identity.ofEntries (entries (live elements) (containers (live elements))) :=
    shownIdentity_eq_ofEntries (live elements) (nodup_containers (live elements))
  rw [hread]
  exact Identity.owner?_ofEntries h

end Board

end DiagramBoard
