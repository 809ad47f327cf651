/-
DiagramBoard.Proofs.Layout.FreePlaces — a new node takes the first free place.

From where it should go a box has fifty places across the ranks: that one, then one step to either
side, then two, and so on.  It takes the first of them that is clear of all boxes placed before it,
and the last one if none is.  Whichever it takes, it stays where it is along the ranks.  One new
node after another is placed so, and each is a box that the next one has to keep clear of.

Nothing of this is about exact numbers: which place is the first free one is decided by comparing
the numbers that the boxes have, rounded or not.

Main statements: what a box does (`isFirstFree_displace`), what one step does
(`takesFreePlace_newBox`), what a run of steps does (`takesFreePlace_of_placePending`), and hence all
new nodes of a diagram (`takesFreePlaces_layoutNew`).  Participants are not placed so
(`not_takesFreePlaces_participants`).
-/
import DiagramBoard.Proofs.Layout.ListingOrder

namespace DiagramBoard

namespace Layout

variable {α : Type} [Scalar α]

/-! ## The places of a box -/

/-- A box moved across the ranks. -/
def moveAcross (direction : Direction) (distance : α) (b : Box α) : Box α :=
  if direction.isVertical then { b with x := b.x + distance } else { b with y := b.y + distance }

/-- A box moved some steps to one side, which is one or minus one.  A step is its own extent across
the ranks and the gap between neighbours. -/
def aside (direction : Direction) (options : Options α) (b : Box α) (side : α) (steps : Nat) :
    Box α :=
  moveAcross direction (side * (steps : α) * (across direction b.size + options.nodeSep)) b

/-- The fifty places of a box in turn: where it is, then one step to either side, then two, up to 24
steps to either side and 25 to the first one. -/
def placesOf (direction : Direction) (options : Options α) (b : Box α) : List (Box α) :=
  b :: ((List.range' 1 24).flatMap fun k =>
      [aside direction options b 1 k, aside direction options b (-1) k])
    ++ [aside direction options b 1 25]

variable {direction : Direction} {options : Options α} {b origin : Box α} {boxes : List (Box α)}

theorem length_placesOf (direction : Direction) (options : Options α) (b : Box α) :
    (placesOf direction options b).length = 50 := rfl

/-- The places that are tried are these. -/
theorem candidates_eq_placesOf (direction : Direction) (options : Options α) (b : Box α) :
    candidates direction options b = placesOf direction options b := by
  cases direction <;> rfl

/-- Along the ranks, where a box starts. -/
def rankCoordinate (direction : Direction) (b : Box α) : α :=
  if direction.isVertical then b.y else b.x

theorem rankCoordinate_moveAcross (direction : Direction) (distance : α) (b : Box α) :
    rankCoordinate direction (moveAcross direction distance b) = rankCoordinate direction b := by
  unfold rankCoordinate moveAcross
  cases direction.isVertical <;> rfl

/-- No place of a box is elsewhere along the ranks. -/
theorem rankCoordinate_of_mem_placesOf (hb : b ∈ placesOf direction options origin) :
    rankCoordinate direction b = rankCoordinate direction origin := by
  simp only [placesOf, List.cons_append, List.mem_cons, List.mem_append, List.mem_flatMap,
    List.not_mem_nil, or_false] at hb
  rcases hb with rfl | ⟨k, -, rfl | rfl⟩ | rfl
  · rfl
  all_goals exact rankCoordinate_moveAcross ..

/-! ## The first free place -/

/-- Whether a box is further away from all others than any that collides with one of them. -/
def IsFree (b : Box α) (boxes : List (Box α)) : Prop :=
  ∀ c ∈ boxes, b.overlaps c collisionMargin = false

theorem collides_eq_false_iff_isFree : collides b boxes = false ↔ IsFree b boxes := by
  rw [collides, List.any_eq_false]
  exact forall₂_congr fun _ _ => Bool.eq_false_iff.symm

/-- Whether a box is the first free one of some places, or the last one where none is free. -/
def IsFirstFree (boxes places : List (Box α)) (b : Box α) : Prop :=
  ∃ before after, places = before ++ b :: after ∧ (∀ c ∈ before, ¬ IsFree c boxes)
    ∧ (IsFree b boxes ∨ after = [])

/-- The first free place is free, or no place is. -/
theorem IsFirstFree.isFree_or {places : List (Box α)} (h : IsFirstFree boxes places b) :
    IsFree b boxes ∨ ∀ c ∈ places, ¬ IsFree c boxes := by
  obtain ⟨before, after, rfl, hbefore, hb⟩ := h
  by_cases hfree : IsFree b boxes
  · exact .inl hfree
  · obtain rfl := hb.resolve_left hfree
    refine .inr fun c hc => ?_
    rcases List.mem_append.1 hc with hc | hc
    · exact hbefore c hc
    · exact List.mem_singleton.1 hc ▸ hfree

theorem IsFirstFree.mem {places : List (Box α)} (h : IsFirstFree boxes places b) :
    b ∈ places := by
  obtain ⟨before, after, rfl, -⟩ := h
  exact List.mem_append_right _ List.mem_cons_self

/-- A box goes to the first of its places that is free, and to the last one if none is. -/
theorem isFirstFree_displace (direction : Direction) (options : Options α) (boxes : List (Box α))
    (origin : Box α) :
    IsFirstFree boxes (placesOf direction options origin)
      (displace direction options boxes origin) := by
  have hblocked : ∀ c, (!collides c boxes) ≠ true → ¬ IsFree c boxes := fun c hc hfree =>
    hc (by rw [collides_eq_false_iff_isFree.2 hfree]; rfl)
  rw [displace_eq, candidates_eq_placesOf]
  cases hfind : (placesOf direction options origin).find? fun c => !collides c boxes with
  | some b =>
    obtain ⟨hb, before, after, hplaces, hbefore⟩ := List.find?_eq_some_iff_append.1 hfind
    refine ⟨before, after, hplaces, fun c hc => hblocked c ?_, .inl ?_⟩
    · exact fun hfree => absurd (hbefore c hc) (by rw [hfree]; decide)
    · exact collides_eq_false_iff_isFree.1 (by simpa using hb)
  | none =>
    have hall := List.find?_eq_none.1 hfind
    have hlast : placesOf direction options origin
        = (placesOf direction options origin).dropLast
          ++ [candidate direction options origin (placementAttempts - 1)] := by
      rw [← candidates_eq_placesOf]
      rfl
    refine ⟨_, [], hlast, fun c hc => hblocked c (hall c ?_), .inr rfl⟩
    exact List.dropLast_subset _ hc

/-! ## One new node -/

/-- Where a new node should go when some nodes are placed: beside the one that its first edge joins
it to, or past all of them. -/
def firstPlace (d : Diagram α) (options : Options α) (before : Placed α) (n : Node α) : Box α :=
  match placedNeighbour? d.edges before n.id with
  | some neighbour => beside d.direction options neighbour (neededSize d.kind options n)
  | none => pastExtent d.direction options (before.map (·.2)) (neededSize d.kind options n)

/-- Whether a new node takes its place as it should when some nodes are placed. -/
structure TakesFreePlace (d : Diagram α) (options : Options α) (before : Placed α) (n : Node α)
    (b : Box α) : Prop where
  isFirstFree : IsFirstFree (before.map (·.2))
    (placesOf d.direction options (firstPlace d options before n)) b
  isFree_or : IsFree b (before.map (·.2))
    ∨ ∀ c ∈ placesOf d.direction options (firstPlace d options before n),
      ¬ IsFree c (before.map (·.2))
  rankCoordinate_eq : rankCoordinate d.direction b
    = rankCoordinate d.direction (firstPlace d options before n)

variable {d : Diagram α} {placed before : Placed α}

/-- The box of a new node is the first free one. -/
theorem takesFreePlace_newBox (hlookup : ∀ id, placed.lookup id = before.lookup id)
    (hboxes : boxes = before.map (·.2)) (n : Node α) :
    TakesFreePlace d options before n
      (newBox d (neededSize d.kind options) options placed boxes n) := by
  have hbox : newBox d (neededSize d.kind options) options placed boxes n
      = displace d.direction options (before.map (·.2)) (firstPlace d options before n) := by
    rw [newBox, placedNeighbour?_congr hlookup, hboxes]
    unfold firstPlace
    cases placedNeighbour? d.edges before n.id <;> rfl
  rw [hbox]
  have hfirst := isFirstFree_displace d.direction options (before.map (·.2))
    (firstPlace d options before n)
  exact ⟨hfirst, hfirst.isFree_or, rankCoordinate_of_mem_placesOf hfirst.mem⟩

/-! ## All new nodes -/

omit [Scalar α] in
/-- A node that is placed is found among those that were, in front of them or behind them. -/
theorem lookup_place {id : String} (hid : id ∉ before.map (·.1)) (b : Box α)
    (hlookup : ∀ other, placed.lookup other = before.lookup other) (other : String) :
    ((id, b) :: placed).lookup other = (before ++ [(id, b)]).lookup other := by
  rw [List.lookup_append, List.lookup_cons, List.lookup_cons, List.lookup_nil, hlookup]
  by_cases hother : other = id
  · have hnone : before.lookup id = none := by
      rw [List.lookup_eq_none_iff]
      intro q hq
      have hne : id ≠ q.1 := fun heq => hid (heq ▸ List.mem_map_of_mem hq)
      simpa using hne
    simp [hother, hnone]
  · have hne : (other == id) = false := beq_eq_false_iff_ne.2 hother
    simp [hne]

/-- Every node that is placed in a run is placed as it should be after those before it. -/
theorem takesFreePlace_of_placePending {pending : List (Node α)} {earlier later : Placed α}
    {p : String × Box α} (hlookup : ∀ id, placed.lookup id = before.lookup id)
    (hboxes : boxes = before.map (·.2))
    (hids : (before.map (·.1) ++ pending.map (·.id)).Nodup)
    (h : placePending d (neededSize d.kind options) options placed boxes pending
      = earlier ++ p :: later) :
    ∃ n ∈ pending, n.id = p.1 ∧ TakesFreePlace d options (before ++ earlier) n p.2 := by
  fun_induction placePending d (neededSize d.kind options) options placed boxes pending
    generalizing before earlier with
  | case1 => simp at h
  | case2 placed boxes first rest next =>
    rename_i b ih
    have hnext := mem_nextPending d.edges placed first rest
    cases earlier with
    | nil =>
      obtain ⟨rfl, -⟩ := List.cons.inj h
      rw [List.append_nil]
      exact ⟨next.1, hnext.1, rfl, takesFreePlace_newBox hlookup hboxes next.1⟩
    | cons q earlier =>
      obtain ⟨rfl, hrest⟩ := List.cons.inj h
      have hperm := ((nextPending_perm d.edges placed first rest).map (·.id)).append_left
        (before.map (·.1))
      have hids' : (before.map (·.1) ++ next.1.id :: next.2.map (·.id)).Nodup :=
        hperm.nodup_iff.2 hids
      have hfresh : next.1.id ∉ before.map (·.1) := fun hmem =>
        (List.disjoint_of_nodup_append hids') hmem List.mem_cons_self
      obtain ⟨n, hn, hid, htakes⟩ := ih (lookup_place hfresh b hlookup)
        (by rw [hboxes, List.map_append]; rfl)
        (by rw [List.map_append, List.append_assoc]; exact hids') hrest
      rw [List.append_assoc] at htakes
      exact ⟨n, hnext.2 n hn, hid, htakes⟩

omit [Scalar α] in
theorem nodeIds_putBoxes (boxes : Placed α) (d : Diagram α) :
    (putBoxes boxes d).nodeIds = d.nodeIds :=
  Diagram.nodeIds_of_content
    (Diagram.content_of_unlaned (Diagram.unlaned_of_unplaced (unplaced_putBoxes boxes d)))

omit [Scalar α] in
/-- Boxes for different ids end up at the nodes of their ids. -/
theorem place?_putBoxes {boxes : Placed α} (hd : d.nodeIds.Nodup)
    (hboxes : (boxes.map (·.1)).Nodup) {p : String × Box α} (hp : p ∈ boxes)
    (hid : p.1 ∈ d.nodeIds) : (putBoxes boxes d).place? p.1 = some p.2 := by
  induction boxes generalizing d with
  | nil => exact absurd hp List.not_mem_nil
  | cons q boxes ih =>
    rw [List.map_cons, List.nodup_cons] at hboxes
    let place : Node α → Node α := fun n => { n with box := some q.2 }
    have hkeeps : ∀ n, (place n).id = n.id := fun _ => rfl
    have hsame : (d.modifyNode q.1 place).nodeIds = d.nodeIds :=
      Diagram.nodeIds_modifyNode d q.1 hkeeps
    rw [putBoxes_cons]
    rcases List.mem_cons.1 hp with rfl | hp
    · obtain ⟨n, hn, hnid⟩ := List.mem_map.1 hid
      have hplaced : place n ∈ (d.modifyNode p.1 place).nodes := by
        rw [Diagram.modifyNode, Diagram.change_of_nodup hd]
        exact List.mem_map.2 ⟨n, hn, if_pos hnid⟩
      have hstays := mem_putBoxes hplaced (hnid ▸ hboxes.1 : (place n).id ∉ boxes.map (·.1))
      have hids : (putBoxes boxes (d.modifyNode p.1 place)).nodeIds.Nodup := by
        rw [nodeIds_putBoxes, hsame]
        exact hd
      exact hnid ▸ Diagram.place?_of_nodup hids hstays
    · exact ih (hsame ▸ hd) hboxes.2 hp (hsame ▸ hid)

end Layout

namespace Diagram

open Layout

variable {α : Type}

/-- Whether a node counts as new: by its id, or because it has no place. -/
def isNew (newIds : List String) (n : Node α) : Bool := newIds.contains n.id || n.box.isNone

/-- The places of the nodes that are not new. -/
def oldPlaces (newIds : List String) (d : Diagram α) : Placed α :=
  (d.nodes.filter fun n => !isNew newIds n).filterMap fun n => n.box.map fun b => (n.id, b)

variable {d : Diagram α} (hids : d.nodeIds.Nodup) (newIds : List String)
include hids

/-- Where ids are distinct, the new ids are those of the new nodes. -/
theorem contains_unplacedIds {n : Node α} (hn : n ∈ d.nodes) :
    (newIds ++ d.unplacedIds).contains n.id = isNew newIds n := by
  have hiff : n.id ∈ d.unplacedIds ↔ n.box.isNone = true := by
    constructor
    · intro hmem
      by_contra hbox
      exact notMem_unplacedIds hids hn (by simpa [Option.isSome_iff_ne_none] using hbox) hmem
    · exact fun hbox => List.mem_map_of_mem (List.mem_filter.2 ⟨hn, hbox⟩)
  rw [Bool.eq_iff_iff, isNew, List.contains_iff_mem, List.mem_append, Bool.or_eq_true,
    List.contains_iff_mem, hiff]

theorem keptPlaces_eq : keptPlaces (newIds ++ d.unplacedIds) d = (d.oldPlaces newIds).reverse := by
  rw [keptPlaces, oldPlaces]
  congr 2
  exact List.filter_congr fun n hn => by rw [contains_unplacedIds hids newIds hn]

theorem pendingNodes_perm : (pendingNodes (newIds ++ d.unplacedIds) d).Perm
    (d.nodes.filter (isNew newIds)) := by
  refine (List.mergeSort_perm _ _).trans (List.Perm.of_eq ?_)
  exact List.filter_congr fun n hn => contains_unplacedIds hids newIds hn

theorem nodup_oldPlaces : ((d.oldPlaces newIds).map (·.1)).Nodup := by
  have hkept := nodup_keptPlaces hids (newIds ++ d.unplacedIds)
  rwa [keptPlaces_eq hids, List.map_reverse, List.nodup_reverse] at hkept

theorem lookup_keptPlaces (id : String) :
    (keptPlaces (newIds ++ d.unplacedIds) d).lookup id = (d.oldPlaces newIds).lookup id := by
  rw [keptPlaces_eq hids]
  exact (lookup_of_perm (List.reverse_perm _).symm (nodup_oldPlaces hids newIds) id).symm

/-- The old place of a node is its own, if it is not new. -/
theorem lookup_oldPlaces {n : Node α} (hn : n ∈ d.nodes) :
    (d.oldPlaces newIds).lookup n.id = if isNew newIds n then none else n.box := by
  have hunique : ∀ m ∈ d.nodes, m.id = n.id → m = n := fun m hm =>
    List.inj_on_of_nodup_map hids hm hn
  split
  · next hnew =>
    rw [List.lookup_eq_none_iff]
    intro p hp
    obtain ⟨m, hm, hmap⟩ := List.mem_filterMap.1 hp
    obtain ⟨hm, hold⟩ := List.mem_filter.1 hm
    obtain ⟨b, -, rfl⟩ := Option.map_eq_some_iff.1 hmap
    have hne : n.id ≠ m.id := fun heq => by
      rw [hunique m hm heq.symm, hnew] at hold
      exact Bool.false_ne_true hold
    simpa using hne
  · next hold =>
    obtain ⟨b, hb⟩ : ∃ b, n.box = some b := by
      cases hbox : n.box with
      | none => exact absurd (by rw [isNew, hbox, Option.isNone_none, Bool.or_true]) hold
      | some b => exact ⟨b, rfl⟩
    have hmem : (n.id, b) ∈ d.oldPlaces newIds := by
      refine List.mem_filterMap.2 ⟨n, List.mem_filter.2 ⟨hn, ?_⟩, by rw [hb]; rfl⟩
      rw [Bool.eq_false_iff.2 hold]
      rfl
    rw [lookup_eq_find?, find?_of_nodup (nodup_oldPlaces hids newIds) hmem, hb]
    rfl

theorem keptBoxes_eq : keptBoxes (newIds ++ d.unplacedIds) d = (d.oldPlaces newIds).map (·.2) := by
  rw [keptBoxes, oldPlaces, List.map_filterMap, List.filterMap_filter]
  refine List.filterMap_congr fun n hn => ?_
  rw [lookup_keptPlaces hids, lookup_oldPlaces hids newIds hn]
  cases isNew newIds n <;> cases n.box <;> rfl

/-- Old and new nodes are all nodes, each once. -/
theorem nodup_oldPlaces_append : ((d.oldPlaces newIds).map (·.1)
    ++ (pendingNodes (newIds ++ d.unplacedIds) d).map (·.id)).Nodup := by
  have hold : ((d.oldPlaces newIds).map (·.1)).Sublist
      ((d.nodes.filter fun n => !isNew newIds n).map (·.id)) := map_fst_boxes_sublist _
  have hall : ((d.nodes.filter fun n => !isNew newIds n).map (·.id)
      ++ (d.nodes.filter (isNew newIds)).map (·.id)).Perm d.nodeIds := by
    rw [← List.map_append]
    exact (List.perm_append_comm.trans (List.filter_append_perm _ _)).map _
  refine (((pendingNodes_perm hids newIds).map _).append_left _).nodup_iff.2 ?_
  exact (hold.append_right _).nodup (hall.nodup_iff.2 hids)

end Diagram

variable {α : Type} [Scalar α]

open Layout

/-- Whether the new nodes of a diagram take their places in some order as they should, each one
after the old nodes and the new ones before it. -/
def Diagram.TakesFreePlaces (d : Diagram α) (options : Options α) (newIds : List String) : Prop :=
  ∃ run : Placed α,
    (run.map (·.1)).Perm ((d.nodes.filter (isNew newIds)).map (·.id))
    ∧ (∀ p ∈ run, (d.layoutNew options newIds).place? p.1 = some p.2)
    ∧ ∀ earlier p later, run = earlier ++ p :: later →
      ∃ n ∈ d.nodes, n.id = p.1
        ∧ TakesFreePlace d options (d.oldPlaces newIds ++ earlier) n p.2

/-- A box takes the first of its fifty places that is free, and the last one if none is.  So does
one new node after another in a diagram that is laid out in ranks, and stays along the ranks where
it should go. -/
theorem takesFreePlaces_layoutNew :
    (∀ (direction : Direction) (options : Options α) (boxes : List (Box α)) (origin : Box α),
      (placesOf direction options origin).length = 50
      ∧ IsFirstFree boxes (placesOf direction options origin)
        (displace direction options boxes origin))
    ∧ ∀ d : Diagram α, d.nodeIds.Nodup → d.kind.strategy ≠ .lanes → ∀ options newIds,
      d.TakesFreePlaces options newIds := by
  refine ⟨fun direction options boxes origin => ⟨length_placesOf .., isFirstFree_displace ..⟩,
    fun d hids hranks options newIds => ?_⟩
  have hnodup := Diagram.nodup_oldPlaces_append hids newIds
  have hrun := map_fst_placePending_perm (d := d) (neededSize d.kind options) options
    (keptPlaces (newIds ++ d.unplacedIds) d) (keptBoxes (newIds ++ d.unplacedIds) d)
    (pendingNodes (newIds ++ d.unplacedIds) d)
  have hpending : ∀ n ∈ pendingNodes (newIds ++ d.unplacedIds) d, n ∈ d.nodes := fun n hn =>
    List.mem_of_mem_filter ((Diagram.pendingNodes_perm hids newIds).mem_iff.1 hn)
  refine ⟨_, hrun.trans ((Diagram.pendingNodes_perm hids newIds).map _), fun p hp => ?_,
    fun earlier p later hsplit => ?_⟩
  · rw [layoutNew_of_ranks hranks, incrementalLayout_eq]
    refine place?_putBoxes hids (hrun.nodup_iff.2 (List.Nodup.of_append_right hnodup)) hp ?_
    obtain ⟨n, hn, hid⟩ := mem_placePending (List.mem_map_of_mem hp)
    exact hid ▸ Diagram.mem_nodeIds (hpending n hn)
  · obtain ⟨n, hn, hid, htakes⟩ := takesFreePlace_of_placePending
      (Diagram.lookup_keptPlaces hids newIds) (Diagram.keptBoxes_eq hids newIds) hnodup hsplit
    exact ⟨n, hpending n hn, hid, htakes⟩

/-- A node with a place, a new one that an edge leads to, and a third one in its way. -/
def crowded : Diagram Rat :=
  { nodes := [
      { id := "Send", label := "Send", box := some ⟨500, 300, 150, 60⟩ },
      { id := "Busy", label := "Busy", box := some ⟨510, 450, 150, 60⟩ },
      { id := "Wait", label := "Wait" }]
    edges := [{ id := "Send->Wait", source := "Send", target := "Wait" }] }

/-- The new node goes one step aside from where it should go. -/
theorem takesFreePlaces_crowded :
    crowded.nodeIds.Nodup ∧ crowded.kind.strategy ≠ .lanes
      ∧ crowded.TakesFreePlaces .standard []
      ∧ (crowded.layoutNew .standard []).place? "Wait" = some ⟨730, 460, 150, 60⟩ := by
  have hids : crowded.nodeIds.Nodup := by decide
  have hranks : crowded.kind.strategy ≠ .lanes := by decide
  exact ⟨hids, hranks, takesFreePlaces_layoutNew.2 crowded hids hranks .standard [], by cbv⟩

/-- Two participants, of which one has a place. -/
def joinedChat : Diagram Rat :=
  { kind := .sequence
    nodes := [
      { id := "A", label := "A", box := some ⟨0, 0, 150, 60⟩ },
      { id := "B", label := "B" }] }

/-- The options of a layout with small gaps between neighbours. -/
def closeTogether : Options Rat := { (.standard : Options Rat) with nodeSep := 5 }

/-- A new participant takes the next column, however close that is, although it would be free where
new nodes should go: participants stand in a row. -/
theorem not_takesFreePlaces_participants :
    joinedChat.nodeIds.Nodup ∧ ¬ joinedChat.TakesFreePlaces closeTogether [] := by
  refine ⟨by decide, ?_⟩
  rintro ⟨run, hids, hplaces, hrun⟩
  obtain ⟨⟨id, b⟩, rfl, hid⟩ : ∃ p, run = [p] ∧ p.1 = "B" := by
    have hnew : (joinedChat.nodes.filter (Diagram.isNew [])).map (·.id) = ["B"] := by decide
    rw [hnew, List.perm_singleton, List.map_eq_singleton_iff] at hids
    exact hids
  obtain rfl : id = "B" := hid
  have hcolumn : (joinedChat.layoutNew closeTogether []).place? "B" = some ⟨160, 0, 150, 60⟩ := by
    cbv
  obtain rfl : b = ⟨160, 0, 150, 60⟩ :=
    Option.some.inj ((hplaces _ List.mem_cons_self).symm.trans hcolumn)
  obtain ⟨n, hn, hid, htakes⟩ := hrun [] _ [] rfl
  have hbefore : joinedChat.oldPlaces [] ++ [] = [("A", ⟨0, 0, 150, 60⟩)] := by cbv
  rw [hbefore] at htakes
  rcases htakes.isFree_or with hfree | hblocked
  · have hclose :
        (⟨160, 0, 150, 60⟩ : Box Rat).overlaps ⟨0, 0, 150, 60⟩ collisionMargin = true := by
      cbv
    exact absurd (hfree _ List.mem_cons_self) (by rw [hclose]; decide)
  · obtain rfl : n = { id := "B", label := "B" } := by
      rcases List.mem_cons.1 hn with rfl | hn
      · exact absurd hid (by decide)
      · exact List.mem_singleton.1 hn
    have hfirst : firstPlace joinedChat closeTogether [("A", ⟨0, 0, 150, 60⟩)]
        { id := "B", label := "B" } = ⟨0, 160, 150, 60⟩ := by cbv
    have hfar :
        (⟨0, 160, 150, 60⟩ : Box Rat).overlaps ⟨0, 0, 150, 60⟩ collisionMargin = false := by
      cbv
    refine hblocked _ List.mem_cons_self fun c hc => ?_
    rw [hfirst, List.mem_singleton.1 hc]
    exact hfar

end DiagramBoard
