/-
DiagramBoard.Proofs.Change.Edges — what becomes of every edge in a change.

Several edges may join the same two nodes, and an edge may join a node with itself.  The edges
between two nodes stand in a row, and the rows of both states are matched from their starts: the
first edge with the first one, the second with the second one.  What is left over at the end of the
longer row was added or removed.  The change itself knows of no rows: it numbers every edge by the
earlier ones with its ends and looks for the edge with these ends and this number.  Among the edges
of one row these numbers are the places in the row (`filter_occurrences`), and that carries
everything.

Main statements: the partner of an edge is the one at its place (`partner?_occurrences`), what is
matched, added and removed in a row (`matched_row`, `added_row`, `removed_row`), and all of it
together (`isExactOnEdges_between`).
-/
import DiagramBoard.Change
import DiagramBoard.Proofs.Content
import DiagramBoard.Proofs.Keyed

namespace DiagramBoard

variable {α : Type}

namespace Change

/-! ## Rows and places -/

/-- The edges of a list from a node to another, in order. -/
def row (edges : List (Edge α)) (source target : String) : List (Edge α) :=
  edges.filter (Edge.joins source target)

/-- The place of an edge in its row, from the edge and its index in the list. -/
def place (edges : List (Edge α)) (e : Edge α × Nat) : Nat :=
  (row (edges.take e.2) e.1.source e.1.target).length

/-- The edges that have an edge at their place in the row of the older state, with that edge, in the
order of the newer state. -/
def matched (old new : List (Edge α)) : List (Replaced (Edge α)) :=
  new.zipIdx.filterMap fun e =>
    (row old e.1.source e.1.target)[place new e]?.map fun before => ⟨before, e.1⟩

theorem row_cons_of_joins {e : Edge α} {source target : String}
    (h : e.joins source target = true) (edges : List (Edge α)) :
    row (e :: edges) source target = e :: row edges source target :=
  List.filter_cons_of_pos h

theorem row_cons_of_not_joins {e : Edge α} {source target : String}
    (h : ¬ e.joins source target = true) (edges : List (Edge α)) :
    row (e :: edges) source target = row edges source target :=
  List.filter_cons_of_neg h

theorem sameEnds_eq_joins (e : Edge α) : sameEnds e = Edge.joins e.source e.target := by
  funext o
  simp [sameEnds, Edge.joins, eq_comm]

theorem sameEnds_of_joins {e : Edge α} {source target : String}
    (h : e.joins source target = true) : sameEnds e = Edge.joins source target := by
  obtain ⟨rfl, rfl⟩ := Edge.joins_iff.1 h
  exact sameEnds_eq_joins e

/-- The number that a change gives an edge is its place. -/
theorem occurrencesAfter_eq (earlier edges : List (Edge α)) :
    occurrencesAfter earlier edges = edges.zipIdx.map fun e =>
      (e.1, (row earlier e.1.source e.1.target).length + place edges e) := by
  induction edges generalizing earlier with
  | nil => rfl
  | cons e edges ih =>
    rw [occurrencesAfter, ih, List.zipIdx_cons', List.map_cons, List.map_map]
    congr 1
    · rw [sameEnds_eq_joins, List.countP_eq_length_filter]
      rfl
    · refine List.map_congr_left fun o _ => Prod.ext rfl ?_
      show (row (e :: earlier) o.1.source o.1.target).length + place edges o
        = (row earlier o.1.source o.1.target).length + place (e :: edges) (o.1, o.2 + 1)
      by_cases h : e.joins o.1.source o.1.target = true
      · rw [place, place, List.take_succ_cons, row_cons_of_joins h, row_cons_of_joins h,
          List.length_cons, List.length_cons, Nat.add_right_comm, Nat.add_assoc]
      · rw [place, place, List.take_succ_cons, row_cons_of_not_joins h, row_cons_of_not_joins h]

theorem occurrences_eq (edges : List (Edge α)) :
    occurrences edges = edges.zipIdx.map fun e => (e.1, place edges e) := by
  rw [occurrences, occurrencesAfter_eq]
  simp [row]

theorem filter_occurrencesAfter (earlier edges : List (Edge α)) (source target : String) :
    (occurrencesAfter earlier edges).filter (fun e => e.1.joins source target)
      = (row edges source target).zipIdx (row earlier source target).length := by
  induction edges generalizing earlier with
  | nil => rfl
  | cons e edges ih =>
    rw [occurrencesAfter]
    by_cases h : e.joins source target = true
    · rw [List.filter_cons_of_pos (by exact h), ih, row_cons_of_joins h, row_cons_of_joins h,
        List.zipIdx_cons, sameEnds_of_joins h, List.countP_eq_length_filter, List.length_cons]
      rfl
    · rw [List.filter_cons_of_neg (by exact h), ih, row_cons_of_not_joins h,
        row_cons_of_not_joins h]

/-- In a row, edges are numbered from the start on. -/
theorem filter_occurrences (edges : List (Edge α)) (source target : String) :
    (occurrences edges).filter (fun e => e.1.joins source target)
      = (row edges source target).zipIdx :=
  filter_occurrencesAfter [] edges source target

/-! ## Partners -/

theorem find?_zipIdx {β : Type} (xs : List β) (n i : Nat) :
    (xs.zipIdx n).find? (fun x => x.2 = n + i) = xs[i]?.map fun x => (x, n + i) := by
  induction xs generalizing n i with
  | nil => rfl
  | cons x xs ih =>
    rw [List.zipIdx_cons]
    cases i with
    | zero => simp
    | succ i =>
      rw [List.find?_cons_of_neg (by simp), List.getElem?_cons_succ,
        show n + (i + 1) = n + 1 + i by omega]
      exact ih (n + 1) i

/-- The partner of an edge is the edge at its place in the other row. -/
theorem partner?_occurrences (others : List (Edge α)) (e : Edge α) (n : Nat) :
    partner? (occurrences others) (e, n) = (row others e.source e.target)[n]? := by
  have hfind := find?_zipIdx (row others e.source e.target) 0 n
  rw [← filter_occurrences, List.find?_filter, Nat.zero_add] at hfind
  have hpart : (occurrences others).find? (fun o => sameEnds e o.1 && o.2 = n)
      = (row others e.source e.target)[n]?.map fun x => (x, n) := by
    rw [← hfind]
    simp [sameEnds_eq_joins]
  rw [partner?, hpart, Option.map_map]
  exact Option.map_id'

/-! ## What becomes of an edge -/

section Fate

variable (old : List (Edge α)) (e : Edge α) (n : Nat)

theorem added?_edgeFate : (edgeFate (occurrences old) (e, n)).added?
    = if (row old e.source e.target).length ≤ n then some e else none := by
  rw [edgeFate, partner?_occurrences]
  by_cases h : (row old e.source e.target).length ≤ n
  · rw [List.getElem?_eq_none h, if_pos h]
    rfl
  · rw [List.getElem?_eq_getElem (Nat.lt_of_not_le h), if_neg h]
    dsimp only
    split <;> rfl

theorem updated?_edgeFate : (edgeFate (occurrences old) (e, n)).updated?
    = ((row old e.source e.target)[n]?.map fun before => (⟨before, e⟩ : Replaced (Edge α))).filter
        fun r => r.before.label ≠ r.after.label := by
  rw [edgeFate, partner?_occurrences]
  cases (row old e.source e.target)[n]? with
  | none => rfl
  | some before => by_cases h : before.label = e.label <;> simp [Fate.updated?, Option.filter, h]

theorem unchanged?_edgeFate : (edgeFate (occurrences old) (e, n)).unchanged?
    = (((row old e.source e.target)[n]?.map fun before => (⟨before, e⟩ : Replaced (Edge α))).filter
        fun r => r.before.label = r.after.label).map (·.after) := by
  rw [edgeFate, partner?_occurrences]
  cases (row old e.source e.target)[n]? with
  | none => rfl
  | some before => by_cases h : before.label = e.label <;> simp [Fate.unchanged?, Option.filter, h]

end Fate

/-! ## The lists of a change -/

theorem filterMap_occurrences {β : Type} (f : Edge α × Nat → Option β) (edges : List (Edge α)) :
    (occurrences edges).filterMap f = edges.zipIdx.filterMap fun e => f (e.1, place edges e) := by
  rw [occurrences_eq, List.filterMap_map]
  rfl

/-- Those numbered from a length on, in terms of places. -/
theorem filter_occurrences_of_le (edges others : List (Edge α)) :
    ((occurrences edges).filter fun e => (row others e.1.source e.1.target).length ≤ e.2).map (·.1)
      = (edges.zipIdx.filter fun e =>
          (row others e.1.source e.1.target).length ≤ place edges e).map (·.1) := by
  rw [occurrences_eq, List.filter_map, List.map_map]
  rfl

/-- The added edges are those whose places in their rows were not taken. -/
theorem added_ofEdges (old new : List (Edge α)) :
    (ofEdges old new).added = (new.zipIdx.filter fun e =>
      (row old e.1.source e.1.target).length ≤ place new e).map (·.1) := by
  rw [← filter_occurrences_of_le, ← List.filterMap_eq_map, ← List.filterMap_eq_filter,
    List.filterMap_filterMap]
  show ((occurrences new).map (edgeFate (occurrences old))).filterMap Fate.added? = _
  rw [List.filterMap_map]
  refine List.filterMap_congr fun e _ => ?_
  rw [Function.comp_apply, added?_edgeFate]
  by_cases h : (row old e.1.source e.1.target).length ≤ e.2 <;> simp [h, Option.guard]

/-- The removed edges are those whose places in their rows are not taken any more. -/
theorem removed_ofEdges (old new : List (Edge α)) :
    (ofEdges old new).removed = (old.zipIdx.filter fun e =>
      (row new e.1.source e.1.target).length ≤ place old e).map (·.1) := by
  rw [← filter_occurrences_of_le]
  show ((occurrences old).filter fun e => (partner? (occurrences new) e).isNone).map (·.1) = _
  congr 2
  funext e
  rw [partner?_occurrences, Bool.eq_iff_iff]
  simp

theorem matched_eq (old new : List (Edge α)) :
    matched old new = (occurrences new).filterMap fun e =>
      (row old e.1.source e.1.target)[e.2]?.map fun before => ⟨before, e.1⟩ := by
  rw [filterMap_occurrences]
  rfl

/-- The updated edges are the matched ones with another label. -/
theorem updated_ofEdges (old new : List (Edge α)) :
    (ofEdges old new).updated
      = (matched old new).filter fun r => r.before.label ≠ r.after.label := by
  show ((occurrences new).map (edgeFate (occurrences old))).filterMap Fate.updated? = _
  rw [matched_eq, List.filterMap_map, List.filter_filterMap]
  exact List.filterMap_congr fun e _ => updated?_edgeFate old e.1 e.2

/-- The unchanged edges are the matched ones with the same label. -/
theorem unchanged_ofEdges (old new : List (Edge α)) :
    (ofEdges old new).unchanged
      = ((matched old new).filter fun r => r.before.label = r.after.label).map (·.after) := by
  show ((occurrences new).map (edgeFate (occurrences old))).filterMap Fate.unchanged? = _
  rw [matched_eq, List.filterMap_map, List.filter_filterMap, List.map_filterMap]
  exact List.filterMap_congr fun e _ => unchanged?_edgeFate old e.1 e.2

/-! ## Rows of the lists -/

/-- The last things of a list are those with the higher places. -/
theorem map_fst_filter_zipIdx {β : Type} (xs : List β) (m : Nat) :
    (xs.zipIdx.filter fun x => m ≤ x.2).map (·.1) = xs.drop m := by
  induction xs generalizing m with
  | nil => simp
  | cons x xs ih =>
    rw [List.zipIdx_cons']
    cases m with
    | zero =>
      rw [List.filter_eq_self.2 (by simp), ← List.zipIdx_cons', List.zipIdx_map_fst, List.drop_zero]
    | succ m =>
      rw [List.filter_cons_of_neg (by simp), List.drop_succ_cons, ← ih m, List.filter_map,
        List.map_map]
      simp [Function.comp_def]

/-- Pairing everything with what stands at its place in another list. -/
theorem filterMap_zipIdx {β γ δ : Type} (f : γ → β → δ) (ys : List γ) (xs : List β) :
    (xs.zipIdx.filterMap fun x => ys[x.2]?.map fun y => f y x.1) = List.zipWith f ys xs := by
  induction xs generalizing ys with
  | nil => simp
  | cons x xs ih =>
    rw [List.zipIdx_cons', List.filterMap_cons, List.filterMap_map]
    cases ys with
    | nil => simp
    | cons y ys => simpa [Function.comp_def] using ih ys

/-- The edges of a row that are numbered from a length on are the last ones. -/
theorem row_of_le (edges : List (Edge α)) {others : List (Edge α)} (source target : String) :
    row ((edges.zipIdx.filter fun e =>
        (row others e.1.source e.1.target).length ≤ place edges e).map (·.1)) source target
      = (row edges source target).drop (row others source target).length := by
  rw [← filter_occurrences_of_le, row, List.filter_map, ← map_fst_filter_zipIdx,
    ← filter_occurrences, List.filter_filter, List.filter_filter]
  congr 1
  refine List.filter_congr fun e _ => ?_
  by_cases h : e.1.joins source target = true
  · obtain ⟨hsource, htarget⟩ := Edge.joins_iff.1 h
    simp [hsource, htarget, h]
  · simp [h]

/-- In a row, what is matched is the first edge with the first one and so on. -/
theorem matched_row (old new : List (Edge α)) (source target : String) :
    (matched old new).filter (fun r => r.after.joins source target)
      = List.zipWith Replaced.mk (row old source target) (row new source target) := by
  rw [← filterMap_zipIdx, ← filter_occurrences, List.filterMap_filter, matched_eq,
    List.filter_filterMap]
  refine List.filterMap_congr fun e _ => ?_
  by_cases h : e.1.joins source target = true
  · obtain ⟨hsource, htarget⟩ := Edge.joins_iff.1 h
    rw [if_pos h, hsource, htarget]
    cases (row old source target)[e.2]? <;> simp [Option.filter, h]
  · rw [if_neg h]
    cases (row old e.1.source e.1.target)[e.2]? <;> simp [Option.filter, h]

/-- What was matched has the ends that it had. -/
theorem joins_before_of_mem_matched {old new : List (Edge α)} {r : Replaced (Edge α)}
    (h : r ∈ matched old new) (source target : String) :
    r.before.joins source target = r.after.joins source target := by
  obtain ⟨e, -, he⟩ := List.mem_filterMap.1 h
  obtain ⟨before, hbefore, rfl⟩ := Option.map_eq_some_iff.1 he
  have hjoins := (List.mem_filter.1 (List.mem_of_getElem? hbefore)).2
  obtain ⟨hsource, htarget⟩ := Edge.joins_iff.1 hjoins
  simp [Edge.joins, hsource, htarget]

/-! ## Nothing is lost -/

/-- Lists with the same rows, but for their order, are the same, but for their order. -/
theorem perm_of_row_perm {xs ys : List (Edge α)}
    (h : ∀ source target, (row xs source target).Perm (row ys source target)) : xs.Perm ys :=
  perm_of_filter_perm (p := fun ends : String × String => Edge.joins ends.1 ends.2)
    (fun e => ⟨(e.source, e.target), Edge.joins_iff.2 ⟨rfl, rfl⟩⟩) fun ends => h ends.1 ends.2

/-- What was before, in a row of pairs. -/
theorem map_before_zipWith {β : Type} (xs ys : List β) :
    (List.zipWith Replaced.mk xs ys).map Replaced.before = xs.take ys.length := by
  induction xs generalizing ys with
  | nil => simp
  | cons x xs ih => cases ys <;> simp [ih]

/-- What is after, in a row of pairs. -/
theorem map_after_zipWith {β : Type} (xs ys : List β) :
    (List.zipWith Replaced.mk xs ys).map Replaced.after = ys.take xs.length := by
  induction xs generalizing ys with
  | nil => simp
  | cons x xs ih => cases ys <;> simp [ih]

section

variable (old new : List (Edge α)) (source target : String)

theorem added_row : row (ofEdges old new).added source target
    = (row new source target).drop (row old source target).length := by
  rw [added_ofEdges, row_of_le]

theorem removed_row : row (ofEdges old new).removed source target
    = (row old source target).drop (row new source target).length := by
  rw [removed_ofEdges, row_of_le]

theorem row_map_before : row ((matched old new).map Replaced.before) source target
    = (row old source target).take (row new source target).length := by
  rw [← map_before_zipWith, ← matched_row, row, List.filter_map]
  congr 1
  exact List.filter_congr fun r hr => joins_before_of_mem_matched hr source target

theorem row_map_after : row ((matched old new).map Replaced.after) source target
    = (row new source target).take (row old source target).length := by
  rw [← map_after_zipWith, ← matched_row, row, List.filter_map]
  rfl

end

/-- What was matched is updated or unchanged. -/
theorem map_matched_perm {β : Type} (old new : List (Edge α)) (f : Replaced (Edge α) → β) :
    ((matched old new).map f).Perm ((ofEdges old new).updated.map f
      ++ ((matched old new).filter fun r => r.before.label = r.after.label).map f) := by
  rw [updated_ofEdges, ← List.map_append]
  refine (List.Perm.map f ?_).symm
  refine List.perm_append_comm.trans ?_
  simpa using List.filter_append_perm (fun r => r.before.label = r.after.label) (matched old new)

theorem old_perm (old new : List (Edge α)) :
    old.Perm ((ofEdges old new).removed ++ (matched old new).map Replaced.before) := by
  refine perm_of_row_perm fun source target => ?_
  have hparts : row ((ofEdges old new).removed ++ (matched old new).map Replaced.before) source target
      = (row old source target).drop (row new source target).length
        ++ (row old source target).take (row new source target).length := by
    rw [row, List.filter_append, ← row, ← row, removed_row, row_map_before]
  rw [hparts]
  refine List.Perm.trans ?_ List.perm_append_comm
  rw [List.take_append_drop]

theorem new_perm (old new : List (Edge α)) :
    new.Perm ((ofEdges old new).added ++ (matched old new).map Replaced.after) := by
  refine perm_of_row_perm fun source target => ?_
  have hparts : row ((ofEdges old new).added ++ (matched old new).map Replaced.after) source target
      = (row new source target).drop (row old source target).length
        ++ (row new source target).take (row old source target).length := by
    rw [row, List.filter_append, ← row, ← row, added_row, row_map_after]
  rw [hparts]
  refine List.Perm.trans ?_ List.perm_append_comm
  rw [List.take_append_drop]

/-! ## Order -/

/-- What a partial map gives for some things of a list is in the order of the list. -/
theorem filterMap_sublist_map {β γ : Type} {f : β → Option γ} {g : β → γ}
    (h : ∀ x, ∀ y ∈ f x, y = g x) (xs : List β) : (xs.filterMap f).Sublist (xs.map g) := by
  induction xs with
  | nil => exact List.Sublist.slnil
  | cons x xs ih =>
    rw [List.filterMap_cons, List.map_cons]
    cases hx : f x with
    | none => exact ih.cons _
    | some y => exact h x y hx ▸ ih.cons_cons _

theorem map_fst_filter_sublist (edges : List (Edge α)) (p : Edge α × Nat → Bool) :
    ((edges.zipIdx.filter p).map (·.1)).Sublist edges :=
  (List.filter_sublist.map _).trans (by rw [List.zipIdx_map_fst])

theorem map_after_matched_sublist (old new : List (Edge α)) :
    ((matched old new).map (·.after)).Sublist new := by
  rw [matched, List.map_filterMap]
  refine (filterMap_sublist_map (g := Prod.fst) (fun e after h => ?_) new.zipIdx).trans
    (by rw [List.zipIdx_map_fst])
  rw [Option.map_map] at h
  obtain ⟨before, -, rfl⟩ := Option.map_eq_some_iff.1 h
  rfl

theorem inOrder_ofEdges (old new : List (Edge α)) :
    (ofEdges old new).added.Sublist new ∧ (ofEdges old new).removed.Sublist old
      ∧ ((ofEdges old new).updated.map (·.after)).Sublist new
      ∧ (ofEdges old new).unchanged.Sublist new := by
  have hmatched := map_after_matched_sublist old new
  rw [added_ofEdges, removed_ofEdges, updated_ofEdges, unchanged_ofEdges]
  exact ⟨map_fst_filter_sublist _ _, map_fst_filter_sublist _ _,
    (List.filter_sublist.map _).trans hmatched, (List.filter_sublist.map _).trans hmatched⟩

/-! ## The edges of a change as a whole -/

/-- Whether a change says of every edge what has become of it. -/
structure IsExactOnEdges (old new : List (Edge α)) (c : Change (Edge α)) : Prop where
  /-- In every row the edges are matched from the start on, as far as both rows reach. -/
  matched_row : ∀ source target, (matched old new).filter (fun r => r.after.joins source target)
    = List.zipWith Replaced.mk (row old source target) (row new source target)
  /-- What is matched is updated if the label is another one, and unchanged otherwise. -/
  updated : c.updated = (matched old new).filter fun r => r.before.label ≠ r.after.label
  unchanged : c.unchanged
    = ((matched old new).filter fun r => r.before.label = r.after.label).map (·.after)
  /-- What a row has more than its older state was added, and the other way round. -/
  added_row : ∀ source target, row c.added source target
    = (row new source target).drop (row old source target).length
  removed_row : ∀ source target, row c.removed source target
    = (row old source target).drop (row new source target).length
  /-- The lists are in the order of the state that they come from. -/
  added : c.added = (new.zipIdx.filter fun e =>
    (row old e.1.source e.1.target).length ≤ place new e).map (·.1)
  removed : c.removed = (old.zipIdx.filter fun e =>
    (row new e.1.source e.1.target).length ≤ place old e).map (·.1)
  inOrder : c.added.Sublist new ∧ c.removed.Sublist old
    ∧ (c.updated.map (·.after)).Sublist new ∧ c.unchanged.Sublist new
  /-- Nothing is lost and nothing is there twice. -/
  old_perm : old.Perm (c.removed ++ (c.updated.map (·.before)
    ++ ((matched old new).filter fun r => r.before.label = r.after.label).map (·.before)))
  new_perm : new.Perm (c.added ++ (c.updated.map (·.after) ++ c.unchanged))

end Change

namespace DiagramChange

open Change

/-- What becomes of the edges in a change between two diagrams. -/
theorem isExactOnEdges_between (old new : Diagram α) :
    IsExactOnEdges old.edges new.edges (between old new).edges := by
  have hunchanged := unchanged_ofEdges old.edges new.edges
  exact {
    matched_row := matched_row old.edges new.edges
    updated := updated_ofEdges old.edges new.edges
    unchanged := hunchanged
    added_row := added_row old.edges new.edges
    removed_row := removed_row old.edges new.edges
    added := added_ofEdges old.edges new.edges
    removed := removed_ofEdges old.edges new.edges
    inOrder := inOrder_ofEdges old.edges new.edges
    old_perm := (old_perm old.edges new.edges).trans ((map_matched_perm _ _ _).append_left _)
    new_perm := by
      have hperm := (new_perm old.edges new.edges).trans ((map_matched_perm _ _ _).append_left _)
      rwa [← hunchanged] at hperm }

end DiagramChange

end DiagramBoard
