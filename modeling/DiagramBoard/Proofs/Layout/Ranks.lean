/-
DiagramBoard.Proofs.Layout.Ranks — the ranks of nodes that lead to each other in any way.

Ranks are computed along the edges, backwards, and a node that is on the path already is passed
over.  So the rank of a node in a cycle depends on where the computation came into the cycle, and
it is kept as it was computed then.  Two things do not depend on that.  An edge is passed over only
where it closes a cycle, for the nodes on the path are those that the present one leads to.  And
whatever rank a node gets, it gets from a predecessor.

Both are said of the table of ranks that are known, after every call (`isComputed_rankOf`,
`isCollected_rankAfter`), and then of the ranks themselves.

Main statements: every node has a rank (`lookup_rankTable`), one that is above those of all
predecessors that it does not lead back to (`getD_ranks_lt`) and directly above one of them, if it
is above anything (`exists_getD_ranks_eq`).
-/
import DiagramBoard.Layout.Rank
import Mathlib

namespace DiagramBoard.Layout

/-! ## Ways -/

/-- Whether a node is a predecessor of another. -/
def Precedes (preds : List (List Nat)) (p i : Nat) : Prop := p ∈ preds.getD i []

/-- Whether edges lead from a node to another, or the two are the same. -/
def LeadsTo (preds : List (List Nat)) : Nat → Nat → Prop := Relation.ReflTransGen (Precedes preds)

/-- Whether every node that is not free is one that node `i` leads to. -/
def IsPath (preds : List (List Nat)) (free : List Nat) (i : Nat) : Prop :=
  ∀ j < preds.length, j ∉ free → LeadsTo preds i j

/-- Whether predecessors are nodes. -/
def AreNodes (preds : List (List Nat)) : Prop := ∀ p i, Precedes preds p i → p < preds.length

variable {preds : List (List Nat)} {free ps : List Nat} {i j p r least : Nat}
  {known known' known'' : RankTable}

theorem Precedes.lt_length (h : Precedes preds p i) : i < preds.length := by
  by_contra hi
  rw [Precedes, List.getD_eq_default _ _ (not_lt.1 hi)] at h
  exact List.not_mem_nil h

/-- A path that starts at a node goes on to each of its predecessors. -/
theorem IsPath.erase (h : IsPath preds free i) (hp : Precedes preds p i) :
    IsPath preds (free.erase p) p := by
  intro j hj hfree
  by_cases hjp : j = p
  · exact hjp ▸ Relation.ReflTransGen.refl
  · exact Relation.ReflTransGen.head hp
      (h j hj fun hmem => hfree ((List.mem_erase_of_ne hjp).2 hmem))

/-! ## Tables -/

/-- Whether a table has the rank of every node that it needs: those of the predecessors that a node
does not lead back to are below its own, and some predecessor is directly below it. -/
structure IsSettled (preds : List (List Nat)) (known : RankTable) : Prop where
  above : ∀ {i r}, known.lookup i = some r → ∀ {p}, Precedes preds p i → ¬ LeadsTo preds i p →
    ∃ q, known.lookup p = some q ∧ q < r
  attained : ∀ {i r}, known.lookup i = some r → 0 < r →
    ∃ p q, Precedes preds p i ∧ known.lookup p = some q ∧ q + 1 = r

/-- Whether a table has all ranks of another one, and further ones of free nodes only. -/
structure Extends (free : List Nat) (known known' : RankTable) : Prop where
  kept : ∀ {j r}, known.lookup j = some r → known'.lookup j = some r
  unknown : ∀ {j}, known.lookup j = none → j ∉ free → known'.lookup j = none

theorem Extends.refl (free : List Nat) (known : RankTable) : Extends free known known :=
  ⟨id, fun h _ => h⟩

theorem Extends.trans (h : Extends free known known') (h' : Extends free known' known'') :
    Extends free known known'' :=
  ⟨fun hj => h'.kept (h.kept hj), fun hj hfree => h'.unknown (h.unknown hj hfree) hfree⟩

theorem Extends.mono {free' : List Nat} (h : Extends free known known') (hsub : free ⊆ free') :
    Extends free' known known' :=
  ⟨h.kept, fun hj hfree => h.unknown hj fun hmem => hfree (hsub hmem)⟩

/-- A rank that is added for a node without one leaves all others. -/
theorem extends_cons (hi : known.lookup i = none) : Extends [i] known ((i, r) :: known) where
  kept {j q} hj := by
    have hne : j ≠ i := by
      rintro rfl
      rw [hi] at hj
      exact nomatch hj
    rw [List.lookup_cons, beq_false_of_ne hne]
    exact hj
  unknown {j} hj hfree := by
    have hne : j ≠ i := fun h => hfree (List.mem_singleton.2 h)
    rw [List.lookup_cons, beq_false_of_ne hne]
    exact hj

/-- A table stays settled when a node gets a rank above those of its predecessors. -/
theorem IsSettled.cons (h : IsSettled preds known) (hi : known.lookup i = none)
    (habove : ∀ {p}, Precedes preds p i → ¬ LeadsTo preds i p →
      ∃ q, known.lookup p = some q ∧ q < r)
    (hattained : 0 < r → ∃ p q, Precedes preds p i ∧ known.lookup p = some q ∧ q + 1 = r) :
    IsSettled preds ((i, r) :: known) := by
  have hkept : ∀ {j s}, known.lookup j = some s → ((i, r) :: known).lookup j = some s :=
    (extends_cons hi).kept
  have hentry : ∀ {j s}, ((i, r) :: known).lookup j = some s →
      j = i ∧ s = r ∨ known.lookup j = some s := by
    intro j s hj
    by_cases hji : j = i
    · subst hji
      rw [List.lookup_cons_self] at hj
      exact .inl ⟨rfl, (Option.some.inj hj).symm⟩
    · rw [List.lookup_cons, beq_false_of_ne hji] at hj
      exact .inr hj
  constructor
  · intro j s hj p hp hback
    rcases hentry hj with ⟨rfl, rfl⟩ | hj
    · obtain ⟨q, hq, hlt⟩ := habove hp hback
      exact ⟨q, hkept hq, hlt⟩
    · obtain ⟨q, hq, hlt⟩ := h.above hj hp hback
      exact ⟨q, hkept hq, hlt⟩
  · intro j s hj hpos
    rcases hentry hj with ⟨rfl, rfl⟩ | hj
    · obtain ⟨p, q, hp, hq, heq⟩ := hattained hpos
      exact ⟨p, q, hp, hkept hq, heq⟩
    · obtain ⟨p, q, hp, hq, heq⟩ := h.attained hj hpos
      exact ⟨p, q, hp, hkept hq, heq⟩

/-! ## One call -/

/-- What a call for a node leaves behind: a settled table with the rank of the node. -/
structure IsComputed (preds : List (List Nat)) (free : List Nat) (i : Nat) (known : RankTable)
    (q : Nat × RankTable) : Prop where
  settled : IsSettled preds q.2
  grown : Extends (i :: free) known q.2
  found : q.2.lookup i = some q.1

/-- What a run over some predecessors leaves behind: a settled table with the ranks of those that
are free, and the least number that is above them. -/
structure IsCollected (preds : List (List Nat)) (free ps : List Nat) (least : Nat)
    (known : RankTable) (q : Nat × RankTable) : Prop where
  settled : IsSettled preds q.2
  grown : Extends free known q.2
  least_le : least ≤ q.1
  above : ∀ p ∈ ps, p ∈ free → ∃ r, q.2.lookup p = some r ∧ r < q.1
  attained : q.1 = least ∨ ∃ p ∈ ps, ∃ r, q.2.lookup p = some r ∧ r + 1 = q.1

theorem isComputed_of_known (hsettled : IsSettled preds known) (hi : known.lookup i = some r) :
    IsComputed preds free i known (r, known) :=
  ⟨hsettled, .refl _ _, hi⟩

/-- The number that a run over all predecessors of a node leaves behind is a rank for the node. -/
theorem IsCollected.isComputed {q : Nat × RankTable} (hnodes : AreNodes preds)
    (h : IsCollected preds free (preds.getD i []) 0 known q) (hi : known.lookup i = none)
    (hfree : i ∉ free) (hpath : IsPath preds free i) :
    IsComputed preds free i known (q.1, (i, q.1) :: q.2) := by
  have hi' := h.grown.unknown hi hfree
  refine ⟨h.settled.cons hi' ?_ ?_, ?_, List.lookup_cons_self⟩
  · -- a predecessor that is not free is on the path, which the node leads to
    intro p hp hback
    by_cases hmem : p ∈ free
    · exact h.above p hp hmem
    · exact absurd (hpath p (hnodes p i hp) hmem) hback
  · intro hpos
    obtain ⟨p, hp, s, hs, heq⟩ := h.attained.resolve_left (Nat.ne_of_gt hpos)
    exact ⟨p, s, hp, hs, heq⟩
  · exact (h.grown.mono (List.subset_cons_self i free)).trans
      ((extends_cons hi').mono (List.cons_subset.2 ⟨List.mem_cons_self, List.nil_subset _⟩))

theorem isCollected_nil (hsettled : IsSettled preds known) :
    IsCollected preds free [] least known (least, known) :=
  ⟨hsettled, .refl _ _, le_rfl, fun _ hp => absurd hp List.not_mem_nil, .inl rfl⟩

/-- A free predecessor gets its rank first, and what is left has to be above it. -/
theorem IsComputed.isCollected_cons {q q' : Nat × RankTable}
    (hof : IsComputed preds (free.erase p) p known q) (hp : p ∈ free)
    (hafter : IsCollected preds free ps (max least (q.1 + 1)) q.2 q') :
    IsCollected preds free (p :: ps) least known q' := by
  have hsub : p :: free.erase p ⊆ free := List.cons_subset.2 ⟨hp, List.erase_subset⟩
  have hp' := hafter.grown.kept hof.found
  refine ⟨hafter.settled, (hof.grown.mono hsub).trans hafter.grown,
    (le_max_left ..).trans hafter.least_le, ?_, ?_⟩
  · intro p' hmem hfree
    rcases List.mem_cons.1 hmem with rfl | hmem
    · exact ⟨_, hp', (Nat.lt_succ_self _).trans_le ((le_max_right ..).trans hafter.least_le)⟩
    · exact hafter.above p' hmem hfree
  · rcases hafter.attained with heq | ⟨p', hmem, r, hr, heq⟩
    · -- the least number is the old one, or the rank of this predecessor is directly below it
      rcases max_choice least (q.1 + 1) with hmax | hmax
      · exact .inl (heq.trans hmax)
      · exact .inr ⟨p, List.mem_cons_self, q.1, hp', (heq.trans hmax).symm⟩
    · exact .inr ⟨p', List.mem_cons_of_mem _ hmem, r, hr, heq⟩

/-- A predecessor on the path is passed over. -/
theorem IsCollected.cons_of_notMem {q : Nat × RankTable} (hp : p ∉ free)
    (h : IsCollected preds free ps least known q) :
    IsCollected preds free (p :: ps) least known q where
  settled := h.settled
  grown := h.grown
  least_le := h.least_le
  above p' hmem hfree := by
    rcases List.mem_cons.1 hmem with rfl | hmem
    · exact absurd hfree hp
    · exact h.above p' hmem hfree
  attained := h.attained.imp_right fun ⟨p', hmem, hr⟩ => ⟨p', List.mem_cons_of_mem _ hmem, hr⟩

/-- Every call keeps a table settled, as long as the nodes that are not free are those on a path. -/
theorem isComputed_and_isCollected (hnodes : AreNodes preds) :
    (∀ free i known, IsSettled preds known → free.Nodup → i ∉ free → IsPath preds free i →
      IsComputed preds free i known (rankOf preds free i known))
    ∧ ∀ free ps least known, IsSettled preds known → free.Nodup →
      (∀ p ∈ ps, IsPath preds (free.erase p) p) →
      IsCollected preds free ps least known (rankAfter preds free ps least known) := by
  refine rankOf.mutual_induct preds
    (fun free i known => IsSettled preds known → free.Nodup → i ∉ free → IsPath preds free i →
      IsComputed preds free i known (rankOf preds free i known))
    (fun free ps least known => IsSettled preds known → free.Nodup →
      (∀ p ∈ ps, IsPath preds (free.erase p) p) →
      IsCollected preds free ps least known (rankAfter preds free ps least known))
    ?known ?unknown ?none ?free ?passedOver
  case known =>
    intro free i known r hi hsettled _ _ _
    rw [rankOf, hi]
    exact isComputed_of_known hsettled hi
  case unknown =>
    intro free i known hi ih hsettled hnodup hfree hpath
    have hafter := ih hsettled hnodup fun p hp => hpath.erase hp
    rw [rankOf, hi]
    exact hafter.isComputed hnodes hi hfree hpath
  case none =>
    intro free least known hsettled _ _
    rw [rankAfter]
    exact isCollected_nil hsettled
  case free =>
    intro free least known p ps hp _ q ihOf ihAfter hsettled hnodup hpaths
    rw [rankAfter, dif_pos hp]
    have hof := ihOf hsettled (hnodup.erase p) hnodup.not_mem_erase (hpaths p List.mem_cons_self)
    have hafter := ihAfter hof.settled hnodup fun p hp => hpaths p (List.mem_cons_of_mem _ hp)
    exact hof.isCollected_cons hp hafter
  case passedOver =>
    intro free least known p ps hp ih hsettled hnodup hpaths
    rw [rankAfter, dif_neg hp]
    exact (ih hsettled hnodup fun p hp => hpaths p (List.mem_cons_of_mem _ hp)).cons_of_notMem hp

theorem isComputed_rankOf (hnodes : AreNodes preds) (hsettled : IsSettled preds known)
    (hnodup : free.Nodup) (hi : i ∉ free) (hpath : IsPath preds free i) :
    IsComputed preds free i known (rankOf preds free i known) :=
  (isComputed_and_isCollected hnodes).1 free i known hsettled hnodup hi hpath

/-! ## All nodes -/

/-- A call for a node whose path is that node alone. -/
theorem isComputed_rankOf_erase (hnodes : AreNodes preds) (hsettled : IsSettled preds known) :
    IsComputed preds ((List.range preds.length).erase i) i known
      (rankOf preds ((List.range preds.length).erase i) i known) := by
  have hnodup := List.nodup_range (n := preds.length)
  refine isComputed_rankOf hnodes hsettled (hnodup.erase i) hnodup.not_mem_erase fun j hj hfree => ?_
  by_cases hji : j = i
  · exact hji ▸ Relation.ReflTransGen.refl
  · exact absurd ((List.mem_erase_of_ne hji).2 (List.mem_range.2 hj)) hfree

/-- The table after calls for some nodes in turn is settled and has their ranks. -/
theorem isSettled_foldl (hnodes : AreNodes preds) (is : List Nat) (hsettled : IsSettled preds known) :
    IsSettled preds (is.foldl (fun known i =>
        (rankOf preds ((List.range preds.length).erase i) i known).2) known)
      ∧ ∀ i, i ∈ is ∨ (known.lookup i).isSome = true →
        ((is.foldl (fun known i =>
          (rankOf preds ((List.range preds.length).erase i) i known).2) known).lookup i).isSome
            = true := by
  induction is generalizing known with
  | nil => exact ⟨hsettled, fun i h => h.resolve_left List.not_mem_nil⟩
  | cons k is ih =>
    obtain ⟨hsettled', hgrown, hfound⟩ := isComputed_rankOf_erase (i := k) hnodes hsettled
    obtain ⟨hlast, hall⟩ := ih hsettled'
    refine ⟨hlast, fun i hi => hall i ?_⟩
    rcases hi with hi | hi
    · rcases List.mem_cons.1 hi with rfl | hi
      · exact .inr (Option.isSome_of_eq_some hfound)
      · exact .inl hi
    · obtain ⟨r, hr⟩ := Option.isSome_iff_exists.1 hi
      exact .inr (Option.isSome_of_eq_some (hgrown.kept hr))

theorem isSettled_nil : IsSettled preds [] := ⟨nofun, nofun⟩

/-- The table of all ranks is settled. -/
theorem isSettled_rankTable (hnodes : AreNodes preds) : IsSettled preds (rankTable preds) :=
  (isSettled_foldl hnodes _ isSettled_nil).1

/-- Every node gets a rank. -/
theorem lookup_rankTable (hnodes : AreNodes preds) (hi : i < preds.length) :
    (rankTable preds).lookup i = some ((ranks preds).getD i 0) := by
  have hsome : ((rankTable preds).lookup i).isSome = true :=
    (isSettled_foldl hnodes _ isSettled_nil).2 i (.inl (List.mem_range.2 hi))
  obtain ⟨r, hr⟩ := Option.isSome_iff_exists.1 hsome
  simp [ranks, hi, hr]

/-- A node has a higher rank than every predecessor that it does not lead back to. -/
theorem getD_ranks_lt (hnodes : AreNodes preds) (hp : Precedes preds p i)
    (hback : ¬ LeadsTo preds i p) : (ranks preds).getD p 0 < (ranks preds).getD i 0 := by
  obtain ⟨q, hq, hlt⟩ :=
    (isSettled_rankTable hnodes).above (lookup_rankTable hnodes hp.lt_length) hp hback
  rw [lookup_rankTable hnodes (hnodes p i hp)] at hq
  exact (Option.some.inj hq).symm ▸ hlt

/-- A node with a rank above zero has it from a predecessor. -/
theorem exists_getD_ranks_eq (hnodes : AreNodes preds) (hi : i < preds.length)
    (hpos : 0 < (ranks preds).getD i 0) :
    ∃ p, Precedes preds p i ∧ (ranks preds).getD p 0 + 1 = (ranks preds).getD i 0 := by
  obtain ⟨p, q, hp, hq, heq⟩ :=
    (isSettled_rankTable hnodes).attained (lookup_rankTable hnodes hi) hpos
  rw [lookup_rankTable hnodes (hnodes p i hp)] at hq
  exact ⟨p, hp, (Option.some.inj hq).symm ▸ heq⟩

/-! ## Ways to a node -/

/-- To every node leads a way on which each node is one rank above the one before it. -/
theorem exists_path (hnodes : AreNodes preds) (hi : i < preds.length) :
    ∃ path : List Nat, path.IsChain (Precedes preds) ∧ path.getLast? = some i
      ∧ path.map ((ranks preds).getD · 0) = List.range ((ranks preds).getD i 0 + 1) := by
  induction hr : (ranks preds).getD i 0 generalizing i with
  | zero => exact ⟨[i], .singleton i, rfl, by rw [List.map_singleton, hr]; rfl⟩
  | succ r ih =>
    obtain ⟨p, hp, heq⟩ := exists_getD_ranks_eq hnodes hi (hr ▸ Nat.succ_pos r)
    obtain ⟨path, hchain, hlast, hranks⟩ := ih (hnodes p i hp) (by omega)
    refine ⟨path ++ [i], hchain.append (.singleton i) ?_, by simp, ?_⟩
    · intro q hq j hj
      obtain rfl : p = q := Option.some.inj (hlast.symm.trans hq)
      obtain rfl : i = j := Option.some.inj hj
      exact hp
    · rw [List.map_append, hranks, List.range_succ (n := r + 1), List.map_singleton, hr]

/-- Whatever is on a way to a node is a node. -/
theorem lt_length_of_mem_path (hnodes : AreNodes preds) (hi : i < preds.length) {path : List Nat}
    (hchain : path.IsChain (Precedes preds)) (hlast : path.getLast? = some i) (hj : j ∈ path) :
    j < preds.length := by
  obtain ⟨before, after, rfl⟩ := List.append_of_mem hj
  cases after with
  | nil =>
    obtain rfl : j = i := by simpa using hlast
    exact hi
  | cons k after => exact hnodes j k (List.isChain_append.1 hchain).2.1.rel

/-- No rank is left out below that of a node. -/
theorem exists_getD_ranks_eq_of_le (hnodes : AreNodes preds) (hi : i < preds.length)
    (hr : r ≤ (ranks preds).getD i 0) : ∃ j < preds.length, (ranks preds).getD j 0 = r := by
  obtain ⟨path, hchain, hlast, hranks⟩ := exists_path hnodes hi
  have hmem : r ∈ path.map ((ranks preds).getD · 0) := by
    rw [hranks, List.mem_range]
    exact Nat.lt_succ_of_le hr
  obtain ⟨j, hj, rfl⟩ := List.mem_map.1 hmem
  exact ⟨j, lt_length_of_mem_path hnodes hi hchain hlast hj, rfl⟩

/-- Ranks are smaller than the number of nodes. -/
theorem getD_ranks_lt_length (hnodes : AreNodes preds) (hi : i < preds.length) :
    (ranks preds).getD i 0 < preds.length := by
  obtain ⟨path, hchain, hlast, hranks⟩ := exists_path hnodes hi
  have hnodup : path.Nodup := List.Nodup.of_map _ (hranks ▸ List.nodup_range)
  have hsub : path ⊆ List.range preds.length := fun j hj =>
    List.mem_range.2 (lt_length_of_mem_path hnodes hi hchain hlast hj)
  have hlength := congrArg List.length hranks
  rw [List.length_map, List.length_range] at hlength
  calc (ranks preds).getD i 0 < path.length := hlength ▸ Nat.lt_succ_self _
    _ ≤ (List.range preds.length).length := (List.subperm_of_subset hnodup hsub).length_le
    _ = preds.length := List.length_range

/-- Where no way leads back, the rank of a node is at least the number of edges on a way to it. -/
theorem add_length_le_of_isChain (hnodes : AreNodes preds)
    (hacyclic : ∀ i, ¬ Relation.TransGen (Precedes preds) i i) {path : List Nat}
    (hchain : (i :: path).IsChain (Precedes preds)) (hlast : (i :: path).getLast? = some j)
    (hj : j < preds.length) :
    (ranks preds).getD i 0 + path.length ≤ (ranks preds).getD j 0 := by
  induction path generalizing i with
  | nil =>
    obtain rfl : i = j := by simpa using hlast
    exact le_rfl
  | cons k path ih =>
    obtain ⟨hik, hchain⟩ := List.isChain_cons_cons.1 hchain
    have hlt := getD_ranks_lt hnodes hik fun hback => hacyclic k (.tail' hback hik)
    have hle := ih hchain (by simpa using hlast)
    rw [List.length_cons]
    omega

/-- Where no way leads back, the rank of a node is the number of edges on the longest way to it. -/
theorem isGreatest_getD_ranks (hnodes : AreNodes preds)
    (hacyclic : ∀ i, ¬ Relation.TransGen (Precedes preds) i i) (hi : i < preds.length) :
    IsGreatest {k | ∃ path : List Nat, path.IsChain (Precedes preds) ∧ path.getLast? = some i
      ∧ path.length = k + 1} ((ranks preds).getD i 0) := by
  constructor
  · obtain ⟨path, hchain, hlast, hranks⟩ := exists_path hnodes hi
    have hlength := congrArg List.length hranks
    rw [List.length_map, List.length_range] at hlength
    exact ⟨path, hchain, hlast, hlength⟩
  · rintro k ⟨path, hchain, hlast, hlength⟩
    cases path with
    | nil => exact nomatch hlast
    | cons j path =>
      have := add_length_le_of_isChain hnodes hacyclic hchain hlast hi
      rw [List.length_cons] at hlength
      omega

end DiagramBoard.Layout
