/-
DiagramBoard.Proofs.Layout.Clearance — the boxes of a new layout are clear of each other.

Seen along and across the ranks, a layout is the same in every direction.  In a rank each box starts
a gap behind the end of the one before it; each rank starts a gap behind the depth of the one before
it.  Centring a box in its rank and a rank on the widest one moves neither past these bounds, and a
flip along the ranks keeps every distance.  All of this is about exact numbers: rounding can eat up
any gap.

Main statements: the boxes of a rank follow each other (`pairwise_placeRank`), boxes of different
ranks are apart (`pairwise_placeRanks`), nothing is pushed where all is clear
(`fillPlaces_of_clear`), and so a new layout is spread out (`isSpread_layout`).
-/
import DiagramBoard.Proofs.Layout.RankPlaces

namespace DiagramBoard

namespace Layout

/-! ## Along and across the ranks -/

/-- Where a box starts along the ranks. -/
def alongStart (direction : Direction) (b : Box Rat) : Rat :=
  if direction.isVertical then b.y else b.x

/-- Where a box starts across the ranks. -/
def acrossStart (direction : Direction) (b : Box Rat) : Rat :=
  if direction.isVertical then b.x else b.y

/-- Where a box ends along the ranks. -/
def alongEnd (direction : Direction) (b : Box Rat) : Rat :=
  alongStart direction b + along direction b.size

/-- Where a box ends across the ranks. -/
def acrossEnd (direction : Direction) (b : Box Rat) : Rat :=
  acrossStart direction b + across direction b.size

/-- Whether two boxes are further apart than any that collide. -/
def AreClear (a b : Box Rat) : Prop := a.overlaps b 20 = false

variable {direction : Direction} {options : Options Rat} {sizes : List (Size Rat)}
  {a b : Box Rat} {p q : Nat × Box Rat}

/-- Boxes are clear of each other if one of them ends well before the other starts. -/
theorem areClear_iff (direction : Direction) :
    AreClear a b ↔ alongEnd direction a + 20 < alongStart direction b
      ∨ alongEnd direction b + 20 < alongStart direction a
      ∨ acrossEnd direction a + 20 < acrossStart direction b
      ∨ acrossEnd direction b + 20 < acrossStart direction a := by
  unfold AreClear Box.overlaps
  simp only [Bool.not_eq_false', Bool.or_eq_true, decide_eq_true_eq, or_assoc]
  cases hv : direction.isVertical <;>
    simp only [alongEnd, acrossEnd, alongStart, acrossStart, along, across, hv] <;>
    exact ⟨by tauto, by tauto⟩

theorem AreClear.symm (h : AreClear a b) : AreClear b a := by
  rw [areClear_iff .down] at h ⊢
  tauto

theorem collides_eq_false_iff {placed : List (Box Rat)} :
    collides a placed = false ↔ ∀ b ∈ placed, AreClear a b := by
  unfold collides
  rw [List.any_eq_false]
  exact forall₂_congr fun b _ => Bool.not_eq_true _ ▸ Iff.rfl

theorem alongStart_boxAt (r c : Rat) (s : Size Rat) :
    alongStart direction (boxAt direction r c s) = r + 40 := by
  unfold alongStart boxAt
  cases direction.isVertical <;> rfl

theorem acrossStart_boxAt (r c : Rat) (s : Size Rat) :
    acrossStart direction (boxAt direction r c s) = c + 40 := by
  unfold acrossStart boxAt
  cases direction.isVertical <;> rfl

/-- A flip takes the end of a box along the ranks to its start. -/
theorem alongStart_flip (extent : Rat) (b : Box Rat) :
    alongStart direction (flip direction extent b) = 80 + extent - alongEnd direction b := by
  have hmargin : (layoutMargin : Rat) = 40 := rfl
  unfold flip alongEnd alongStart along Box.size
  cases direction.isVertical <;> simp only [hmargin, Bool.false_eq_true, ↓reduceIte] <;> linarith

theorem alongEnd_flip (extent : Rat) (b : Box Rat) :
    alongEnd direction (flip direction extent b) = 80 + extent - alongStart direction b := by
  rw [alongEnd, alongStart_flip, size_flip, alongEnd]
  linarith

theorem acrossStart_flip (extent : Rat) (b : Box Rat) :
    acrossStart direction (flip direction extent b) = acrossStart direction b := by
  unfold flip acrossStart
  cases direction.isVertical <;> rfl

/-- A flip keeps boxes clear of each other. -/
theorem AreClear.flip (extent : Rat) (h : AreClear a b) :
    AreClear (flip direction extent a) (flip direction extent b) := by
  rw [areClear_iff direction] at h ⊢
  simp only [alongStart_flip, alongEnd_flip, acrossEnd, acrossStart_flip, size_flip] at h ⊢
  rcases h with h | h | h
  · exact .inr (.inl (by linarith))
  · exact .inl (by linarith)
  · exact .inr (.inr h)

/-! ## Sizes -/

/-- Sizes that boxes can have. -/
def AreNonneg (sizes : List (Size Rat)) : Prop := ∀ s ∈ sizes, 0 ≤ s.width ∧ 0 ≤ s.height

theorem sizeAt_nonneg (hsizes : AreNonneg sizes) (i : Nat) :
    0 ≤ (sizeAt sizes i).width ∧ 0 ≤ (sizeAt sizes i).height := by
  unfold sizeAt
  by_cases hi : i < sizes.length
  · rw [List.getD_eq_getElem _ _ hi]
    exact hsizes _ (List.getElem_mem hi)
  · rw [List.getD_eq_default _ _ (Nat.le_of_not_lt hi)]
    exact ⟨le_rfl, le_rfl⟩

theorem across_sizeAt_nonneg (direction : Direction) (hsizes : AreNonneg sizes) (i : Nat) :
    0 ≤ across direction (sizeAt sizes i) := by
  unfold across
  split
  · exact (sizeAt_nonneg hsizes i).1
  · exact (sizeAt_nonneg hsizes i).2

theorem le_foldl_larger (xs : List Rat) (first : Rat) :
    first ≤ xs.foldl Scalar.larger first ∧ ∀ x ∈ xs, x ≤ xs.foldl Scalar.larger first := by
  induction xs generalizing first with
  | nil => exact ⟨le_rfl, by simp⟩
  | cons x xs ih =>
    obtain ⟨hfirst, hall⟩ := ih (Scalar.larger first x)
    refine ⟨(Scalar.le_larger_left first x).trans hfirst, fun y hy => ?_⟩
    rcases List.mem_cons.1 hy with rfl | hy
    · exact (Scalar.le_larger_right first y).trans hfirst
    · exact hall y hy

theorem depth_nonneg (direction : Direction) (sizes : List (Size Rat)) (nodes : List Nat) :
    0 ≤ depth direction sizes nodes :=
  (le_foldl_larger _ 0).1

/-- A rank is as deep as any of its nodes. -/
theorem along_le_depth {nodes : List Nat} {i : Nat} (hi : i ∈ nodes) :
    along direction (sizeAt sizes i) ≤ depth direction sizes nodes :=
  (le_foldl_larger _ 0).2 _ (List.mem_map_of_mem hi)

/-! ## One rank -/

section Rank

variable {offset depth cursor : Rat} {nodes : List Nat}

theorem le_acrossStart_of_mem_placeRank (hsizes : AreNonneg sizes) (hsep : 0 ≤ options.nodeSep)
    (hp : p ∈ placeRank direction options sizes offset depth cursor nodes) :
    cursor + 40 ≤ acrossStart direction p.2 := by
  induction nodes generalizing cursor with
  | nil => exact absurd hp List.not_mem_nil
  | cons i nodes ih =>
    rcases List.mem_cons.1 hp with rfl | hp
    · rw [acrossStart_boxAt]
    · have hrest := ih hp
      have hi := across_sizeAt_nonneg direction hsizes i
      linarith

/-- The boxes of a rank follow each other with a gap between each two. -/
theorem pairwise_placeRank (hsizes : AreNonneg sizes) (hsep : 0 ≤ options.nodeSep) :
    (placeRank direction options sizes offset depth cursor nodes).Pairwise fun p q =>
      acrossEnd direction p.2 + options.nodeSep ≤ acrossStart direction q.2 := by
  induction nodes generalizing cursor with
  | nil => exact List.Pairwise.nil
  | cons i nodes ih =>
    refine List.Pairwise.cons (fun q hq => ?_) ih
    have hstart := le_acrossStart_of_mem_placeRank hsizes hsep hq
    rw [acrossEnd, acrossStart_boxAt, size_boxAt]
    linarith

/-- The boxes of a rank stay within its depth. -/
theorem along_of_mem_placeRank
    (hdepth : ∀ i ∈ nodes, along direction (sizeAt sizes i) ≤ depth)
    (hp : p ∈ placeRank direction options sizes offset depth cursor nodes) :
    offset + 40 ≤ alongStart direction p.2 ∧ alongEnd direction p.2 ≤ offset + depth + 40 := by
  induction nodes generalizing cursor with
  | nil => exact absurd hp List.not_mem_nil
  | cons i nodes ih =>
    rcases List.mem_cons.1 hp with rfl | hp
    · have hi := hdepth i List.mem_cons_self
      rw [alongEnd, alongStart_boxAt, size_boxAt]
      constructor <;> linarith
    · exact ih (fun j hj => hdepth j (List.mem_cons_of_mem _ hj)) hp

end Rank

/-! ## All ranks -/

section Ranks

variable {widest offset : Rat} {ls : List (List Nat)}

theorem le_end_placeRanks (hsep : 0 ≤ options.rankSep) :
    offset ≤ (placeRanks direction options sizes widest offset ls).2 := by
  induction ls generalizing offset with
  | nil => exact le_rfl
  | cons nodes ls ih =>
    have hdepth := depth_nonneg direction sizes nodes
    refine le_trans ?_ ih
    linarith

/-- Ranks start no earlier than the first of them, and end a gap before the place that is left. -/
theorem along_of_mem_placeRanks (hsep : 0 ≤ options.rankSep)
    (hp : p ∈ (placeRanks direction options sizes widest offset ls).1) :
    offset + 40 ≤ alongStart direction p.2
      ∧ alongEnd direction p.2 + options.rankSep
        ≤ (placeRanks direction options sizes widest offset ls).2 + 40 := by
  induction ls generalizing offset with
  | nil => exact absurd hp List.not_mem_nil
  | cons nodes ls ih =>
    have hdepth := depth_nonneg direction sizes nodes
    rcases List.mem_append.1 hp with hp | hp
    · obtain ⟨hstart, hend⟩ := along_of_mem_placeRank (fun i => along_le_depth) hp
      have hrest : _ ≤ (placeRanks direction options sizes widest
          (offset + (depth direction sizes nodes + options.rankSep)) ls).2 :=
        le_end_placeRanks hsep
      rw [placeRanks]
      exact ⟨hstart, by linarith⟩
    · obtain ⟨hstart, hend⟩ := ih hp
      exact ⟨by linarith, hend⟩

/-- A rank that is no wider than the widest one starts inside the margin. -/
theorem le_acrossStart_of_mem_placeRanks (hsizes : AreNonneg sizes) (hsep : 0 ≤ options.nodeSep)
    (hwidest : ∀ nodes ∈ ls, span direction options sizes nodes ≤ widest)
    (hp : p ∈ (placeRanks direction options sizes widest offset ls).1) :
    40 ≤ acrossStart direction p.2 := by
  induction ls generalizing offset with
  | nil => exact absurd hp List.not_mem_nil
  | cons nodes ls ih =>
    rcases List.mem_append.1 hp with hp | hp
    · have hspan := hwidest nodes List.mem_cons_self
      have hstart := le_acrossStart_of_mem_placeRank hsizes hsep hp
      linarith
    · exact ih (fun l hl => hwidest l (List.mem_cons_of_mem _ hl)) hp

/-- The boxes of all ranks are clear of each other: those of one rank across the ranks, and those
of different ranks along them. -/
theorem pairwise_placeRanks (hsizes : AreNonneg sizes) (hnode : 20 < options.nodeSep)
    (hrank : 20 < options.rankSep) :
    (placeRanks direction options sizes widest offset ls).1.Pairwise fun p q =>
      AreClear p.2 q.2 := by
  induction ls generalizing offset with
  | nil => exact List.Pairwise.nil
  | cons nodes ls ih =>
    refine List.pairwise_append.2 ⟨?_, ih, fun p hp q hq => ?_⟩
    · refine (pairwise_placeRank hsizes (by linarith)).imp fun {p q} hpq => ?_
      exact (areClear_iff direction).2 (.inr (.inr (.inl (by linarith))))
    · obtain ⟨-, hend⟩ := along_of_mem_placeRank (fun i => along_le_depth) hp
      obtain ⟨hstart, -⟩ := along_of_mem_placeRanks (by linarith) hq
      exact (areClear_iff direction).2 (.inl (by linarith))

end Ranks

/-! ## All boxes -/

/-- Whether a box keeps the margin of a layout free. -/
def IsInside (b : Box Rat) : Prop := 40 ≤ b.x ∧ 40 ≤ b.y

theorem isInside_iff (direction : Direction) :
    IsInside b ↔ 40 ≤ alongStart direction b ∧ 40 ≤ acrossStart direction b := by
  unfold IsInside alongStart acrossStart
  cases direction.isVertical with
  | true => exact And.comm
  | false => exact Iff.rfl

variable {d : Diagram Rat}

theorem pairwise_rankPlaces (d : Diagram Rat) (hsizes : AreNonneg sizes)
    (hnode : 20 < options.nodeSep) (hrank : 20 < options.rankSep) :
    (rankPlaces d options sizes).Pairwise fun p q => AreClear p.2 q.2 := by
  unfold rankPlaces
  dsimp only
  split
  · exact List.pairwise_map.2
      ((pairwise_placeRanks hsizes hnode hrank).imp fun hpq => hpq.flip _)
  · exact pairwise_placeRanks hsizes hnode hrank

theorem isInside_of_mem_rankPlaces (hsizes : AreNonneg sizes) (hnode : 0 ≤ options.nodeSep)
    (hrank : 0 ≤ options.rankSep) (hp : p ∈ rankPlaces d options sizes) : IsInside p.2 := by
  have hwidest : ∀ nodes ∈ layers Rat (predecessors d), span d.direction options sizes nodes
      ≤ ((layers Rat (predecessors d)).map (span d.direction options sizes)).foldl
        Scalar.larger 0 :=
    fun nodes hnodes => (le_foldl_larger _ 0).2 _ (List.mem_map_of_mem hnodes)
  rw [isInside_iff d.direction]
  unfold rankPlaces at hp
  dsimp only at hp
  split at hp
  · obtain ⟨q, hq, rfl⟩ := List.mem_map.1 hp
    obtain ⟨-, hend⟩ := along_of_mem_placeRanks hrank hq
    rw [alongStart_flip, acrossStart_flip]
    exact ⟨by linarith, le_acrossStart_of_mem_placeRanks hsizes hnode hwidest hq⟩
  · obtain ⟨hstart, -⟩ := along_of_mem_placeRanks hrank hp
    exact ⟨by linarith, le_acrossStart_of_mem_placeRanks hsizes hnode hwidest hp⟩

/-- The boxes of all nodes are spread out. -/
theorem spread_rankBoxes (hsizes : AreNonneg sizes) (hlength : sizes.length = d.nodes.length)
    (hnode : 20 < options.nodeSep) (hrank : 20 < options.rankSep) :
    (rankBoxes d options sizes).Pairwise AreClear
      ∧ ∀ b ∈ rankBoxes d options sizes, IsInside b := by
  have hplaces : ∀ i (hi : i < (rankBoxes d options sizes).length),
      (i, (rankBoxes d options sizes)[i]) ∈ rankPlaces d options sizes := by
    intro i hi
    obtain ⟨b, hb, hmem⟩ := exists_getElem?_rankBoxes options hlength
      (by rwa [length_rankBoxes, hlength] at hi)
    obtain ⟨_, rfl⟩ := List.getElem?_eq_some_iff.1 hb
    exact hmem
  have : Std.Symm fun p q : Nat × Box Rat => AreClear p.2 q.2 := ⟨fun _ _ => AreClear.symm⟩
  constructor
  · refine List.pairwise_iff_getElem.2 fun i j hi hj hij => ?_
    have hclear := (pairwise_rankPlaces d hsizes hnode hrank).forall (hplaces i hi) (hplaces j hj)
    exact hclear fun heq => hij.ne (congrArg Prod.fst heq)
  · intro b hb
    obtain ⟨i, hi, rfl⟩ := List.getElem_of_mem hb
    have hnode' : 0 ≤ options.nodeSep := by linarith
    have hrank' : 0 ≤ options.rankSep := by linarith
    have hinside := isInside_of_mem_rankPlaces hsizes hnode' hrank' (hplaces i hi)
    exact hinside

/-! ## New layouts -/

/-- Nothing is pushed where all computed boxes are clear. -/
theorem fillPlaces_of_clear {placed : List (Box Rat)} {ps : List (Node Rat × Box Rat)}
    (hbox : ∀ p ∈ ps, p.1.box = none) (hclear : ps.Pairwise fun p q => AreClear p.2 q.2)
    (hplaced : ∀ p ∈ ps, ∀ b ∈ placed, AreClear p.2 b) :
    fillPlaces direction options placed ps = ps.map fun p => { p.1 with box := some p.2 } := by
  induction ps generalizing placed with
  | nil => rfl
  | cons p ps ih =>
    obtain ⟨n, c⟩ := p
    have hn : n.box = none := hbox _ List.mem_cons_self
    have hc : ∀ b ∈ placed, AreClear c b := hplaced (n, c) List.mem_cons_self
    have hfree : collides c placed = false := collides_eq_false_iff.2 hc
    have hstays : nudge direction options placed nudgeAttempts c = c := by
      rw [nudgeAttempts, nudge, hfree, if_neg Bool.false_ne_true]
    obtain ⟨hhead, htail⟩ := List.pairwise_cons.1 hclear
    rw [fillPlaces]
    simp only [hn, hstays, List.map_cons, List.cons.injEq, true_and]
    refine ih (fun p hp => hbox p (List.mem_cons_of_mem _ hp)) htail fun q hq b hb => ?_
    rcases List.mem_append.1 hb with hb | hb
    · exact hplaced q (List.mem_cons_of_mem _ hq) b hb
    · rw [List.mem_singleton.1 hb]
      exact (hhead q hq).symm

/-- Where no node has a place, every node takes the box that was made for it. -/
theorem rankedLayout_of_clear {sizeOf : Node Rat → Size Rat} (hnone : ∀ n ∈ d.nodes, n.box = none)
    (hclear : (rankBoxes d options (d.nodes.map (layoutSize sizeOf))).Pairwise AreClear) :
    rankedLayout sizeOf options d
      = d.withBoxes (rankBoxes d options (d.nodes.map (layoutSize sizeOf))) := by
  by_cases hforce : options.forceRelayout = true
  · exact rankedLayout_of_forced hforce sizeOf d
  unfold rankedLayout
  split
  · next hplaced =>
    -- every node has a place and none has one: there are no nodes
    have hempty : d.nodes = [] := by
      refine List.eq_nil_iff_forall_not_mem.2 fun n hn => ?_
      have hsome := List.all_eq_true.1 (Bool.and_eq_true_iff.1 hplaced).2 n hn
      rw [hnone n hn] at hsome
      exact Bool.false_ne_true hsome
    rw [Diagram.withBoxes, hempty, List.zip_nil_left, List.map_nil, ← hempty]
  · dsimp only
    have hfree : d.nodes.filterMap (·.box) = [] := List.filterMap_eq_nil_iff.2 hnone
    rw [hfree, fillPlaces_of_clear]
    · rfl
    · exact fun p hp => hnone p.1 (List.of_mem_zip hp).1
    · rw [← List.pairwise_map, List.map_snd_zip (by rw [length_computed])]
      exact hclear
    · exact fun _ _ _ hb => absurd hb List.not_mem_nil

/-- A box is as large as the default size at least. -/
theorem neededSize_nonneg (kind : DiagramKind) (hwidth : 0 ≤ options.defaultWidth)
    (hheight : 0 ≤ options.defaultHeight) (n : Node Rat) :
    0 ≤ (neededSize kind options n).width ∧ 0 ≤ (neededSize kind options n).height := by
  have hfitted : 0 ≤ (nodeSize options n).width ∧ 0 ≤ (nodeSize options n).height :=
    ⟨hwidth.trans (defaultWidth_le_nodeSize options n),
      hheight.trans (Scalar.le_larger_left ..)⟩
  unfold neededSize
  split
  · unfold classSize
    dsimp only
    split
    · exact hfitted
    · exact ⟨hfitted.1.trans (Scalar.le_larger_left ..),
        hheight.trans (Scalar.le_larger_left ..)⟩
  · exact hfitted

end Layout

/-- Whether boxes have given sizes, keep the margin of a layout free and are clear of each other. -/
structure IsSpread (sizes : List (Size Rat)) (boxes : List (Box Rat)) : Prop where
  size_eq : boxes.map Box.size = sizes
  clear : boxes.Pairwise Layout.AreClear
  inside : ∀ b ∈ boxes, Layout.IsInside b

open Layout

section

variable {options : Options Rat} {d : Diagram Rat}

theorem layoutSize_nonneg (kind : DiagramKind) (hwidth : 0 ≤ options.defaultWidth)
    (hheight : 0 ≤ options.defaultHeight) {n : Node Rat}
    (hn : ∀ b ∈ n.box, 0 ≤ b.width ∧ 0 ≤ b.height) :
    0 ≤ (layoutSize (neededSize kind options) n).width
      ∧ 0 ≤ (layoutSize (neededSize kind options) n).height := by
  unfold layoutSize
  cases hbox : n.box with
  | none => exact neededSize_nonneg kind hwidth hheight n
  | some b => exact hn b hbox

/-- A new layout in ranks spreads the nodes out, whatever their edges are: where no node has a
place, and also where a layout is forced on nodes that have one. -/
theorem isSpread_layout (hkind : d.kind.strategy ≠ .lanes)
    (hnode : 20 < options.nodeSep) (hrank : 20 < options.rankSep)
    (hwidth : 0 ≤ options.defaultWidth) (hheight : 0 ≤ options.defaultHeight)
    (hnew : (∀ n ∈ d.nodes, n.box = none) ∨ options.forceRelayout = true
      ∧ ∀ n ∈ d.nodes, ∀ b ∈ n.box, 0 ≤ b.width ∧ 0 ≤ b.height) :
    ∃ boxes, d.layout options = d.withBoxes boxes
      ∧ IsSpread (d.nodes.map (layoutSize (neededSize d.kind options))) boxes := by
  have hold : ∀ n ∈ d.nodes, ∀ b ∈ n.box, 0 ≤ b.width ∧ 0 ≤ b.height := by
    rcases hnew with hnone | ⟨-, hold⟩
    · intro n hn b hb
      simp [hnone n hn] at hb
    · exact hold
  have hsizes : AreNonneg (d.nodes.map (layoutSize (neededSize d.kind options))) :=
    List.forall_mem_map.2 fun n hn => layoutSize_nonneg d.kind hwidth hheight (hold n hn)
  have hlength : (d.nodes.map (layoutSize (neededSize d.kind options))).length = d.nodes.length :=
    List.length_map ..
  obtain ⟨hclear, hinside⟩ := spread_rankBoxes hsizes hlength hnode hrank
  refine ⟨rankBoxes d options _, ?_, map_size_rankBoxes options hlength, hclear, hinside⟩
  rw [layout_of_ranks hkind]
  rcases hnew with hnone | ⟨hforce, -⟩
  · exact rankedLayout_of_clear hnone hclear
  · exact rankedLayout_of_forced hforce _ d

end

/-- The cycle laid out upwards, its nodes in boxes of the default size. -/
theorem isSpread_layout_retryLoop :
    (∀ n ∈ retryLoop.nodes, n.box = none)
      ∧ ∃ boxes, ({ retryLoop with direction := .up } : Diagram Rat).layout .standard
          = ({ retryLoop with direction := .up } : Diagram Rat).withBoxes boxes
        ∧ IsSpread (List.replicate 4 ⟨150, 60⟩) boxes := by
  have hnone : ∀ n ∈ retryLoop.nodes, n.box = none := by
    simp [retryLoop]
  have hsizes : ({ retryLoop with direction := .up } : Diagram Rat).nodes.map
      (layoutSize (neededSize .flowchart .standard)) = List.replicate 4 ⟨150, 60⟩ := by cbv
  refine ⟨hnone, ?_⟩
  rw [← hsizes]
  exact isSpread_layout (by decide) (by decide) (by decide) (by decide) (by decide) (.inl hnone)

example : (({ retryLoop with direction := .up } : Diagram Rat).layout .standard).nodes.map (·.box)
    = [some ⟨155, 40, 150, 60⟩, some ⟨40, 360, 150, 60⟩, some ⟨155, 200, 150, 60⟩,
      some ⟨270, 360, 150, 60⟩] := by cbv

end DiagramBoard
