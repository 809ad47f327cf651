/-
DiagramBoard.Proofs.Layout.ReadingOrder — when a sequence can be read from left to right and down.

A participant keeps the size that it had, but columns are as wide as the default size asks for, and
the first lane is below a box of the default height.  So the order of participants and of messages
never changes, and messages always join the centres of participants; but a participant can be wider
than its column, and one can be so high that lanes run through it.  All of this is about exact
numbers.

Main statements: what holds of every sequence (`hasLanes_layout`), when participants stand clear of
each other (`pairwise_participantBoxes_iff`), when lanes are below them (`bottom_lt_lanesFrom_iff`),
and so when the whole sequence can be read (`isReadable_layout_iff`).
-/
import DiagramBoard.Proofs.Layout.Stable

namespace DiagramBoard

namespace Layout

/-! ## Lanes -/

/-- So many lanes, from one on. -/
def lanesFrom {α : Type} [Scalar α] (lane : α) : Nat → List α
  | 0 => []
  | n + 1 => lane :: lanesFrom (lane + laneStep) n

/-- Whether a message runs in a lane from one centre line to another. -/
def RunsIn (centers : List (String × Rat)) (e : Edge Rat) (lane : Rat) : Prop :=
  ∃ x₁ x₂, centers.lookup e.source = some x₁ ∧ centers.lookup e.target = some x₂
    ∧ e.points = some [⟨x₁, lane⟩, ⟨x₂, lane⟩]

section Lanes

variable {centers : List (String × Rat)} {lane : Rat} {edges : List (Edge Rat)}

/-- Lanes lie between the first one and the place behind the last one. -/
theorem bounds_of_mem_lanesFrom {n : Nat} {l : Rat} (hl : l ∈ lanesFrom lane n) :
    lane ≤ l ∧ l < lane + n * 100 := by
  induction n generalizing lane with
  | zero => exact absurd hl List.not_mem_nil
  | succ n ih =>
    have hstep : (laneStep : Rat) = 100 := rfl
    have hn : (0 : Rat) ≤ n := Nat.cast_nonneg n
    push_cast
    rcases List.mem_cons.1 hl with rfl | hl
    · exact ⟨le_rfl, by linarith⟩
    · obtain ⟨hfirst, hlast⟩ := ih hl
      exact ⟨by linarith, by linarith⟩

/-- Lanes are further down one after the other. -/
theorem pairwise_lanesFrom (lane : Rat) (n : Nat) : (lanesFrom lane n).Pairwise (· < ·) := by
  induction n generalizing lane with
  | zero => exact List.Pairwise.nil
  | succ n ih =>
    have hstep : (laneStep : Rat) = 100 := rfl
    refine List.Pairwise.cons (fun l hl => ?_) (ih _)
    have hfirst := (bounds_of_mem_lanesFrom hl).1
    linarith

variable (hends : ∀ e ∈ edges, ∃ x₁ x₂, centers.lookup e.source = some x₁
  ∧ centers.lookup e.target = some x₂)

include hends in
/-- Messages between participants run in lanes, one after the other. -/
theorem forall₂_laneEdges :
    List.Forall₂ (RunsIn centers) (laneEdges centers lane edges).1
      (lanesFrom lane edges.length) := by
  fun_induction laneEdges centers lane edges with
  | case1 => exact .nil
  | case2 lane e rest x₁ x₂ ht hs q ih =>
    exact .cons ⟨x₁, x₂, hs, ht, rfl⟩ (ih fun e he => hends e (List.mem_cons_of_mem _ he))
  | case3 lane e rest q hne ih =>
    obtain ⟨x₁, x₂, hs, ht⟩ := hends e List.mem_cons_self
    exact absurd ht (hne x₁ x₂ hs)

include hends in
/-- Every message between participants takes a lane. -/
theorem snd_laneEdges : (laneEdges centers lane edges).2 = lane + edges.length * 100 := by
  fun_induction laneEdges centers lane edges with
  | case1 => simp
  | case2 lane e rest x₁ x₂ ht hs q ih =>
    have hstep : (laneStep : Rat) = 100 := rfl
    rw [show q.2 = _ from ih fun e he => hends e (List.mem_cons_of_mem _ he), List.length_cons]
    push_cast
    linarith
  | case3 lane e rest q hne ih =>
    obtain ⟨x₁, x₂, hs, ht⟩ := hends e List.mem_cons_self
    exact absurd ht (hne x₁ x₂ hs)

end Lanes

/-! ## Participants -/

/-- The boxes of participants in a row. -/
def participantBoxes (options : Options Rat) (nodes : List (Node Rat)) : List (Box Rat) :=
  nodes.zipIdx.map fun p => participantBox options p.2 p.1

section Participants

variable {options : Options Rat} {nodes : List (Node Rat)}

theorem pairwise_participantBoxes {r : Box Rat → Box Rat → Prop} :
    (participantBoxes options nodes).Pairwise r
      ↔ ∀ i j (_ : i < nodes.length) (_ : j < nodes.length), i < j →
        r (participantBox options i nodes[i]) (participantBox options j nodes[j]) := by
  simp [participantBoxes, List.pairwise_iff_getElem]

theorem defaultWidth_lt_columnWidth (hnode : 0 < options.nodeSep) :
    options.defaultWidth < columnWidth options := by
  have hcolumn : columnWidth options = options.defaultWidth + 2 * options.nodeSep := rfl
  linarith

/-- Where a column starts, seen from one further to the left. -/
theorem column_le_of_lt (hcolumn : 0 ≤ columnWidth options) {i j : Nat} (hij : i < j) :
    (i : Rat) * columnWidth options + columnWidth options ≤ j * columnWidth options := by
  have hcast : ((i + 1 : Nat) : Rat) ≤ j := Nat.cast_le.2 hij
  have hmul := mul_le_mul_of_nonneg_right hcast hcolumn
  push_cast at hmul
  linarith

/-- The columns of participants follow each other. -/
theorem pairwise_x_participantBoxes (hcolumn : 0 < columnWidth options) :
    (participantBoxes options nodes).Pairwise fun a b => a.x < b.x := by
  refine pairwise_participantBoxes.2 fun i j hi hj hij => ?_
  have hstart := column_le_of_lt hcolumn.le hij
  show (i : Rat) * columnWidth options < j * columnWidth options
  linarith

/-- A participant is narrower than its column unless it was as wide already. -/
theorem width_participantBox_lt_iff (hnode : 0 < options.nodeSep) (i : Nat) (n : Node Rat) :
    (participantBox options i n).width < columnWidth options
      ↔ ∀ b ∈ n.box, b.width < columnWidth options := by
  unfold participantBox
  cases n.box with
  | none => simpa using defaultWidth_lt_columnWidth hnode
  | some b => simp

/-- A participant ends above the first lane unless it was too high already. -/
theorem bottom_participantBox_lt_iff (hrank : 0 < options.rankSep) (i : Nat) (n : Node Rat) :
    (participantBox options i n).bottom < firstLane options
      ↔ ∀ b ∈ n.box, b.height < firstLane options := by
  have hdefault : options.defaultHeight < firstLane options := by
    have hlane : firstLane options = options.defaultHeight + options.rankSep * 0.8 := rfl
    linarith
  have hbottom : (participantBox options i n).bottom = (participantBox options i n).height :=
    zero_add _
  rw [hbottom]
  unfold participantBox
  cases n.box with
  | none => simpa using hdefault
  | some b => simp

/-- Participants stand clear of each other exactly if each but the last is narrower than its
column. -/
theorem pairwise_participantBoxes_iff (hnode : 0 < options.nodeSep)
    (hwidth : 0 < options.defaultWidth) :
    ((participantBoxes options nodes).Pairwise fun a b => a.right < b.x)
      ↔ ∀ n ∈ nodes.dropLast, ∀ b ∈ n.box, b.width < columnWidth options := by
  have hcolumn : 0 < columnWidth options := hwidth.trans (defaultWidth_lt_columnWidth hnode)
  rw [pairwise_participantBoxes]
  constructor
  · intro hclear n hn
    obtain ⟨i, hi, rfl⟩ := List.getElem_of_mem hn
    rw [List.length_dropLast] at hi
    rw [List.getElem_dropLast, ← width_participantBox_lt_iff hnode i]
    have hends : (i : Rat) * columnWidth options + (participantBox options i nodes[i]).width
        < ((i + 1 : Nat) : Rat) * columnWidth options :=
      hclear i (i + 1) (by omega) (by omega) (by omega)
    push_cast at hends
    linarith
  · intro hnarrow i j hi hj hij
    have hlast : i < nodes.dropLast.length := by
      rw [List.length_dropLast]
      omega
    have hwidth : (participantBox options i nodes[i]).width < columnWidth options := by
      rw [width_participantBox_lt_iff hnode, ← List.getElem_dropLast hlast]
      exact hnarrow _ (List.getElem_mem hlast)
    have hstart := column_le_of_lt hcolumn.le hij
    show (i : Rat) * columnWidth options + (participantBox options i nodes[i]).width
      < j * columnWidth options
    linarith

/-- Lanes are below all participants exactly if there are none or no participant is too high. -/
theorem bottom_lt_lanesFrom_iff (hrank : 0 < options.rankSep) (lanes : Nat) :
    (∀ lane ∈ lanesFrom (firstLane options) lanes, ∀ b ∈ participantBoxes options nodes,
        b.bottom < lane)
      ↔ lanes = 0 ∨ ∀ n ∈ nodes, ∀ b ∈ n.box, b.height < firstLane options := by
  have hboxes : (∀ b ∈ participantBoxes options nodes, b.bottom < firstLane options)
      ↔ ∀ n ∈ nodes, ∀ b ∈ n.box, b.height < firstLane options := by
    conv_rhs => rw [← List.zipIdx_map_fst 0 nodes]
    rw [participantBoxes, List.forall_mem_map, List.forall_mem_map]
    simp only [bottom_participantBox_lt_iff hrank]
  rw [← hboxes]
  cases lanes with
  | zero => simp [lanesFrom]
  | succ lanes =>
    constructor
    · exact fun h => .inr (h _ List.mem_cons_self)
    · intro h lane hlane b hb
      exact (h.resolve_left (Nat.succ_ne_zero lanes) b hb).trans_le
        (bounds_of_mem_lanesFrom hlane).1

end Participants

/-! ## Sequences -/

section Sequences

variable {options : Options Rat} {d : Diagram Rat}

theorem map_box_laneLayout (options : Options Rat) (d : Diagram Rat) :
    (laneLayout options d).nodes.map (·.box) = (participantBoxes options d.nodes).map some := by
  rw [laneLayout, participantBoxes, List.map_map, List.map_map]
  rfl

theorem nodeIds_laneLayout (options : Options Rat) (d : Diagram Rat) :
    (laneLayout options d).nodeIds = d.nodeIds :=
  Diagram.nodeIds_of_content (Diagram.content_of_unlaned (unlaned_laneLayout options d))

/-- The centre line of a participant is that of its box. -/
theorem lookup_centerLines (hids : d.nodeIds.Nodup) (id : String) :
    (centerLines options d.nodes).lookup id
      = ((laneLayout options d).place? id).map Box.centerX := by
  have hkeys : ((d.nodes.zipIdx.map fun p =>
      (p.1.id, (participantBox options p.2 p.1).centerX)).map Prod.fst).Nodup := by
    rw [List.map_map]
    have hfst : d.nodes.zipIdx.map (fun p => p.1.id) = d.nodeIds := by
      conv_rhs => rw [Diagram.nodeIds, ← List.zipIdx_map_fst 0 d.nodes, List.map_map]
      rfl
    exact hfst ▸ hids
  rw [centerLines, lookup_of_perm (List.reverse_perm _) (by simpa using hkeys), lookup_eq_find?,
    Diagram.place?, Diagram.node?, laneLayout]
  simp only [List.find?_map, Function.comp_def]
  cases d.nodes.zipIdx.find? fun p => p.1.id = id <;> rfl

/-- Every participant has a place. -/
theorem exists_place?_laneLayout (options : Options Rat) (hids : d.nodeIds.Nodup) {id : String}
    (hid : id ∈ d.nodeIds) :
    ∃ b, (laneLayout options d).place? id = some b := by
  obtain ⟨n, hn, rfl⟩ := List.mem_map.1 (nodeIds_laneLayout options d ▸ hid)
  rw [Diagram.place?_of_nodup (nodeIds_laneLayout options d ▸ hids) hn]
  exact Option.isSome_iff_exists.1 (List.all_eq_true.1 (isPlaced_laneLayout options d) n hn)

end Sequences

end Layout

namespace Diagram

/-- Whether a sequence has participants with given boxes in a row, one further to the right than the
other in their order, and messages in given lanes, one further down than the other in their order,
from the centre of a participant to that of another, all above the ends of the lifelines. -/
structure HasLanes (g : Diagram Rat) (boxes : List (Box Rat)) (lanes : List Rat) : Prop where
  boxes_eq : g.nodes.map (·.box) = boxes.map some
  row : ∀ b ∈ boxes, b.y = 0
  rightwards : boxes.Pairwise fun a b => a.x < b.x
  messages : List.Forall₂ (fun e lane => ∃ s t, g.place? e.source = some s
    ∧ g.place? e.target = some t ∧ e.points = some [⟨s.centerX, lane⟩, ⟨t.centerX, lane⟩])
    g.edges lanes
  downwards : lanes.Pairwise (· < ·)
  lifelines : ∀ n ∈ g.nodes, ∃ lowest, n.lifelineEnd = some lowest ∧ ∀ lane ∈ lanes, lane < lowest

/-- Whether a sequence can be read: its participants also stand clear of each other, and its lanes
are below all of them.  Boxes that touch count as boxes that overlap. -/
def IsReadable (g : Diagram Rat) : Prop :=
  ∃ boxes lanes, g.HasLanes boxes lanes ∧ boxes.Pairwise (fun a b => a.right < b.x)
    ∧ ∀ lane ∈ lanes, ∀ b ∈ boxes, b.bottom < lane

variable {options : Layout.Options Rat} {d : Diagram Rat}

/-- A sequence has its participants in a row and its messages in lanes, however large its
participants are. -/
theorem hasLanes_layout (hkind : d.kind.strategy = .lanes) (hids : d.nodeIds.Nodup)
    (hends : ∀ e ∈ d.edges, e.source ∈ d.nodeIds ∧ e.target ∈ d.nodeIds)
    (hnode : 0 < options.nodeSep) (hrank : 0 < options.rankSep)
    (hwidth : 0 < options.defaultWidth) :
    (d.layout options).HasLanes (Layout.participantBoxes options d.nodes)
      (Layout.lanesFrom (Layout.firstLane options) d.edges.length) := by
  rw [Layout.layout_of_lanes hkind]
  have hcolumn : 0 < Layout.columnWidth options :=
    hwidth.trans (Layout.defaultWidth_lt_columnWidth hnode)
  have hcenters : ∀ e ∈ d.edges, ∃ x₁ x₂,
      (Layout.centerLines options d.nodes).lookup e.source = some x₁
        ∧ (Layout.centerLines options d.nodes).lookup e.target = some x₂ := by
    intro e he
    obtain ⟨s, hs⟩ := Layout.exists_place?_laneLayout options hids (hends e he).1
    obtain ⟨t, ht⟩ := Layout.exists_place?_laneLayout options hids (hends e he).2
    rw [Layout.lookup_centerLines hids, Layout.lookup_centerLines hids, hs, ht]
    exact ⟨_, _, rfl, rfl⟩
  refine ⟨Layout.map_box_laneLayout options d, ?_, Layout.pairwise_x_participantBoxes hcolumn,
    (Layout.forall₂_laneEdges hcenters).imp fun e lane hruns => ?_,
    Layout.pairwise_lanesFrom _ _, fun n hn => ?_⟩
  · exact List.forall_mem_map.2 fun _ _ => rfl
  · obtain ⟨x₁, x₂, hsource, htarget, hpoints⟩ := hruns
    rw [Layout.lookup_centerLines hids] at hsource htarget
    obtain ⟨s, hs, rfl⟩ := Option.map_eq_some_iff.1 hsource
    obtain ⟨t, ht, rfl⟩ := Option.map_eq_some_iff.1 htarget
    exact ⟨s, t, hs, ht, hpoints⟩
  · rw [Layout.laneLayout] at hn
    obtain ⟨p, -, rfl⟩ := List.mem_map.1 hn
    refine ⟨_, rfl, fun lane hlane => ?_⟩
    rw [Layout.snd_laneEdges hcenters]
    have hlast := (Layout.bounds_of_mem_lanesFrom hlane).2
    linarith

/-- A sequence has its boxes and lanes in one way only. -/
theorem HasLanes.unique {g : Diagram Rat} {boxes boxes' : List (Box Rat)} {lanes lanes' : List Rat}
    (h : g.HasLanes boxes lanes) (h' : g.HasLanes boxes' lanes') :
    boxes = boxes' ∧ lanes = lanes' := by
  constructor
  · exact List.map_injective_iff.2 (Option.some_injective _) (h.boxes_eq.symm.trans h'.boxes_eq)
  · refine List.right_unique_forall₂' (fun e lane lane' hlane hlane' => ?_) h.messages h'.messages
    obtain ⟨s, t, -, -, hpoints⟩ := hlane
    obtain ⟨s', t', -, -, hpoints'⟩ := hlane'
    have hsame := Option.some.inj (hpoints.symm.trans hpoints')
    exact congrArg Point.y (List.cons.inj hsame).1

/-- A sequence can be read after a layout exactly if each participant but the last was narrower than
a column, and none was as high as the first lane is low; with no messages the height does not
matter. -/
theorem isReadable_layout_iff (hkind : d.kind.strategy = .lanes) (hids : d.nodeIds.Nodup)
    (hends : ∀ e ∈ d.edges, e.source ∈ d.nodeIds ∧ e.target ∈ d.nodeIds)
    (hnode : 0 < options.nodeSep) (hrank : 0 < options.rankSep)
    (hwidth : 0 < options.defaultWidth) :
    (d.layout options).IsReadable
      ↔ (∀ n ∈ d.nodes.dropLast, ∀ b ∈ n.box, b.width < Layout.columnWidth options)
        ∧ (d.edges = [] ∨ ∀ n ∈ d.nodes, ∀ b ∈ n.box, b.height < Layout.firstLane options) := by
  have hlanes := hasLanes_layout hkind hids hends hnode hrank hwidth
  rw [← Layout.pairwise_participantBoxes_iff hnode hwidth, ← List.length_eq_zero_iff,
    ← Layout.bottom_lt_lanesFrom_iff hrank]
  constructor
  · rintro ⟨boxes, lanes, hother, hclear, hbelow⟩
    obtain ⟨rfl, rfl⟩ := hother.unique hlanes
    exact ⟨hclear, hbelow⟩
  · rintro ⟨hclear, hbelow⟩
    exact ⟨_, _, hlanes, hclear, hbelow⟩

/-- A message between two participants, the first of which was drawn in a given size. -/
def call (width height : Rat) : Diagram Rat :=
  { kind := .sequence
    nodes := [
      { id := "Client", label := "Client", box := some ⟨0, 0, width, height⟩ },
      { id := "Server", label := "Server" }]
    edges := [{ id := "Client->Server", source := "Client", target := "Server" }] }

theorem isReadable_call_iff (width height : Rat) :
    ((call width height).layout .standard).IsReadable ↔ width < 310 ∧ height < 140 := by
  have hids : (call width height).nodeIds.Nodup := by
    show ["Client", "Server"].Nodup
    decide
  have hends : ∀ e ∈ (call width height).edges, e.source ∈ (call width height).nodeIds
      ∧ e.target ∈ (call width height).nodeIds := by
    simp [call, nodeIds]
  have hcolumn : Layout.columnWidth (.standard : Layout.Options Rat) = 310 := by cbv
  have hlane : Layout.firstLane (.standard : Layout.Options Rat) = 140 := by cbv
  rw [isReadable_layout_iff rfl hids hends (by decide) (by decide) (by decide), hcolumn, hlane]
  simp [call]

/-- A participant that is too high stands in the lane of its message, and one that is too wide in
the column of its neighbour. -/
theorem not_isReadable_largeParticipants :
    ((call 300 130).layout .standard).IsReadable ∧ ¬ ((call 150 200).layout .standard).IsReadable
      ∧ ¬ ((call 400 60).layout .standard).IsReadable := by
  simp only [isReadable_call_iff]
  norm_num

end Diagram

end DiagramBoard
