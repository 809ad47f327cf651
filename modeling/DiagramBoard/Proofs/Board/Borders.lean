/-
DiagramBoard.Proofs.Board.Borders — arrows end on the borders of the boxes that they join.

The ray from the centre of a box towards a point leaves the box through a vertical side if it is no
steeper than the diagonal, and else through a horizontal one.  Either way the centre is scaled
towards the point by a positive factor: half the extent of the box over the distance of the point in
that direction.  The test for the side is a product, so that nothing is divided before it is known
not to be zero.  All of this is about exact numbers.

That nothing is divided by zero cannot be seen in exact numbers, where such a quotient is zero.  So
the same formulas are read once more at numbers that are undefined where they were divided by zero
(`Checked`): there they give the same point, which is not undefined.

Main statements: the factor of a ray for both sides (`borderPoint_of_side`, `borderPoint_of_end`),
where a ray leaves a box (`leaves_borderPoint`), that no division by zero is made on the way
(`borderPoint_ofRat`), and where arrows end (`joins_drawEdge`).
-/
import Mathlib
import DiagramBoard.Board.Drawing.Edge
import DiagramBoard.Proofs.Scalar

namespace DiagramBoard

/-! ## Numbers that know whether they were divided by zero -/

/-- Exact numbers, undefined where they were divided by zero. -/
structure Checked where
  value? : Option Rat
deriving DecidableEq

namespace Checked

/-- An exact number. -/
def ofRat (q : Rat) : Checked := ⟨some q⟩

/-- A number made of two others, where both are defined. -/
def map₂ (f : Rat → Rat → Option Rat) (a b : Checked) : Checked :=
  ⟨a.value?.bind fun x => b.value?.bind (f x)⟩

/-- Whether two numbers are defined and stand in a relation. -/
def holds (r : Rat → Rat → Bool) (a b : Checked) : Bool :=
  match a.value?, b.value? with
  | some x, some y => r x y
  | _, _ => false

instance : Scalar Checked where
  add := map₂ fun x y => some (x + y)
  sub := map₂ fun x y => some (x - y)
  mul := map₂ fun x y => some (x * y)
  div := map₂ fun x y => if y = 0 then none else some (x / y)
  neg a := ⟨a.value?.map fun x => -x⟩
  lt a b := holds (fun x y => decide (x < y)) a b = true
  le a b := holds (fun x y => decide (x ≤ y)) a b = true
  beq := holds fun x y => x == y
  natCast n := ofRat n
  ofScientific m e n := ofRat (OfScientific.ofScientific m e n)
  decLt _ _ := inferInstanceAs (Decidable (_ = true))
  decLe _ _ := inferInstanceAs (Decidable (_ = true))
  round a := ⟨a.value?.map Scalar.round⟩
  isFinite a := a.value?.isSome

variable {x y : Rat}

theorem ofRat_add (x y : Rat) : ofRat (x + y) = ofRat x + ofRat y := rfl

theorem ofRat_sub (x y : Rat) : ofRat (x - y) = ofRat x - ofRat y := rfl

theorem ofRat_mul (x y : Rat) : ofRat (x * y) = ofRat x * ofRat y := rfl

theorem ofRat_zero : ofRat 0 = 0 := rfl

/-- A quotient is defined if its divisor is not zero. -/
theorem ofRat_div (x : Rat) (hy : y ≠ 0) : ofRat (x / y) = ofRat x / ofRat y := by
  show _ = map₂ _ _ _
  simp [map₂, ofRat, hy]

theorem ofRat_half (x : Rat) : ofRat (x / 2) = ofRat x / 2 := ofRat_div x (by norm_num)

theorem ofRat_lt : ofRat x < ofRat y ↔ x < y := decide_eq_true_iff

theorem ofRat_le : ofRat x ≤ ofRat y ↔ x ≤ y := decide_eq_true_iff

theorem ofRat_beq (x y : Rat) : (ofRat x == ofRat y) = (x == y) := rfl

theorem abs_ofRat (x : Rat) : Scalar.abs (ofRat x) = ofRat (Scalar.abs x) := by
  unfold Scalar.abs
  simp only [← ofRat_zero, ofRat_le, ← ofRat_sub]
  split <;> rfl

/-- Numbers other than zero have a sign, and finding it divides by nothing. -/
theorem sign_ofRat (hx : x ≠ 0) : Scalar.sign (ofRat x) = ofRat (Scalar.sign x) := by
  unfold Scalar.sign
  simp only [← ofRat_zero, ofRat_lt]
  rcases lt_or_gt_of_ne hx with h | h
  · simp only [if_neg (not_lt_of_gt h), if_pos h]
    rfl
  · simp only [if_pos h]
    rfl

end Checked

/-- A box in other numbers. -/
def Box.map {α β : Type} (f : α → β) (b : Box α) : Box β := ⟨f b.x, f b.y, f b.width, f b.height⟩

/-- A point in other numbers. -/
def Point.map {α β : Type} (f : α → β) (p : Point α) : Point β := ⟨f p.x, f p.y⟩

/-! ## Rays -/

theorem Scalar.abs_eq (x : Rat) : Scalar.abs x = |x| := by
  unfold Scalar.abs
  split
  · next h => rw [abs_of_nonpos (by exact h)]; exact zero_sub x
  · next h => exact (abs_of_pos (not_le.1 h)).symm

theorem Scalar.sign_eq {x : Rat} (hx : x ≠ 0) : Scalar.sign x = x / |x| := by
  unfold Scalar.sign
  rcases lt_or_gt_of_ne hx with h | h
  · rw [if_neg (not_lt_of_gt h), if_pos (by exact h), abs_of_neg h, div_neg, div_self hx]
  · rw [if_pos (by exact h), abs_of_pos h, div_self hx]

/-- The point that is as many times as far from a centre as a target, in the same direction. -/
def Point.towards (center target : Point Rat) (times : Rat) : Point Rat :=
  ⟨center.x + times * (target.x - center.x), center.y + times * (target.y - center.y)⟩

/-- From the other end the same point is as far as remains. -/
theorem Point.towards_swap (p q : Point Rat) (times : Rat) :
    p.towards q times = q.towards p (1 - times) := by
  unfold towards
  congr 1 <;> ring

namespace Box

variable {b : Box Rat} {target : Point Rat}

/-- Whether a box has an extent in both directions. -/
structure IsSolid (b : Box Rat) : Prop where
  width_pos : 0 < b.width
  height_pos : 0 < b.height

/-- Whether a point is on the border of a box: inside of it, and half its extent from its centre in
one direction. -/
structure IsOnBorder (b : Box Rat) (p : Point Rat) : Prop where
  left : b.x ≤ p.x
  right : p.x ≤ b.right
  top : b.y ≤ p.y
  bottom : p.y ≤ b.bottom
  side : |p.x - b.centerX| = b.width / 2 ∨ |p.y - b.centerY| = b.height / 2

/-- A point is inside of a box if its distances from the centre are half the extents at most. -/
theorem isOnBorder_of_abs {p : Point Rat} (hx : |p.x - b.centerX| ≤ b.width / 2)
    (hy : |p.y - b.centerY| ≤ b.height / 2)
    (hside : |p.x - b.centerX| = b.width / 2 ∨ |p.y - b.centerY| = b.height / 2) :
    b.IsOnBorder p := by
  have hcenterX : b.centerX = b.x + b.width / 2 := rfl
  have hcenterY : b.centerY = b.y + b.height / 2 := rfl
  have hright : b.right = b.x + b.width := rfl
  have hbottom : b.bottom = b.y + b.height := rfl
  obtain ⟨hleft, hright'⟩ := abs_le.1 hx
  obtain ⟨htop, hbottom'⟩ := abs_le.1 hy
  constructor
  · linarith
  · linarith
  · linarith
  · linarith
  · exact hside

end Box

/-! ## Where a ray leaves a box -/

namespace Box

section Cases

variable {α : Type} [Scalar α] {b : Box α} {target : Point α}

theorem borderPoint_of_center (hx : (target.x - b.centerX == 0) = true)
    (hy : (target.y - b.centerY == 0) = true) : b.borderPoint target = b.center := by
  unfold borderPoint
  simp only [hx, hy, Bool.and_self, ↓reduceIte]

theorem borderPoint_of_side (hx : (target.x - b.centerX == 0) = false)
    (h : Scalar.abs (target.y - b.centerY) * (b.width / 2)
      ≤ Scalar.abs (target.x - b.centerX) * (b.height / 2)) :
    b.borderPoint target
      = ⟨b.centerX + Scalar.sign (target.x - b.centerX) * (b.width / 2),
        b.centerY + Scalar.sign (target.x - b.centerX) * (b.width / 2) * (target.y - b.centerY)
          / (target.x - b.centerX)⟩ := by
  unfold borderPoint
  simp only [hx, h, Bool.false_and, Bool.false_eq_true, Bool.not_false, decide_true, Bool.and_self,
    ↓reduceIte]

theorem borderPoint_of_end (hy : (target.y - b.centerY == 0) = false)
    (h : ¬ Scalar.abs (target.y - b.centerY) * (b.width / 2)
      ≤ Scalar.abs (target.x - b.centerX) * (b.height / 2)) :
    b.borderPoint target
      = ⟨b.centerX + Scalar.sign (target.y - b.centerY) * (b.height / 2) * (target.x - b.centerX)
          / (target.y - b.centerY),
        b.centerY + Scalar.sign (target.y - b.centerY) * (b.height / 2)⟩ := by
  unfold borderPoint
  simp only [hy, h, Bool.and_false, Bool.false_eq_true, decide_false, ↓reduceIte]

end Cases

variable {b : Box Rat} {target : Point Rat}

/-- A ray stays at the centre of a solid box, or leaves it through a vertical side or through a
horizontal one. -/
theorem ray_cases (hb : b.IsSolid) (target : Point Rat) :
    (target.x - b.centerX = 0 ∧ target.y - b.centerY = 0)
    ∨ (target.x - b.centerX ≠ 0 ∧ |target.y - b.centerY| * (b.width / 2)
        ≤ |target.x - b.centerX| * (b.height / 2))
    ∨ (target.y - b.centerY ≠ 0 ∧ |target.x - b.centerX| * (b.height / 2)
        < |target.y - b.centerY| * (b.width / 2)) := by
  generalize target.x - b.centerX = dx, target.y - b.centerY = dy
  have hwidth : 0 < b.width / 2 := half_pos hb.width_pos
  have hheight : 0 < b.height / 2 := half_pos hb.height_pos
  by_cases hx : dx = 0
  · by_cases hy : dy = 0
    · exact .inl ⟨hx, hy⟩
    · refine .inr (.inr ⟨hy, ?_⟩)
      rw [hx, abs_zero, zero_mul]
      exact mul_pos (abs_pos.2 hy) hwidth
  · rcases le_or_gt (|dy| * (b.width / 2)) (|dx| * (b.height / 2)) with h | h
    · exact .inr (.inl ⟨hx, h⟩)
    · refine .inr (.inr ⟨fun hy => ?_, h⟩)
      rw [hy, abs_zero, zero_mul] at h
      exact absurd h (not_lt.2 (mul_nonneg (abs_nonneg dx) hheight.le))

theorem borderPoint_center (b : Box Rat) : b.borderPoint b.center = b.center :=
  borderPoint_of_center (beq_iff_eq.2 (sub_self _)) (beq_iff_eq.2 (sub_self _))

theorem abs_le_iff_le (b : Box Rat) (target : Point Rat) :
    Scalar.abs (target.y - b.centerY) * (b.width / 2)
        ≤ Scalar.abs (target.x - b.centerX) * (b.height / 2)
      ↔ |target.y - b.centerY| * (b.width / 2) ≤ |target.x - b.centerX| * (b.height / 2) := by
  rw [Scalar.abs_eq, Scalar.abs_eq]

/-- Through a vertical side the centre goes as many times to the target as half the width is of its
horizontal distance. -/
theorem towards_of_side (hx : target.x - b.centerX ≠ 0)
    (h : |target.y - b.centerY| * (b.width / 2) ≤ |target.x - b.centerX| * (b.height / 2)) :
    b.borderPoint target
      = b.center.towards target (b.width / 2 / |target.x - b.centerX|) := by
  rw [borderPoint_of_side (beq_eq_false_iff_ne.2 hx) ((abs_le_iff_le b target).2 h),
    Scalar.sign_eq hx]
  have habs : |target.x - b.centerX| ≠ 0 := abs_ne_zero.2 hx
  unfold Point.towards
  congr 1
  · show _ = b.centerX + b.width / 2 / |target.x - b.centerX| * (target.x - b.centerX)
    ring
  · show _ = b.centerY + b.width / 2 / |target.x - b.centerX| * (target.y - b.centerY)
    field_simp

/-- Through a horizontal side the centre goes as many times to the target as half the height is of
its vertical distance. -/
theorem towards_of_end (hy : target.y - b.centerY ≠ 0)
    (h : |target.x - b.centerX| * (b.height / 2) < |target.y - b.centerY| * (b.width / 2)) :
    b.borderPoint target
      = b.center.towards target (b.height / 2 / |target.y - b.centerY|) := by
  rw [borderPoint_of_end (beq_eq_false_iff_ne.2 hy)
    (fun hle => absurd ((abs_le_iff_le b target).1 hle) (not_le.2 h)), Scalar.sign_eq hy]
  have habs : |target.y - b.centerY| ≠ 0 := abs_ne_zero.2 hy
  unfold Point.towards
  congr 1
  · show _ = b.centerX + b.height / 2 / |target.y - b.centerY| * (target.x - b.centerX)
    field_simp
  · show _ = b.centerY + b.height / 2 / |target.y - b.centerY| * (target.y - b.centerY)
    ring

/-- Scaled by half an extent over its own distance, a distance becomes half the extent. -/
theorem abs_scaled {half d : Rat} (hd : d ≠ 0) (hhalf : 0 ≤ half) : |half / |d| * d| = half := by
  have habs : |d| ≠ 0 := abs_ne_zero.2 hd
  rw [abs_mul, abs_div, abs_abs, div_mul_cancel₀ _ habs, abs_of_nonneg hhalf]

/-- Scaled so, a smaller distance stays within the other half extent. -/
theorem abs_scaled_le {half other d e : Rat} (hd : d ≠ 0) (hhalf : 0 ≤ half)
    (h : |e| * half ≤ |d| * other) : |half / |d| * e| ≤ other := by
  have habs : 0 < |d| := abs_pos.2 hd
  rw [abs_mul, abs_div, abs_abs, abs_of_nonneg hhalf, div_mul_eq_mul_div, div_le_iff₀ habs]
  linarith

theorem isOnBorder_towards {times : Rat}
    (hx : |times * (target.x - b.centerX)| ≤ b.width / 2)
    (hy : |times * (target.y - b.centerY)| ≤ b.height / 2)
    (hside : |times * (target.x - b.centerX)| = b.width / 2
      ∨ |times * (target.y - b.centerY)| = b.height / 2) :
    b.IsOnBorder (b.center.towards target times) := by
  have hfarX : (b.center.towards target times).x - b.centerX
      = times * (target.x - b.centerX) := add_sub_cancel_left ..
  have hfarY : (b.center.towards target times).y - b.centerY
      = times * (target.y - b.centerY) := add_sub_cancel_left ..
  rw [← hfarX, ← hfarY] at hside
  exact isOnBorder_of_abs (hfarX ▸ hx) (hfarY ▸ hy) hside

/-- A ray towards any point but the centre leaves a solid box at its border, in the direction of the
point. -/
theorem leaves_borderPoint (hb : b.IsSolid) (htarget : target ≠ b.center) :
    b.IsOnBorder (b.borderPoint target)
      ∧ ∃ times, 0 < times ∧ b.borderPoint target = b.center.towards target times := by
  have hwidth : 0 < b.width / 2 := half_pos hb.width_pos
  have hheight : 0 < b.height / 2 := half_pos hb.height_pos
  rcases ray_cases hb target with ⟨hx, hy⟩ | ⟨hx, h⟩ | ⟨hy, h⟩
  · refine absurd ?_ htarget
    cases target
    exact congrArg₂ Point.mk (sub_eq_zero.1 hx) (sub_eq_zero.1 hy)
  · have hfull := abs_scaled hx hwidth.le
    rw [towards_of_side hx h]
    exact ⟨isOnBorder_towards hfull.le (abs_scaled_le hx hwidth.le h) (.inl hfull), _,
      div_pos hwidth (abs_pos.2 hx), rfl⟩
  · have hfull := abs_scaled hy hheight.le
    rw [towards_of_end hy h]
    exact ⟨isOnBorder_towards (abs_scaled_le hy hheight.le h.le) hfull.le (.inr hfull), _,
      div_pos hheight (abs_pos.2 hy), rfl⟩

/-! ## No division by zero -/

open Checked

theorem centerX_map_ofRat (b : Box Rat) : (b.map ofRat).centerX = ofRat b.centerX := by
  show ofRat b.x + ofRat b.width / 2 = ofRat (b.x + b.width / 2)
  rw [ofRat_add, ofRat_half]

theorem centerY_map_ofRat (b : Box Rat) : (b.map ofRat).centerY = ofRat b.centerY := by
  show ofRat b.y + ofRat b.height / 2 = ofRat (b.y + b.height / 2)
  rw [ofRat_add, ofRat_half]

theorem distanceX_map_ofRat (b : Box Rat) (target : Point Rat) :
    (target.map ofRat).x - (b.map ofRat).centerX = ofRat (target.x - b.centerX) := by
  rw [centerX_map_ofRat, ofRat_sub]
  rfl

theorem distanceY_map_ofRat (b : Box Rat) (target : Point Rat) :
    (target.map ofRat).y - (b.map ofRat).centerY = ofRat (target.y - b.centerY) := by
  rw [centerY_map_ofRat, ofRat_sub]
  rfl

theorem halfWidth_map_ofRat (b : Box Rat) : (b.map ofRat).width / 2 = ofRat (b.width / 2) :=
  (ofRat_half b.width).symm

theorem halfHeight_map_ofRat (b : Box Rat) : (b.map ofRat).height / 2 = ofRat (b.height / 2) :=
  (ofRat_half b.height).symm

theorem abs_le_iff_map_ofRat (b : Box Rat) (target : Point Rat) :
    Scalar.abs ((target.map ofRat).y - (b.map ofRat).centerY) * ((b.map ofRat).width / 2)
        ≤ Scalar.abs ((target.map ofRat).x - (b.map ofRat).centerX) * ((b.map ofRat).height / 2)
      ↔ |target.y - b.centerY| * (b.width / 2) ≤ |target.x - b.centerX| * (b.height / 2) := by
  rw [distanceX_map_ofRat, distanceY_map_ofRat, halfWidth_map_ofRat, halfHeight_map_ofRat,
    abs_ofRat, abs_ofRat, ← ofRat_mul, ← ofRat_mul, ofRat_le, Scalar.abs_eq, Scalar.abs_eq]

/-- Where a ray leaves a solid box is found without a division by zero. -/
theorem borderPoint_ofRat (hb : b.IsSolid) (target : Point Rat) :
    (b.map ofRat).borderPoint (target.map ofRat) = (b.borderPoint target).map ofRat := by
  have hzero : ∀ {x : Rat}, x ≠ 0 → (ofRat x == 0) = false := fun {x} hx =>
    (ofRat_beq x 0).trans (beq_eq_false_iff_ne.2 hx)
  rcases ray_cases hb target with ⟨hx, hy⟩ | ⟨hx, h⟩ | ⟨hy, h⟩
  · rw [borderPoint_of_center (beq_iff_eq.2 hx) (beq_iff_eq.2 hy), borderPoint_of_center]
    · exact congrArg₂ Point.mk (centerX_map_ofRat b) (centerY_map_ofRat b)
    · rw [distanceX_map_ofRat, hx]
      rfl
    · rw [distanceY_map_ofRat, hy]
      rfl
  · rw [borderPoint_of_side (beq_eq_false_iff_ne.2 hx) ((abs_le_iff_le b target).2 h),
      borderPoint_of_side (by rw [distanceX_map_ofRat]; exact hzero hx)
        ((abs_le_iff_map_ofRat b target).2 h)]
    rw [distanceX_map_ofRat, distanceY_map_ofRat, halfWidth_map_ofRat, centerX_map_ofRat,
      centerY_map_ofRat, sign_ofRat hx]
    simp only [← ofRat_mul, ← ofRat_add, ← ofRat_div _ hx]
    rfl
  · have hend : ¬ |target.y - b.centerY| * (b.width / 2)
        ≤ |target.x - b.centerX| * (b.height / 2) := not_le.2 h
    rw [borderPoint_of_end (beq_eq_false_iff_ne.2 hy) (mt (abs_le_iff_le b target).1 hend),
      borderPoint_of_end (by rw [distanceY_map_ofRat]; exact hzero hy)
        (mt (abs_le_iff_map_ofRat b target).1 hend)]
    rw [distanceX_map_ofRat, distanceY_map_ofRat, halfHeight_map_ofRat, centerX_map_ofRat,
      centerY_map_ofRat, sign_ofRat hy]
    simp only [← ofRat_mul, ← ofRat_add, ← ofRat_div _ hy]
    rfl

end Box

/-! ## Arrows -/

/-- Whether an edge is drawn straight: it has no way of its own, or one of a single point. -/
def Edge.IsStraight {α : Type} (e : Edge α) : Prop := (e.points.getD []).length < 2

/-- Whether two points are where a straight arrow between two boxes should start and end: each on
the border of its box, and both on the line through the two centres. -/
structure Box.Joins (source target : Box Rat) (ends : Point Rat × Point Rat) : Prop where
  start : source.IsOnBorder ends.1
  finish : target.IsOnBorder ends.2
  startOnLine : ∃ times, ends.1 = source.center.towards target.center times
  finishOnLine : ∃ times, ends.2 = source.center.towards target.center times

namespace Pen

theorem wayOf_of_isStraight {α : Type} [Scalar α] {e : Edge α} (h : e.IsStraight)
    (source target : Element α) : wayOf e source target = straight source target := by
  unfold wayOf
  split
  · next first second rest heq =>
    rw [Edge.IsStraight, heq] at h
    simp at h
  · rfl

theorem head?_drawEdge {α : Type} [Scalar α] (p : Pen α) (e : Edge α) (source target : Element α)
    (ids : EdgeElements) :
    (p.drawEdge e source target ids).head? = some (p.edgeDrawing e source target ids).arrow := rfl

/-- The arrow of a straight edge starts and ends where the rays between the centres leave the
boxes. -/
theorem endpoints_arrow {e : Edge Rat} (h : e.IsStraight) (p : Pen Rat)
    (source target : Element Rat) (ids : EdgeElements) :
    (p.edgeDrawing e source target ids).arrow.endpoints
      = (source.box.borderPoint target.box.center, target.box.borderPoint source.box.center) := by
  have hplace : (p.edgeDrawing e source target ids).arrow.endpoints
      = (p.arrow e (straight source target) ids.arrow).endpoints := by
    unfold edgeDrawing
    rw [wayOf_of_isStraight h]
    cases e.label <;> rfl
  rw [hplace]
  have hstart : ∀ q : Point Rat, (⟨q.x + 0, q.y + 0⟩ : Point Rat) = q := by simp
  have hfinish : ∀ q r : Point Rat, (⟨q.x + (r.x - q.x), q.y + (r.y - q.y)⟩ : Point Rat) = r := by
    simp
  exact congrArg₂ Prod.mk (hstart _) (hfinish _ _)

/-- A straight arrow between solid boxes with different centres joins them. -/
theorem joins_endpoints {source target : Box Rat} (hsource : source.IsSolid)
    (htarget : target.IsSolid) (hne : source.center ≠ target.center) :
    source.Joins target
      (source.borderPoint target.center, target.borderPoint source.center) := by
  obtain ⟨hstart, times, -, hstartLine⟩ := Box.leaves_borderPoint hsource hne.symm
  obtain ⟨hfinish, times', -, hfinishLine⟩ := Box.leaves_borderPoint htarget hne
  exact ⟨hstart, hfinish, ⟨times, hstartLine⟩, 1 - times',
    hfinishLine.trans (Point.towards_swap ..)⟩

end Pen

open Checked

/-- A ray from the centre of a solid box is followed to the border without a division by zero, to a
point in its direction, and stays at the centre only if it leads nowhere.  So a straight arrow
between solid boxes with different centres starts on the border of the one and ends on the border of
the other, on the line through the two centres. -/
theorem joins_drawEdge :
    (∀ b : Box Rat, b.IsSolid → ∀ target : Point Rat,
      (b.map ofRat).borderPoint (target.map ofRat) = (b.borderPoint target).map ofRat
      ∧ (target = b.center → b.borderPoint target = b.center)
      ∧ (target ≠ b.center → b.IsOnBorder (b.borderPoint target)
        ∧ ∃ times, 0 < times ∧ b.borderPoint target = b.center.towards target times))
    ∧ ∀ (p : Pen Rat) (e : Edge Rat) (source target : Element Rat) (ids : EdgeElements),
      e.IsStraight → source.box.IsSolid → target.box.IsSolid →
      source.box.center ≠ target.box.center →
      ∃ arrow, (p.drawEdge e source target ids).head? = some arrow
        ∧ source.box.Joins target.box arrow.endpoints := by
  constructor
  · intro b hb target
    refine ⟨Box.borderPoint_ofRat hb target, ?_, Box.leaves_borderPoint hb⟩
    rintro rfl
    exact Box.borderPoint_center b
  · intro p e source target ids hstraight hsource htarget hne
    refine ⟨_, p.head?_drawEdge e source target ids, ?_⟩
    rw [p.endpoints_arrow hstraight]
    exact Pen.joins_endpoints hsource htarget hne

/-- Two boxes whose centres are on the diagonals of both, and a straight edge between them: the
arrow runs from corner to corner. -/
theorem joins_drawEdge_corners :
    (⟨0, 0, 100, 50⟩ : Box Rat).IsSolid
      ∧ (⟨250, 125⟩ : Point Rat) ≠ (⟨0, 0, 100, 50⟩ : Box Rat).center
      ∧ (⟨0, 0, 100, 50⟩ : Box Rat).borderPoint ⟨250, 125⟩ = ⟨100, 50⟩
      ∧ (⟨0, 0, 100, 50⟩ : Box Rat).IsOnBorder ⟨100, 50⟩
      ∧ ∃ arrow, ((⟨.standard, .flowchart, .down⟩ : Pen Rat).drawEdge
            { id := "A->B", source := "A", target := "B" }
            ((Element.bare "a" .rectangle).placeAt ⟨0, 0, 100, 50⟩)
            ((Element.bare "b" .diamond).placeAt ⟨200, 100, 100, 50⟩)
            { arrow := "e" }).head? = some arrow
        ∧ (⟨0, 0, 100, 50⟩ : Box Rat).Joins ⟨200, 100, 100, 50⟩ arrow.endpoints := by
  obtain ⟨hrays, harrows⟩ := joins_drawEdge
  have hsource : (⟨0, 0, 100, 50⟩ : Box Rat).IsSolid := ⟨by norm_num, by norm_num⟩
  have htarget : (⟨200, 100, 100, 50⟩ : Box Rat).IsSolid := ⟨by norm_num, by norm_num⟩
  have hpoint : (⟨0, 0, 100, 50⟩ : Box Rat).borderPoint ⟨250, 125⟩ = ⟨100, 50⟩ := by cbv
  have hcenter : (⟨0, 0, 100, 50⟩ : Box Rat).center = ⟨50, 25⟩ := by cbv
  have hcenter' : (⟨200, 100, 100, 50⟩ : Box Rat).center = ⟨250, 125⟩ := by cbv
  have haway : (⟨250, 125⟩ : Point Rat) ≠ (⟨0, 0, 100, 50⟩ : Box Rat).center := by
    rw [hcenter]
    simp
  have hcenters : (⟨0, 0, 100, 50⟩ : Box Rat).center
      ≠ (⟨200, 100, 100, 50⟩ : Box Rat).center := by
    rw [hcenter']
    exact haway.symm
  obtain ⟨-, -, hleaves⟩ := hrays _ hsource ⟨250, 125⟩
  exact ⟨hsource, haway, hpoint, hpoint ▸ (hleaves haway).1,
    harrows _ _ _ _ _ Nat.two_pos hsource htarget hcenters⟩

end DiagramBoard
