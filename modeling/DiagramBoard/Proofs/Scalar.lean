/-
DiagramBoard.Proofs.Scalar — the order of the numbers on a board.

A board file holds binary64 numbers, among them numbers that differ from themselves and compare to
nothing.  The others are ordered, and that is all that the larger of two numbers needs.

Main statements: a number is no larger than the larger of it and another (`le_larger`), taking the
larger with the same numbers again changes nothing (`larger_larger`), and whole numbers are among
those that are equal to themselves (`beq_ofInt`).
-/
import DiagramBoard.Scalar
import Mathlib

namespace DiagramBoard

/-- Numbers whose order is that of a chain, as far as they are equal to themselves. -/
class OrderedScalar (α : Type) [Scalar α] : Prop where
  lt_irrefl : ∀ a : α, ¬ a < a
  lt_trans : ∀ {a b c : α}, a < b → b < c → a < c
  le_refl : ∀ {a : α}, (a == a) = true → a ≤ a
  le_trans : ∀ {a b c : α}, a ≤ b → b ≤ c → a ≤ c
  le_of_not_lt : ∀ {a b : α}, (a == a) = true → (b == b) = true → ¬ b < a → a ≤ b

namespace Scalar

variable {α : Type} [Scalar α]

/-- The larger of two numbers is a number if the first one is. -/
theorem larger_self {a : α} (b : α) (ha : (a == a) = true) :
    (larger a b == larger a b) = true := by
  unfold larger
  split
  · exact ha
  · split
    · assumption
    · exact ha

variable [OrderedScalar α]

/-- A number is no larger than the larger of it and another. -/
theorem le_larger {a : α} (b : α) (ha : (a == a) = true) : a ≤ larger a b := by
  unfold larger
  split
  · exact OrderedScalar.le_refl ha
  · next hlt =>
    split
    · next hb => exact OrderedScalar.le_of_not_lt ha hb hlt
    · exact OrderedScalar.le_refl ha

/-- Taking the larger with the same two numbers again changes nothing. -/
theorem larger_larger (g a b : α) :
    larger (larger (larger (larger g a) b) a) b = larger (larger g a) b := by
  have hirrefl : ∀ x : α, ¬ x < x := OrderedScalar.lt_irrefl
  by_cases hag : a < g
  · -- the first number is the larger one of the first two
    by_cases hbg : b < g
    · simp [larger, hag, hbg]
    · by_cases hb : (b == b) = true
      · by_cases hab : a < b
        · simp [larger, hag, hbg, hb, hab, hirrefl]
        · have hba : ¬ b < a := fun h => hbg (OrderedScalar.lt_trans h hag)
          by_cases ha : (a == a) = true <;> simp [larger, hag, hbg, hb, hab, hba, ha, hirrefl]
      · simp [larger, hag, hbg, hb]
  · by_cases ha : (a == a) = true
    · by_cases hba : b < a
      · simp [larger, hag, ha, hba, hirrefl]
      · by_cases hb : (b == b) = true
        · by_cases hab : a < b <;> simp [larger, hag, ha, hba, hb, hab, hirrefl]
        · simp [larger, hag, ha, hba, hb, hirrefl]
    · by_cases hbg : b < g
      · simp [larger, hag, ha, hbg]
      · by_cases hb : (b == b) = true
        · by_cases hab : a < b <;> simp [larger, hag, ha, hbg, hb, hab, hirrefl]
        · simp [larger, hag, ha, hbg, hb]

end Scalar

/-! ## Exact numbers -/

instance : OrderedScalar Rat where
  lt_irrefl := lt_irrefl
  lt_trans := lt_trans
  le_refl _ := le_rfl
  le_trans := le_trans
  le_of_not_lt _ _ h := not_lt.1 h

theorem Scalar.larger_eq_max (a b : Rat) : larger a b = max a b := by
  unfold larger
  split
  · next h => exact (max_eq_left h.le).symm
  · next h => simpa using not_lt.1 h

/-! ## Binary64 numbers -/

namespace Binary64

open Float.Model

/-- The place of a number in the order: its sign, exponent and mantissa, the latter two reversed for
negative numbers. -/
def key? : UnpackedFloat → Option (ℤ ×ₗ ℤ ×ₗ ℤ)
  | .notANumber => none
  | .infinity .negative => some (toLex (-2, toLex (0, 0)))
  | .finite .negative m e _ => some (toLex (-1, toLex (-e, -(m : ℤ))))
  | .zero _ => some (toLex (0, toLex (0, 0)))
  | .finite .positive m e _ => some (toLex (1, toLex (e, (m : ℤ))))
  | .infinity .positive => some (toLex (2, toLex (0, 0)))

theorem then_eq_lt {a b : ℤ} {m n : ℕ} :
    (compare a b).then (compare m n) = .lt ↔ a < b ∨ a = b ∧ m < n := by
  rw [Ordering.then_eq_lt, compare_lt_iff_lt, compare_eq_iff_eq, compare_lt_iff_lt]

theorem then_eq_gt {a b : ℤ} {m n : ℕ} :
    (compare a b).then (compare m n) = .gt ↔ b < a ∨ a = b ∧ n < m := by
  rw [Ordering.then_eq_gt, compare_gt_iff_gt, compare_eq_iff_eq, compare_gt_iff_gt]

/-- A number is less than another if its place is. -/
theorem compare_eq_lt_iff (u v : UnpackedFloat) :
    u.compare v = some .lt ↔ ∃ a ∈ key? u, ∃ b ∈ key? v, a < b := by
  rcases u with (_ | _) | _ | _ | ⟨_ | _, m, e, _⟩ <;>
    rcases v with (_ | _) | _ | _ | ⟨_ | _, n, f, _⟩ <;>
    simp [UnpackedFloat.compare, key?, Prod.Lex.toLex_lt_toLex, then_eq_lt, then_eq_gt]
  all_goals rfl

/-- A number is equal to another if its place is. -/
theorem compare_eq_eq_iff (u v : UnpackedFloat) :
    u.compare v = some .eq ↔ ∃ a ∈ key? u, ∃ b ∈ key? v, a = b := by
  rcases u with (_ | _) | _ | _ | ⟨_ | _, m, e, _⟩ <;>
    rcases v with (_ | _) | _ | _ | ⟨_ | _, n, f, _⟩ <;>
    simp [UnpackedFloat.compare, key?, Ordering.then_eq_eq]
  all_goals first | rfl | exact and_congr eq_comm eq_comm

/-- The place of a binary64 number. -/
def place? (x : Float) : Option (ℤ ×ₗ ℤ ×ₗ ℤ) := key? x.toModel.unpack

theorem lt_iff {x y : Float} : x < y ↔ ∃ a ∈ place? x, ∃ b ∈ place? y, a < b := by
  have hlt : x < y ↔ (x.toModel.unpack.lt y.toModel.unpack) = true := decide_eq_true_iff
  rw [place?, place?, ← compare_eq_lt_iff, hlt, UnpackedFloat.lt, beq_iff_eq]

theorem beq_iff {x y : Float} : (x == y) = true ↔ ∃ a ∈ place? x, ∃ b ∈ place? y, a = b := by
  have heq : (x == y) = (x.toModel.unpack.beq y.toModel.unpack) := rfl
  rw [place?, place?, ← compare_eq_eq_iff, heq, UnpackedFloat.beq, beq_iff_eq]

theorem le_iff {x y : Float} : x ≤ y ↔ ∃ a ∈ place? x, ∃ b ∈ place? y, a ≤ b := by
  have hle : x ≤ y ↔ x.toModel.unpack.compare y.toModel.unpack = some .lt
      ∨ x.toModel.unpack.compare y.toModel.unpack = some .eq := by
    have hany : x ≤ y ↔ (x.toModel.unpack.compare y.toModel.unpack).any (·.isLE) = true :=
      decide_eq_true_iff
    rw [hany]
    cases x.toModel.unpack.compare y.toModel.unpack with
    | none => simp
    | some o => cases o <;> simp
  rw [hle, compare_eq_lt_iff, compare_eq_eq_iff, place?, place?]
  constructor
  · rintro (⟨a, ha, b, hb, h⟩ | ⟨a, ha, b, hb, h⟩)
    · exact ⟨a, ha, b, hb, le_of_lt h⟩
    · exact ⟨a, ha, b, hb, le_of_eq h⟩
  · rintro ⟨a, ha, b, hb, h⟩
    rcases lt_or_eq_of_le h with h | h
    · exact .inl ⟨a, ha, b, hb, h⟩
    · exact .inr ⟨a, ha, b, hb, h⟩

end Binary64

open Binary64 in
instance : OrderedScalar Float where
  lt_irrefl x h := by
    obtain ⟨a, ha, b, hb, hlt⟩ := lt_iff.1 h
    rw [Option.mem_unique ha hb] at hlt
    exact lt_irrefl _ hlt
  lt_trans hxy hyz := by
    obtain ⟨a, ha, b, hb, hab⟩ := lt_iff.1 hxy
    obtain ⟨b', hb', c, hc, hbc⟩ := lt_iff.1 hyz
    rw [Option.mem_unique hb' hb] at hbc
    exact lt_iff.2 ⟨a, ha, c, hc, hab.trans hbc⟩
  le_refl hx := by
    obtain ⟨a, ha, -⟩ := beq_iff.1 hx
    exact le_iff.2 ⟨a, ha, a, ha, le_rfl⟩
  le_trans hxy hyz := by
    obtain ⟨a, ha, b, hb, hab⟩ := le_iff.1 hxy
    obtain ⟨b', hb', c, hc, hbc⟩ := le_iff.1 hyz
    rw [Option.mem_unique hb' hb] at hbc
    exact le_iff.2 ⟨a, ha, c, hc, hab.trans hbc⟩
  le_of_not_lt hx hy h := by
    obtain ⟨a, ha, -⟩ := beq_iff.1 hx
    obtain ⟨b, hb, -⟩ := beq_iff.1 hy
    refine le_iff.2 ⟨a, ha, b, hb, not_lt.1 fun hlt => h (lt_iff.2 ⟨b, hb, a, ha, hlt⟩)⟩

namespace Binary64

open Float.Model

/-! ## Numbers that are equal to themselves -/

theorem unpack_packComponents_ne {spec : Format} (sign : UnpackedFloat.Sign) {exponent : BitVec spec.exponentBits}
    {mantissa : BitVec spec.mantissaBitsWithoutImplicit} (h : exponent ≠ -1#_ ∨ mantissa = 0#_) :
    UnpackedFloat.unpack spec (UnpackedFloat.packComponents spec sign exponent mantissa)
      ≠ .notANumber := by
  intro hnan
  simp only [UnpackedFloat.unpack, UnpackedFloat.unpackExponent_packComponents,
    UnpackedFloat.unpackMantissa_packComponents] at hnan
  split at hnan
  · next hexponent =>
    rcases h with h | rfl
    · exact h hexponent
    · simp at hnan
  · split at hnan
    · split at hnan <;> simp at hnan
    · simp at hnan

/-- Packing a number leaves it a number. -/
theorem unpack_pack_ne {spec : Format} {u : UnpackedFloat} (hu : u ≠ .notANumber) :
    UnpackedFloat.unpack spec (UnpackedFloat.pack spec u) ≠ .notANumber := by
  fun_cases UnpackedFloat.pack with
  | case1 => exact absurd rfl hu
  | case2 s =>
    rw [UnpackedFloat.packedInfinity]
    exact unpack_packComponents_ne s (.inr (by simp))
  | case3 s =>
    rw [UnpackedFloat.packedZero]
    exact unpack_packComponents_ne s (.inr (by simp))
  | case4 s m e hm biased h =>
    rw [UnpackedFloat.packedInfinity]
    exact unpack_packComponents_ne s (.inr (by simp))
  | case5 s m e hm bits biased hbiased hbits =>
    refine unpack_packComponents_ne s (.inl fun hexponent => ?_)
    have hlt : biased < 2 ^ spec.exponentBits - 1 := by omega
    have := congrArg BitVec.toNat hexponent
    rw [BitVec.neg_one_eq_allOnes, BitVec.toNat_ofNat, BitVec.toNat_allOnes,
      Nat.mod_eq_of_lt (by omega)] at this
    omega
  | case6 s m e hm bits biased hbiased hbits =>
    refine unpack_packComponents_ne s (.inl fun hexponent => ?_)
    have := congrArg BitVec.toNat hexponent
    rw [BitVec.neg_one_eq_allOnes, BitVec.toNat_allOnes] at this
    have hpow : 2 ≤ 2 ^ spec.exponentBits := Nat.le_self_pow spec.he.ne' 2
    simp only [BitVec.toNat_ofNat, Nat.zero_mod] at this
    omega

/-- A binary64 number is equal to itself unless it is undefined. -/
theorem beq_self_iff {x : Float} : (x == x) = true ↔ x.toModel.unpack ≠ .notANumber := by
  rw [beq_iff]
  unfold place?
  rcases x.toModel.unpack with (_ | _) | _ | _ | ⟨_ | _, m, e, _⟩ <;> simp [key?]

/-- A number that can be written down is equal to itself. -/
theorem beq_of_isFinite {x : Float} (h : Scalar.isFinite x = true) : (x == x) = true := by
  rw [beq_self_iff]
  have hfinite : x.toModel.unpack.isFinite = true := h
  intro hnan
  rw [hnan] at hfinite
  exact nomatch hfinite

theorem roundWithAccuracy_ne {spec : Format} (s : UnpackedFloat.Sign) (m : Nat) (e : Int)
    (a : UnpackedFloat.Accuracy) :
    UnpackedFloat.roundWithAccuracy spec s m e a ≠ .notANumber := by
  unfold UnpackedFloat.roundWithAccuracy
  dsimp only
  split <;> simp

theorem ofNat_ne {spec : Format} (n : Nat) : UnpackedFloat.ofNat spec n ≠ .notANumber := by
  unfold UnpackedFloat.ofNat UnpackedFloat.ofInt UnpackedFloat.normalize
  split
  · exact roundWithAccuracy_ne _ _ _ .exact
  · simp
  · exact roundWithAccuracy_ne _ _ _ .exact

theorem unpack_one : ∃ s m e h, (1.0 : Float).toModel.unpack = .finite s m e h := by
  refine ⟨.positive, 2 ^ 52, -52, by decide, ?_⟩
  rfl

theorem mul_finite_ne {spec : Format} {u : UnpackedFloat} (hu : u ≠ .notANumber) {s m e h} :
    UnpackedFloat.mul spec u (.finite s m e h) ≠ .notANumber := by
  cases u with
  | notANumber => exact absurd rfl hu
  | infinity => simp [UnpackedFloat.mul]
  | zero => simp [UnpackedFloat.mul]
  | finite => exact roundWithAccuracy_ne _ _ _ .exact

theorem ofScientific_ne {spec : Format} (m : Nat) (e : Nat) :
    UnpackedFloat.ofScientific spec m (Int.ofNat e) ≠ .notANumber := by
  unfold UnpackedFloat.ofScientific
  split
  · simp
  · split
    · simp
    · split
      · simp
      · rw [if_pos (by simp)]
        exact mul_finite_ne (by simp)

theorem beq_ofNat (n : Nat) : ((n : Float) == (n : Float)) = true := by
  rw [beq_self_iff]
  show (Float.ofScientific n false 0).toModel.unpack ≠ .notANumber
  unfold Float.ofScientific
  split
  · obtain ⟨s, m, e, h, hone⟩ := unpack_one
    show (Float.mul (n.toUInt64.toFloat) 1.0).toModel.unpack ≠ _
    refine unpack_pack_ne ?_
    show UnpackedFloat.mul _ _ (Float.toModel 1.0).unpack ≠ _
    rw [hone]
    refine mul_finite_ne (unpack_pack_ne (ofNat_ne _))
  · exact unpack_pack_ne (ofScientific_ne n 0)

/-- A whole number is equal to itself, however large it is. -/
theorem beq_ofInt (n : Int) : ((Scalar.ofInt n : Float) == Scalar.ofInt n) = true := by
  cases n with
  | ofNat n => exact beq_ofNat n
  | negSucc n =>
    have hn := beq_self_iff.1 (beq_ofNat (n + 1))
    rw [beq_self_iff]
    show (Float.neg ((n + 1 : Nat) : Float)).toModel.unpack ≠ _
    refine unpack_pack_ne ?_
    revert hn
    cases ((n + 1 : Nat) : Float).toModel.unpack <;> simp [UnpackedFloat.neg]

end Binary64

end DiagramBoard
