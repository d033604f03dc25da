import Mathlib.Algebra.Order.Field.Power
import Mathlib.Data.Rat.Cast.Order
import Mathlib.Tactic.FieldSimp
import Mathlib.Tactic.Linarith
import Mathlib.Tactic.NormNum
import Mathlib.Tactic.Positivity
import Mathlib.Tactic.Ring
import RecordQuery.Scalar

/-!
# The values of numbers

Decimals and finite binary numbers stand for rational numbers, and these give their order:

    a.compare b = compare a.value b.value                                          (compare_eq_value)
    (finite s m e).compare? (finite t n x) = some (compare of the values)          (compare?_finite)
-/

namespace RecordQuery

/-! ## Powers and orders -/

theorem zpow_eq_pow (b : ℚ) {e : ℤ} (he : 0 ≤ e) : b ^ e = b ^ e.toNat := by
  rw [← zpow_natCast, Int.toNat_of_nonneg he]

/-- A power as a fraction of two powers with natural exponents, of which one is 1. -/
theorem zpow_eq_div (b : ℚ) (e : ℤ) : b ^ e = b ^ e.toNat / b ^ (-e).toNat := by
  rcases Int.le_total 0 e with he | he
  · have hneg : (-e).toNat = 0 := by omega
    rw [hneg, pow_zero, div_one, zpow_eq_pow b he]
  · have hpos : e.toNat = 0 := by omega
    rw [hpos, pow_zero, one_div, ← zpow_eq_pow b (by omega), zpow_neg, inv_inv]

/-- Whole numbers that are two values times one positive unit are in the order of the values. -/
theorem compare_of_scaled {x y : ℤ} {a b unit : ℚ} (hunit : 0 < unit) (hx : (x : ℚ) = a * unit)
    (hy : (y : ℚ) = b * unit) : compare x y = compare a b := by
  have hcast : StrictMono (Int.cast : ℤ → ℚ) := Int.cast_strictMono
  calc compare x y = cmp x y := (cmp_eq_compare x y).symm
    _ = cmp (x : ℚ) y := (hcast.cmp_map_eq x y).symm
    _ = cmp (a * unit) (b * unit) := by rw [hx, hy]
    _ = cmp a b := cmp_mul_pos_right hunit a b
    _ = compare a b := cmp_eq_compare a b

/-! ## Decimals -/

namespace Decimal

/-- The number that a decimal stands for. -/
def value (d : Decimal) : ℚ := d.coefficient * 10 ^ (-d.scale)

theorem value_ofInt (n : ℤ) : (ofInt n).value = n := by
  have hscale : -(ofInt n).scale = 0 := rfl
  rw [value, hscale, zpow_zero, mul_one]
  rfl

theorem coefficientAt_eq {d : Decimal} {scale : ℤ} (h : d.scale ≤ scale) :
    (d.coefficientAt scale : ℚ) = d.value * 10 ^ scale := by
  have hsplit : (10 : ℚ) ^ (scale - d.scale).toNat = 10 ^ (-d.scale) * 10 ^ scale := by
    rw [← zpow_eq_pow 10 (by omega), ← zpow_add₀ (by norm_num)]
    congr 1
    omega
  rw [coefficientAt, value, mul_assoc, ← hsplit]
  push_cast
  rfl

/-- Decimals are in the order of their values. -/
theorem compare_eq_value (a b : Decimal) : a.compare b = Ord.compare a.value b.value := by
  have hunit : (0 : ℚ) < 10 ^ max a.scale b.scale := by positivity
  exact compare_of_scaled hunit (coefficientAt_eq (Int.le_max_left _ _))
    (coefficientAt_eq (Int.le_max_right _ _))

theorem compare_eq_iff {a b : Decimal} : a.compare b = .eq ↔ a.value = b.value := by
  rw [compare_eq_value, compare_eq_iff_eq]

end Decimal

/-! ## Binary numbers -/

namespace Binary

/-- A number with a sign in front. -/
def withSign (negative : Bool) (q : ℚ) : ℚ := if negative then -q else q

theorem abs_withSign (s : Bool) {q : ℚ} (hq : 0 ≤ q) : |withSign s q| = q := by
  unfold withSign
  split
  · rw [abs_neg, abs_of_nonneg hq]
  · exact abs_of_nonneg hq

/-- The number that a finite binary number stands for. -/
def value : Binary → ℚ
  | nan | infinity _ => 0
  | finite s m e => withSign s (m * 2 ^ e)

theorem scaled_eq {s : Bool} {m : ℕ} {e low : ℤ} (h : low ≤ e) :
    (scaled s m e low : ℚ) = (finite s m e).value * 2 ^ (-low) := by
  have hsplit : (2 : ℚ) ^ (e - low).toNat = 2 ^ e * 2 ^ (-low) := by
    rw [← zpow_eq_pow 2 (by omega), ← zpow_add₀ (by norm_num)]
    congr 1
  have hmagnitude : (m : ℚ) * 2 ^ (e - low).toNat = m * 2 ^ e * 2 ^ (-low) := by
    rw [hsplit, mul_assoc]
  unfold scaled
  rw [value, withSign]
  cases s with
  | true =>
    simp only [if_true]
    push_cast
    rw [neg_mul, ← hmagnitude]
  | false =>
    simp only [Bool.false_eq_true, if_false]
    push_cast
    exact hmagnitude

/-- Finite numbers are in the order of their values. -/
theorem compare?_finite (s t : Bool) (m n : ℕ) (e x : ℤ) :
    (finite s m e).compare? (finite t n x) =
      some (compare (finite s m e).value (finite t n x).value) := by
  have hunit : (0 : ℚ) < 2 ^ (-min e x) := by positivity
  have hcompare := compare_of_scaled hunit (scaled_eq (s := s) (m := m) (Int.min_le_left e x))
    (scaled_eq (s := t) (m := n) (Int.min_le_right e x))
  exact congrArg some hcompare

theorem compare?_finite_eq_iff {s t : Bool} {m n : ℕ} {e x : ℤ} :
    (finite s m e).compare? (finite t n x) = some .eq ↔ (finite s m e).value = (finite t n x).value := by
  rw [compare?_finite, Option.some.injEq, compare_eq_iff_eq]

end Binary

end RecordQuery
