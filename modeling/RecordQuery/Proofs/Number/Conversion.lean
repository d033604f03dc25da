import RecordQuery.Condition.Coercion
import RecordQuery.Proofs.Number.Text

/-!
# Converting decimals

What a decimal becomes at a type depends on its value alone. A decimal of a whole value becomes that whole
number when the range of the type has it, and the double nearest to a decimal is the double that its value
rounds to:

    n.value = k → (numberToInteger n r type field = .ok y ↔ k ∈ r ∧ y = r.scalar k)
                                                                        (numberToInteger_eq_ok_iff)
    a.value = b.value → a.nearest f = b.nearest f                       (nearest_eq_of_value)
    |d.value| rounds to m · 2 ^ e → d.nearest f = finite s m e          (nearest_of_roundsTo)
    ofDigits f s n g = the number of f nearest to n · 10 ^ g            (ofDigits_eq_nearest)
    0 ≤ d.scale → |d.coefficient| < 10 ^ 43 → d.toDouble = d.nearest double  (toDouble_eq_nearest)
-/

namespace RecordQuery

/-! ## Whole numbers -/

theorem Decimal.truncate_of_value {n : Decimal} {k : ℤ} (h : n.value = k) :
    n.isWhole = true ∧ n.truncate = k := by
  unfold Decimal.isWhole Decimal.truncate
  by_cases hscale : n.scale ≤ 0
  · have hk : n.coefficient * 10 ^ (-n.scale).toNat = k := by
      rw [Decimal.value, zpow_eq_pow 10 (by omega)] at h
      exact_mod_cast h
    rw [if_pos hscale]
    exact ⟨by simp [hscale], hk⟩
  · have hk : n.coefficient = k * 10 ^ n.scale.toNat := by
      rw [Decimal.value, zpow_neg, zpow_eq_pow 10 (by omega), ← div_eq_mul_inv,
        div_eq_iff (by positivity)] at h
      exact_mod_cast h
    have hne : (10 : ℤ) ^ n.scale.toNat ≠ 0 := by positivity
    rw [if_neg hscale, hk]
    exact ⟨by simp, Int.mul_tdiv_cancel k hne⟩

namespace IntegerRange

theorem check_eq_ok_iff {r : IntegerRange} {k n : ℤ} : r.check k = .ok n ↔ r.contains k = true ∧ n = k := by
  rw [contains_iff]
  unfold check
  split
  · constructor
    · intro h
      cases h
    · rintro ⟨h, -⟩
      omega
  · split
    · constructor
      · intro h
        cases h
      · rintro ⟨h, -⟩
        omega
    · constructor
      · intro h
        cases h
        exact ⟨by omega, rfl⟩
      · rintro ⟨-, rfl⟩
        rfl

end IntegerRange

/-- A number becomes a whole number of a range just if the range has it. -/
theorem Coercion.numberToInteger_eq_ok_iff {n : Decimal} {k : ℤ} (h : n.value = k) {r : IntegerRange}
    (hwidest : r.widest.contains k = true) {type : FieldType} {field : String} {y : Scalar} :
    numberToInteger n r type field = .ok y ↔ r.contains k = true ∧ y = r.scalar k := by
  obtain ⟨hwhole, htruncate⟩ := Decimal.truncate_of_value h
  unfold numberToInteger
  rw [hwhole, htruncate, hwidest]
  simp only [Bool.not_true, Bool.false_eq_true, if_false]
  cases hcheck : r.check k with
  | ok v =>
    obtain ⟨hcontains, rfl⟩ := IntegerRange.check_eq_ok_iff.1 hcheck
    constructor
    · intro hok
      cases hok
      exact ⟨hcontains, rfl⟩
    · rintro ⟨-, rfl⟩
      rfl
  | error e =>
    constructor
    · intro hok
      cases hok
    · rintro ⟨hcontains, -⟩
      have hok := IntegerRange.check_eq_ok_iff.2 ⟨hcontains, rfl⟩
      rw [hcheck] at hok
      cases hok

theorem Coercion.coerce_eq_numberToInteger {type : FieldType} {r : IntegerRange}
    (hr : type.integerRange? = some r) (n : Decimal) (nullable : Bool) (field : String) :
    (Literal.number n).coerce type nullable field = (numberToInteger n r type field).map some := by
  have hnumber : number n type field = numberToInteger n r type field := by
    unfold number
    rw [hr]
  rw [← hnumber]
  rfl

/-! ## Floats -/

namespace Decimal

/-- The number of a format nearest to a decimal. -/
def nearest (f : Binary.Format) (d : Decimal) : Binary :=
  Binary.nearest f (d.coefficient < 0) (d.coefficient.natAbs * 10 ^ (-d.scale).toNat) (10 ^ d.scale.toNat)

theorem ratio_eq_abs (d : Decimal) :
    (((d.coefficient.natAbs * 10 ^ (-d.scale).toNat : ℕ) : ℚ) / ((10 ^ d.scale.toNat : ℕ) : ℚ)) =
      |d.value| := by
  have hunit : (0 : ℚ) < 10 ^ (-d.scale) := by positivity
  rw [value, abs_mul, abs_of_pos hunit, zpow_eq_div 10 (-d.scale), Int.neg_neg]
  push_cast
  rw [mul_div_assoc, Nat.cast_natAbs, Int.cast_abs]

theorem value_neg_iff (d : Decimal) : d.value < 0 ↔ d.coefficient < 0 := by
  have hunit : (0 : ℚ) < 10 ^ (-d.scale) := by positivity
  have hcast : d.coefficient < 0 ↔ (d.coefficient : ℚ) < 0 := by
    rw [Int.cast_lt_zero]
  rw [hcast, value]
  constructor
  · intro hneg
    by_contra hle
    exact absurd (mul_nonneg (not_lt.1 hle) hunit.le) (not_le.2 hneg)
  · intro hneg
    exact mul_neg_of_neg_of_pos hneg hunit

/-- Only the value of a decimal matters. -/
theorem nearest_eq_of_value {a b : Decimal} (h : a.value = b.value) (f : Binary.Format) :
    a.nearest f = b.nearest f := by
  have hsign : decide (a.coefficient < 0) = decide (b.coefficient < 0) := by
    rw [decide_eq_decide, ← value_neg_iff, ← value_neg_iff, h]
  unfold nearest
  rw [hsign]
  refine Binary.nearest_congr f _ (Nat.pow_pos (by omega)) (Nat.pow_pos (by omega)) ?_
  rw [ratio_eq_abs, ratio_eq_abs, h]

theorem nearest_ofInt (f : Binary.Format) (n : ℤ) : (ofInt n).nearest f = Binary.ofInt f n := by
  have hone : n.natAbs * 10 ^ (-(0 : ℤ)).toNat = n.natAbs := Nat.mul_one _
  show Binary.nearest f (n < 0) (n.natAbs * 10 ^ (-(0 : ℤ)).toNat) 1 = Binary.nearest f (n < 0) n.natAbs 1
  rw [hone]

end Decimal

namespace Binary

theorem lt_of_digits (n : ℕ) (g : ℤ) : (n : ℚ) * 10 ^ g < 10 ^ (((Digit.digits n).length : ℤ) + g) := by
  have hn : (n : ℚ) < 10 ^ (Digit.digits n).length := by exact_mod_cast Digit.lt_pow_length n
  rw [zpow_add₀ (by norm_num), zpow_natCast, mul_lt_mul_iff_left₀ (by positivity)]
  exact hn

theorem le_of_digits {n : ℕ} (hn : 0 < n) (g : ℤ) :
    (10 : ℚ) ^ (((Digit.digits n).length : ℤ) + g - 1) ≤ n * 10 ^ g := by
  have hlength := Digit.length_digits_pos n
  have hpow : (10 : ℚ) ^ ((Digit.digits n).length - 1) ≤ n := by exact_mod_cast Digit.pow_length_le hn
  have hsplit : ((Digit.digits n).length : ℤ) + g - 1 = ((Digit.digits n).length - 1 : ℕ) + g := by omega
  rw [hsplit, zpow_add₀ (by norm_num), zpow_natCast, mul_le_mul_iff_left₀ (by positivity)]
  exact hpow

theorem two_pow_le_ten_pow : (2 : ℚ) ^ 1075 ≤ 10 ^ 400 := by
  have hnat : (2 : ℕ) ^ 1075 ≤ 10 ^ 400 := by decide +kernel
  have hcast := Nat.cast_le (α := ℚ).2 hnat
  rwa [Nat.cast_pow, Nat.cast_pow, Nat.cast_ofNat, Nat.cast_ofNat] at hcast

/-- A whole number times a power of ten, as a ratio. -/
theorem ratio_of_scaled (n : ℕ) (g : ℤ) :
    (((n * 10 ^ g.toNat : ℕ) : ℚ) / ((10 ^ (-g).toNat : ℕ) : ℚ)) = n * 10 ^ g := by
  rw [zpow_eq_div 10 g]
  push_cast
  rw [mul_div_assoc]

/-- Digits and an exponent become the number of the format nearest to them, however large or small. -/
theorem ofDigits_eq_nearest {f : Format} (hf : 0 < f.precision) (hrange : f.minExponent ≤ f.maxExponent)
    (hmin : -1074 ≤ f.minExponent) (hmax : f.maxExponent + f.precision ≤ 1024) (s : Bool) (n : ℕ) (g : ℤ) :
    ofDigits f s n g = nearest f s (n * 10 ^ g.toNat) (10 ^ (-g).toNat) := by
  have hd : (0 : ℕ) < 10 ^ (-g).toNat := Nat.pow_pos (by omega)
  have hratio := ratio_of_scaled n g
  have hone : nearest f s 0 1 = finite s 0 f.minExponent := nearest_zero f s 1
  unfold ofDigits
  simp only [Bool.or_eq_true, decide_eq_true_eq]
  rcases Nat.eq_zero_or_pos n with rfl | hn
  · rw [if_pos (.inl rfl), Nat.zero_mul, nearest_zero, nearest_zero]
  · generalize htop : ((Digit.digits n).length : ℤ) + g = top
    have hbelow := lt_of_digits n g
    have habove := le_of_digits hn g
    rw [htop] at hbelow habove
    by_cases hsmall : top < -400
    · rw [if_pos (.inr hsmall), hone, nearest_of_tiny hf hrange s hd]
      rw [hratio]
      have hunit : (1 : ℚ) / 2 * 2 ^ f.minExponent = 2 ^ (f.minExponent - 1) := by
        rw [zpow_sub_one₀ (by norm_num)]
        ring
      rw [hunit]
      calc (n : ℚ) * 10 ^ g ≤ 10 ^ top := hbelow.le
        _ ≤ 10 ^ (-(400 : ℕ) : ℤ) := zpow_le_zpow_right₀ (by norm_num) (by omega)
        _ ≤ 2 ^ (-(1075 : ℕ) : ℤ) := by
          rw [zpow_neg, zpow_neg, zpow_natCast, zpow_natCast]
          exact inv_anti₀ (by positivity) two_pow_le_ten_pow
        _ ≤ 2 ^ (f.minExponent - 1) := zpow_le_zpow_right₀ (by norm_num) (by omega)
    · rw [if_neg (by omega)]
      by_cases hlarge : 400 < top
      · rw [if_pos hlarge, nearest_of_huge f s hd]
        rw [hratio]
        calc (2 : ℚ) ^ (f.maxExponent + f.precision) ≤ 2 ^ ((1075 : ℕ) : ℤ) :=
              zpow_le_zpow_right₀ (by norm_num) (by omega)
          _ ≤ 10 ^ ((400 : ℕ) : ℤ) := by
            rw [zpow_natCast, zpow_natCast]
            exact two_pow_le_ten_pow
          _ ≤ 10 ^ (top - 1) := zpow_le_zpow_right₀ (by norm_num) (by omega)
          _ ≤ n * 10 ^ g := habove
      · rw [if_neg hlarge]

end Binary

/-- A literal without an exponent and of at most 43 digits becomes the nearest double. -/
theorem Decimal.toDouble_eq_nearest {d : Decimal} (hscale : 0 ≤ d.scale)
    (hshort : d.coefficient.natAbs < 10 ^ 43) : d.toDouble = d.nearest .double := by
  unfold toDouble nearest
  simp only
  by_cases hzero : d.coefficient.natAbs = 0
  · have hcoefficient : d.coefficient = 0 := Int.natAbs_eq_zero.1 hzero
    rw [if_pos hzero, hcoefficient, Int.natAbs_zero, Nat.zero_mul, Binary.nearest_zero, Binary.nearest_zero]
    rfl
  · rw [if_neg hzero]
    by_cases hwhole : d.scale = 0
    · rw [if_pos hwhole, hwhole]
      simp
    · -- so short a coefficient loses no digits
      have hlog : d.coefficient.natAbs.log2 < 143 := by
        rw [Nat.log2_lt hzero]
        exact lt_of_lt_of_le hshort (by decide +kernel)
      have hdropped : 19 * ((estimatedDigits (d.coefficient.natAbs.log2 + 1) - 25) / 19) = 0 := by
        unfold estimatedDigits
        omega
      have hpositive : 0 < d.scale - ((0 : ℕ) : ℤ) := by omega
      rw [if_neg hwhole, hdropped, if_pos hpositive, Nat.pow_zero, Nat.div_one,
        Binary.ofDigits_eq_nearest (by decide) (by decide) (by decide) (by decide)]
      simp

open Binary

/-- A decimal whose magnitude rounds to a number of the format becomes that number, with its sign. -/
theorem Decimal.nearest_of_roundsTo {f : Format} {s : Bool} {m : ℕ} {e : ℤ} (hf : 0 < f.precision)
    (h : Canonical f m e) {d : Decimal} {q : ℚ} (hq : 0 < q)
    (hd : d.value = Binary.withSign s q) (hrounds : RoundsTo f m e q) : d.nearest f = finite s m e := by
  have hratio := d.ratio_eq_abs
  rw [hd, abs_withSign s hq.le] at hratio
  have hsign : decide (d.coefficient < 0) = s := by
    unfold Binary.withSign at hd
    cases s with
    | true =>
      rw [if_pos rfl] at hd
      exact decide_eq_true (d.value_neg_iff.1 (by linarith))
    | false =>
      rw [if_neg Bool.false_ne_true] at hd
      exact decide_eq_false fun hneg => absurd (d.value_neg_iff.2 hneg) (by linarith)
  have hn : 0 < d.coefficient.natAbs * 10 ^ (-d.scale).toNat := by
    by_contra hle
    rw [Nat.eq_zero_of_not_pos hle, Nat.cast_zero, zero_div] at hratio
    linarith
  unfold Decimal.nearest
  rw [hsign]
  refine Binary.nearest_of_roundsTo s hf h hn (Nat.pow_pos (by omega)) ?_
  rw [hratio]
  exact hrounds

theorem Decimal.nearest_of_value_zero {d : Decimal} (h : d.value = 0) (f : Format) :
    d.nearest f = finite false 0 f.minExponent := by
  have hten : (10 : ℚ) ^ (-d.scale) ≠ 0 := by positivity
  have hcoefficient : d.coefficient = 0 := by
    exact_mod_cast (mul_eq_zero.1 h).resolve_right hten
  unfold Decimal.nearest
  rw [hcoefficient, Int.natAbs_zero, Nat.zero_mul, nearest_zero]
  rfl

/-- A double equals the double nearest to a decimal that rounds to it. -/
theorem Binary.compare?_nearest {s : Bool} {m : ℕ} {e : ℤ} (h : Canonical .double m e) {d : Decimal}
    {q : ℚ} (hq : 0 ≤ q) (hd : d.value = withSign s q) (hrounds : RoundsTo .double m e q) :
    (finite s m e).compare? (d.nearest .double) = some .eq := by
  rcases hq.lt_or_eq with hpos | rfl
  · rw [d.nearest_of_roundsTo (by decide) h hpos hd hrounds]
    exact compare?_self (by simp)
  · -- zeros of both signs are equal
    have hzero : d.value = 0 := by
      rw [← abs_eq_zero, hd, abs_withSign s le_rfl]
    rw [Decimal.nearest_of_value_zero hzero, hrounds.eq_zero]
    exact compare?_zero s false _ _

end RecordQuery
