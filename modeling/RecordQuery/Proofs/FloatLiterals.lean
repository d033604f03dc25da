import RecordQuery.Proofs.Number.Conversion
import RecordQuery.Proofs.Number.Overflow

/-!
# Number literals at types of floats

A number literal becomes a float whatever its size, and from a limit on it becomes an infinity. The limit is
where the format overflows, or, for a single, the middle in front of that between two doubles, since a literal
is rounded to a double first:

    Reaches s f.overflow (nearest double s n d) ↔ f.literalLimit ≤ n / d         (nearest_reaches_overflow_iff)

The double of a short literal is the nearest one. Of a long coefficient digits are dropped, but twenty are left,
and a value that then ends in zeros is multiplied up with one rounding for each bit of the exponent. So the
literal is known up to a small part of itself, and so is the limit (`Computes.reaches`, `Computes.within`).
-/

namespace RecordQuery

open Binary Digit

/-! ## Digits that are dropped -/

theorem pow_le_pow_of_ratio {a b i j k l : ℕ} (ha : 0 < a) (hl : 0 < l) (h : a ^ k ≤ b ^ l)
    (hij : i * l ≤ k * j) : a ^ i ≤ b ^ j := by
  refine (Nat.pow_le_pow_iff_left hl.ne').1 ?_
  calc (a ^ i) ^ l = a ^ (i * l) := (Nat.pow_mul a i l).symm
    _ ≤ a ^ (k * j) := Nat.pow_le_pow_right ha hij
    _ = (a ^ k) ^ j := Nat.pow_mul a k j
    _ ≤ (b ^ l) ^ j := Nat.pow_le_pow_left h j
    _ = (b ^ j) ^ l := Nat.pow_right_comm b l j

/-- A power of ten below a power of two, by a fraction that is little less than the logarithm of two. -/
theorem ten_pow_le_two_pow {i j : ℕ} (h : i * 28738 ≤ 8651 * j) : (10 : ℕ) ^ i ≤ 2 ^ j :=
  pow_le_pow_of_ratio (by omega) (by omega) (by decide +kernel) h

theorem log2_lt_of_length (n : ℕ) : n.log2 < 4 * (digits n).length := by
  rcases Nat.eq_zero_or_pos n with rfl | hn
  · decide
  · rw [Nat.log2_lt hn.ne', Nat.pow_mul]
    exact (lt_pow_length n).trans_le (Nat.pow_le_pow_left (by omega) _)

namespace Decimal

/-- How many of the last digits of a coefficient are dropped. -/
def droppedDigits (n : ℕ) : ℕ := 19 * ((estimatedDigits (n.log2 + 1) - 25) / 19)

/-- Where digits are dropped, twenty of them are left. -/
theorem kept_digits {n : ℕ} (hn : 0 < n) (hlength : (digits n).length ≤ 10 ^ 9) :
    droppedDigits n = 0 ∨ 10 ^ 20 ≤ n / 10 ^ droppedDigits n := by
  have hlog := log2_lt_of_length n
  by_cases hdropped : droppedDigits n = 0
  · exact .inl hdropped
  · right
    rw [Nat.le_div_iff_mul_le (Nat.pow_pos (by omega)), ← Nat.pow_add]
    refine (ten_pow_le_two_pow ?_).trans (Nat.log2_self_le hn.ne')
    unfold droppedDigits estimatedDigits at hdropped ⊢
    omega

theorem kept_pos {n : ℕ} (hn : 0 < n) (hlength : (digits n).length ≤ 10 ^ 9) :
    0 < n / 10 ^ droppedDigits n := by
  rcases kept_digits hn hlength with hzero | hkept
  · rw [hzero, Nat.pow_zero, Nat.div_one]
    exact hn
  · omega

/-- The digits that are left make up the number but for a small part. -/
theorem kept_bounds {n : ℕ} (hn : 0 < n) (hlength : (digits n).length ≤ 10 ^ 9) :
    ((n / 10 ^ droppedDigits n : ℕ) : ℚ) * 10 ^ droppedDigits n ≤ n ∧
      (n : ℚ) ≤ (1 + 1 / 10 ^ 20) * (((n / 10 ^ droppedDigits n : ℕ) : ℚ) * 10 ^ droppedDigits n) := by
  have hkept := kept_digits hn hlength
  generalize droppedDigits n = dropped at hkept
  have hdivision := Nat.div_add_mod n (10 ^ dropped)
  have hrest := Nat.mod_lt n (Nat.pow_pos (n := dropped) (show 0 < 10 by omega))
  generalize n / 10 ^ dropped = kept at hkept hdivision
  generalize n % 10 ^ dropped = rest at hdivision hrest
  have hsplit : (10 : ℚ) ^ dropped * kept + rest = n := by exact_mod_cast hdivision
  have hnonneg : (0 : ℚ) ≤ rest := rest.cast_nonneg
  have hunit : (0 : ℚ) ≤ 10 ^ dropped := by positivity
  refine ⟨by linarith, ?_⟩
  rcases hkept with rfl | hlarge
  · have hzero : rest = 0 := by omega
    rw [← hsplit, hzero, pow_zero, Nat.cast_zero]
    linarith [kept.cast_nonneg (α := ℚ)]
  · have hlarge' : (10 : ℚ) ^ 20 ≤ kept := by exact_mod_cast hlarge
    have hrest' : (rest : ℚ) ≤ 10 ^ dropped := by exact_mod_cast hrest.le
    have hpart := mul_le_mul_of_nonneg_right hlarge' hunit
    linarith

end Decimal

/-! ## The double of a long literal -/

/-- The power of ten by repeated squaring. -/
def tenPower (e : ℕ) : Binary := powDouble (nearest .double false 1 1) (nearest .double false 10 1) e

/-- The number `± k · 10 ^ g` as a double, rounded once or multiplied up from `k`. -/
inductive Computes (s : Bool) (k : ℕ) (g : ℤ) : Binary → Prop
  | nearest {n d : ℕ} (hd : 0 < d) (h : (n : ℚ) / d = k * 10 ^ g) : Computes s k g (nearest .double s n d)
  | product {e : ℕ} (h : g = e) : Computes s k g (mul .double (Binary.nearest .double s k 1) (tenPower e))

theorem Decimal.exists_computes {d : Decimal} (hd : d.coefficient ≠ 0) (hscale : d.scale ≠ 0)
    (hlength : (digits d.coefficient.natAbs).length ≤ 10 ^ 9) :
    ∃ (k : ℕ) (g : ℤ), 0 < k ∧ (k : ℚ) * 10 ^ g ≤ |d.value| ∧
      |d.value| ≤ (1 + 1 / 10 ^ 20) * (k * 10 ^ g) ∧ Computes (d.coefficient < 0) k g d.toDouble := by
  have hn : 0 < d.coefficient.natAbs := Int.natAbs_pos.2 hd
  obtain ⟨hlower, hupper⟩ := kept_bounds hn hlength
  have hpos := kept_pos hn hlength
  have hunit : (0 : ℚ) < 10 ^ (-d.scale) := by positivity
  have hvalue : |d.value| = d.coefficient.natAbs * 10 ^ (-d.scale) := by
    rw [value, abs_mul, abs_of_pos hunit, Nat.cast_natAbs, Int.cast_abs]
  have hsplit : (10 : ℚ) ^ (-(d.scale - (droppedDigits d.coefficient.natAbs : ℤ))) =
      10 ^ droppedDigits d.coefficient.natAbs * 10 ^ (-d.scale) := by
    rw [neg_sub, sub_eq_add_neg, zpow_add₀ (by norm_num), zpow_natCast]
  refine ⟨d.coefficient.natAbs / 10 ^ droppedDigits d.coefficient.natAbs,
    -(d.scale - (droppedDigits d.coefficient.natAbs : ℤ)), hpos, ?_, ?_, ?_⟩
  · rw [hvalue, hsplit, ← mul_assoc]
    exact mul_le_mul_of_nonneg_right hlower hunit.le
  · rw [hvalue, hsplit, ← mul_assoc, ← mul_assoc, mul_assoc (1 + 1 / 10 ^ 20)]
    exact mul_le_mul_of_nonneg_right hupper hunit.le
  · unfold toDouble
    simp only
    rw [if_neg hn.ne', if_neg hscale]
    unfold droppedDigits
    split
    · rw [ofDigits_eq_nearest (by decide) (by decide) (by decide) (by decide)]
      exact .nearest (Nat.pow_pos (by omega)) (ratio_of_scaled _ _)
    · exact .product (by omega)

/-! ## The error of the double -/

/-- Bernoulli's inequality. -/
theorem le_leastFactor_pow (m : ℕ) : 1 - m / 2 ^ 53 ≤ leastFactor ^ m := by
  have hbernoulli := one_add_mul_le_pow (a := (-1 / 2 ^ 53 : ℚ)) (by norm_num) m
  have hfactor : (1 : ℚ) + -1 / 2 ^ 53 = leastFactor := by norm_num [leastFactor]
  rw [hfactor] at hbernoulli
  linarith

/-- So many roundings as a power of ten takes that does not overflow move it by a small part. -/
theorem almost_one_le_leastFactor_pow {m : ℕ} (hm : m ≤ 402) : 1 - 1 / (2 * 10 ^ 13) ≤ leastFactor ^ m := by
  have hcast : (m : ℚ) ≤ 402 := by exact_mod_cast hm
  refine le_trans ?_ (le_leastFactor_pow m)
  linarith

theorem le_mul_leastFactor_pow {m : ℕ} (hm : m ≤ 402) {p q : ℚ} (hq : 0 ≤ q) (h : (1 + 1 / 10 ^ 13) * q ≤ p) :
    q ≤ p * leastFactor ^ m := by
  have hfactor := almost_one_le_leastFactor_pow hm
  calc q ≤ (1 + 1 / 10 ^ 13) * q * (1 - 1 / (2 * 10 ^ 13)) := by linarith
    _ ≤ p * leastFactor ^ m := mul_le_mul h hfactor (by norm_num) (by linarith)

theorem mul_greatestFactor_pow_lt {m : ℕ} (hm : m ≤ 402) {p q : ℚ} (hq : 0 < q)
    (h : p ≤ (1 - 1 / 10 ^ 13) * q) : p * greatestFactor ^ m < q := by
  have hfactor := almost_one_le_leastFactor_pow hm
  have hpos : 0 < greatestFactor ^ m := pow_pos (by linarith [one_le_greatestFactor]) m
  have hproduct : leastFactor ^ m * greatestFactor ^ m ≤ 1 := by
    rw [← mul_pow]
    exact pow_le_one₀ (mul_nonneg leastFactor_pos.le (by linarith [one_le_greatestFactor]))
      leastFactor_mul_greatestFactor_le
  have hless : (1 : ℚ) - 1 / 10 ^ 13 < leastFactor ^ m := by linarith
  calc p * greatestFactor ^ m ≤ (1 - 1 / 10 ^ 13) * q * greatestFactor ^ m := mul_le_mul_of_nonneg_right h hpos.le
    _ < leastFactor ^ m * q * greatestFactor ^ m :=
      mul_lt_mul_of_pos_right (mul_lt_mul_of_pos_right hless hq) hpos
    _ = q * (leastFactor ^ m * greatestFactor ^ m) := by ring
    _ ≤ q := mul_le_of_le_one_right hq.le hproduct

/-- The error of the product when each rounding multiplies with `c`. -/
theorem product_eq (p c : ℚ) (e : ℕ) : p * c * (10 * c) ^ e * c = p * 10 ^ e * c ^ (e + 2) := by
  rw [mul_pow]
  ring

theorem two_pow_le_eight_pow {b e : ℕ} (h : b ≤ 3 * e) : (2 : ℚ) ^ b ≤ 8 ^ e := by
  calc (2 : ℚ) ^ b ≤ 2 ^ (3 * e) := pow_le_pow_right₀ one_le_two h
    _ = 8 ^ e := by
      rw [pow_mul]
      norm_num

/-- The doubles overflow at a power of two, which is named to keep it from being computed. -/
theorem exists_double_overflow_le : ∃ b ≤ 1024, Format.double.overflow ≤ 2 ^ b := by
  refine ⟨(Format.double.maxExponent + Format.double.precision).toNat, by decide, ?_⟩
  rw [← zpow_eq_pow 2 (by decide)]
  exact (overflow_lt _).le

namespace Computes

variable {s : Bool} {k b e : ℕ} {g : ℤ} {x : Binary} {limit : ℚ}

/-! One and ten are doubles, so the power of ten starts without an error. -/

theorem nearest_one : Binary.nearest .double false 1 1 = finite false (2 ^ 52) (-52) := by decide +kernel

theorem nearest_ten : Binary.nearest .double false 10 1 = finite false (10 * 2 ^ 49) (-49) := by decide +kernel

theorem tenPower_reaches (e : ℕ) : Reaches false ((10 * leastFactor) ^ e) (tenPower e) := by
  rw [tenPower, nearest_one, nearest_ten, ← one_mul ((10 * leastFactor) ^ e)]
  exact powDouble_reaches le_rfl (by norm_num) (.ofFinite (by norm_num)) (.ofFinite (by norm_num))

theorem tenPower_within (h : (10 * greatestFactor) ^ e < Format.double.overflow) :
    Within false ((10 * greatestFactor) ^ e) (tenPower e) := by
  rw [← one_mul ((10 * greatestFactor) ^ e)] at h
  rw [tenPower, nearest_one, nearest_ten, ← one_mul ((10 * greatestFactor) ^ e)]
  exact powDouble_within le_rfl (by norm_num) ⟨by norm_num⟩ ⟨by norm_num⟩ h

theorem coefficient_reaches (s : Bool) (hk : 0 < k) :
    Reaches s (k * leastFactor) (Binary.nearest .double s k 1) := by
  have hone : (1 : ℚ) ≤ k := by exact_mod_cast hk
  have hreaches := nearest_reaches s Nat.one_pos (n := k) (by rwa [Nat.cast_one, div_one])
  rwa [Nat.cast_one, div_one] at hreaches

theorem coefficient_within (s : Bool) (hk : 0 < k) (h : (k : ℚ) < Format.double.overflow) :
    Within s (k * greatestFactor) (Binary.nearest .double s k 1) := by
  have hone : (1 : ℚ) ≤ k := by exact_mod_cast hk
  refine nearest_within s Nat.one_pos hone ?_ ?_ <;> rw [Nat.cast_one, div_one]
  exact h

/-! ## Sign and form -/

theorem factors_pos (hk : 0 < k) (e : ℕ) : 0 < k * leastFactor ∧ 0 < (10 * leastFactor) ^ e := by
  have hk' : (0 : ℚ) < k := by exact_mod_cast hk
  have hfactor := leastFactor_pos
  constructor <;> positivity

theorem signed (h : Computes s k g x) (hk : 0 < k) : Reaches s 0 x := by
  cases h with
  | nearest hd h => exact nearest_signed .double s _ _
  | @product e h =>
    obtain ⟨hp, hq⟩ := factors_pos hk e
    have hmul := mul_signed (f := .double) (coefficient_reaches s hk) (tenPower_reaches e) hp hq
    rwa [Bool.bne_false] at hmul

theorem isOf (h : Computes s k g x) (hk : 0 < k) : IsOf .double x := by
  cases h with
  | nearest hd h => exact nearest_isOf (by decide) (by decide) s hd
  | @product e h =>
    obtain ⟨hp, hq⟩ := factors_pos hk e
    exact mul_isOf (coefficient_reaches s hk) (tenPower_reaches e) hp hq

/-! ## Beyond a bound -/

/-- So many roundings could add up, but the power is far beyond all doubles. -/
theorem le_of_large_power (hk : 0 < k) (he : 400 < e) (hlimit : limit ≤ 2 ^ b) (hb : b ≤ 1024) :
    limit ≤ k * leastFactor * (10 * leastFactor) ^ e * leastFactor := by
  have hk' : (1 : ℚ) ≤ k := by exact_mod_cast hk
  have hfactor := leastFactor_pos
  have hhalf := one_le_two_mul_leastFactor
  have height : (8 : ℚ) ≤ 10 * leastFactor := by norm_num [leastFactor]
  have hsplit : (2 : ℚ) ^ (b + 2) = 2 ^ b * 4 := by
    rw [pow_add]
    norm_num
  have hpower : (2 : ℚ) ^ (b + 2) ≤ (10 * leastFactor) ^ e :=
    (two_pow_le_eight_pow (by omega)).trans (pow_le_pow_left₀ (by norm_num) height e)
  have hcoefficient : 1 / 2 ≤ k * leastFactor := by nlinarith
  calc limit ≤ 2 ^ b := hlimit
    _ ≤ 1 / 2 * (10 * leastFactor) ^ e * (1 / 2) := by linarith
    _ ≤ k * leastFactor * (10 * leastFactor) ^ e * leastFactor :=
      mul_le_mul (mul_le_mul_of_nonneg_right hcoefficient (by positivity)) (by linarith) (by norm_num)
        (by positivity)

/-- The value reaches every bound that the number is beyond by a small part. -/
theorem reaches (h : Computes s k g x) (hk : 0 < k) (hone : 1 ≤ limit) (hlimit : limit ≤ 2 ^ b) (hb : b ≤ 1024)
    (hle : (1 + 1 / 10 ^ 13) * limit ≤ k * 10 ^ g) : Reaches s limit x := by
  cases h with
  | nearest hd h =>
    rw [← h] at hle
    have hbound := le_mul_leastFactor_pow (m := 1) (by omega) (by linarith) hle
    rw [pow_one] at hbound
    exact (nearest_reaches s hd (by linarith)).mono hbound
  | @product e h =>
    obtain ⟨hp, hq⟩ := factors_pos hk e
    rw [h, zpow_natCast] at hle
    have hbound : limit ≤ k * leastFactor * (10 * leastFactor) ^ e * leastFactor := by
      by_cases hlarge : 400 < e
      · exact le_of_large_power hk hlarge hlimit hb
      · rw [product_eq]
        exact le_mul_leastFactor_pow (by omega) (by linarith) hle
    have hproduct : 1 ≤ k * leastFactor * (10 * leastFactor) ^ e :=
      hone.trans (hbound.trans (mul_le_of_le_one_right (mul_pos hp hq).le leastFactor_le))
    have hmul := mul_reaches (coefficient_reaches s hk) (tenPower_reaches e) hp hq hproduct
    rw [Bool.bne_false] at hmul
    exact hmul.mono hbound

/-! ## In front of a bound -/

theorem exponent_le (hk : 0 < k) (h : k * 10 ^ e < Format.double.overflow) : e ≤ 400 := by
  obtain ⟨b, hb, hpow⟩ := exists_double_overflow_le
  have hk' : (1 : ℚ) ≤ k := by exact_mod_cast hk
  by_contra hlarge
  have hpower : (2 : ℚ) ^ b ≤ 8 ^ e := two_pow_le_eight_pow (by omega)
  have height : (8 : ℚ) ^ e ≤ 10 ^ e := pow_le_pow_left₀ (by norm_num) (by norm_num) e
  have hten : (10 : ℚ) ^ e ≤ k * 10 ^ e := le_mul_of_one_le_left (by positivity) hk'
  linarith

/-- The product overflows at no step if the greatest result that it can have does not. -/
theorem product_within (s : Bool) (hk : 0 < k)
    (h : k * greatestFactor * (10 * greatestFactor) ^ e * greatestFactor < Format.double.overflow) :
    Within s (k * greatestFactor * (10 * greatestFactor) ^ e * greatestFactor)
      (mul .double (Binary.nearest .double s k 1) (tenPower e)) := by
  have hk' : (1 : ℚ) ≤ k := by exact_mod_cast hk
  have hfactor := one_le_greatestFactor
  have hcoefficient : 1 ≤ k * greatestFactor := one_le_mul_of_one_le_of_one_le hk' hfactor
  have hpower : 1 ≤ (10 * greatestFactor) ^ e := one_le_pow₀ (by linarith)
  have hone : 1 ≤ k * greatestFactor * (10 * greatestFactor) ^ e :=
    one_le_mul_of_one_le_of_one_le hcoefficient hpower
  -- no factor is greater than the product
  have hproduct : k * greatestFactor * (10 * greatestFactor) ^ e < Format.double.overflow :=
    (le_mul_of_one_le_right (by linarith) hfactor).trans_lt h
  have hpower_lt : (10 * greatestFactor) ^ e < Format.double.overflow :=
    (le_mul_of_one_le_left (by linarith) hcoefficient).trans_lt hproduct
  have hk_lt : (k : ℚ) < Format.double.overflow :=
    ((le_mul_of_one_le_right (by linarith) hfactor).trans
      (le_mul_of_one_le_right (by linarith) hpower)).trans_lt hproduct
  have hmul := mul_within (coefficient_within s hk hk_lt) (tenPower_within hpower_lt) hone hproduct
  rwa [Bool.bne_false] at hmul

/-- The value stays in front of every bound that the number is in front of by a small part. -/
theorem within (h : Computes s k g x) (hk : 0 < k) (htwo : 2 ≤ limit) (hlimit : limit ≤ Format.double.overflow)
    (hle : (k : ℚ) * 10 ^ g ≤ (1 - 1 / 10 ^ 13) * limit) : ∃ q < limit, Within s q x := by
  cases h with
  | nearest hd h =>
    rw [← h] at hle
    have hbound := mul_greatestFactor_pow_lt (m := 1) (by omega) (by linarith) (le_refl ((1 - 1 / 10 ^ 13) * limit))
    rw [pow_one] at hbound
    exact ⟨_, hbound, nearest_within s hd (by linarith) hle (by linarith)⟩
  | @product e h =>
    rw [h, zpow_natCast] at hle
    have hsmall := exponent_le hk (show k * 10 ^ e < Format.double.overflow by linarith)
    have hbound : k * greatestFactor * (10 * greatestFactor) ^ e * greatestFactor < limit := by
      rw [product_eq]
      exact mul_greatestFactor_pow_lt (by omega) (by linarith) hle
    exact ⟨_, hbound, product_within s hk (hbound.trans_le hlimit)⟩

end Computes

/-! ## The limits -/

/-- The least magnitude of a number literal that overflows a format. What becomes a single is rounded to a double
first, and the double where the singles overflow begins in the middle before it. -/
def Binary.Format.literalLimit (f : Format) : ℚ := if f = .single then f.overflow - 2 ^ 74 else f.overflow

section

variable {type : FieldType} {f : Format} {s : Bool} {n d : ℕ}

theorem floatFormat?_cases (h : type.floatFormat? = some f) :
    type = .float32 ∧ f = .single ∨ type = .float64 ∧ f = .double := by
  unfold FieldType.floatFormat? at h
  split at h
  · cases h
    exact .inl ⟨rfl, rfl⟩
  · cases h
    exact .inr ⟨rfl, rfl⟩
  · cases h

theorem single_overflow_le : Format.single.overflow ≤ Format.double.overflow :=
  ((overflow_lt .single).le.trans (zpow_le_zpow_right₀ (by norm_num) (by decide))).trans (le_overflow (by decide))

theorem two_le_single_overflow : 2 ≤ Format.single.overflow := by norm_num [Format.overflow, Format.single]

theorem double_literalLimit : Format.double.literalLimit = Format.double.overflow := if_neg (by decide)

theorem overflow_bounds (hformat : type.floatFormat? = some f) :
    2 ≤ f.overflow ∧ f.overflow ≤ Format.double.overflow := by
  rcases floatFormat?_cases hformat with ⟨-, rfl⟩ | ⟨-, rfl⟩
  · exact ⟨two_le_single_overflow, single_overflow_le⟩
  · exact ⟨two_le_single_overflow.trans single_overflow_le, le_rfl⟩

theorem literalLimit_bounds (hformat : type.floatFormat? = some f) :
    (1 - 1 / 10 ^ 13) * f.overflow ≤ f.literalLimit ∧ f.literalLimit ≤ f.overflow := by
  rcases floatFormat?_cases hformat with ⟨-, rfl⟩ | ⟨-, rfl⟩
  · norm_num [Format.literalLimit, Format.overflow, Format.single]
  · have htwo := two_le_single_overflow.trans single_overflow_le
    rw [double_literalLimit]
    exact ⟨by linarith, le_rfl⟩

/-- The double where the singles overflow, and the middle in front of it. -/
theorem single_overflow_eq :
    Canonical .double (2 ^ 53 - 2 ^ 28) 75 ∧
      Format.single.overflow = ((2 ^ 53 - 2 ^ 28 : ℕ) : ℚ) * 2 ^ (75 : ℤ) ∧
      Format.single.literalLimit =
        (((2 ^ 53 - 2 ^ 28 : ℕ) : ℚ) - lowerGap .double (2 ^ 53 - 2 ^ 28) 75 / 4) * 2 ^ (75 : ℤ) := by
  have hgap : lowerGap .double (2 ^ 53 - 2 ^ 28) 75 = 2 := by decide
  refine ⟨⟨by decide, by decide, by decide, .inl (by decide)⟩, ?_, ?_⟩
  · norm_num [Format.overflow, Format.single]
  · rw [hgap]
    norm_num [Format.literalLimit, Format.overflow, Format.single]

/-- The nearest double reaches the overflow of a format from the limit for literals on. -/
theorem nearest_reaches_overflow_iff (hformat : type.floatFormat? = some f) (hd : 0 < d) :
    Reaches s f.overflow (nearest .double s n d) ↔ f.literalLimit ≤ n / d := by
  rcases floatFormat?_cases hformat with ⟨-, rfl⟩ | ⟨-, rfl⟩
  · obtain ⟨hcanonical, hoverflow, hlimit⟩ := single_overflow_eq
    have hroom : 2 * Format.single.overflow ≤
        2 ^ (Format.double.maxExponent + (Format.double.precision - 1)) := by
      have hnext := two_zpow_succ (Format.single.maxExponent + Format.single.precision)
      have hlt := overflow_lt .single
      have hle : (2 : ℚ) ^ (Format.single.maxExponent + Format.single.precision + 1) ≤
          2 ^ (Format.double.maxExponent + (Format.double.precision - 1)) :=
        zpow_le_zpow_right₀ (by norm_num) (by decide)
      linarith
    rw [hlimit, hoverflow]
    rw [hoverflow] at hroom
    exact nearest_reaches_iff s hd hcanonical (by decide) (by decide) hroom
  · rw [double_literalLimit, ← nearest_eq_infinity_iff (by decide) (by decide) s hd]
    constructor
    · exact (nearest_isOf (by decide) (by decide) s hd).eq_infinity
    · intro h
      rw [h]
      exact .ofInfinity

/-- A single that is a double is infinite only if it was. -/
theorem widen_eq_infinity_iff {x : Binary} (hx : IsOf .single x) : x.widen = infinity s ↔ x = infinity s := by
  unfold widen
  rw [round_eq_infinity_iff (by decide) (by decide)]
  constructor
  · intro h
    exact hx.eq_infinity (h.mono single_overflow_le)
  · rintro rfl
    exact .ofInfinity

/-- What a type of floats makes of the double of a literal has its sign, and is infinite just if the double
reaches the overflow of the format. -/
theorem exists_number_eq_float (hformat : type.floatFormat? = some f) (n : Decimal) (field : String) :
    ∃ x, Coercion.number n type field = .ok (.float x) ∧ (IsOf .double n.toDouble → Reaches s 0 n.toDouble →
      Reaches s 0 x ∧ (x = infinity s ↔ Reaches s f.overflow n.toDouble)) := by
  rcases floatFormat?_cases hformat with ⟨rfl, rfl⟩ | ⟨rfl, rfl⟩
  · refine ⟨_, rfl, fun hdouble hsign => ⟨(hsign.round_signed _).round_signed _, ?_⟩⟩
    rw [widen_eq_infinity_iff (hsign.round_isOf (by decide) (by decide)),
      round_eq_infinity_iff (by decide) (by decide)]
  · refine ⟨_, rfl, fun hdouble hsign => ⟨hsign, ?_, hdouble.eq_infinity⟩⟩
    intro h
    rw [h]
    exact .ofInfinity

end

/-! ## Literals -/

namespace Decimal

variable {type : FieldType} {f : Format} {d : Decimal}

/-- No digits of the decimal are dropped, and no power of ten is multiplied. -/
def IsPlain (d : Decimal) : Prop := d.scale = 0 ∨ 0 ≤ d.scale ∧ d.coefficient.natAbs < 10 ^ 43

instance (d : Decimal) : Decidable d.IsPlain := inferInstanceAs (Decidable (_ ∨ _))

/-- How far from a limit the double of a decimal is known to be on its side, as a part of the limit. -/
def slack (d : Decimal) : ℚ := if d.IsPlain then 0 else 1 / 10 ^ 12

theorem slack_nonneg (d : Decimal) : 0 ≤ d.slack := by
  unfold slack
  split <;> norm_num

theorem toDouble_of_zero (h : d.coefficient = 0) : d.toDouble = d.nearest .double := by
  unfold toDouble nearest
  simp only
  rw [if_pos (Int.natAbs_eq_zero.2 h), h, Int.natAbs_zero, Nat.zero_mul, Binary.nearest_zero, Binary.nearest_zero]
  rfl

theorem toDouble_of_whole (hd : d.coefficient ≠ 0) (h : d.scale = 0) : d.toDouble = d.nearest .double := by
  unfold toDouble nearest
  simp only
  rw [if_neg (Int.natAbs_ne_zero.2 hd), if_pos h, h]
  simp

/-- The double of a decimal is the nearest one, or that of so many of its digits that little is lost. -/
theorem toDouble_cases (hsize : d.scale = 0 ∨ (digits d.coefficient.natAbs).length ≤ 10 ^ 9) :
    d.toDouble = d.nearest .double ∨ d.slack = 1 / 10 ^ 12 ∧ ∃ (k : ℕ) (g : ℤ), 0 < k ∧
      (k : ℚ) * 10 ^ g ≤ |d.value| ∧ |d.value| ≤ (1 + 1 / 10 ^ 20) * (k * 10 ^ g) ∧
      Computes (d.coefficient < 0) k g d.toDouble := by
  by_cases hzero : d.coefficient = 0
  · exact .inl (toDouble_of_zero hzero)
  by_cases hplain : d.IsPlain
  · rcases hplain with hwhole | ⟨hscale, hshort⟩
    · exact .inl (toDouble_of_whole hzero hwhole)
    · exact .inl (toDouble_eq_nearest hscale hshort)
  · have hscale : d.scale ≠ 0 := fun h => hplain (.inl h)
    exact .inr ⟨if_neg hplain, exists_computes hzero hscale (hsize.resolve_left hscale)⟩

theorem nearest_reaches_iff (hformat : type.floatFormat? = some f) :
    Reaches (d.coefficient < 0) f.overflow (d.nearest .double) ↔ f.literalLimit ≤ |d.value| := by
  rw [← ratio_eq_abs]
  exact nearest_reaches_overflow_iff hformat (Nat.pow_pos (by omega))

/-- The double of a decimal has the decimal's sign. -/
theorem toDouble_signed (hsize : d.scale = 0 ∨ (digits d.coefficient.natAbs).length ≤ 10 ^ 9) :
    IsOf .double d.toDouble ∧ Reaches (d.coefficient < 0) 0 d.toDouble := by
  rcases toDouble_cases hsize with hnearest | ⟨-, k, g, hk, -, -, hcomputes⟩
  · rw [hnearest]
    exact ⟨nearest_isOf (by decide) (by decide) _ (Nat.pow_pos (by omega)), nearest_signed _ _ _ _⟩
  · exact ⟨hcomputes.isOf hk, hcomputes.signed hk⟩

theorem toDouble_reaches (hformat : type.floatFormat? = some f)
    (hsize : d.scale = 0 ∨ (digits d.coefficient.natAbs).length ≤ 10 ^ 9)
    (h : (1 + d.slack) * f.literalLimit ≤ |d.value|) :
    Reaches (d.coefficient < 0) f.overflow d.toDouble := by
  obtain ⟨htwo, hdouble⟩ := overflow_bounds hformat
  obtain ⟨hlow, hhigh⟩ := literalLimit_bounds hformat
  rcases toDouble_cases hsize with hnearest | ⟨hslack, k, g, hk, -, hupper, hcomputes⟩
  · rw [hnearest, nearest_reaches_iff hformat]
    have hnonneg := mul_nonneg d.slack_nonneg (show 0 ≤ f.literalLimit by linarith)
    linarith
  · obtain ⟨b, hb, hpow⟩ := exists_double_overflow_le
    rw [hslack] at h
    exact hcomputes.reaches hk (by linarith) (hdouble.trans hpow) hb (by linarith)

theorem toDouble_not_reaches (hformat : type.floatFormat? = some f)
    (hsize : d.scale = 0 ∨ (digits d.coefficient.natAbs).length ≤ 10 ^ 9)
    (h : |d.value| < (1 - d.slack) * f.literalLimit) :
    ¬ Reaches (d.coefficient < 0) f.overflow d.toDouble := by
  obtain ⟨htwo, hdouble⟩ := overflow_bounds hformat
  obtain ⟨hlow, hhigh⟩ := literalLimit_bounds hformat
  rcases toDouble_cases hsize with hnearest | ⟨hslack, k, g, hk, hlower, -, hcomputes⟩
  · rw [hnearest, nearest_reaches_iff hformat]
    have hnonneg := mul_nonneg d.slack_nonneg (show 0 ≤ f.literalLimit by linarith)
    linarith
  · rw [hslack] at h
    obtain ⟨q, hq, hwithin⟩ := hcomputes.within hk htwo hdouble (by linarith)
    exact hwithin.not_reaches hq

end Decimal

/-! ## Top theorem (proved from the lemmas above) -/

/-- A number literal is never out of range for a type of floats. It becomes a float of its sign, and from the
limit of the format on that float is an infinity. A long literal with a point has to be on its side of the limit
by a small part; for all others the limit is exact. -/
theorem float_literal_overflows {type : FieldType} {f : Format} (hformat : type.floatFormat? = some f)
    (n : Decimal) (nullable : Bool) (field : String) :
    ∃ x, (Literal.number n).coerce type nullable field = .ok (some (.float x)) ∧
      (n.scale = 0 ∨ (digits n.coefficient.natAbs).length ≤ 10 ^ 9 →
        (x = .infinity (n.coefficient < 0) ∨ ∃ m e, x = .finite (n.coefficient < 0) m e) ∧
        ((1 + n.slack) * f.literalLimit ≤ |n.value| → x = .infinity (n.coefficient < 0)) ∧
        (|n.value| < (1 - n.slack) * f.literalLimit → x ≠ .infinity (n.coefficient < 0))) := by
  obtain ⟨x, hnumber, hx⟩ := exists_number_eq_float (s := n.coefficient < 0) hformat n field
  refine ⟨x, ?_, fun hsize => ?_⟩
  · show (Coercion.number n type field).map some = _
    rw [hnumber]
    rfl
  · obtain ⟨hdouble, hsigned⟩ := n.toDouble_signed hsize
    obtain ⟨hsign, hinfinity⟩ := hx hdouble hsigned
    refine ⟨?_, fun h => hinfinity.2 (n.toDouble_reaches hformat hsize h),
      fun h hx => n.toDouble_not_reaches hformat hsize h (hinfinity.1 hx)⟩
    cases hsign with
    | ofInfinity => exact .inl rfl
    | ofFinite _ => exact .inr ⟨_, _, rfl⟩

/-- The least whole number that overflows a single is less than where the singles overflow. -/
theorem float_literal_overflows_early :
    FieldType.float32.floatFormat? = some .single ∧
    (340282356779733642748073463979561713664 : ℚ) < Format.single.overflow ∧
    ∃ x, (Literal.number ⟨340282356779733642748073463979561713664, 0⟩).coerce .float32 false "Ratio" =
      .ok (some (.float x)) ∧ x = .infinity false := by
  have hformat : FieldType.float32.floatFormat? = some .single := rfl
  refine ⟨hformat, by norm_num [Format.overflow, Format.single], ?_⟩
  obtain ⟨x, hx, hlimits⟩ :=
    float_literal_overflows hformat ⟨340282356779733642748073463979561713664, 0⟩ false "Ratio"
  refine ⟨x, hx, (hlimits (.inl rfl)).2.1 ?_⟩
  norm_num [Decimal.slack, Decimal.IsPlain, Decimal.value, Format.literalLimit, Format.overflow, Format.single]

/-- Literals beyond all doubles and beyond all singles are accepted, as infinities. -/
theorem oversized_literals_become_infinite :
    (Literal.number ⟨10 ^ 309, 0⟩).coerce .float64 false "Ratio" = .ok (some (.float (.infinity false))) ∧
    (Literal.number ⟨10 ^ 39, 0⟩).coerce .float32 false "Ratio" = .ok (some (.float (.infinity false))) := by
  decide +kernel

end RecordQuery
