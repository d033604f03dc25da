import RecordQuery.Proofs.Number.Rounding

/-!
# Numbers of a format

`IsOf f x` says that `x` is a number of the format `f` in the form in which it is kept. Every result of
rounding is one, a number of the format stays what it is, and a single is still the same number as a double:

    IsOf f (nearest f s n d)                                                       (nearest_isOf)
    Canonical f n x → m · 2 ^ e = n · 2 ^ x → round f (finite s m e) = finite s n x  (round_eq)
    IsOf single z → y.compare? z.widen = y.compare? z                              (compare?_widen)

So a double equals some single just if it equals the single that it is rounded to (exists_single_iff).
-/

namespace RecordQuery.Binary

/-! ## Order -/

/-- Numbers that are equal are in one order with every other. -/
theorem compare?_congr_left {x y : Binary} (h : x.compare? y = some .eq) (z : Binary) :
    x.compare? z = y.compare? z := by
  cases x with
  | nan => cases h
  | infinity s =>
    cases y with
    | nan => cases h
    | finite t n x =>
      cases s <;> cases h
    | infinity t =>
      have hst : s = t := by
        cases s <;> cases t <;> first | rfl | cases h
      rw [hst]
  | finite s m e =>
    cases y with
    | nan => cases h
    | infinity t => cases t <;> cases h
    | finite t n x =>
      rw [compare?_finite_eq_iff] at h
      cases z with
      | nan => rfl
      | infinity u => rfl
      | finite u k w => rw [compare?_finite, compare?_finite, h]

theorem compare?_self {x : Binary} (hx : x ≠ nan) : x.compare? x = some .eq := by
  cases x with
  | nan => exact absurd rfl hx
  | infinity s => cases s <;> rfl
  | finite s m e => exact compare?_finite_eq_iff.2 rfl

/-- A positive magnitude has one sign. -/
theorem withSign_eq {s t : Bool} {a b : ℚ} (ha : 0 < a) (hb : 0 ≤ b)
    (h : withSign s a = withSign t b) : s = t ∧ a = b := by
  unfold withSign at h
  cases s <;> cases t <;> simp only [if_true, Bool.false_eq_true, if_false] at h
  · exact ⟨rfl, h⟩
  · linarith
  · linarith
  · exact ⟨rfl, neg_inj.1 h⟩

theorem value_zero (s : Bool) (e : ℤ) : (finite s 0 e).value = 0 := by
  rw [value, withSign, Nat.cast_zero, zero_mul, neg_zero, ite_self]

/-- Zeros are equal, whatever their signs and exponents. -/
theorem compare?_zero (s t : Bool) (e x : ℤ) : (finite s 0 e).compare? (finite t 0 x) = some .eq := by
  rw [compare?_finite_eq_iff, value_zero, value_zero]

/-! ## The kept form -/

/-- A number of the format, in the form in which it is kept. -/
def IsOf (f : Format) : Binary → Prop
  | nan => False
  | infinity _ => True
  | finite _ m e => Canonical f m e

theorem IsOf.ne_nan {f : Format} {x : Binary} (h : IsOf f x) : x ≠ nan := by
  rintro rfl
  exact h

/-- A number whose significand and exponent lie in the bounds of the format has a form that is kept. -/
theorem exists_canonical {f : Format} {m : ℕ} {e : ℤ} (hm : m < 2 ^ f.precision) (hlow : f.minExponent ≤ e)
    (hhigh : e ≤ f.maxExponent) : ∃ n x, Canonical f n x ∧ (n : ℚ) * 2 ^ x = m * 2 ^ e := by
  -- on the room that the exponent has above the least one
  generalize hroom : (e - f.minExponent).toNat = room
  induction room generalizing m e with
  | zero => exact ⟨m, e, ⟨hm, hlow, hhigh, .inr (by omega)⟩, rfl⟩
  | succ room ih =>
    by_cases hfull : 2 ^ (f.precision - 1) ≤ m
    · exact ⟨m, e, ⟨hm, hlow, hhigh, .inl hfull⟩, rfl⟩
    · have hdouble : 2 * m < 2 ^ f.precision := by
        rcases Nat.eq_zero_or_pos f.precision with hzero | hpos
        · rw [hzero, Nat.pow_zero] at hm
          rw [hzero, Nat.pow_zero]
          omega
        · rw [two_pow_precision hpos]
          omega
      obtain ⟨n, x, hcanonical, hvalue⟩ := ih hdouble (e := e - 1) (by omega) (by omega) (by omega)
      refine ⟨n, x, hcanonical, ?_⟩
      rw [hvalue, zpow_sub_one₀ (by norm_num)]
      push_cast
      ring

theorem NearestTo.le_of_lt {k b : ℕ} {q : ℚ} (h : NearestTo k q) (hq : q < b) : k ≤ b := by
  have hlt : (k : ℚ) < b + 1 := by
    have hlower := h.lower
    linarith
  have hnat : k < b + 1 := by exact_mod_cast hlt
  omega

theorem NearestTo.le_of_le {k b : ℕ} {q : ℚ} (h : NearestTo k q) (hq : (b : ℚ) ≤ q) : b ≤ k := by
  have hlt : (b : ℚ) < k + 1 := by
    have hupper := h.upper
    linarith
  have hnat : b < k + 1 := by exact_mod_cast hlt
  omega

/-- Rounding gives numbers of the format. -/
theorem nearest_isOf {f : Format} (hf : 0 < f.precision) (hrange : f.minExponent ≤ f.maxExponent) (s : Bool)
    {n d : ℕ} (hd : 0 < d) : IsOf f (nearest f s n d) := by
  rcases Nat.eq_zero_or_pos n with rfl | hn
  · exact ⟨Nat.two_pow_pos _, le_rfl, hrange, .inr rfl⟩
  · generalize he : exponentOf f n d = e
    have hmin : f.minExponent ≤ e := by
      unfold exponentOf at he
      omega
    have hunit : (0 : ℚ) < 2 ^ e := by positivity
    generalize hm : roundDiv (n * 2 ^ (-e).toNat) (d * 2 ^ e.toNat) = m
    have hnear : NearestTo m (n / d / 2 ^ e) := (roundDiv_scaled_eq_iff hd).1 hm
    have hle : m ≤ 2 ^ f.precision := by
      refine hnear.le_of_lt ?_
      rw [div_lt_iff₀ hunit]
      exact lt_of_exponentOf hf hn hd he
    have hfull : f.minExponent < e → 2 ^ (f.precision - 1) ≤ m := by
      intro hlt
      refine hnear.le_of_le ?_
      rw [le_div_iff₀ hunit]
      exact le_of_exponentOf hf hn hd he hlt
    rw [nearest_eq s hn hd he hnear]
    by_cases hcarry : m = 2 ^ f.precision
    · rw [if_pos hcarry]
      split
      · trivial
      · rw [hcarry, two_pow_precision_half hf]
        have hpos : (0 : ℕ) < 2 ^ (f.precision - 1) := Nat.two_pow_pos _
        refine ⟨?_, by omega, by omega, .inl le_rfl⟩
        rw [two_pow_precision hf]
        omega
    · rw [if_neg hcarry]
      split
      · trivial
      · refine ⟨by omega, hmin, by omega, ?_⟩
        rcases Int.lt_or_eq_of_le hmin with hgt | heq
        · exact .inl (hfull hgt)
        · exact .inr heq.symm

/-- A ratio below half of the least number of the format rounds to zero. -/
theorem nearest_of_tiny {f : Format} (hf : 0 < f.precision) (hrange : f.minExponent ≤ f.maxExponent)
    (s : Bool) {n d : ℕ} (hd : 0 < d) (h : (n : ℚ) / d ≤ 1 / 2 * 2 ^ f.minExponent) :
    nearest f s n d = finite s 0 f.minExponent := by
  rcases Nat.eq_zero_or_pos n with rfl | hn
  · exact nearest_zero f s d
  · refine nearest_of_roundsTo s hf ⟨Nat.two_pow_pos _, le_rfl, hrange, .inr rfl⟩ hn hd ⟨?_, ?_, .inl rfl⟩
    · have hunit : (0 : ℚ) < 2 ^ f.minExponent := by positivity
      have hgap := (lowerGap_bounds f 0 f.minExponent).1
      have hneg : (((0 : ℕ) : ℚ) - lowerGap f 0 f.minExponent / 4) * 2 ^ f.minExponent ≤ 0 :=
        mul_nonpos_of_nonpos_of_nonneg (by push_cast; linarith) hunit.le
      exact hneg.trans (ratio_pos hn hd).le
    · rw [Nat.cast_zero, zero_add]
      exact h

/-- A ratio from the first power of two behind the format on overflows. -/
theorem nearest_of_huge (f : Format) (s : Bool) {n d : ℕ} (hd : 0 < d)
    (h : (2 : ℚ) ^ (f.maxExponent + f.precision) ≤ n / d) : nearest f s n d = infinity s := by
  have hn : 0 < n := by
    by_contra hle
    have hpos : (0 : ℚ) < 2 ^ (f.maxExponent + f.precision) := by positivity
    rw [Nat.eq_zero_of_not_pos hle, Nat.cast_zero, zero_div] at h
    exact absurd h (not_le.2 hpos)
  have hlog : f.maxExponent + f.precision < floorLog2 n d + 1 :=
    lt_of_zpow_lt (h.trans_lt (floorLog2_spec hn hd).2)
  generalize he : exponentOf f n d = e
  have hmax : f.maxExponent < e := by
    unfold exponentOf at he
    omega
  have hnext : f.maxExponent < e + 1 := by omega
  rw [nearest_eq s hn hd he ((roundDiv_scaled_eq_iff hd).1 rfl), if_pos hnext, if_pos hmax, ite_self]

/-! ## Changing the format -/

/-- The ratio that a number is rounded as. -/
theorem ratio_of_finite (m : ℕ) (e : ℤ) :
    (((m * 2 ^ e.toNat : ℕ) : ℚ) / ((2 ^ (-e).toNat : ℕ) : ℚ)) = m * 2 ^ e := by
  rw [zpow_eq_div 2 e]
  push_cast
  rw [mul_div_assoc]

/-- A number of the format is rounded to its form that is kept. -/
theorem round_eq {f : Format} (hf : 0 < f.precision) (s : Bool) {m n : ℕ} {e x : ℤ}
    (hcanonical : Canonical f n x) (h : (m : ℚ) * 2 ^ e = n * 2 ^ x) :
    round f (finite s m e) = finite s n x := by
  have hround : round f (finite s m e) = nearest f s (m * 2 ^ e.toNat) (2 ^ (-e).toNat) := rfl
  have hunit (k : ℤ) : (2 : ℚ) ^ k ≠ 0 := by positivity
  rw [hround]
  rcases Nat.eq_zero_or_pos m with rfl | hm
  · have hn : n = 0 := by
      rw [Nat.cast_zero, zero_mul] at h
      exact_mod_cast (mul_eq_zero.1 h.symm).resolve_right (hunit x)
    have hpos : (0 : ℕ) < 2 ^ (f.precision - 1) := Nat.two_pow_pos _
    have hx : x = f.minExponent := hcanonical.normal.resolve_left (by omega)
    rw [Nat.zero_mul, nearest_zero, hn, hx]
  · refine nearest_of_roundsTo s hf hcanonical (Nat.mul_pos hm (Nat.two_pow_pos _))
      (Nat.two_pow_pos _) ?_
    rw [ratio_of_finite, h]
    exact roundsTo_self f n x

/-- A single is the same number as a double. -/
theorem compare?_widen (y : Binary) {z : Binary} (hz : IsOf .single z) :
    y.compare? z.widen = y.compare? z := by
  cases z with
  | nan => rfl
  | infinity t => rfl
  | finite t n x =>
    have hsingle : Canonical .single n x := hz
    have hm : n < 2 ^ Format.double.precision :=
      lt_of_lt_of_le hsingle.significand (Nat.pow_le_pow_right (by omega) (by decide))
    have hlow : Format.double.minExponent ≤ x := le_trans (by decide) hsingle.low
    have hhigh : x ≤ Format.double.maxExponent := le_trans hsingle.high (by decide)
    obtain ⟨n', x', hcanonical, hvalue⟩ := exists_canonical hm hlow hhigh
    have hwiden : (finite t n x).widen = finite t n' x' := round_eq (by decide) t hcanonical hvalue.symm
    have hsame : (finite t n' x').value = (finite t n x).value := by
      rw [value, value, hvalue]
    rw [hwiden]
    cases y with
    | nan => rfl
    | infinity s => rfl
    | finite s m e => rw [compare?_finite, compare?_finite, hsame]

/-- A double equals a single just if it equals the single nearest to it. -/
theorem exists_single_iff {y : Binary} (hy : IsOf .double y) :
    (∃ z, IsOf .single z ∧ y.compare? z = some .eq) ↔ y.compare? (y.round .single).widen = some .eq := by
  have hround : IsOf .single (y.round .single) := by
    cases y with
    | nan => cases hy
    | infinity s => trivial
    | finite s m e => exact nearest_isOf (by decide) (by decide) s (Nat.two_pow_pos _)
  constructor
  · rintro ⟨z, hz, heq⟩
    cases y with
    | nan => cases heq
    | infinity s => cases s <;> rfl
    | finite s m e =>
      cases z with
      | nan => cases heq
      | infinity t => cases t <;> cases heq
      | finite t n x =>
        rw [compare?_finite_eq_iff] at heq
        rcases Nat.eq_zero_or_pos m with rfl | hm
        · have hcanonical : Canonical .single 0 Format.single.minExponent :=
            ⟨by decide, le_rfl, by decide, .inr rfl⟩
          have hzero : round .single (finite s 0 e) = finite s 0 Format.single.minExponent :=
            round_eq (by decide) s hcanonical (by rw [Nat.cast_zero, zero_mul, zero_mul])
          rw [compare?_widen _ hround, hzero]
          exact compare?_zero s s _ _
        · have hpos : (0 : ℚ) < m * 2 ^ e := mul_pos (by exact_mod_cast hm) (by positivity)
          obtain ⟨-, hvalue⟩ := withSign_eq hpos (by positivity) heq
          have hsingle : round .single (finite s m e) = finite s n x := round_eq (by decide) s hz hvalue
          have hback : (finite s n x).widen = finite s m e := round_eq (by decide) s hy hvalue.symm
          rw [hsingle, hback]
          exact compare?_self (by simp)
  · intro heq
    rw [compare?_widen y hround] at heq
    exact ⟨_, hround, heq⟩

end RecordQuery.Binary
