import RecordQuery.Number.Binary.Reader
import RecordQuery.Proofs.Number.Nearest

/-!
# Overflow and the errors of products

A ratio overflows a format from the middle between the greatest number and the next power of two on. Below it,
and from one on, the double that a ratio is rounded to is the ratio times a factor between `leastFactor` and
`greatestFactor`, which are `2 ^ -53` below and above one. `Reaches s q x` says that `x` has the sign `s` and
lies at `q` or beyond, perhaps at the infinity, and `Within s q x` that it is a finite number of that sign and
not beyond `q`:

    nearest f s n d = infinity s  ↔  f.overflow ≤ n / d                           (nearest_eq_infinity_iff)
    round f x = infinity s        ↔  Reaches s f.overflow x                         (round_eq_infinity_iff)
    Reaches s (m · 2 ^ e) (nearest double s n d)  ↔  lower end of m · 2 ^ e ≤ n / d, for an even m
                                                                                     (nearest_reaches_iff)
    Reaches s p x → Reaches t q y → 1 ≤ p * q → Reaches (s != t) (p * q * leastFactor) (mul double x y)
                                                                                             (mul_reaches)
    powDouble a b n reaches a * (b * leastFactor) ^ n                                  (powDouble_reaches)
    powDouble a b n lies within a * (b * greatestFactor) ^ n, unless that overflows     (powDouble_within)
-/

namespace RecordQuery.Binary

variable {f : Format} {n d m : ℕ} {e : ℤ} {s t : Bool} {p q : ℚ} {x y : Binary}

/-! ## Overflow -/

/-- The middle between the greatest number of a format and the power of two behind it. -/
def Format.overflow (f : Format) : ℚ := 2 ^ (f.maxExponent + f.precision) - 2 ^ (f.maxExponent - 1)

theorem overflow_eq (f : Format) :
    f.overflow = (((2 ^ f.precision : ℕ) : ℚ) - 1 / 2) * 2 ^ f.maxExponent := by
  rw [Format.overflow, two_zpow_pred, zpow_add₀ (by norm_num), zpow_natCast]
  push_cast
  ring

theorem overflow_pos (f : Format) : 0 < f.overflow := by
  have hone : (1 : ℚ) ≤ ((2 ^ f.precision : ℕ) : ℚ) := by exact_mod_cast Nat.one_le_two_pow
  rw [overflow_eq]
  exact mul_pos (by linarith) (by positivity)

/-- The last power of two of a format does not overflow. -/
theorem le_overflow (hf : 0 < f.precision) : (2 : ℚ) ^ (f.maxExponent + (f.precision - 1)) ≤ f.overflow := by
  have hone : (1 : ℚ) ≤ ((2 ^ (f.precision - 1) : ℕ) : ℚ) := by exact_mod_cast Nat.one_le_two_pow
  rw [overflow_eq, two_pow_precision_cast hf, ← leading_mul hf]
  exact mul_le_mul_of_nonneg_right (by linarith) (by positivity)

theorem overflow_lt (f : Format) : f.overflow < 2 ^ (f.maxExponent + f.precision) :=
  sub_lt_self _ (by positivity)

theorem nearest_cases (f : Format) (s : Bool) (n d : ℕ) :
    nearest f s n d = infinity s ∨ ∃ m e, nearest f s n d = finite s m e := by
  unfold nearest
  split
  · exact .inr ⟨_, _, rfl⟩
  · simp only
    split <;> split
    · exact .inl rfl
    · exact .inr ⟨_, _, rfl⟩
    · exact .inl rfl
    · exact .inr ⟨_, _, rfl⟩

/-- A ratio of the greatest exponent is rounded to the power of two behind the format just if it lies in the
middle before it or beyond. -/
theorem eq_two_pow_iff (hf : 0 < f.precision) (hnear : NearestTo m (q / 2 ^ e))
    (hlt : q < ((2 ^ f.precision : ℕ) : ℚ) * 2 ^ e) :
    m = 2 ^ f.precision ↔ (((2 ^ f.precision : ℕ) : ℚ) - 1 / 2) * 2 ^ e ≤ q := by
  have hunit : (0 : ℚ) < 2 ^ e := by positivity
  have hle : m ≤ 2 ^ f.precision := hnear.le_of_lt ((div_lt_iff₀ hunit).2 hlt)
  constructor
  · rintro rfl
    exact (le_div_iff₀ hunit).1 hnear.lower
  · intro hmiddle
    by_contra hne
    have hquotient := (le_div_iff₀ hunit).2 hmiddle
    have hroom : (m : ℚ) + 1 ≤ ((2 ^ f.precision : ℕ) : ℚ) := by
      exact_mod_cast Nat.lt_of_le_of_ne hle hne
    have hupper := hnear.upper
    -- only the middle itself is left, and from there the odd number before the power is not chosen
    have heq : (m : ℚ) + 1 = ((2 ^ f.precision : ℕ) : ℚ) := by linarith
    have hsucc : m + 1 = 2 ^ f.precision := by exact_mod_cast heq
    have htwo := two_pow_precision hf
    have hstrict := (hnear.tie.resolve_left (by omega)).2
    linarith

/-- A ratio overflows from the middle behind the greatest number on. -/
theorem nearest_eq_infinity_iff (hf : 0 < f.precision) (hrange : f.minExponent ≤ f.maxExponent) (s : Bool)
    (hd : 0 < d) : nearest f s n d = infinity s ↔ f.overflow ≤ n / d := by
  rcases Nat.eq_zero_or_pos n with rfl | hn
  · rw [nearest_zero, Nat.cast_zero, zero_div]
    constructor
    · intro h
      cases h
    · intro h
      exact absurd (overflow_pos f) (not_lt.2 h)
  generalize he : exponentOf f n d = e
  generalize hm : roundDiv (n * 2 ^ (-e).toNat) (d * 2 ^ e.toNat) = m
  have hnear : NearestTo m (n / d / 2 ^ e) := (roundDiv_scaled_eq_iff hd).1 hm
  have hlt := lt_of_exponentOf hf hn hd he
  have htwo := two_pow_precision_cast hf
  have hone : (1 : ℚ) ≤ ((2 ^ (f.precision - 1) : ℕ) : ℚ) := by exact_mod_cast Nat.one_le_two_pow
  rw [nearest_eq s hn hd he hnear, overflow_eq]
  rcases lt_trichotomy e f.maxExponent with hlow | rfl | hhigh
  · -- even with a carry there is room for the exponent
    have hsmall : (n : ℚ) / d < (((2 ^ f.precision : ℕ) : ℚ) - 1 / 2) * 2 ^ f.maxExponent := by
      calc (n : ℚ) / d < ((2 ^ f.precision : ℕ) : ℚ) * 2 ^ e := hlt
        _ = ((2 ^ (f.precision - 1) : ℕ) : ℚ) * 2 ^ (e + 1) := by
          rw [htwo, two_zpow_succ]
          ring
        _ ≤ ((2 ^ (f.precision - 1) : ℕ) : ℚ) * 2 ^ f.maxExponent :=
          mul_le_mul_of_nonneg_left (zpow_le_zpow_right₀ (by norm_num) (by omega)) (by positivity)
        _ ≤ (((2 ^ f.precision : ℕ) : ℚ) - 1 / 2) * 2 ^ f.maxExponent :=
          mul_le_mul_of_nonneg_right (by linarith) (by positivity)
    rw [if_neg (show ¬ f.maxExponent < e + 1 by omega), if_neg (show ¬ f.maxExponent < e by omega)]
    constructor
    · intro h
      split at h <;> cases h
    · intro h
      exact absurd hsmall (not_lt.2 h)
  · rw [← eq_two_pow_iff hf hnear hlt, if_pos (show f.maxExponent < f.maxExponent + 1 by omega),
      if_neg (lt_irrefl f.maxExponent)]
    constructor
    · intro h
      by_contra hne
      rw [if_neg hne] at h
      cases h
    · intro h
      exact if_pos h
  · -- the ratio has all bits at an exponent that the format does not have
    have hlarge : (((2 ^ f.precision : ℕ) : ℚ) - 1 / 2) * 2 ^ f.maxExponent ≤ n / d := by
      calc (((2 ^ f.precision : ℕ) : ℚ) - 1 / 2) * 2 ^ f.maxExponent
          ≤ ((2 ^ f.precision : ℕ) : ℚ) * 2 ^ f.maxExponent :=
            mul_le_mul_of_nonneg_right (by linarith) (by positivity)
        _ = ((2 ^ (f.precision - 1) : ℕ) : ℚ) * 2 ^ (f.maxExponent + 1) := by
          rw [htwo, two_zpow_succ]
          ring
        _ ≤ ((2 ^ (f.precision - 1) : ℕ) : ℚ) * 2 ^ e :=
          mul_le_mul_of_nonneg_left (zpow_le_zpow_right₀ (by norm_num) (by omega)) (by positivity)
        _ ≤ n / d := le_of_exponentOf hf hn hd he (by omega)
    rw [if_pos (show f.maxExponent < e + 1 by omega), if_pos hhigh, ite_self]
    exact ⟨fun _ => hlarge, fun _ => rfl⟩

theorem Canonical.lt_overflow (h : Canonical f m e) : (m : ℚ) * 2 ^ e < f.overflow := by
  have hm : (m : ℚ) + 1 ≤ ((2 ^ f.precision : ℕ) : ℚ) := by exact_mod_cast h.significand
  have hpow : (2 : ℚ) ^ e ≤ 2 ^ f.maxExponent := zpow_le_zpow_right₀ (by norm_num) h.high
  rw [overflow_eq]
  calc (m : ℚ) * 2 ^ e ≤ m * 2 ^ f.maxExponent := mul_le_mul_of_nonneg_left hpow m.cast_nonneg
    _ < (((2 ^ f.precision : ℕ) : ℚ) - 1 / 2) * 2 ^ f.maxExponent :=
      mul_lt_mul_of_pos_right (by linarith) (by positivity)

/-! ## Numbers beyond and within a bound -/

/-- The number has the sign `s`, and is infinite or has a magnitude of at least `q`. -/
inductive Reaches (s : Bool) (q : ℚ) : Binary → Prop
  | ofInfinity : Reaches s q (infinity s)
  | ofFinite {m : ℕ} {e : ℤ} (h : q ≤ m * 2 ^ e) : Reaches s q (finite s m e)

/-- The number has the sign `s`, is finite and has a magnitude of at most `q`. -/
inductive Within (s : Bool) (q : ℚ) : Binary → Prop
  | ofFinite {m : ℕ} {e : ℤ} (h : m * 2 ^ e ≤ q) : Within s q (finite s m e)

theorem Reaches.mono (h : Reaches s q x) (hle : p ≤ q) : Reaches s p x := by
  cases h with
  | ofInfinity => exact .ofInfinity
  | ofFinite h => exact .ofFinite (hle.trans h)

theorem Within.not_reaches (h : Within s p x) (hlt : p < q) : ¬ Reaches s q x := by
  intro hreaches
  cases h with
  | ofFinite h =>
    cases hreaches with
    | ofFinite h' => exact absurd (h'.trans h) (not_le.2 hlt)

theorem nearest_signed (f : Format) (s : Bool) (n d : ℕ) : Reaches s 0 (nearest f s n d) := by
  rcases nearest_cases f s n d with hinfinity | ⟨m, e, hfinite⟩
  · rw [hinfinity]
    exact .ofInfinity
  · rw [hfinite]
    exact .ofFinite (by positivity)

/-- Rounding to a format keeps the sign. -/
theorem Reaches.round_signed (f : Format) (h : Reaches s q x) : Reaches s 0 (round f x) := by
  cases h with
  | ofInfinity => exact .ofInfinity
  | ofFinite h => exact nearest_signed f s _ _

theorem Reaches.round_isOf (hf : 0 < f.precision) (hrange : f.minExponent ≤ f.maxExponent) (h : Reaches s q x) :
    IsOf f (round f x) := by
  cases h with
  | ofInfinity => trivial
  | ofFinite h => exact nearest_isOf hf hrange s (Nat.two_pow_pos _)

/-- A number of a format that is not less than where the format overflows is an infinity. -/
theorem IsOf.eq_infinity (hx : IsOf f x) (h : Reaches s f.overflow x) : x = infinity s := by
  cases h with
  | ofInfinity => rfl
  | @ofFinite m e hle =>
    have hcanonical : Canonical f m e := hx
    exact absurd hcanonical.lt_overflow (not_lt.2 hle)

/-- A number overflows a format from the same bound on as a ratio. -/
theorem round_eq_infinity_iff (hf : 0 < f.precision) (hrange : f.minExponent ≤ f.maxExponent) :
    round f x = infinity s ↔ Reaches s f.overflow x := by
  cases x with
  | nan =>
    constructor
    · intro h
      cases h
    · intro h
      cases h
  | infinity t =>
    constructor
    · intro h
      cases h
      exact .ofInfinity
    · intro h
      cases h
      rfl
  | finite t m e =>
    have hround : round f (finite t m e) = nearest f t (m * 2 ^ e.toNat) (2 ^ (-e).toNat) := rfl
    have hiff := nearest_eq_infinity_iff (n := m * 2 ^ e.toNat) hf hrange t (Nat.two_pow_pos (-e).toNat)
    rw [ratio_of_finite] at hiff
    rw [hround]
    constructor
    · intro h
      have hsign : t = s := by
        rcases nearest_cases f t (m * 2 ^ e.toNat) (2 ^ (-e).toNat) with hinfinity | ⟨n, x, hfinite⟩
        · rw [hinfinity] at h
          cases h
          rfl
        · rw [hfinite] at h
          cases h
      subst hsign
      exact .ofFinite (hiff.1 h)
    · intro h
      cases h with
      | ofFinite h => exact hiff.2 h

/-! ## One rounding -/

/-- The least factor that the rounding to a double multiplies with, from one on. -/
def leastFactor : ℚ := 1 - 1 / 2 ^ 53

/-- The greatest factor that the rounding to a double multiplies with, from one on. -/
def greatestFactor : ℚ := 1 + 1 / 2 ^ 53

theorem leastFactor_pos : 0 < leastFactor := by norm_num [leastFactor]

theorem leastFactor_le : leastFactor ≤ 1 := by norm_num [leastFactor]

theorem one_le_two_mul_leastFactor : 1 ≤ 2 * leastFactor := by norm_num [leastFactor]

theorem one_le_greatestFactor : 1 ≤ greatestFactor := by norm_num [greatestFactor]

theorem leastFactor_mul_greatestFactor_le : leastFactor * greatestFactor ≤ 1 := by
  norm_num [leastFactor, greatestFactor]

/-- From one on, the unit of the last place of a double is a small part of the number. -/
theorem half_unit_le (hn : 0 < n) (hd : 0 < d) (he : exponentOf .double n d = e) (hp : 1 ≤ p)
    (hle : (n : ℚ) / d ≤ p) : (2 : ℚ) ^ e / 2 ≤ p / 2 ^ 53 := by
  rcases Int.lt_or_le (-1074) e with hnormal | hleast
  · have hlead := le_of_exponentOf (f := .double) (by decide) hn hd he hnormal
    have hcast : ((2 ^ (Format.double.precision - 1) : ℕ) : ℚ) = 2 ^ 52 := by norm_num [Format.double]
    rw [hcast] at hlead
    linarith
  · have hpow : (2 : ℚ) ^ e ≤ 2 ^ (-53 : ℤ) := zpow_le_zpow_right₀ (by norm_num) (by omega)
    have hunit : (2 : ℚ) ^ (-53 : ℤ) = 1 / 2 ^ 53 := by norm_num
    rw [hunit] at hpow
    linarith

/-- A double differs from the ratio that is rounded by half a unit of the last place at most. -/
theorem nearest_error (s : Bool) (hd : 0 < d) (hp : 1 ≤ p) (hle : (n : ℚ) / d ≤ p) :
    nearest .double s n d = infinity s ∨ ∃ m e, nearest .double s n d = finite s m e ∧
      (n : ℚ) / d - p / 2 ^ 53 ≤ m * 2 ^ e ∧ m * 2 ^ e ≤ (n : ℚ) / d + p / 2 ^ 53 := by
  have hpos : 0 ≤ p / 2 ^ 53 := by positivity
  rcases Nat.eq_zero_or_pos n with rfl | hn
  · refine .inr ⟨0, _, nearest_zero .double s d, ?_, ?_⟩ <;>
      rw [Nat.cast_zero, zero_div, zero_mul] <;> linarith
  generalize he : exponentOf .double n d = e
  generalize hm : roundDiv (n * 2 ^ (-e).toNat) (d * 2 ^ e.toNat) = m
  have hnear : NearestTo m (n / d / 2 ^ e) := (roundDiv_scaled_eq_iff hd).1 hm
  have hunit : (0 : ℚ) < 2 ^ e := by positivity
  have hhalf := half_unit_le hn hd he hp hle
  have hlower := (le_div_iff₀ hunit).1 hnear.lower
  have hupper := (div_le_iff₀ hunit).1 hnear.upper
  have hbounds : (n : ℚ) / d - p / 2 ^ 53 ≤ m * 2 ^ e ∧ m * 2 ^ e ≤ (n : ℚ) / d + p / 2 ^ 53 := by
    constructor <;> linarith
  rw [nearest_eq s hn hd he hnear]
  by_cases hcarry : m = 2 ^ Format.double.precision
  · rw [if_pos hcarry]
    split
    · exact .inl rfl
    · have hvalue : ((m / 2 : ℕ) : ℚ) * 2 ^ (e + 1) = m * 2 ^ e := by
        rw [hcarry, two_zpow_succ]
        norm_num [Format.double]
        ring
      rw [← hvalue] at hbounds
      exact .inr ⟨_, _, rfl, hbounds⟩
  · rw [if_neg hcarry]
    split
    · exact .inl rfl
    · exact .inr ⟨_, _, rfl, hbounds⟩

theorem nearest_reaches (s : Bool) (hd : 0 < d) (h : 1 ≤ (n : ℚ) / d) :
    Reaches s (n / d * leastFactor) (nearest .double s n d) := by
  rcases nearest_error s hd h le_rfl with hinfinity | ⟨m, e, hfinite, hlower, -⟩
  · rw [hinfinity]
    exact .ofInfinity
  · rw [hfinite]
    refine .ofFinite (le_trans (le_of_eq ?_) hlower)
    rw [leastFactor]
    ring

theorem nearest_within (s : Bool) (hd : 0 < d) (hp : 1 ≤ p) (hle : (n : ℚ) / d ≤ p)
    (h : (n : ℚ) / d < Format.double.overflow) :
    Within s (p * greatestFactor) (nearest .double s n d) := by
  rcases nearest_error s hd hp hle with hinfinity | ⟨m, e, hfinite, -, hupper⟩
  · rw [nearest_eq_infinity_iff (by decide) (by decide) s hd] at hinfinity
    exact absurd h (not_lt.2 hinfinity)
  · rw [hfinite]
    refine ⟨hupper.trans ?_⟩
    rw [greatestFactor]
    linarith

/-- The nearest double reaches a double with an even significand from the middle before it on. -/
theorem nearest_reaches_iff (s : Bool) (hd : 0 < d) (hm : Canonical .double m e) (heven : m % 2 = 0)
    (hpos : 0 < m)
    (hroom : 2 * ((m : ℚ) * 2 ^ e) ≤ 2 ^ (Format.double.maxExponent + (Format.double.precision - 1))) :
    Reaches s (m * 2 ^ e) (nearest .double s n d) ↔
      ((m : ℚ) - lowerGap .double m e / 4) * 2 ^ e ≤ n / d := by
  have hunit : (0 : ℚ) < 2 ^ e := by positivity
  have hgap := lowerGap_bounds .double m e
  have hone : (1 : ℚ) ≤ m := by exact_mod_cast hpos
  have hstart : (0 : ℚ) < ((m : ℚ) - lowerGap .double m e / 4) * 2 ^ e := mul_pos (by linarith) hunit
  have hend : ((m : ℚ) - lowerGap .double m e / 4) * 2 ^ e ≤ m * 2 ^ e :=
    mul_le_mul_of_nonneg_right (by linarith) hunit.le
  rcases lt_or_ge ((n : ℚ) / d) (2 ^ (Format.double.maxExponent + (Format.double.precision - 1))) with hlt | hge
  · rcases Nat.eq_zero_or_pos n with rfl | hn
    · rw [nearest_zero, Nat.cast_zero, zero_div]
      constructor
      · intro h
        cases h with
        | ofFinite h =>
          rw [Nat.cast_zero, zero_mul] at h
          exact absurd (hstart.trans_le hend) (not_lt.2 h)
      · intro h
        exact absurd hstart (not_lt.2 h)
    obtain ⟨k, x, hround, hk, hrounds⟩ :=
      exists_nearest_eq (f := .double) (by decide) (by decide) s hn hd hlt
    have hmiddle : RoundsTo .double m e (((m : ℚ) - lowerGap .double m e / 4) * 2 ^ e) :=
      ⟨le_rfl, hend.trans (mul_le_mul_of_nonneg_right (by linarith) hunit.le), .inl heven⟩
    rw [hround]
    constructor
    · intro h
      cases h with
      | ofFinite h =>
        by_contra hbelow
        have hle := hrounds.le_of_le (by decide) hk hm hmiddle (ratio_pos hn hd).le (not_le.1 hbelow).le
        have hself := roundsTo_self .double m e
        rw [← le_antisymm hle h] at hself
        obtain ⟨rfl, rfl⟩ := RoundsTo.unique (by decide) hk hm (roundsTo_self _ k x) hself
          (mul_nonneg k.cast_nonneg (zpow_nonneg (by norm_num) x))
        exact hbelow hrounds.lower
    · intro h
      exact .ofFinite (hmiddle.le_of_le (by decide) hm hk hrounds hstart.le h)
  · have hhuge : (1 : ℚ) ≤ 2 ^ (Format.double.maxExponent + (Format.double.precision - 1)) :=
      one_le_zpow₀ (by norm_num) (by decide)
    have hreaches := nearest_reaches s hd (hhuge.trans hge)
    have hhalf := one_le_two_mul_leastFactor
    generalize (2 : ℚ) ^ (Format.double.maxExponent + (Format.double.precision - 1)) = huge at hroom hge hhuge
    have hdouble : 2 * ((m : ℚ) * 2 ^ e) ≤ n / d := hroom.trans hge
    constructor
    · intro _
      linarith
    · intro _
      refine hreaches.mono ?_
      nlinarith

/-! ## Products -/

theorem ratio_of_product (m n : ℕ) (e x : ℤ) :
    (((m * n * 2 ^ (e + x).toNat : ℕ) : ℚ) / ((2 ^ (-(e + x)).toNat : ℕ) : ℚ)) =
      m * 2 ^ e * (n * 2 ^ x) := by
  rw [ratio_of_finite (m * n), zpow_add₀ (by norm_num)]
  push_cast
  ring

/-- The product of two numbers that are not zero is an infinity, or the rounded product of finite numbers. -/
theorem mul_cases (hx : Reaches s p x) (hy : Reaches t q y) (hp : 0 < p) (hq : 0 < q) :
    mul f x y = infinity (s != t) ∨
      ∃ n d : ℕ, 0 < d ∧ p * q ≤ (n : ℚ) / d ∧ mul f x y = nearest f (s != t) n d := by
  have hne {m : ℕ} {e : ℤ} {r : ℚ} (hr : 0 < r) (h : r ≤ m * 2 ^ e) : m ≠ 0 := by
    rintro rfl
    rw [Nat.cast_zero, zero_mul] at h
    linarith
  cases hx with
  | ofInfinity =>
    cases hy with
    | ofInfinity => exact .inl rfl
    | ofFinite hy => exact .inl (if_neg (hne hq hy))
  | @ofFinite m e hx =>
    cases hy with
    | ofInfinity =>
      left
      rw [bne_comm]
      exact if_neg (hne hp hx)
    | @ofFinite n z hy =>
      refine .inr ⟨_, _, Nat.two_pow_pos _, ?_, rfl⟩
      rw [ratio_of_product]
      exact mul_le_mul hx hy hq.le (hp.le.trans hx)

theorem mul_reaches (hx : Reaches s p x) (hy : Reaches t q y) (hp : 0 < p) (hq : 0 < q) (hpq : 1 ≤ p * q) :
    Reaches (s != t) (p * q * leastFactor) (mul .double x y) := by
  rcases mul_cases (f := .double) hx hy hp hq with hinfinity | ⟨n, d, hd, hle, hround⟩
  · rw [hinfinity]
    exact .ofInfinity
  · rw [hround]
    exact (nearest_reaches _ hd (hpq.trans hle)).mono (mul_le_mul_of_nonneg_right hle leastFactor_pos.le)

theorem mul_signed (hx : Reaches s p x) (hy : Reaches t q y) (hp : 0 < p) (hq : 0 < q) :
    Reaches (s != t) 0 (mul f x y) := by
  rcases mul_cases (f := f) hx hy hp hq with hinfinity | ⟨n, d, -, -, hround⟩
  · rw [hinfinity]
    exact .ofInfinity
  · rw [hround]
    exact nearest_signed f _ n d

theorem mul_isOf (hx : Reaches s p x) (hy : Reaches t q y) (hp : 0 < p) (hq : 0 < q) :
    IsOf .double (mul .double x y) := by
  rcases mul_cases (f := .double) hx hy hp hq with hinfinity | ⟨n, d, hd, -, hround⟩
  · rw [hinfinity]
    trivial
  · rw [hround]
    exact nearest_isOf (by decide) (by decide) _ hd

theorem mul_within (hx : Within s p x) (hy : Within t q y) (hpq : 1 ≤ p * q)
    (h : p * q < Format.double.overflow) :
    Within (s != t) (p * q * greatestFactor) (mul .double x y) := by
  obtain @⟨m, e, hx⟩ := hx
  obtain @⟨n, z, hy⟩ := hy
  have hratio := ratio_of_product m n e z
  have hle : (m : ℚ) * 2 ^ e * (n * 2 ^ z) ≤ p * q :=
    mul_le_mul hx hy (by positivity) (le_trans (by positivity) hx)
  have hmul : mul .double (finite s m e) (finite t n z) =
      nearest .double (s != t) (m * n * 2 ^ (e + z).toNat) (2 ^ (-(e + z)).toNat) := rfl
  rw [hmul]
  refine nearest_within _ (Nat.two_pow_pos _) hpq ?_ ?_
  · rw [hratio]
    exact hle
  · rw [hratio]
    exact hle.trans_lt h

/-! ## Powers -/

/-- The two halves of a power, and a factor that is left over. -/
theorem pow_halves (a c : ℚ) (n : ℕ) :
    (if n % 2 = 1 then a * c else a) * (c * c) ^ (n / 2) = a * c ^ n := by
  have hsplit : c ^ n = (c * c) ^ (n / 2) * c ^ (n % 2) := by
    rw [← pow_two, ← pow_mul, ← pow_add, Nat.div_add_mod]
  rcases Nat.mod_two_eq_zero_or_one n with heven | hodd
  · rw [if_neg (by omega), hsplit, heven, pow_zero, mul_one]
  · rw [if_pos hodd, hsplit, hodd, pow_one]
    ring

/-- The step of repeated squaring. -/
theorem powDouble_eq (acc base : Binary) (n : ℕ) :
    powDouble acc base n =
      if n / 2 = 0 then if n % 2 = 1 then mul .double acc base else acc
      else powDouble (if n % 2 = 1 then mul .double acc base else acc) (mul .double base base) (n / 2) := by
  rw [powDouble]
  rfl

theorem powDouble_reaches {a b : ℚ} {acc base : Binary} {n : ℕ} (ha : 1 ≤ a) (hb : 2 ≤ b)
    (hacc : Reaches false a acc) (hbase : Reaches false b base) :
    Reaches false (a * (b * leastFactor) ^ n) (powDouble acc base n) := by
  -- on the exponent, which loses its last bit; each bit rounds the base, and if it is set the result so far
  induction n using Nat.strongRecOn generalizing acc base a b with
  | ind n ih =>
    have hgrows : 1 ≤ b * leastFactor :=
      one_le_two_mul_leastFactor.trans (mul_le_mul_of_nonneg_right hb leastFactor_pos.le)
    have hacc' : Reaches false (if n % 2 = 1 then a * (b * leastFactor) else a)
        (if n % 2 = 1 then mul .double acc base else acc) := by
      split
      · rw [← mul_assoc]
        exact mul_reaches hacc hbase (by linarith) (by linarith) (by nlinarith)
      · exact hacc
    rw [powDouble_eq, ← pow_halves]
    by_cases hlast : n / 2 = 0
    · rw [if_pos hlast, hlast, pow_zero, mul_one]
      exact hacc'
    · have hbase' : Reaches false (b * b * leastFactor) (mul .double base base) :=
        mul_reaches hbase hbase (by linarith) (by linarith) (by nlinarith)
      have ha' : 1 ≤ if n % 2 = 1 then a * (b * leastFactor) else a := by
        split
        · nlinarith
        · exact ha
      have hsquare : b * leastFactor * (b * leastFactor) = b * b * leastFactor * leastFactor := by ring
      rw [if_neg hlast, hsquare]
      exact ih (n / 2) (by omega) ha' (by nlinarith) hacc' hbase'

theorem powDouble_within {a b : ℚ} {acc base : Binary} {n : ℕ} (ha : 1 ≤ a) (hb : 1 ≤ b)
    (hacc : Within false a acc) (hbase : Within false b base)
    (h : a * (b * greatestFactor) ^ n < Format.double.overflow) :
    Within false (a * (b * greatestFactor) ^ n) (powDouble acc base n) := by
  -- on the exponent as above; no product on the way is greater than the last one
  induction n using Nat.strongRecOn generalizing acc base a b with
  | ind n ih =>
    have hfactor := one_le_greatestFactor
    have hle : b ≤ b * greatestFactor := le_mul_of_one_le_right (by linarith) hfactor
    have hgrows : 1 ≤ b * greatestFactor := hb.trans hle
    have hacc' : Within false (if n % 2 = 1 then a * (b * greatestFactor) else a)
        (if n % 2 = 1 then mul .double acc base else acc) := by
      split
      · next hodd =>
        rw [← mul_assoc]
        refine mul_within hacc hbase (by nlinarith) (lt_of_le_of_lt ?_ h)
        have hpow : b * greatestFactor ≤ (b * greatestFactor) ^ n := le_self_pow₀ hgrows (by omega)
        exact mul_le_mul_of_nonneg_left (hle.trans hpow) (by linarith)
      · exact hacc
    rw [powDouble_eq]
    by_cases hlast : n / 2 = 0
    · rw [if_pos hlast, ← pow_halves, hlast, pow_zero, mul_one]
      exact hacc'
    · have hbase' : Within false (b * b * greatestFactor) (mul .double base base) := by
        refine mul_within hbase hbase (by nlinarith) (lt_of_le_of_lt ?_ h)
        calc b * b ≤ b * greatestFactor * (b * greatestFactor) :=
              mul_le_mul hle hle (by linarith) (by linarith)
          _ = (b * greatestFactor) ^ 2 := by ring
          _ ≤ (b * greatestFactor) ^ n := pow_le_pow_right₀ hgrows (by omega)
          _ ≤ a * (b * greatestFactor) ^ n := le_mul_of_one_le_left (by positivity) ha
      have ha' : 1 ≤ if n % 2 = 1 then a * (b * greatestFactor) else a := by
        split
        · nlinarith
        · exact ha
      have hsquare : b * greatestFactor * (b * greatestFactor) = b * b * greatestFactor * greatestFactor := by
        ring
      rw [← pow_halves, hsquare] at h ⊢
      rw [if_neg hlast]
      exact ih (n / 2) (by omega) ha' (by nlinarith) hacc' hbase' h

end RecordQuery.Binary
