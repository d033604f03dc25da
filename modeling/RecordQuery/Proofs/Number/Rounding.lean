import RecordQuery.Proofs.Number.Values

/-!
# Rounding to a format

`NearestTo k q` says that `k` is the whole number nearest to `q`, and the even one of two that are equally
near. `RoundsTo f m e q` says the same of `m · 2 ^ e` among the numbers of a format. A ratio is rounded to
the number of the format that it rounds to, so only its value matters:

    Canonical f m e → RoundsTo f m e (n / d) → nearest f s n d = finite s m e      (nearest_of_roundsTo)
    n / d = n' / d' → nearest f s n d = nearest f s n' d'                          (nearest_congr)
-/

namespace RecordQuery.Binary

/-! ## Whole numbers -/

/-- The whole number nearest to `q`. In the middle between two it is the even one. -/
structure NearestTo (k : ℕ) (q : ℚ) : Prop where
  lower : (k : ℚ) - 1 / 2 ≤ q
  upper : q ≤ k + 1 / 2
  tie : k % 2 = 0 ∨ ((k : ℚ) - 1 / 2 < q ∧ q < k + 1 / 2)

/-- The same without fractions. -/
theorem nearestTo_iff {n d k : ℕ} (hd : 0 < d) : NearestTo k (n / d) ↔
    2 * (k * d) ≤ 2 * n + d ∧ 2 * n ≤ 2 * (k * d) + d ∧
      (k % 2 = 0 ∨ (2 * (k * d) < 2 * n + d ∧ 2 * n < 2 * (k * d) + d)) := by
  have hd' : (0 : ℚ) < d := by exact_mod_cast hd
  have hlower : (k : ℚ) - 1 / 2 ≤ n / d ↔ 2 * (k * d) ≤ 2 * n + d := by
    rw [le_div_iff₀ hd', ← Nat.cast_le (α := ℚ)]
    push_cast
    constructor <;> intro h <;> linarith
  have hlower' : (k : ℚ) - 1 / 2 < n / d ↔ 2 * (k * d) < 2 * n + d := by
    rw [lt_div_iff₀ hd', ← Nat.cast_lt (α := ℚ)]
    push_cast
    constructor <;> intro h <;> linarith
  have hupper : (n : ℚ) / d ≤ k + 1 / 2 ↔ 2 * n ≤ 2 * (k * d) + d := by
    rw [div_le_iff₀ hd', ← Nat.cast_le (α := ℚ)]
    push_cast
    constructor <;> intro h <;> linarith
  have hupper' : (n : ℚ) / d < k + 1 / 2 ↔ 2 * n < 2 * (k * d) + d := by
    rw [div_lt_iff₀ hd', ← Nat.cast_lt (α := ℚ)]
    push_cast
    constructor <;> intro h <;> linarith
  constructor
  · rintro ⟨hl, hu, ht⟩
    exact ⟨hlower.1 hl, hupper.1 hu, ht.imp id fun h => ⟨hlower'.1 h.1, hupper'.1 h.2⟩⟩
  · rintro ⟨hl, hu, ht⟩
    exact ⟨hlower.2 hl, hupper.2 hu, ht.imp id fun h => ⟨hlower'.2 h.1, hupper'.2 h.2⟩⟩

theorem roundDiv_eq_iff {n d k : ℕ} (hd : 0 < d) : roundDiv n d = k ↔ NearestTo k (n / d) := by
  rw [nearestTo_iff hd]
  have hsplit : n = n / d * d + n % d := by rw [Nat.mul_comm, Nat.div_add_mod]
  have hr : n % d < d := Nat.mod_lt n hd
  unfold roundDiv
  generalize n / d = q at hsplit ⊢
  generalize n % d = r at hsplit hr ⊢
  subst hsplit
  have hsucc : (q + 1) * d = q * d + d := by rw [Nat.add_mul, Nat.one_mul]
  constructor
  · rintro rfl
    simp only
    split
    · exact ⟨by omega, by omega, .inr ⟨by omega, by omega⟩⟩
    · split
      · rw [hsucc]
        exact ⟨by omega, by omega, .inr ⟨by omega, by omega⟩⟩
      · split
        · next heven => exact ⟨by omega, by omega, .inl heven⟩
        · next hodd =>
          rw [hsucc]
          exact ⟨by omega, by omega, .inl (by omega)⟩
  · rintro ⟨hl, hu, ht⟩
    -- a whole number that is so near is the quotient or the one after it
    have hle : q ≤ k := by
      by_contra hlt
      have hmul : (k + 1) * d ≤ q * d := Nat.mul_le_mul_right d (by omega)
      rw [Nat.add_mul, Nat.one_mul] at hmul
      omega
    have hge : k ≤ q + 1 := by
      by_contra hlt
      have hmul : (q + 2) * d ≤ k * d := Nat.mul_le_mul_right d (by omega)
      rw [Nat.add_mul] at hmul
      omega
    simp only
    rcases Nat.lt_or_eq_of_le hle with hlt | rfl
    · have hk : k = q + 1 := by omega
      subst hk
      rw [hsucc] at hl hu ht
      rw [if_neg (by omega)]
      split
      · rfl
      · rw [if_neg (by omega)]
    · split
      · rfl
      · rw [if_neg (by omega)]
        split
        · rfl
        · omega

/-! ## Logarithms -/

theorem ratio_pos {n d : ℕ} (hn : 0 < n) (hd : 0 < d) : (0 : ℚ) < n / d :=
  div_pos (by exact_mod_cast hn) (by exact_mod_cast hd)

/-- A ratio that a power of two is taken out of is a ratio again. -/
theorem ratio_scaled (n d : ℕ) (e : ℤ) :
    (((n * 2 ^ (-e).toNat : ℕ) : ℚ) / ((d * 2 ^ e.toNat : ℕ) : ℚ)) = n / d / 2 ^ e := by
  rw [zpow_eq_div 2 e]
  push_cast
  field_simp

theorem log2_bounds {n : ℕ} (hn : 0 < n) : (2 : ℚ) ^ (n.log2 : ℤ) ≤ n ∧ (n : ℚ) < 2 ^ ((n.log2 : ℤ) + 1) := by
  have hlow : 2 ^ n.log2 ≤ n := Nat.log2_self_le (by omega)
  have hhigh : n < 2 ^ (n.log2 + 1) := Nat.lt_log2_self
  constructor
  · rw [zpow_natCast]
    exact_mod_cast hlow
  · have hcast : ((n.log2 : ℤ) + 1) = ((n.log2 + 1 : ℕ) : ℤ) := by push_cast; rfl
    rw [hcast, zpow_natCast]
    exact_mod_cast hhigh

theorem floorLog2_spec {n d : ℕ} (hn : 0 < n) (hd : 0 < d) :
    (2 : ℚ) ^ floorLog2 n d ≤ n / d ∧ (n : ℚ) / d < 2 ^ (floorLog2 n d + 1) := by
  obtain ⟨hnlow, hnhigh⟩ := log2_bounds hn
  obtain ⟨hdlow, hdhigh⟩ := log2_bounds hd
  have hd' : (0 : ℚ) < d := by exact_mod_cast hd
  generalize hl : (n.log2 : ℤ) - d.log2 = l
  have hfloor : floorLog2 n d = if n * 2 ^ (-l).toNat < d * 2 ^ l.toNat then l - 1 else l := by
    rw [← hl]
    rfl
  -- the test compares the ratio with the power that the difference of the logarithms gives
  have htest : n * 2 ^ (-l).toNat < d * 2 ^ l.toNat ↔ (n : ℚ) / d < 2 ^ l := by
    have hscaled := ratio_scaled n d l
    have hpos : (0 : ℚ) < ((d * 2 ^ l.toNat : ℕ) : ℚ) := by
      push_cast
      positivity
    rw [← Nat.cast_lt (α := ℚ), ← div_lt_one hpos, hscaled, div_lt_one (by positivity)]
  have hbelow : (2 : ℚ) ^ (l - 1) < n / d := by
    rw [lt_div_iff₀ hd']
    calc (2 : ℚ) ^ (l - 1) * d < 2 ^ (l - 1) * 2 ^ ((d.log2 : ℤ) + 1) := by gcongr
      _ = 2 ^ (n.log2 : ℤ) := by
        rw [← zpow_add₀ (by norm_num)]
        congr 1
        omega
      _ ≤ n := hnlow
  have habove : (n : ℚ) / d < 2 ^ (l + 1) := by
    rw [div_lt_iff₀ hd']
    calc (n : ℚ) < 2 ^ ((n.log2 : ℤ) + 1) := hnhigh
      _ = 2 ^ (l + 1) * 2 ^ (d.log2 : ℤ) := by
        rw [← zpow_add₀ (by norm_num)]
        congr 1
        omega
      _ ≤ 2 ^ (l + 1) * d := by gcongr
  rw [hfloor]
  split
  · next h =>
    rw [Int.sub_add_cancel]
    exact ⟨hbelow.le, htest.1 h⟩
  · next h => exact ⟨not_lt.1 fun hlt => h (htest.2 hlt), habove⟩

theorem two_zpow_succ (e : ℤ) : (2 : ℚ) ^ (e + 1) = 2 * 2 ^ e := by
  rw [zpow_add_one₀ (by norm_num), mul_comm]

theorem two_zpow_pred (e : ℤ) : (2 : ℚ) ^ (e - 1) = 2 ^ e / 2 := by
  rw [zpow_sub_one₀ (by norm_num), div_eq_mul_inv]

theorem lt_of_zpow_lt {a b : ℤ} (h : (2 : ℚ) ^ a < 2 ^ b) : a < b :=
  (zpow_lt_zpow_iff_right₀ (by norm_num)).1 h

theorem floorLog2_eq {n d : ℕ} (hn : 0 < n) (hd : 0 < d) {l : ℤ} (hlow : (2 : ℚ) ^ l ≤ n / d)
    (hhigh : (n : ℚ) / d < 2 ^ (l + 1)) : floorLog2 n d = l := by
  obtain ⟨hlow', hhigh'⟩ := floorLog2_spec hn hd
  have hle : l < floorLog2 n d + 1 := lt_of_zpow_lt (hlow.trans_lt hhigh')
  have hge : floorLog2 n d < l + 1 := lt_of_zpow_lt (hlow'.trans_lt hhigh)
  omega

theorem floorLog2_lt {n d : ℕ} (hn : 0 < n) (hd : 0 < d) {l : ℤ} (h : (n : ℚ) / d < 2 ^ l) :
    floorLog2 n d < l :=
  lt_of_zpow_lt ((floorLog2_spec hn hd).1.trans_lt h)

/-! ## Numbers of a format -/

/-- The form in which a number is kept: the exponent is as low as it can be. -/
structure Canonical (f : Format) (m : ℕ) (e : ℤ) : Prop where
  significand : m < 2 ^ f.precision
  low : f.minExponent ≤ e
  high : e ≤ f.maxExponent
  normal : 2 ^ (f.precision - 1) ≤ m ∨ e = f.minExponent

/-- How far below `m · 2 ^ e` the numbers start that round to it, in quarters of `2 ^ e`. Below a power of
two the numbers of the format lie twice as close. -/
def lowerGap (f : Format) (m : ℕ) (e : ℤ) : ℕ :=
  if m = 2 ^ (f.precision - 1) ∧ f.minExponent < e then 1 else 2

theorem lowerGap_bounds (f : Format) (m : ℕ) (e : ℤ) :
    (0 : ℚ) < lowerGap f m e ∧ (lowerGap f m e : ℚ) ≤ 2 := by
  unfold lowerGap
  split <;> norm_num

/-- The number of the format that is nearest to `q` is `m · 2 ^ e`. In the middle between two it is the even
one. -/
structure RoundsTo (f : Format) (m : ℕ) (e : ℤ) (q : ℚ) : Prop where
  lower : ((m : ℚ) - lowerGap f m e / 4) * 2 ^ e ≤ q
  upper : q ≤ (m + 1 / 2) * 2 ^ e
  tie : m % 2 = 0 ∨ (((m : ℚ) - lowerGap f m e / 4) * 2 ^ e < q ∧ q < (m + 1 / 2) * 2 ^ e)

/-- What lies strictly between the ends rounds to the number, whether it is even or not. -/
theorem roundsTo_of_lt {f : Format} {m : ℕ} {e : ℤ} {q : ℚ}
    (hlower : ((m : ℚ) - lowerGap f m e / 4) * 2 ^ e < q) (hupper : q < (m + 1 / 2) * 2 ^ e) :
    RoundsTo f m e q :=
  ⟨hlower.le, hupper.le, .inr ⟨hlower, hupper⟩⟩

/-- A number of the format rounds to itself. -/
theorem roundsTo_self (f : Format) (m : ℕ) (e : ℤ) : RoundsTo f m e (m * 2 ^ e) := by
  have hunit : (0 : ℚ) < 2 ^ e := by positivity
  have hgap := (lowerGap_bounds f m e).1
  have hlower : ((m : ℚ) - lowerGap f m e / 4) * 2 ^ e < m * 2 ^ e := by
    rw [mul_lt_mul_iff_left₀ hunit]
    linarith
  have hupper : (m : ℚ) * 2 ^ e < (m + 1 / 2) * 2 ^ e := by
    rw [mul_lt_mul_iff_left₀ hunit]
    linarith
  exact roundsTo_of_lt hlower hupper

/-- Zero rounds to no other number. -/
theorem RoundsTo.eq_zero {f : Format} {m : ℕ} {e : ℤ} (h : RoundsTo f m e 0) : m = 0 := by
  by_contra hne
  have hone : (1 : ℚ) ≤ m := by exact_mod_cast Nat.pos_of_ne_zero hne
  have hunit : (0 : ℚ) < 2 ^ e := by positivity
  have hgap := (lowerGap_bounds f m e).2
  exact absurd (mul_pos (by linarith) hunit) (not_lt.2 h.lower)

/-! ## Rounding -/

variable {f : Format} {n d m : ℕ} {e : ℤ}

/-- The exponent of the number nearest to a ratio, but for a carry. -/
def exponentOf (f : Format) (n d : ℕ) : ℤ := max f.minExponent (floorLog2 n d - (f.precision - 1))

theorem roundDiv_scaled_eq_iff (hd : 0 < d) :
    roundDiv (n * 2 ^ (-e).toNat) (d * 2 ^ e.toNat) = m ↔ NearestTo m (n / d / 2 ^ e) := by
  rw [roundDiv_eq_iff (Nat.mul_pos hd (Nat.two_pow_pos _)), ratio_scaled]

theorem nearest_zero (f : Format) (s : Bool) (d : ℕ) : nearest f s 0 d = finite s 0 f.minExponent := rfl

/-- Rounding in one step, with the carry that a significand of too many bits brings. -/
theorem nearest_eq (s : Bool) (hn : 0 < n) (hd : 0 < d) (he : exponentOf f n d = e)
    (hm : NearestTo m (n / d / 2 ^ e)) :
    nearest f s n d =
      if m = 2 ^ f.precision then
        if f.maxExponent < e + 1 then infinity s else finite s (m / 2) (e + 1)
      else if f.maxExponent < e then infinity s else finite s m e := by
  have hround := (roundDiv_scaled_eq_iff hd).2 hm
  unfold exponentOf at he
  unfold nearest
  rw [if_neg (by omega)]
  simp only [he, hround]
  split <;> rfl

theorem nearest_of_lt (s : Bool) (hn : 0 < n) (hd : 0 < d) (he : exponentOf f n d = e)
    (hm : NearestTo m (n / d / 2 ^ e)) (hlt : m < 2 ^ f.precision) (hmax : e ≤ f.maxExponent) :
    nearest f s n d = finite s m e := by
  rw [nearest_eq s hn hd he hm, if_neg (Nat.ne_of_lt hlt), if_neg (not_lt.2 hmax)]

theorem nearest_of_carry (s : Bool) (hn : 0 < n) (hd : 0 < d) (he : exponentOf f n d = e - 1)
    (hm : NearestTo (2 ^ f.precision) (n / d / 2 ^ (e - 1))) (hmax : e ≤ f.maxExponent) :
    nearest f s n d = finite s (2 ^ f.precision / 2) e := by
  rw [nearest_eq s hn hd he hm, if_pos rfl, Int.sub_add_cancel, if_neg (not_lt.2 hmax)]

theorem two_pow_precision (hf : 0 < f.precision) :
    (2 ^ f.precision : ℕ) = 2 * 2 ^ (f.precision - 1) := by
  obtain ⟨k, hk⟩ : ∃ k, f.precision = k + 1 := ⟨f.precision - 1, by omega⟩
  rw [hk, Nat.add_sub_cancel]
  exact Nat.pow_succ'

theorem two_pow_precision_cast (hf : 0 < f.precision) :
    ((2 ^ f.precision : ℕ) : ℚ) = 2 * ((2 ^ (f.precision - 1) : ℕ) : ℚ) := by
  exact_mod_cast two_pow_precision hf

theorem two_pow_precision_half (hf : 0 < f.precision) :
    (2 ^ f.precision / 2 : ℕ) = 2 ^ (f.precision - 1) := by
  rw [two_pow_precision hf]
  exact Nat.mul_div_cancel_left _ (by omega)

/-- The least significand with all bits, times a power of two. -/
theorem leading_mul (hf : 0 < f.precision) (e : ℤ) :
    ((2 ^ (f.precision - 1) : ℕ) : ℚ) * 2 ^ e = 2 ^ (e + (f.precision - 1)) := by
  have hcast : ((f.precision : ℤ) - 1) = ((f.precision - 1 : ℕ) : ℤ) := by omega
  rw [hcast, zpow_add₀ (by norm_num), zpow_natCast, mul_comm]
  push_cast
  rfl

/-- At its exponent, a ratio lies below the power of two that the format has no bits for. -/
theorem lt_of_exponentOf (hf : 0 < f.precision) (hn : 0 < n) (hd : 0 < d) (he : exponentOf f n d = e) :
    (n : ℚ) / d < ((2 ^ f.precision : ℕ) : ℚ) * 2 ^ e := by
  have hlog : floorLog2 n d ≤ e + (f.precision - 1) := by
    unfold exponentOf at he
    omega
  rw [two_pow_precision_cast hf, mul_assoc, leading_mul hf, ← two_zpow_succ]
  exact lt_of_lt_of_le (floorLog2_spec hn hd).2 (zpow_le_zpow_right₀ (by norm_num) (by omega))

/-- At its exponent, a ratio has all bits, unless the exponent is the least one. -/
theorem le_of_exponentOf (hf : 0 < f.precision) (hn : 0 < n) (hd : 0 < d) (he : exponentOf f n d = e)
    (hmin : f.minExponent < e) : ((2 ^ (f.precision - 1) : ℕ) : ℚ) * 2 ^ e ≤ n / d := by
  have hlog : floorLog2 n d = e + (f.precision - 1) := by
    unfold exponentOf at he
    omega
  rw [leading_mul hf, ← hlog]
  exact (floorLog2_spec hn hd).1

theorem RoundsTo.nearestTo {q : ℚ} (h : RoundsTo f m e q) : NearestTo m (q / 2 ^ e) := by
  have hunit : (0 : ℚ) < 2 ^ e := by positivity
  have hgap := (lowerGap_bounds f m e).2
  refine ⟨?_, ?_, h.tie.imp id fun ht => ⟨?_, ?_⟩⟩
  · rw [le_div_iff₀ hunit]
    refine le_trans ?_ h.lower
    rw [mul_le_mul_iff_left₀ hunit]
    linarith
  · rw [div_le_iff₀ hunit]
    exact h.upper
  · rw [lt_div_iff₀ hunit]
    refine lt_of_le_of_lt ?_ ht.1
    rw [mul_le_mul_iff_left₀ hunit]
    linarith
  · rw [div_lt_iff₀ hunit]
    exact ht.2

/-- What rounds to a number of the format lies below the next power of two. -/
theorem RoundsTo.lt_leading {q : ℚ} (hf : 0 < f.precision) (hm : m < 2 ^ f.precision)
    (h : RoundsTo f m e q) : q < 2 ^ (e + (f.precision - 1) + 1) := by
  have hunit : (0 : ℚ) < 2 ^ e := by positivity
  have hdouble : (2 : ℚ) ^ (e + (f.precision - 1) + 1) = ((2 ^ f.precision : ℕ) : ℚ) * 2 ^ e := by
    rw [two_zpow_succ, ← leading_mul hf, two_pow_precision_cast hf, mul_assoc]
  rw [hdouble]
  rcases Nat.lt_or_eq_of_le (Nat.succ_le_of_lt hm) with hlt | heq
  · -- a whole unit is left above the middle
    have hle : (m : ℚ) + 2 ≤ ((2 ^ f.precision : ℕ) : ℚ) := by exact_mod_cast hlt
    refine lt_of_le_of_lt h.upper ?_
    rw [mul_lt_mul_iff_left₀ hunit]
    linarith
  · -- the greatest significand is odd, so the middle above it does not belong to it
    have hodd : ¬ m % 2 = 0 := by
      have htwo := two_pow_precision hf
      omega
    have hstrict := (h.tie.resolve_left hodd).2
    have hcast : ((2 ^ f.precision : ℕ) : ℚ) = m + 1 := by
      rw [← heq]
      push_cast
      ring
    refine lt_trans hstrict ?_
    rw [hcast, mul_lt_mul_iff_left₀ hunit]
    linarith

/-- What rounds to a number of the format with all bits, but lies below all of those with its exponent, rounds
to the least of them, and lies a quarter of a unit below it at most. -/
theorem RoundsTo.below_leading {q : ℚ} (hcanonical : Canonical f m e) (hmin : f.minExponent < e)
    (h : RoundsTo f m e q) (hlead : q < ((2 ^ (f.precision - 1) : ℕ) : ℚ) * 2 ^ e) :
    m = 2 ^ (f.precision - 1) ∧ (((2 ^ (f.precision - 1) : ℕ) : ℚ) - 1 / 4) * 2 ^ e ≤ q := by
  have hunit : (0 : ℚ) < 2 ^ e := by positivity
  have hfull : 2 ^ (f.precision - 1) ≤ m := hcanonical.normal.resolve_right (by omega)
  have hm : m = 2 ^ (f.precision - 1) := by
    by_contra hne
    have hgap := (lowerGap_bounds f m e).2
    have hnext : ((2 ^ (f.precision - 1) : ℕ) : ℚ) + 1 ≤ m := by
      exact_mod_cast Nat.lt_of_le_of_ne hfull (Ne.symm hne)
    have hlt := lt_of_le_of_lt h.lower hlead
    rw [mul_lt_mul_iff_left₀ hunit] at hlt
    linarith
  have hgap : lowerGap f m e = 1 := if_pos ⟨hm, hmin⟩
  have hlower := h.lower
  rw [hgap, hm, Nat.cast_one] at hlower
  exact ⟨hm, hlower⟩

/-- A ratio just below the least number with all bits and the exponent `e` is rounded up to it, by a carry. -/
theorem nearest_of_below_leading (s : Bool) (hf : 0 < f.precision) (hmin : f.minExponent < e)
    (hmax : e ≤ f.maxExponent) (hn : 0 < n) (hd : 0 < d)
    (hlower : (((2 ^ (f.precision - 1) : ℕ) : ℚ) - 1 / 4) * 2 ^ e ≤ n / d)
    (hlead : (n : ℚ) / d < ((2 ^ (f.precision - 1) : ℕ) : ℚ) * 2 ^ e) :
    nearest f s n d = finite s (2 ^ (f.precision - 1)) e := by
  have hunit : (0 : ℚ) < 2 ^ e := by positivity
  have hhalf := two_zpow_pred e
  -- the ratio has all bits at the exponent below
  have hlog : floorLog2 n d = e - 1 + (f.precision - 1) := by
    refine floorLog2_eq hn hd ?_ ?_
    · have hone : (1 : ℚ) ≤ ((2 ^ (f.precision - 1) : ℕ) : ℚ) := by exact_mod_cast Nat.one_le_two_pow
      rw [← leading_mul hf, hhalf]
      calc ((2 ^ (f.precision - 1) : ℕ) : ℚ) * (2 ^ e / 2)
          = ((2 ^ (f.precision - 1) : ℕ) : ℚ) / 2 * 2 ^ e := by ring
        _ ≤ (((2 ^ (f.precision - 1) : ℕ) : ℚ) - 1 / 4) * 2 ^ e :=
          mul_le_mul_of_nonneg_right (by linarith) hunit.le
        _ ≤ n / d := hlower
    · have hexp : e - 1 + ((f.precision : ℤ) - 1) + 1 = e + (f.precision - 1) := by ring
      rw [hexp, ← leading_mul hf]
      exact hlead
  have he : exponentOf f n d = e - 1 := by
    rw [exponentOf, hlog]
    omega
  have hcarry : NearestTo (2 ^ f.precision) (n / d / 2 ^ (e - 1)) := by
    have hdouble := two_pow_precision_cast hf
    have hpos : (0 : ℚ) < 2 ^ (e - 1) := by positivity
    refine ⟨?_, ?_, .inl (by rw [two_pow_precision hf]; omega)⟩
    · rw [le_div_iff₀ hpos, hdouble, hhalf]
      linarith
    · rw [div_le_iff₀ hpos, hdouble, hhalf]
      linarith
  rw [nearest_of_carry s hn hd he hcarry hmax, two_pow_precision_half hf]

/-- A ratio is rounded to the number of the format that it rounds to. -/
theorem nearest_of_roundsTo (s : Bool) (hf : 0 < f.precision) (hcanonical : Canonical f m e)
    (hn : 0 < n) (hd : 0 < d) (h : RoundsTo f m e (n / d)) : nearest f s n d = finite s m e := by
  rcases le_or_gt (((2 ^ (f.precision - 1) : ℕ) : ℚ) * 2 ^ e) (n / d) with hlead | hlead
  · -- a ratio with all bits
    rw [leading_mul hf] at hlead
    have hlog : floorLog2 n d = e + (f.precision - 1) :=
      floorLog2_eq hn hd hlead (h.lt_leading hf hcanonical.significand)
    have he : exponentOf f n d = e := by
      have hlow := hcanonical.low
      rw [exponentOf, hlog]
      omega
    exact nearest_of_lt s hn hd he h.nearestTo hcanonical.significand hcanonical.high
  · rcases Int.lt_or_eq_of_le hcanonical.low with hmin | hmin
    · obtain ⟨hm, hlower⟩ := h.below_leading hcanonical hmin hlead
      rw [hm]
      exact nearest_of_below_leading s hf hmin hcanonical.high hn hd hlower hlead
    · -- a ratio below the least number with all bits
      have hlog : floorLog2 n d < e + (f.precision - 1) := by
        rw [leading_mul hf] at hlead
        exact floorLog2_lt hn hd hlead
      have he : exponentOf f n d = e := by
        rw [exponentOf]
        omega
      exact nearest_of_lt s hn hd he h.nearestTo hcanonical.significand hcanonical.high

/-- Only the value of a ratio matters. -/
theorem nearest_congr (f : Format) (s : Bool) {n d n' d' : ℕ} (hd : 0 < d) (hd' : 0 < d')
    (h : (n : ℚ) / d = n' / d') : nearest f s n d = nearest f s n' d' := by
  rcases Nat.eq_zero_or_pos n with rfl | hn
  · have hzero : (n' : ℚ) / d' = 0 := by rw [← h, Nat.cast_zero, zero_div]
    have hn' : n' = 0 := by
      by_contra hne
      have hpos := ratio_pos (Nat.pos_of_ne_zero hne) hd'
      rw [hzero] at hpos
      exact lt_irrefl 0 hpos
    rw [hn', nearest_zero, nearest_zero]
  · have hn' : 0 < n' := by
      by_contra hle
      have hzero : n' = 0 := by omega
      have hpos := ratio_pos hn hd
      rw [h, hzero, Nat.cast_zero, zero_div] at hpos
      exact lt_irrefl 0 hpos
    have hlog : floorLog2 n d = floorLog2 n' d' := by
      obtain ⟨hlow, hhigh⟩ := floorLog2_spec hn' hd'
      rw [← h] at hlow hhigh
      exact floorLog2_eq hn hd hlow hhigh
    have hround (e : ℤ) : roundDiv (n * 2 ^ (-e).toNat) (d * 2 ^ e.toNat) =
        roundDiv (n' * 2 ^ (-e).toNat) (d' * 2 ^ e.toNat) := by
      rw [roundDiv_scaled_eq_iff hd, h, ← roundDiv_scaled_eq_iff hd']
    unfold nearest
    rw [if_neg (by omega), if_neg (by omega)]
    simp only [hlog, hround]

end RecordQuery.Binary
