import RecordQuery.Number.Binary.Shortest
import RecordQuery.Proofs.Digits
import RecordQuery.Proofs.Number.Formats

/-!
# Shortest decimals

The decimal that is printed for a double rounds to that double. The search goes through decimals of 1, 2,
... 17 digits and takes one that lies in the interval of the double; with 17 digits the decimals lie so close
that one of the two neighbours of the double does:

    (interval m e).holds g n = true ↔ RoundsTo double m e (n · 10 ^ g)             (holds_iff)
    10 ^ g · 10 ^ 16 ≤ m · 2 ^ e → one of the neighbours at 10 ^ g rounds to it    (neighbour_rounds)
    RoundsTo double m e (shortest tie m e).value                                   (shortest_rounds)
-/

namespace RecordQuery.Binary

/-! ## Scaled comparisons -/

theorem pow_toNat {b : ℚ} (hb : b ≠ 0) (g : ℤ) : b ^ g.toNat = b ^ g * b ^ (-g).toNat := by
  rw [zpow_eq_div b g, div_mul_cancel₀ _ (pow_ne_zero _ hb)]

/-- Natural numbers that are two values times one positive unit are in the order of the values. -/
theorem order_of_scaled {x y : ℕ} {a b unit : ℚ} (hunit : 0 < unit) (hx : (x : ℚ) = a * unit)
    (hy : (y : ℚ) = b * unit) : (x ≤ y ↔ a ≤ b) ∧ (x < y ↔ a < b) := by
  constructor
  · rw [← Nat.cast_le (α := ℚ), hx, hy, mul_le_mul_iff_left₀ hunit]
  · rw [← Nat.cast_lt (α := ℚ), hx, hy, mul_lt_mul_iff_left₀ hunit]

/-- A multiple of a power of ten, and a ratio, over one unit. -/
theorem scaled_ratio {unit : ℕ} (hunit : 0 < unit) (a n : ℕ) (g : ℤ) :
    (((a * 10 ^ (-g).toNat : ℕ) : ℚ) = a / unit * (unit * 10 ^ (-g).toNat)) ∧
      (((n * 10 ^ g.toNat * unit : ℕ) : ℚ) = n * 10 ^ g * (unit * 10 ^ (-g).toNat)) := by
  have hne : (unit : ℚ) ≠ 0 := by exact_mod_cast hunit.ne'
  constructor
  · push_cast
    field_simp
  · push_cast
    rw [pow_toNat (by norm_num)]
    ring

/-! ## The interval of a double -/

variable {m : ℕ} {e : ℤ}

theorem unit_pos (m : ℕ) (e : ℤ) : 0 < (interval m e).unit := Nat.mul_pos (by omega) (Nat.two_pow_pos _)

theorem interval_ratio (a : ℕ) (e : ℤ) :
    (((a * 2 ^ e.toNat : ℕ) : ℚ) / ((4 * 2 ^ (-e).toNat : ℕ) : ℚ)) = a / 4 * 2 ^ e := by
  rw [zpow_eq_div 2 e]
  push_cast
  rw [div_mul_div_comm]

theorem value_ratio (m : ℕ) (e : ℤ) : ((interval m e).value : ℚ) / (interval m e).unit = m * 2 ^ e := by
  have hvalue : ((interval m e).value : ℚ) / (interval m e).unit = ((4 * m : ℕ) : ℚ) / 4 * 2 ^ e :=
    interval_ratio (4 * m) e
  rw [hvalue]
  push_cast
  ring

theorem low_ratio (hm : 0 < m) :
    ((interval m e).low : ℚ) / (interval m e).unit = ((m : ℚ) - lowerGap .double m e / 4) * 2 ^ e := by
  have hgap : (if m = 2 ^ 52 && Format.double.minExponent < e then 1 else 2) = lowerGap .double m e := by
    unfold lowerGap
    simp only [Bool.and_eq_true, decide_eq_true_eq]
    rfl
  have hlow : ((interval m e).low : ℚ) / (interval m e).unit =
      ((4 * m - (if m = 2 ^ 52 && Format.double.minExponent < e then 1 else 2) : ℕ) : ℚ) / 4 * 2 ^ e :=
    interval_ratio _ e
  have hle : lowerGap .double m e ≤ 4 * m := by
    unfold lowerGap
    split <;> omega
  rw [hlow, hgap, Nat.cast_sub hle]
  push_cast
  ring

theorem high_ratio (m : ℕ) (e : ℤ) :
    ((interval m e).high : ℚ) / (interval m e).unit = (m + 1 / 2) * 2 ^ e := by
  have hhigh : ((interval m e).high : ℚ) / (interval m e).unit = ((4 * m + 2 : ℕ) : ℚ) / 4 * 2 ^ e :=
    interval_ratio (4 * m + 2) e
  rw [hhigh]
  push_cast
  ring

/-- The interval holds what rounds to the double. -/
theorem holds_iff (hm : 0 < m) (g : ℤ) (n : ℕ) :
    (interval m e).holds g n = true ↔ RoundsTo .double m e (n * 10 ^ g) := by
  have hunit := unit_pos m e
  have hscale : (0 : ℚ) < (interval m e).unit * 10 ^ (-g).toNat := by positivity
  obtain ⟨hlow, hn⟩ := scaled_ratio hunit (interval m e).low n g
  obtain ⟨hhigh, -⟩ := scaled_ratio hunit (interval m e).high n g
  rw [low_ratio hm] at hlow
  rw [high_ratio] at hhigh
  obtain ⟨hlle, hllt⟩ := order_of_scaled hscale hlow hn
  obtain ⟨hhle, hhlt⟩ := order_of_scaled hscale hn hhigh
  have hclosed : (interval m e).closed = decide (m % 2 = 0) := rfl
  unfold Interval.holds
  simp only [hclosed, decide_eq_true_eq]
  by_cases heven : m % 2 = 0
  · rw [if_pos heven, Bool.and_eq_true, decide_eq_true_eq, decide_eq_true_eq, hlle, hhle]
    exact ⟨fun h => ⟨h.1, h.2, .inl heven⟩, fun h => ⟨h.lower, h.upper⟩⟩
  · rw [if_neg heven, Bool.and_eq_true, decide_eq_true_eq, decide_eq_true_eq, hllt, hhlt]
    exact ⟨fun h => roundsTo_of_lt h.1 h.2, fun h => h.tie.resolve_left heven⟩

/-! ## Decimals that lie close enough -/

/-- Of the two multiples of `10 ^ g` next to a double, one rounds to it, when there are at least `10 ^ 16` of
them below the double. -/
theorem neighbour_rounds (h : Canonical .double m e) {g : ℤ} {n : ℕ} (hlow : (n : ℚ) * 10 ^ g ≤ m * 2 ^ e)
    (hhigh : (m : ℚ) * 2 ^ e < (n + 1 : ℕ) * 10 ^ g) (hg : (10 : ℚ) ^ g * 10 ^ 16 ≤ m * 2 ^ e) :
    RoundsTo .double m e (n * 10 ^ g) ∨ RoundsTo .double m e ((n + 1 : ℕ) * 10 ^ g) := by
  have hunit : (0 : ℚ) < 2 ^ e := by positivity
  have hsucc : ((n + 1 : ℕ) : ℚ) * 10 ^ g = n * 10 ^ g + 10 ^ g := by
    push_cast
    ring
  rw [hsucc] at hhigh
  have hupper : ((m : ℚ) + 1 / 2) * 2 ^ e = m * 2 ^ e + 1 / 2 * 2 ^ e := by ring
  by_cases hgap : m = 2 ^ 52 ∧ Format.double.minExponent < e
  · -- below a power of two the interval is short, but above it is wider than a step
    right
    have hone : lowerGap .double m e = 1 := if_pos hgap
    have hm : (m : ℚ) = 2 ^ 52 := by exact_mod_cast hgap.1
    have hstep : (10 : ℚ) ^ g < 1 / 2 * 2 ^ e := by
      rw [hm] at hg
      linarith
    rw [hsucc]
    refine roundsTo_of_lt ?_ ?_
    · rw [hone, sub_mul]
      push_cast
      linarith
    · rw [hupper]
      linarith
  · have htwo : lowerGap .double m e = 2 := if_neg hgap
    have hm : (m : ℚ) < 2 ^ 53 := by exact_mod_cast h.significand
    have hlower : ((m : ℚ) - lowerGap .double m e / 4) * 2 ^ e = m * 2 ^ e - 1 / 2 * 2 ^ e := by
      rw [htwo]
      push_cast
      ring
    have hvalue : (m : ℚ) * 2 ^ e < 2 ^ 53 * 2 ^ e := by
      rw [mul_lt_mul_iff_left₀ hunit]
      exact hm
    have hstep : (10 : ℚ) ^ g < 2 ^ e := by linarith
    -- the nearer neighbour is half a step away at most
    rcases le_or_gt (2 * ((m : ℚ) * 2 ^ e - n * 10 ^ g)) (10 ^ g) with hnear | hnear
    · left
      refine roundsTo_of_lt ?_ ?_
      · rw [hlower]
        linarith
      · rw [hupper]
        linarith
    · right
      rw [hsucc]
      refine roundsTo_of_lt ?_ ?_
      · rw [hlower]
        linarith
      · rw [hupper]
        linarith

/-- The multiples of `10 ^ g` that are looked at are the two next to the double. -/
theorem neighbours (m : ℕ) (e g : ℤ) :
    let n := (interval m e).value * 10 ^ (-g).toNat / ((interval m e).unit * 10 ^ g.toNat)
    (n : ℚ) * 10 ^ g ≤ m * 2 ^ e ∧ (m : ℚ) * 2 ^ e < (n + 1 : ℕ) * 10 ^ g := by
  intro n
  have hunit := unit_pos m e
  have hscale : (0 : ℚ) < (interval m e).unit * 10 ^ (-g).toNat := by positivity
  obtain ⟨hvalue, hn⟩ := scaled_ratio hunit (interval m e).value n g
  obtain ⟨-, hsucc⟩ := scaled_ratio hunit (interval m e).value (n + 1) g
  rw [value_ratio] at hvalue
  have hden : 0 < (interval m e).unit * 10 ^ g.toNat := Nat.mul_pos hunit (Nat.pow_pos (by omega))
  constructor
  · rw [← (order_of_scaled hscale hn hvalue).1, Nat.mul_assoc, Nat.mul_comm (10 ^ g.toNat)]
    exact Nat.div_mul_le_self _ _
  · rw [← (order_of_scaled hscale hvalue hsucc).2, Nat.mul_assoc, Nat.mul_comm (10 ^ g.toNat)]
    exact (Nat.div_lt_iff_lt_mul hden).1 (Nat.lt_succ_self _)

/-! ## The search -/

/-- The number that decimal digits stand for. -/
def DecimalDigits.value (d : DecimalDigits) : ℚ := d.digits * 10 ^ d.exponent

theorem hit?_spec {i : Interval} {tie : Tie} {g : ℤ} {d : DecimalDigits} (h : i.hit? tie g = some d) :
    d.exponent = g ∧ i.holds g d.digits = true := by
  unfold Interval.hit? at h
  simp only at h
  split at h
  · next hn hsucc =>
    cases h
    refine ⟨rfl, ?_⟩
    simp only
    split
    · exact hn
    · exact hsucc
  · next hn _ =>
    cases h
    exact ⟨rfl, hn⟩
  · next _ hsucc =>
    cases h
    exact ⟨rfl, hsucc⟩
  · cases h

theorem exists_hit (h : Canonical .double m e) (hm : 0 < m) (tie : Tie) {g : ℤ}
    (hg : (10 : ℚ) ^ g * 10 ^ 16 ≤ m * 2 ^ e) : ∃ d, (interval m e).hit? tie g = some d := by
  obtain ⟨hlow, hhigh⟩ := neighbours m e g
  have hrounds := neighbour_rounds h hlow hhigh hg
  rw [← holds_iff hm, ← holds_iff hm] at hrounds
  unfold Interval.hit?
  simp only
  split
  · exact ⟨_, rfl⟩
  · exact ⟨_, rfl⟩
  · exact ⟨_, rfl⟩
  · next hn hsucc =>
    rcases hrounds with htrue | htrue
    · rw [htrue] at hn
      cases hn
    · rw [htrue] at hsucc
      cases hsucc

/-- Taking zeros off leaves the value. -/
theorem stripZeros_spec (d : DecimalDigits) (fuel : ℕ) :
    (stripZeros d fuel).value = d.value ∧ d.exponent ≤ (stripZeros d fuel).exponent ∧
      (stripZeros d fuel).exponent ≤ d.exponent + fuel := by
  induction fuel generalizing d with
  | zero => exact ⟨rfl, le_rfl, by rw [stripZeros]; omega⟩
  | succ fuel ih =>
    rw [stripZeros]
    split
    · next hten =>
      have hzero : d.digits % 10 = 0 := by
        simp only [Bool.and_eq_true, decide_eq_true_eq] at hten
        exact hten.2
      obtain ⟨hvalue, hlow, hhigh⟩ := ih ⟨d.digits / 10, d.exponent + 1⟩
      simp only at hlow hhigh
      refine ⟨?_, by omega, by omega⟩
      have hdigits : (d.digits : ℚ) = (d.digits / 10 : ℕ) * 10 := by
        have hsplit : d.digits = d.digits / 10 * 10 := by omega
        exact_mod_cast hsplit
      rw [hvalue, DecimalDigits.value, DecimalDigits.value, hdigits, zpow_add_one₀ (by norm_num)]
      ring
    · exact ⟨rfl, le_rfl, by omega⟩

/-! ## The first digit -/

/-- The quotient rounded up, for a divisor that is smaller. -/
theorem ceil_spec {n d : ℕ} (hn : 0 < n) (hlt : n < d) :
    2 ≤ (d + n - 1) / n ∧ d ≤ (d + n - 1) / n * n ∧ (d + n - 1) / n ≤ d := by
  refine ⟨?_, ?_, ?_⟩
  · rw [Nat.le_div_iff_mul_le hn]
    omega
  · have hsplit := Nat.div_add_mod (d + n - 1) n
    have hmod := Nat.mod_lt (d + n - 1) hn
    rw [Nat.mul_comm] at hsplit
    omega
  · have hle : d + n - 1 < (d + 1) * n := by
      have hmul : d * 1 ≤ d * n := Nat.mul_le_mul_left d hn
      rw [Nat.add_mul, Nat.one_mul]
      omega
    exact Nat.le_of_lt_succ ((Nat.div_lt_iff_lt_mul hn).2 hle)

theorem floorLog10_le {n d : ℕ} (hn : 0 < n) (hd : 0 < d) : (10 : ℚ) ^ floorLog10 n d ≤ n / d := by
  have hd' : (0 : ℚ) < d := by exact_mod_cast hd
  unfold floorLog10
  by_cases hle : d ≤ n
  · rw [if_pos hle]
    have hquotient : 0 < n / d := Nat.div_pos hle hd
    have hlength := Digit.length_digits_pos (n / d)
    have hcast : ((Digit.digits (n / d)).length : ℤ) - 1 = ((Digit.digits (n / d)).length - 1 : ℕ) := by
      omega
    rw [hcast, zpow_natCast]
    calc (10 : ℚ) ^ ((Digit.digits (n / d)).length - 1) ≤ ((n / d : ℕ) : ℚ) := by
          exact_mod_cast Digit.pow_length_le hquotient
      _ ≤ n / d := by
        rw [le_div_iff₀ hd']
        exact_mod_cast Nat.div_mul_le_self n d
  · obtain ⟨htwo, hceil, -⟩ := ceil_spec hn (Nat.lt_of_not_le hle)
    rw [if_neg hle, if_neg (by omega)]
    generalize (d + n - 1) / n = c at htwo hceil
    have hlt := Digit.lt_pow_length (c - 1)
    generalize (Digit.digits (c - 1)).length = length at hlt
    have hpow : c ≤ 10 ^ length := by omega
    have hpos : (0 : ℚ) < 10 ^ length := by positivity
    rw [zpow_neg, zpow_natCast, inv_eq_one_div, div_le_div_iff₀ hpos hd', one_mul]
    have hmul : d ≤ n * 10 ^ length :=
      calc d ≤ c * n := hceil
        _ ≤ 10 ^ length * n := Nat.mul_le_mul_right n hpow
        _ = n * 10 ^ length := Nat.mul_comm _ _
    exact_mod_cast hmul

theorem floorLog10_bounds {n d k : ℕ} (hk : 0 < k) (hn : 0 < n) (hnk : n < 10 ^ k) (hdk : d < 10 ^ k) :
    -(k : ℤ) ≤ floorLog10 n d ∧ floorLog10 n d ≤ k := by
  unfold floorLog10
  by_cases hle : d ≤ n
  · have hlength := Digit.length_digits_le hk (lt_of_le_of_lt (Nat.div_le_self n d) hnk)
    have hpos := Digit.length_digits_pos (n / d)
    rw [if_pos hle]
    omega
  · obtain ⟨htwo, -, hceil⟩ := ceil_spec hn (Nat.lt_of_not_le hle)
    rw [if_neg hle, if_neg (by omega)]
    have hlength := Digit.length_digits_le (n := (d + n - 1) / n - 1) hk (by omega)
    omega

/-! ## The shortest decimal -/

theorem interval_lt (h : Canonical .double m e) :
    (interval m e).high < 10 ^ 400 ∧ (interval m e).unit < 10 ^ 400 := by
  have hm : m < 2 ^ 53 := h.significand
  have hlow : -1074 ≤ e := h.low
  have hhigh : e ≤ 971 := h.high
  constructor
  · calc (4 * m + 2) * 2 ^ e.toNat ≤ 4 * 2 ^ 53 * 2 ^ 971 :=
          Nat.mul_le_mul (by omega) (Nat.pow_le_pow_right (by omega) (by omega))
      _ < 10 ^ 400 := by decide +kernel
  · calc 4 * 2 ^ (-e).toNat ≤ 4 * 2 ^ 1074 :=
          Nat.mul_le_mul_left 4 (Nat.pow_le_pow_right (by omega) (by omega))
      _ < 10 ^ 400 := by decide +kernel

/-- The search ends with a decimal of at most 17 digits. -/
theorem exists_shortest (h : Canonical .double m e) (hm : 0 < m) (tie : Tie) :
    ∃ (g : ℤ) (d : DecimalDigits), shortest tie m e = stripZeros d 17 ∧
      (interval m e).hit? tie g = some d ∧ -416 ≤ g ∧ g ≤ 400 := by
  have hvalue : 0 < (interval m e).value := Nat.mul_pos (Nat.mul_pos (by omega) hm) (Nat.two_pow_pos _)
  obtain ⟨hhighlt, hunitlt⟩ := interval_lt h
  have hvaluele : (interval m e).value ≤ (interval m e).high := Nat.mul_le_mul_right _ (by omega)
  obtain ⟨hlow, hhigh⟩ := floorLog10_bounds (by omega) hvalue (by omega) hunitlt
  have htop := floorLog10_le hvalue (unit_pos m e)
  rw [value_ratio] at htop
  generalize hlog : floorLog10 (interval m e).value (interval m e).unit = top at hlow hhigh htop
  -- the last of the candidates is sure to be met
  have hlast : (10 : ℚ) ^ (top - 16) * 10 ^ 16 ≤ m * 2 ^ e := by
    have hten : (10 : ℚ) ^ (top - 16) * 10 ^ 16 = 10 ^ top := by
      rw [zpow_sub₀ (by norm_num)]
      exact div_mul_cancel₀ _ (by norm_num)
    rw [hten]
    exact htop
  obtain ⟨last, hhit⟩ := exists_hit h hm tie hlast
  generalize hsearch : ((List.range 17).findSome? fun (k : ℕ) => (interval m e).hit? tie (top - k)) = found
  cases found with
  | none =>
    have hnone : (interval m e).hit? tie (top - 16) = none :=
      List.findSome?_eq_none_iff.1 hsearch 16 (by decide)
    rw [hhit] at hnone
    cases hnone
  | some d =>
    obtain ⟨k, hk, hhitk⟩ := List.exists_of_findSome?_eq_some hsearch
    have hk17 : k < 17 := List.mem_range.1 hk
    refine ⟨top - k, d, ?_, hhitk, by omega, by omega⟩
    unfold shortest
    simp only [hlog, hsearch]

/-- The shortest decimal of a double rounds to it. -/
theorem shortest_rounds (h : Canonical .double m e) (hm : 0 < m) (tie : Tie) :
    RoundsTo .double m e (shortest tie m e).value := by
  obtain ⟨g, d, hd, hhit, -, -⟩ := exists_shortest h hm tie
  obtain ⟨hexponent, hholds⟩ := hit?_spec hhit
  obtain ⟨hvalue, -, -⟩ := stripZeros_spec d 17
  rw [hd, hvalue, DecimalDigits.value, hexponent]
  exact (holds_iff hm g d.digits).1 hholds

/-- No exponent is far from those of doubles. -/
theorem shortest_exponent (h : Canonical .double m e) (hm : 0 < m) (tie : Tie) :
    -500 ≤ (shortest tie m e).exponent ∧ (shortest tie m e).exponent ≤ 500 := by
  obtain ⟨g, d, hd, hhit, hlow, hhigh⟩ := exists_shortest h hm tie
  obtain ⟨hexponent, -⟩ := hit?_spec hhit
  obtain ⟨-, hle, hge⟩ := stripZeros_spec d 17
  rw [hd]
  omega

theorem shortest_length (h : Canonical .double m e) (hm : 0 < m) (tie : Tie) :
    (Digit.digits (shortest tie m e).digits).length ≤ 900 := by
  obtain ⟨hexponent, -⟩ := shortest_exponent h hm tie
  have hupper := (shortest_rounds h hm tie).upper
  obtain ⟨hhighlt, -⟩ := interval_lt h
  generalize shortest tie m e = d at hexponent hupper
  have hunit : (1 : ℚ) ≤ (interval m e).unit := by exact_mod_cast unit_pos m e
  have hvalue : d.value < 10 ^ 400 :=
    calc d.value ≤ (interval m e).high / (interval m e).unit := by
          rw [high_ratio]
          exact hupper
      _ ≤ (interval m e).high := div_le_self (Nat.cast_nonneg _) hunit
      _ < ((10 ^ 400 : ℕ) : ℚ) := Nat.cast_lt.2 hhighlt
      _ = 10 ^ 400 := by rw [Nat.cast_pow, Nat.cast_ofNat]
  refine Digit.length_digits_le (by omega) ?_
  have hdigits : (d.digits : ℚ) * 10 ^ (-500 : ℤ) < 10 ^ 400 := by
    refine lt_of_le_of_lt ?_ hvalue
    exact mul_le_mul_of_nonneg_left (zpow_le_zpow_right₀ (by norm_num) hexponent) (Nat.cast_nonneg _)
  rw [zpow_neg, ← div_eq_mul_inv, div_lt_iff₀ (by positivity)] at hdigits
  have hpow : (10 : ℚ) ^ 400 * 10 ^ (500 : ℤ) = (10 : ℚ) ^ 900 := by
    have hcast : (500 : ℤ) = ((500 : ℕ) : ℤ) := rfl
    rw [hcast, zpow_natCast, ← pow_add]
  rw [hpow] at hdigits
  exact_mod_cast hdigits

end RecordQuery.Binary
