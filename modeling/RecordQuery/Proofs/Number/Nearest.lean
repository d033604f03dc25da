import Mathlib.Order.WithBot
import RecordQuery.Proofs.Number.Formats

/-!
# Rounding keeps the order

`IsNearest f q x` says that `x` is the number of the format `f` nearest to the rational number `q`, of either
sign, and the even one of two that are equally near. What rounds to a number of the format lies no higher than
the middle between it and the next one, and what rounds to the next one no lower, so a greater number is not
rounded to a lesser one:

    n · 2 ^ x < m · 2 ^ e → (n + 1/2) · 2 ^ x ≤ lower end of m · 2 ^ e              (upper_le_lower)
    IsNearest f q x → IsNearest f q' y → q ≤ q' → x.value ≤ y.value               (IsNearest.le_of_le)
    n / d < 2 ^ (maxExponent + precision - 1) → nearest f s n d = finite s m e, which n / d rounds to
                                                                                  (exists_nearest_eq)
    |k| < 2 ^ (maxExponent + precision - 1) → IsNearest f k (ofInt f k)             (ofInt_isNearest)
    IsNearest f q x → IsOf f y → (x and y are equal ↔ IsNearest f q y)             (IsNearest.extended_eq_iff)

Beside the other numbers of the format, `q` and the nearest one have the same order (`IsNearest.compare_eq`).
-/

namespace RecordQuery.Binary

variable {f : Format} {m n : ℕ} {e x : ℤ} {q q' : ℚ}

/-! ## Magnitudes -/

/-- Half a unit above a number of the format, those that round to the numbers above have not begun. -/
theorem upper_le_lower (hf : 0 < f.precision) (hn : Canonical f n x) (hm : Canonical f m e)
    (hlt : (n : ℚ) * 2 ^ x < m * 2 ^ e) :
    ((n : ℚ) + 1 / 2) * 2 ^ x ≤ ((m : ℚ) - lowerGap f m e / 4) * 2 ^ e := by
  have hunit : (0 : ℚ) < 2 ^ e := by positivity
  have hgap := (lowerGap_bounds f m e).2
  have htwo := two_pow_precision_cast hf
  rcases lt_trichotomy x e with hx | rfl | hx
  · -- the greater one has all bits, and the lesser one lies below all of its exponent
    have hfull : 2 ^ (f.precision - 1) ≤ m := hm.normal.resolve_right (by have := hn.low; omega)
    have hroom : (n : ℚ) + 1 ≤ ((2 ^ f.precision : ℕ) : ℚ) := by exact_mod_cast hn.significand
    have hgapFull : ((2 ^ (f.precision - 1) : ℕ) : ℚ) - 1 / 4 ≤ m - lowerGap f m e / 4 := by
      rcases Nat.eq_or_lt_of_le hfull with heq | hgt
      · have hone : lowerGap f m e = 1 := if_pos ⟨heq.symm, by have := hn.low; omega⟩
        rw [hone, heq, Nat.cast_one]
      · have hnext : ((2 ^ (f.precision - 1) : ℕ) : ℚ) + 1 ≤ m := by exact_mod_cast hgt
        linarith
    have hpos : (0 : ℚ) ≤ ((2 ^ f.precision : ℕ) : ℚ) - 1 / 2 := by
      have hnonneg : (0 : ℚ) ≤ n := n.cast_nonneg
      linarith
    calc ((n : ℚ) + 1 / 2) * 2 ^ x
        ≤ (((2 ^ f.precision : ℕ) : ℚ) - 1 / 2) * 2 ^ x :=
          mul_le_mul_of_nonneg_right (by linarith) (by positivity)
      _ ≤ (((2 ^ f.precision : ℕ) : ℚ) - 1 / 2) * 2 ^ (e - 1) :=
          mul_le_mul_of_nonneg_left (zpow_le_zpow_right₀ (by norm_num) (by omega)) hpos
      _ = (((2 ^ (f.precision - 1) : ℕ) : ℚ) - 1 / 4) * 2 ^ e := by
          rw [htwo, two_zpow_pred]
          ring
      _ ≤ ((m : ℚ) - lowerGap f m e / 4) * 2 ^ e := mul_le_mul_of_nonneg_right hgapFull hunit.le
  · rw [mul_lt_mul_iff_left₀ hunit] at hlt
    have hnext : (n : ℚ) + 1 ≤ m := by exact_mod_cast hlt
    exact mul_le_mul_of_nonneg_right (by linarith) hunit.le
  · -- a number of a greater exponent is greater
    exfalso
    have hfull : 2 ^ (f.precision - 1) ≤ n := hn.normal.resolve_right (by have := hm.low; omega)
    have hcast : ((2 ^ (f.precision - 1) : ℕ) : ℚ) ≤ n := by exact_mod_cast hfull
    have hroom : (m : ℚ) < ((2 ^ f.precision : ℕ) : ℚ) := by exact_mod_cast hm.significand
    have hle : (m : ℚ) * 2 ^ e ≤ n * 2 ^ x := by
      calc (m : ℚ) * 2 ^ e ≤ ((2 ^ f.precision : ℕ) : ℚ) * 2 ^ e :=
            mul_le_mul_of_nonneg_right hroom.le hunit.le
        _ = ((2 ^ (f.precision - 1) : ℕ) : ℚ) * 2 ^ (e + 1) := by
            rw [htwo, two_zpow_succ]
            ring
        _ ≤ n * 2 ^ (e + 1) := mul_le_mul_of_nonneg_right hcast (by positivity)
        _ ≤ n * 2 ^ x := mul_le_mul_of_nonneg_left (zpow_le_zpow_right₀ (by norm_num) (by omega)) n.cast_nonneg
    exact absurd hlt (not_lt.2 hle)

/-- One number has one rounding. -/
theorem RoundsTo.unique (hf : 0 < f.precision) (hm : Canonical f m e) (hn : Canonical f n x)
    (h : RoundsTo f m e q) (h' : RoundsTo f n x q) (hq : 0 ≤ q) : m = n ∧ e = x := by
  rcases hq.lt_or_eq with hpos | rfl
  · have hnum : 0 < q.num.natAbs := Int.natAbs_pos.2 (Rat.num_ne_zero.2 hpos.ne')
    have hratio : (q.num.natAbs : ℚ) / q.den = q := by
      rw [Nat.cast_natAbs, abs_of_pos (Rat.num_pos.2 hpos)]
      exact Rat.num_div_den q
    rw [← hratio] at h h'
    have hround := nearest_of_roundsTo false hf hm hnum q.den_pos h
    rw [nearest_of_roundsTo false hf hn hnum q.den_pos h'] at hround
    cases hround
    exact ⟨rfl, rfl⟩
  · obtain rfl := h.eq_zero
    obtain rfl := h'.eq_zero
    have hpos : (0 : ℕ) < 2 ^ (f.precision - 1) := Nat.two_pow_pos _
    have he := hm.normal.resolve_left (by omega)
    have hx := hn.normal.resolve_left (by omega)
    exact ⟨rfl, he.trans hx.symm⟩

/-- A greater number is not rounded to a lesser one. -/
theorem RoundsTo.le_of_le (hf : 0 < f.precision) (hm : Canonical f m e) (hn : Canonical f n x)
    (h : RoundsTo f m e q) (h' : RoundsTo f n x q') (hq : 0 ≤ q) (hle : q ≤ q') :
    (m : ℚ) * 2 ^ e ≤ n * 2 ^ x := by
  by_contra hlt
  -- both lie in the middle between the two, so they are one number
  have hmiddle := upper_le_lower hf hn hm (not_le.1 hlt)
  have heq : q = q' := le_antisymm hle ((h'.upper.trans hmiddle).trans h.lower)
  obtain ⟨rfl, rfl⟩ := RoundsTo.unique hf hm hn h (heq ▸ h') hq
  exact hlt le_rfl

/-! ## Numbers with a sign -/

/-- The number of the format that is nearest to `q`. Of two that are equally near it is the even one, and
zero may have either sign. -/
inductive IsNearest (f : Format) (q : ℚ) : Binary → Prop
  | intro {s : Bool} {m : ℕ} {e : ℤ} (canonical : Canonical f m e) (rounds : RoundsTo f m e |q|)
    (sign : (finite s m e).value = withSign (q < 0) (m * 2 ^ e)) : IsNearest f q (finite s m e)

theorem isNearest_self {s : Bool} (h : Canonical f m e) :
    IsNearest f (finite s m e).value (finite s m e) := by
  have hmagnitude : (0 : ℚ) ≤ m * 2 ^ e := by positivity
  refine ⟨h, ?_, ?_⟩
  · rw [value, abs_withSign s hmagnitude]
    exact roundsTo_self f m e
  · rcases Nat.eq_zero_or_pos m with rfl | hm
    · rw [value_zero]
      simp [withSign]
    · have hpos : (0 : ℚ) < m * 2 ^ e := mul_pos (by exact_mod_cast hm) (by positivity)
      cases s with
      | true =>
        have hneg : (finite true m e).value < 0 := neg_neg_of_pos hpos
        rw [decide_eq_true hneg]
        rfl
      | false =>
        have hnonneg : ¬ (finite false m e).value < 0 := not_lt.2 hpos.le
        rw [decide_eq_false hnonneg]
        rfl

/-- A greater number is not rounded to a lesser one. -/
theorem IsNearest.le_of_le (hf : 0 < f.precision) {a b : Binary} (ha : IsNearest f q a)
    (hb : IsNearest f q' b) (hle : q ≤ q') : a.value ≤ b.value := by
  obtain @⟨s, m, e, hm, hq, hvalue⟩ := ha
  obtain @⟨t, n, x, hn, hq', hvalue'⟩ := hb
  have hmagnitude : (0 : ℚ) ≤ m * 2 ^ e := by positivity
  have hmagnitude' : (0 : ℚ) ≤ n * 2 ^ x := by positivity
  rw [hvalue, hvalue']
  unfold withSign
  by_cases hneg : q < 0
  · by_cases hneg' : q' < 0
    · simp only [hneg, hneg', decide_true, if_true]
      rw [abs_of_neg hneg] at hq
      rw [abs_of_neg hneg'] at hq'
      exact neg_le_neg (hq'.le_of_le hf hn hm hq (by linarith) (by linarith))
    · simp only [hneg, hneg', decide_true, decide_false, if_true, Bool.false_eq_true, if_false]
      linarith
  · have hneg' : ¬ q' < 0 := by
      intro hlt
      linarith
    simp only [hneg, hneg', decide_false, Bool.false_eq_true, if_false]
    rw [abs_of_nonneg (not_lt.1 hneg)] at hq
    rw [abs_of_nonneg (not_lt.1 hneg')] at hq'
    exact hq.le_of_le hf hm hn hq' (not_lt.1 hneg) hle

/-- One number has one rounding, but for the sign of zero. -/
theorem IsNearest.value_eq (hf : 0 < f.precision) {a b : Binary} (ha : IsNearest f q a)
    (hb : IsNearest f q b) : a.value = b.value :=
  le_antisymm (ha.le_of_le hf hb le_rfl) (hb.le_of_le hf ha le_rfl)

/-- A number of the format with the value of the nearest one is the nearest one. -/
theorem IsNearest.congr (hf : 0 < f.precision) {a : Binary} {t : Bool} (ha : IsNearest f q a)
    (hn : Canonical f n x) (hvalue : a.value = (finite t n x).value) : IsNearest f q (finite t n x) := by
  obtain @⟨s, m, e, hm, hq, hsign⟩ := ha
  have habs : (m : ℚ) * 2 ^ e = n * 2 ^ x := by
    have h := congrArg abs hvalue
    rwa [value, value, abs_withSign s (by positivity), abs_withSign t (by positivity)] at h
  have hself := roundsTo_self f m e
  obtain ⟨rfl, rfl⟩ := RoundsTo.unique hf hm hn hself (habs ▸ roundsTo_self f n x) (by positivity)
  exact ⟨hn, hq, hvalue ▸ hsign⟩

/-! ## The nearest number of a format -/

/-- The whole number of units nearest to a magnitude is a rounding, unless the units are too coarse below a
power of two. -/
theorem roundsTo_of_nearestTo (h : NearestTo m (q / 2 ^ e))
    (hleading : m = 2 ^ (f.precision - 1) → f.minExponent < e → (m : ℚ) * 2 ^ e ≤ q) : RoundsTo f m e q := by
  have hunit : (0 : ℚ) < 2 ^ e := by positivity
  have hupper : q ≤ (m + 1 / 2) * 2 ^ e := (div_le_iff₀ hunit).1 h.upper
  by_cases hgap : m = 2 ^ (f.precision - 1) ∧ f.minExponent < e
  · have hone : lowerGap f m e = 1 := if_pos hgap
    have hlow := hleading hgap.1 hgap.2
    have hlower : ((m : ℚ) - lowerGap f m e / 4) * 2 ^ e < q := by
      rw [hone, Nat.cast_one]
      linarith
    refine ⟨hlower.le, hupper, h.tie.imp id fun ht => ⟨hlower, ?_⟩⟩
    exact (div_lt_iff₀ hunit).1 ht.2
  · have htwo : lowerGap f m e = 2 := if_neg hgap
    have hhalf : (m : ℚ) - lowerGap f m e / 4 = m - 1 / 2 := by
      rw [htwo]
      norm_num
    refine ⟨?_, hupper, h.tie.imp id fun ht => ⟨?_, ?_⟩⟩
    · rw [hhalf]
      exact (le_div_iff₀ hunit).1 h.lower
    · rw [hhalf]
      exact (lt_div_iff₀ hunit).1 ht.1
    · exact (div_lt_iff₀ hunit).1 ht.2

/-- A carry is a rounding up to the least number of the next exponent. -/
theorem roundsTo_of_carry (hf : 1 < f.precision) (hmin : f.minExponent ≤ e)
    (h : NearestTo (2 ^ f.precision) (q / 2 ^ e)) (hlt : q < ((2 ^ f.precision : ℕ) : ℚ) * 2 ^ e) :
    RoundsTo f (2 ^ (f.precision - 1)) (e + 1) q := by
  have hunit : (0 : ℚ) < 2 ^ e := by positivity
  have htwo := two_pow_precision_cast (f := f) (by omega)
  have hnext := two_zpow_succ e
  have hone : lowerGap f (2 ^ (f.precision - 1)) (e + 1) = 1 := if_pos ⟨rfl, by omega⟩
  have heven : (2 : ℕ) ^ (f.precision - 1) % 2 = 0 := by
    obtain ⟨k, hk⟩ : ∃ k, f.precision - 1 = k + 1 := ⟨f.precision - 2, by omega⟩
    rw [hk, Nat.pow_succ']
    exact Nat.mul_mod_right 2 _
  have hlower := (le_div_iff₀ hunit).1 h.lower
  rw [htwo] at hlower hlt
  refine ⟨?_, ?_, .inl heven⟩
  · rw [hone, hnext, Nat.cast_one]
    linarith
  · rw [hnext]
    linarith

/-- A ratio that the format has room for is rounded to the number that it rounds to. -/
theorem exists_nearest_eq (hf : 1 < f.precision) (hrange : f.minExponent < f.maxExponent) (s : Bool) {d : ℕ}
    (hn : 0 < n) (hd : 0 < d) (h : (n : ℚ) / d < 2 ^ (f.maxExponent + (f.precision - 1))) :
    ∃ m e, nearest f s n d = finite s m e ∧ Canonical f m e ∧ RoundsTo f m e (n / d) := by
  have hf' : 0 < f.precision := by omega
  have hisOf : IsOf f (nearest f s n d) := nearest_isOf hf' hrange.le s hd
  have hlog := floorLog2_lt hn hd h
  generalize he : exponentOf f n d = e
  obtain ⟨hmin, hmax⟩ : f.minExponent ≤ e ∧ e < f.maxExponent := by
    unfold exponentOf at he
    omega
  generalize hm : roundDiv (n * 2 ^ (-e).toNat) (d * 2 ^ e.toNat) = m
  have hnear : NearestTo m (n / d / 2 ^ e) := (roundDiv_scaled_eq_iff hd).1 hm
  rw [nearest_eq s hn hd he hnear] at hisOf ⊢
  by_cases hcarry : m = 2 ^ f.precision
  · have hlt := lt_of_exponentOf hf' hn hd he
    rw [if_pos hcarry, if_neg (by omega), hcarry, two_pow_precision_half hf'] at hisOf ⊢
    exact ⟨_, _, rfl, hisOf, roundsTo_of_carry hf hmin (hcarry ▸ hnear) hlt⟩
  · rw [if_neg hcarry, if_neg (by omega)] at hisOf ⊢
    refine ⟨_, _, rfl, hisOf, roundsTo_of_nearestTo hnear fun hfull hlt => ?_⟩
    rw [hfull]
    exact le_of_exponentOf hf' hn hd he hlt

/-- A whole number that the format has room for becomes the nearest one. -/
theorem ofInt_isNearest (hf : 1 < f.precision) (hmin : f.minExponent < f.maxExponent) {k : ℤ}
    (h : (k.natAbs : ℚ) < 2 ^ (f.maxExponent + (f.precision - 1))) : IsNearest f k (ofInt f k) := by
  have habs : |(k : ℚ)| = (k.natAbs : ℚ) / (1 : ℕ) := by
    rw [Nat.cast_one, div_one, Nat.cast_natAbs, Int.cast_abs]
  have hsign : decide ((k : ℚ) < 0) = decide (k < 0) := by
    rw [decide_eq_decide, Int.cast_lt_zero]
  unfold ofInt
  rcases Nat.eq_zero_or_pos k.natAbs with hzero | hpos
  · have hk : k = 0 := Int.natAbs_eq_zero.1 hzero
    have hcanonical : Canonical f 0 f.minExponent := ⟨Nat.two_pow_pos _, le_rfl, hmin.le, .inr rfl⟩
    rw [hzero, nearest_zero, hk, Int.cast_zero]
    have hself := isNearest_self (s := decide ((0 : ℤ) < 0)) hcanonical
    rwa [value_zero] at hself
  · have hratio : (k.natAbs : ℚ) / (1 : ℕ) < 2 ^ (f.maxExponent + (f.precision - 1)) := by
      rw [Nat.cast_one, div_one]
      exact h
    obtain ⟨m, e, hround, hcanonical, hrounds⟩ := exists_nearest_eq hf hmin (k < 0) hpos Nat.one_pos hratio
    rw [hround]
    refine ⟨hcanonical, ?_, ?_⟩
    · rw [habs]
      exact hrounds
    · rw [hsign]
      rfl

/-! ## Infinities -/

/-- The value of a number, with an infinity at either end of the rational numbers. -/
def extended : Binary → WithBot (WithTop ℚ)
  | infinity s => if s then ⊥ else ⊤
  | x => ((x.value : WithTop ℚ) : WithBot (WithTop ℚ))

theorem compare_coe (a b : ℚ) :
    compare ((a : WithTop ℚ) : WithBot (WithTop ℚ)) ((b : WithTop ℚ) : WithBot (WithTop ℚ)) = compare a b := by
  have hmono : StrictMono fun q : ℚ => ((q : WithTop ℚ) : WithBot (WithTop ℚ)) :=
    WithBot.coe_strictMono.comp WithTop.coe_strictMono
  rw [← cmp_eq_compare, ← cmp_eq_compare]
  exact hmono.cmp_map_eq a b

/-- Numbers are in the order of their values. -/
theorem compare?_extended {a b : Binary} (ha : a ≠ nan) (hb : b ≠ nan) :
    a.compare? b = some (compare a.extended b.extended) := by
  cases a with
  | nan => exact absurd rfl ha
  | infinity s =>
    cases b with
    | nan => exact absurd rfl hb
    | infinity t =>
      have hlt : (⊥ : WithBot (WithTop ℚ)) < ((⊤ : WithTop ℚ) : WithBot (WithTop ℚ)) := WithBot.bot_lt_coe _
      cases s <;> cases t
      · exact congrArg some (compare_eq_iff_eq.2 rfl).symm
      · exact congrArg some (compare_gt_iff_gt.2 hlt).symm
      · exact congrArg some (compare_lt_iff_lt.2 hlt).symm
      · exact congrArg some (compare_eq_iff_eq.2 rfl).symm
    | finite t n x =>
      cases s
      · exact congrArg some (compare_gt_iff_gt.2 (WithBot.coe_lt_coe.2 (WithTop.coe_lt_top _))).symm
      · exact congrArg some (compare_lt_iff_lt.2 (WithBot.bot_lt_coe _)).symm
  | finite s m e =>
    cases b with
    | nan => exact absurd rfl hb
    | infinity t =>
      cases t
      · exact congrArg some (compare_lt_iff_lt.2 (WithBot.coe_lt_coe.2 (WithTop.coe_lt_top _))).symm
      · exact congrArg some (compare_gt_iff_gt.2 (WithBot.bot_lt_coe _)).symm
    | finite t n x =>
      rw [compare?_finite]
      exact congrArg some (compare_coe _ _).symm

/-! ## The order of a number and of the nearest one -/

theorem coe_le_coe_iff {a b : ℚ} :
    ((a : WithTop ℚ) : WithBot (WithTop ℚ)) ≤ ((b : WithTop ℚ) : WithBot (WithTop ℚ)) ↔ a ≤ b := by
  rw [WithBot.coe_le_coe, WithTop.coe_le_coe]

theorem IsNearest.extended_eq {a : Binary} (h : IsNearest f q a) :
    a.extended = ((a.value : WithTop ℚ) : WithBot (WithTop ℚ)) := by
  cases h
  rfl

theorem IsNearest.le_extended (hf : 0 < f.precision) {a b : Binary} (ha : IsNearest f q a) (hb : IsOf f b)
    (h : b.extended ≤ ((q : WithTop ℚ) : WithBot (WithTop ℚ))) : b.extended ≤ a.extended := by
  rw [ha.extended_eq]
  cases b with
  | nan => cases hb
  | infinity t =>
    cases t
    · exact absurd h (not_le.2 (WithBot.coe_lt_coe.2 (WithTop.coe_lt_top q)))
    · exact bot_le
  | finite t n x =>
    exact coe_le_coe_iff.2 (IsNearest.le_of_le hf (isNearest_self hb) ha (coe_le_coe_iff.1 h))

theorem IsNearest.extended_le (hf : 0 < f.precision) {a b : Binary} (ha : IsNearest f q a) (hb : IsOf f b)
    (h : ((q : WithTop ℚ) : WithBot (WithTop ℚ)) ≤ b.extended) : a.extended ≤ b.extended := by
  rw [ha.extended_eq]
  cases b with
  | nan => cases hb
  | infinity t =>
    cases t
    · exact WithBot.coe_le_coe.2 le_top
    · exact absurd h (not_le.2 (WithBot.bot_lt_coe _))
  | finite t n x =>
    exact coe_le_coe_iff.2 (ha.le_of_le hf (isNearest_self hb) (coe_le_coe_iff.1 h))

/-- The numbers of a format that are equal to the nearest one are nearest ones. -/
theorem IsNearest.extended_eq_iff (hf : 0 < f.precision) {a b : Binary} (ha : IsNearest f q a)
    (hb : IsOf f b) : a.extended = b.extended ↔ IsNearest f q b := by
  constructor
  · intro h
    rw [ha.extended_eq] at h
    cases b with
    | nan => cases hb
    | infinity t => cases t <;> cases h
    | finite t n x => exact ha.congr hf hb (WithTop.coe_injective (WithBot.coe_injective h))
  · intro h
    rw [ha.extended_eq, h.extended_eq, ha.value_eq hf h]

/-- Beside a number of the format, the nearest one is in the order of the exact value, or they are equal. -/
theorem IsNearest.compare_eq (hf : 0 < f.precision) {a b : Binary} (ha : IsNearest f q a) (hb : IsOf f b)
    (hne : compare a.extended b.extended ≠ .eq) :
    compare a.extended b.extended = compare ((q : WithTop ℚ) : WithBot (WithTop ℚ)) b.extended := by
  rcases lt_trichotomy a.extended b.extended with hlt | heq | hgt
  · have hexact : ((q : WithTop ℚ) : WithBot (WithTop ℚ)) < b.extended :=
      lt_of_not_ge fun h => not_le.2 hlt (ha.le_extended hf hb h)
    rw [compare_lt_iff_lt.2 hlt, compare_lt_iff_lt.2 hexact]
  · exact absurd (compare_eq_iff_eq.2 heq) hne
  · have hexact : b.extended < ((q : WithTop ℚ) : WithBot (WithTop ℚ)) :=
      lt_of_not_ge fun h => not_le.2 hgt (ha.extended_le hf hb h)
    rw [compare_gt_iff_gt.2 hgt, compare_gt_iff_gt.2 hexact]

end RecordQuery.Binary
