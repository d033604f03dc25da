import RecordQuery.Proofs.Number.Nearest
import RecordQuery.Proofs.Number.Text
import RecordQuery.Proofs.ScalarOrder

/-!
# The order of floats and whole numbers

A signed whole number stands beside a float as the double nearest to it. So the two are equal just if the
float is that double, and else they are in the order of their exact values. Whole numbers are not rounded
beside each other, and two of them can have one nearest double; rounding keeps the order, though, so nothing
worse comes of it:

    a.AtMost b → x ≤ y, where x and y are a and b as doubles                              (double_mono)
    a.compare? b = some o → o = compare x y, where one is a float                    (compare_of_float)

So less than is transitive where there are orders, and at most fails to be only from one whole number to a
lesser one, through a float that is nearest to both (`number_order`).
-/

namespace RecordQuery

namespace Scalar

/-- Whole numbers of 64 bits, doubles and decimals. -/
def IsNumber : Scalar → Prop
  | int n => (IntegerRange.signed 64).contains n = true
  | uint n => (IntegerRange.unsigned 64).contains n = true
  | float x => x.IsOf .double
  | decimal _ => True
  | _ => False

/-- The double that a signed whole number or a float stands for beside a float. -/
def double? : Scalar → Option Binary
  | int n => some (.ofInt .double n)
  | float x => some x
  | _ => none

/-! ## Doubles -/

/-- Whole numbers of 64 bits are far below the greatest double. -/
theorem ofInt_isNearest {n : ℤ} (hn : (Scalar.int n).IsNumber) :
    Binary.IsNearest .double n (.ofInt .double n) := by
  have hbits : n.natAbs < 2 ^ 64 := by
    obtain ⟨hlow, hhigh⟩ := IntegerRange.contains_iff.1 hn
    have hlow' : (-9223372036854775808 : ℤ) ≤ n := hlow
    have hhigh' : n ≤ 9223372036854775807 := hhigh
    omega
  refine Binary.ofInt_isNearest (by decide) (by decide) ?_
  calc (n.natAbs : ℚ) < 2 ^ (64 : ℤ) := by exact_mod_cast hbits
    _ ≤ 2 ^ (Binary.Format.double.maxExponent + (Binary.Format.double.precision - 1)) :=
      zpow_le_zpow_right₀ (by norm_num) (by decide)

variable {a b c : Scalar} {x y z : Binary}

theorem exists_float (h : a.kind = .float) : ∃ f, a = .float f := by
  cases a with
  | float f => exact ⟨f, rfl⟩
  | _ => cases h

theorem exists_int (hx : a.double? = some x) (h : a.kind ≠ .float) : ∃ n, a = .int n := by
  cases a with
  | int n => exact ⟨n, rfl⟩
  | float f => exact absurd rfl h
  | _ => cases hx

theorem double_ne_nan (ha : a.IsNumber) (hx : a.double? = some x) : x ≠ .nan := by
  cases a with
  | int n =>
    cases hx
    intro hnan
    have h := ofInt_isNearest ha
    rw [hnan] at h
    cases h
  | float f =>
    cases hx
    exact Binary.IsOf.ne_nan ha
  | _ => cases hx

/-- Beside a float, numbers are compared as the doubles that they stand for. -/
theorem exists_doubles (hfloat : a.kind = .float ∨ b.kind = .float) {o : Ordering}
    (h : a.compare? b = some o) :
    ∃ x y, a.double? = some x ∧ b.double? = some y ∧ x.compare? y = some o := by
  cases a with
  | float f =>
    cases b with
    | int n => exact ⟨_, _, rfl, rfl, h⟩
    | float g => exact ⟨_, _, rfl, rfl, h⟩
    | _ => cases h
  | int n =>
    cases b with
    | float g => exact ⟨_, _, rfl, rfl, h⟩
    | _ => rcases hfloat with hkind | hkind <;> cases hkind
  | _ =>
    cases b with
    | float g => cases h
    | _ => rcases hfloat with hkind | hkind <;> cases hkind

theorem compare_of_float (ha : a.IsNumber) (hb : b.IsNumber) (hfloat : a.kind = .float ∨ b.kind = .float)
    (hx : a.double? = some x) (hy : b.double? = some y) {o : Ordering} (h : a.compare? b = some o) :
    o = compare x.extended y.extended := by
  obtain ⟨x', y', hx', hy', hcompare⟩ := exists_doubles hfloat h
  cases hx.symm.trans hx'
  cases hy.symm.trans hy'
  rw [Binary.compare?_extended (double_ne_nan ha hx) (double_ne_nan hb hy)] at hcompare
  exact (Option.some.inj hcompare).symm

/-- A greater number does not stand for a lesser double. -/
theorem double_mono (ha : a.IsNumber) (hb : b.IsNumber) (hx : a.double? = some x) (hy : b.double? = some y)
    (h : a.AtMost b) : x.extended ≤ y.extended := by
  obtain ⟨o, hab⟩ := exists_of_atMost h
  rw [atMost_iff hab] at h
  by_cases hfloat : a.kind = .float ∨ b.kind = .float
  · rw [compare_of_float ha hb hfloat hx hy hab] at h
    exact compare_le_iff_le.1 (Ordering.isLE_iff_ne_gt.1 h)
  · -- two whole numbers are compared as they are
    obtain ⟨n, rfl⟩ := exists_int hx fun hfa => hfloat (.inl hfa)
    obtain ⟨k, rfl⟩ := exists_int hy fun hfb => hfloat (.inr hfb)
    cases hx
    cases hy
    cases hab
    have hle : n ≤ k := compare_le_iff_le.1 (Ordering.isLE_iff_ne_gt.1 h)
    have hn := ofInt_isNearest ha
    have hk := ofInt_isNearest hb
    rw [hn.extended_eq, hk.extended_eq, Binary.coe_le_coe_iff]
    exact hn.le_of_le (by decide) hk (Int.cast_le.2 hle)

/-! ## Three numbers -/

theorem exact_of_ne_float (ha : a.IsNumber) (h : a.kind ≠ .float) : a.kind.isExact = true := by
  cases a with
  | int n => rfl
  | uint n => rfl
  | decimal d => rfl
  | float f => exact absurd rfl h
  | _ => cases ha

/-- Three numbers that are compared in pairs are no floats, or stand for doubles. -/
theorem exact_or_doubles (ha : a.IsNumber) (hb : b.IsNumber) (hc : c.IsNumber) {o o' o'' : Ordering}
    (hab : a.compare? b = some o) (hbc : b.compare? c = some o') (hac : a.compare? c = some o'') :
    (a.kind.isExact = true ∧ b.kind.isExact = true ∧ c.kind.isExact = true) ∨
      ((a.kind = .float ∨ b.kind = .float ∨ c.kind = .float) ∧
        ∃ x y z, a.double? = some x ∧ b.double? = some y ∧ c.double? = some z) := by
  by_cases hfa : a.kind = .float
  · obtain ⟨x, y, hx, hy, -⟩ := exists_doubles (.inl hfa) hab
    obtain ⟨-, z, -, hz, -⟩ := exists_doubles (.inl hfa) hac
    exact .inr ⟨.inl hfa, x, y, z, hx, hy, hz⟩
  by_cases hfb : b.kind = .float
  · obtain ⟨x, y, hx, hy, -⟩ := exists_doubles (.inr hfb) hab
    obtain ⟨-, z, -, hz, -⟩ := exists_doubles (.inl hfb) hbc
    exact .inr ⟨.inr (.inl hfb), x, y, z, hx, hy, hz⟩
  by_cases hfc : c.kind = .float
  · obtain ⟨x, z, hx, hz, -⟩ := exists_doubles (.inr hfc) hac
    obtain ⟨y, -, hy, -, -⟩ := exists_doubles (.inr hfc) hbc
    exact .inr ⟨.inr (.inr hfc), x, y, z, hx, hy, hz⟩
  · exact .inl ⟨exact_of_ne_float ha hfa, exact_of_ne_float hb hfb, exact_of_ne_float hc hfc⟩

/-- Less than is transitive. -/
theorem lt_trans_of_number (ha : a.IsNumber) (hb : b.IsNumber) (hc : c.IsNumber)
    (hab : a.compare? b = some .lt) (hbc : b.compare? c = some .lt) {o : Ordering}
    (hac : a.compare? c = some o) : o = .lt := by
  rcases exact_or_doubles ha hb hc hab hbc hac with ⟨hea, heb, hec⟩ | ⟨hfloat, x, y, z, hx, hy, hz⟩
  · obtain ⟨p, hp⟩ := exists_rational hea
    obtain ⟨q, hq⟩ := exists_rational heb
    obtain ⟨r, hr⟩ := exists_rational hec
    rw [compare?_rational hp hq, Option.some.injEq, compare_lt_iff_lt] at hab
    rw [compare?_rational hq hr, Option.some.injEq, compare_lt_iff_lt] at hbc
    rw [compare?_rational hp hr, Option.some.injEq] at hac
    rw [← hac, compare_lt_iff_lt]
    exact hab.trans hbc
  · have hxy := double_mono ha hb hx hy ((atMost_iff hab).2 rfl)
    have hyz := double_mono hb hc hy hz ((atMost_iff hbc).2 rfl)
    -- one of the two steps is one between doubles
    have hlt : x.extended < z.extended := by
      by_cases hfloat' : a.kind = .float ∨ b.kind = .float
      · exact (compare_lt_iff_lt.1 (compare_of_float ha hb hfloat' hx hy hab).symm).trans_le hyz
      · have hfc : c.kind = .float := by tauto
        exact hxy.trans_lt (compare_lt_iff_lt.1 (compare_of_float hb hc (.inr hfc) hy hz hbc).symm)
    by_contra hne
    have hle : z.extended ≤ x.extended := by
      refine double_mono hc ha hz hx ((atMost_iff (compare?_eq_swap hac)).2 ?_)
      cases o with
      | lt => exact absurd rfl hne
      | eq => rfl
      | gt => rfl
    exact absurd hle (not_le.2 hlt)

/-- At most is transitive, but from one whole number to a lesser one through a float nearest to both. -/
theorem atMost_trans_of_number (ha : a.IsNumber) (hb : b.IsNumber) (hc : c.IsNumber)
    (hab : a.AtMost b) (hbc : b.AtMost c) {o : Ordering} (hac : a.compare? c = some o) :
    a.AtMost c ∨ ∃ n k f, a = .int n ∧ b = .float f ∧ c = .int k ∧ k < n ∧
      Binary.IsNearest .double n f ∧ Binary.IsNearest .double k f := by
  obtain ⟨o₁, ho₁⟩ := exists_of_atMost hab
  obtain ⟨o₂, ho₂⟩ := exists_of_atMost hbc
  by_cases hnot : a.AtMost c
  · exact .inl hnot
  have hgt : o = .gt := by
    rw [atMost_iff hac] at hnot
    cases o with
    | lt => exact absurd rfl hnot
    | eq => exact absurd rfl hnot
    | gt => rfl
  subst hgt
  have hca : c.AtMost a := (atMost_iff (compare?_eq_swap hac)).2 rfl
  rcases exact_or_doubles ha hb hc ho₁ ho₂ hac with ⟨hea, heb, hec⟩ | ⟨hfloat, x, y, z, hx, hy, hz⟩
  · exact absurd (atMost_trans (.inl ⟨hea, heb⟩) (.inl ⟨heb, hec⟩) hab hbc) hnot
  · have hxy := double_mono ha hb hx hy hab
    have hyz := double_mono hb hc hy hz hbc
    have hzx := double_mono hc ha hz hx hca
    -- the doubles are equal, so the first and the last one are no floats
    have hends : ¬ (a.kind = .float ∨ c.kind = .float) := by
      intro h
      have heq := compare_of_float ha hc h hx hz hac
      exact absurd (compare_gt_iff_gt.1 heq.symm) (not_lt.2 (hxy.trans hyz))
    right
    obtain ⟨f, rfl⟩ : ∃ f, b = .float f := exists_float (by tauto)
    obtain ⟨n, rfl⟩ := exists_int hx fun hfa => hends (.inl hfa)
    obtain ⟨k, rfl⟩ := exists_int hz fun hfc => hends (.inr hfc)
    cases hx
    cases hz
    obtain rfl : f = y := Option.some.inj hy
    have hkn : k < n := compare_gt_iff_gt.1 (Option.some.inj hac)
    exact ⟨n, k, f, rfl, rfl, rfl, hkn,
      ((ofInt_isNearest ha).extended_eq_iff (by decide) hb).1 (le_antisymm hxy (hyz.trans hzx)),
      ((ofInt_isNearest hc).extended_eq_iff (by decide) hb).1 (le_antisymm (hzx.trans hxy) hyz)⟩

/-! ## A whole number and a float -/

theorem exists_double_of_small {n : ℤ} (h : n.natAbs ≤ 2 ^ 53) :
    ∃ f : Binary, f.IsOf .double ∧ f.extended = ((n : ℚ) : WithTop ℚ) := by
  have hcanonical : ∃ m e, Binary.Canonical .double m e ∧ (m : ℚ) * 2 ^ e = n.natAbs := by
    rcases Nat.lt_or_eq_of_le h with hlt | heq
    · obtain ⟨m, e, hcanonical, hvalue⟩ := Binary.exists_canonical (f := .double) hlt (e := 0) (by decide) (by decide)
      exact ⟨m, e, hcanonical, by rw [hvalue, zpow_zero, mul_one]⟩
    · refine ⟨2 ^ 52, 1, ⟨by decide, by decide, by decide, .inl (by decide)⟩, ?_⟩
      rw [heq]
      norm_num
  obtain ⟨m, e, hm, hvalue⟩ := hcanonical
  refine ⟨.finite (n < 0) m e, hm, ?_⟩
  have hsigned : (Binary.finite (n < 0) m e).value = n := by
    rw [Binary.value, hvalue, Binary.withSign, Nat.cast_natAbs, Int.cast_abs]
    by_cases hneg : n < 0
    · have hneg' : (n : ℚ) < 0 := Int.cast_lt_zero.2 hneg
      rw [decide_eq_true hneg, if_pos rfl, abs_of_neg hneg', neg_neg]
    · have hneg' : (0 : ℚ) ≤ n := Int.cast_nonneg (not_lt.1 hneg)
      rw [decide_eq_false hneg, if_neg Bool.false_ne_true, abs_of_nonneg hneg']
  rw [← hsigned]
  rfl

/-- A whole number and a float are equal just if the float is the double nearest to the number. Else they are
in the order of their exact values, and always so if the number is a double itself. -/
theorem int_compare?_float {n : ℤ} {f : Binary} (hn : (Scalar.int n).IsNumber) (hf : (Scalar.float f).IsNumber) :
    ∃ o, (Scalar.int n).compare? (.float f) = some o ∧ (Scalar.float f).compare? (.int n) = some o.swap ∧
      (o = .eq ↔ Binary.IsNearest .double n f) ∧
      (o ≠ .eq ∨ n.natAbs ≤ 2 ^ 53 ∨ (∃ g : Binary, g.IsOf .double ∧ g.extended = ((n : ℚ) : WithTop ℚ)) →
        o = compare (((n : ℚ) : WithTop ℚ) : WithBot (WithTop ℚ)) f.extended) := by
  have hnearest := ofInt_isNearest hn
  have hcompare : (Scalar.int n).compare? (.float f) =
      some (compare (Binary.ofInt .double n).extended f.extended) :=
    Binary.compare?_extended (double_ne_nan hn rfl) (double_ne_nan hf rfl)
  have hdouble (h : ∃ g : Binary, g.IsOf .double ∧ g.extended = ((n : ℚ) : WithTop ℚ)) :
      (Binary.ofInt .double n).extended = ((n : ℚ) : WithTop ℚ) := by
    obtain ⟨g, hg, hvalue⟩ := h
    rw [← hvalue]
    exact le_antisymm (hnearest.extended_le (by decide) hg hvalue.ge)
      (hnearest.le_extended (by decide) hg hvalue.le)
  refine ⟨_, hcompare, ?_, ?_, ?_⟩
  · exact compare?_eq_swap hcompare
  · rw [compare_eq_iff_eq]
    exact hnearest.extended_eq_iff (by decide) hf
  · rintro (hne | hsmall | hexact)
    · exact hnearest.compare_eq (by decide) hf hne
    · rw [hdouble (exists_double_of_small hsmall)]
    · rw [hdouble hexact]

end Scalar

/-! ## Top theorem (proved from the lemmas above) -/

/-- A signed whole number and a float that is a number always have an order, and the opposite one when turned
round. They are equal just if the float is the double nearest to the whole number, and else in the order of
their exact values; so they are in that order if the whole number is a double, as all up to `2 ^ 53` are.
Among numbers that have orders, less than is transitive, and so is at most, but from one whole number to a
lesser one through a float that is nearest to both. -/
theorem number_order {n : ℤ} {f : Binary} {a b c : Scalar} (hn : (Scalar.int n).IsNumber)
    (hf : (Scalar.float f).IsNumber) (ha : a.IsNumber) (hb : b.IsNumber) (hc : c.IsNumber)
    (hac : ∃ o, a.compare? c = some o) :
    (∃ o, (Scalar.int n).compare? (.float f) = some o ∧ (Scalar.float f).compare? (.int n) = some o.swap ∧
      (o = .eq ↔ Binary.IsNearest .double n f) ∧
      (o ≠ .eq ∨ n.natAbs ≤ 2 ^ 53 ∨ (∃ g : Binary, g.IsOf .double ∧ g.extended = ((n : ℚ) : WithTop ℚ)) →
        o = compare (((n : ℚ) : WithTop ℚ) : WithBot (WithTop ℚ)) f.extended)) ∧
    (a.compare? b = some .lt → b.compare? c = some .lt → a.compare? c = some .lt) ∧
    (a.AtMost b → b.AtMost c → a.AtMost c ∨
      ∃ i j g, a = .int i ∧ b = .float g ∧ c = .int j ∧ j < i ∧
        Binary.IsNearest .double i g ∧ Binary.IsNearest .double j g) := by
  obtain ⟨o, hac⟩ := hac
  refine ⟨Scalar.int_compare?_float hn hf, fun hab hbc => ?_, fun hab hbc => ?_⟩
  · rw [hac, Scalar.lt_trans_of_number ha hb hc hab hbc hac]
  · exact Scalar.atMost_trans_of_number ha hb hc hab hbc hac

/-- The double `2 ^ 53 + 2` stands in the order of the exact values beside numbers that are no doubles. -/
theorem number_order_large :
    (Scalar.float (.finite false 4503599627370497 1)).IsNumber ∧
    (Scalar.int 9007199254740993).compare? (.float (.finite false 4503599627370497 1)) = some .lt ∧
    compare ((((9007199254740993 : ℤ) : ℚ) : WithTop ℚ) : WithBot (WithTop ℚ))
      (Binary.finite false 4503599627370497 1).extended = .lt ∧
    (Scalar.float (.finite false 4503599627370497 1)).compare? (.int 9007199254740995) = some .lt ∧
    (Scalar.int 9007199254740993).compare? (.int 9007199254740995) = some .lt := by
  have hfloat : (Scalar.float (.finite false 4503599627370497 1)).IsNumber :=
    ⟨by decide, by decide, by decide, .inl (by decide)⟩
  have hint (k : ℤ) (hk : (IntegerRange.signed 64).contains k = true) : (Scalar.int k).IsNumber := hk
  have hbelow : (Scalar.int 9007199254740993).compare? (.float (.finite false 4503599627370497 1)) = some .lt := by
    decide +kernel
  have habove : (Scalar.float (.finite false 4503599627370497 1)).compare? (.int 9007199254740995) = some .lt := by
    decide +kernel
  obtain ⟨⟨o, ho, -, -, hexact⟩, hlt, -⟩ := number_order (hint 9007199254740993 (by decide)) hfloat
    (hint 9007199254740993 (by decide)) hfloat (hint 9007199254740995 (by decide)) ⟨.lt, rfl⟩
  obtain rfl : o = .lt := Option.some.inj (ho.symm.trans hbelow)
  exact ⟨hfloat, hbelow, (hexact (.inl (by decide))).symm, habove, hlt hbelow habove⟩

/-- The double `2 ^ 53` equals the greater number `2 ^ 53 + 1`, for which there is no double, and so it leads
from that number to a lesser one. Other numbers have no order beside a float. -/
theorem float_order_not_exact :
    (Scalar.int 9007199254740993).compare? (.float (.finite false 4503599627370496 1)) = some .eq ∧
    compare (((9007199254740993 : ℚ) : WithTop ℚ) : WithBot (WithTop ℚ))
      (Binary.finite false 4503599627370496 1).extended = .gt ∧
    (Scalar.int 9007199254740993).AtMost (.float (.finite false 4503599627370496 1)) ∧
    (Scalar.float (.finite false 4503599627370496 1)).AtMost (.int 9007199254740992) ∧
    ¬ (Scalar.int 9007199254740993).AtMost (.int 9007199254740992) ∧
    (Scalar.uint 1).compare? (.float (.finite false 4503599627370496 (-52))) = none ∧
    (Scalar.decimal ⟨1, 0⟩).compare? (.float (.finite false 4503599627370496 (-52))) = none := by
  have hless : (Binary.finite false 4503599627370496 1).value < 9007199254740993 := by
    norm_num [Binary.value, Binary.withSign]
  have hexact : (Binary.finite false 4503599627370496 1).extended <
      (((9007199254740993 : ℚ) : WithTop ℚ) : WithBot (WithTop ℚ)) :=
    WithBot.coe_lt_coe.2 (WithTop.coe_lt_coe.2 hless)
  unfold Scalar.AtMost
  exact ⟨by decide +kernel, compare_gt_iff_gt.2 hexact, by decide +kernel, by decide +kernel, by decide +kernel,
    rfl, rfl⟩

end RecordQuery
