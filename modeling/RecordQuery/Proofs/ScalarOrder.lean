import Mathlib.Data.Rat.Cast.Order
import RecordQuery.Condition.Holds
import RecordQuery.Proofs.Kinds
import RecordQuery.Proofs.Number.Values

/-!
# The order of scalars

Whole numbers and decimals stand for rational numbers, and they are in the order of these, whatever their
kinds. All other scalars but floats have an order among those of their own kind. Turned round, two scalars
have the opposite order, floats included:

    a.rational? = some x → b.rational? = some y → a.compare? b = some (compare x y)     (compare?_rational)
    b.compare? a = (a.compare? b).map Ordering.swap                                     (compare?_turned)
    a.Alike b → b.Alike c → a.AtMost b → b.AtMost c → a.AtMost c                        (atMost_trans)

Equal scalars are those that are at most each other, so all that is said of equality follows
(`scalar_order`).
-/

namespace RecordQuery

/-! ## Algorithm -/

/-- The kinds of the numbers that are no floats. -/
def ScalarKind.isExact : ScalarKind → Bool
  | int | uint | decimal => true
  | _ => false

namespace Scalar

/-- The exact value of a number that is no float. -/
def rational? : Scalar → Option ℚ
  | int n => some n
  | uint n => some n
  | decimal d => some d.value
  | _ => none

/-- Both are exact numbers, or both are of one kind, which is not that of floats. -/
def Alike (a b : Scalar) : Prop :=
  a.kind.isExact = true ∧ b.kind.isExact = true ∨ a.kind = b.kind ∧ a.kind ≠ .float

/-- The comparison `<=`. -/
def AtMost (a b : Scalar) : Prop := Comparator.le.admits (a.compare? b) = true

end Scalar

/-! ## Orders of the values of a kind -/

instance : Std.TransCmp Date.compare :=
  inferInstanceAs (Std.TransCmp (compareLex (compareOn Date.year)
    (compareLex (compareOn Date.month) (compareOn Date.day))))

instance : Std.TransCmp DateTime.compare :=
  inferInstanceAs (Std.TransCmp (compareLex (compareOn DateTime.instant)
    (compareOn fun t : DateTime => t.time.nanosecond)))

instance : Std.TransCmp Duration.compare :=
  inferInstanceAs (Std.TransCmp (compareOn Duration.nanoseconds))

instance : Std.TransCmp Decimal.compare := by
  have hvalue : Decimal.compare = compareOn Decimal.value := by
    funext a b
    exact Decimal.compare_eq_value a b
  rw [hvalue]
  infer_instance

/-! ## Lemmas -/

theorem compare_intCast (a b : ℤ) : compare a b = compare (a : ℚ) b :=
  compare_of_scaled one_pos (mul_one _).symm (mul_one _).symm

theorem compare_natCast (a b : ℕ) : compare a b = compare (a : ℚ) b :=
  calc compare a b = cmp a b := (cmp_eq_compare a b).symm
    _ = cmp (a : ℚ) b := (Nat.strictMono_cast.cmp_map_eq a b).symm
    _ = compare (a : ℚ) b := cmp_eq_compare _ _

theorem compare_ofInt_left (n : ℤ) (d : Decimal) : (Decimal.ofInt n).compare d = compare (n : ℚ) d.value := by
  rw [Decimal.compare_eq_value, Decimal.value_ofInt]

theorem compare_ofInt_right (d : Decimal) (n : ℤ) : d.compare (.ofInt n) = compare d.value (n : ℚ) := by
  rw [Decimal.compare_eq_value, Decimal.value_ofInt]

section

variable {α : Type} (cmp : α → α → Ordering)

theorem map_swap [Std.OrientedCmp cmp] (x y : α) :
    some (cmp y x) = (some (cmp x y)).map Ordering.swap := congrArg some Std.OrientedCmp.eq_swap

theorem admits_le_some (o : Ordering) : Comparator.le.admits (some o) = o.isLE := by
  cases o <;> rfl

theorem admits_le_trans [Std.TransCmp cmp] {x y z : α} (hxy : Comparator.le.admits (some (cmp x y)) = true)
    (hyz : Comparator.le.admits (some (cmp y z)) = true) :
    Comparator.le.admits (some (cmp x z)) = true := by
  rw [admits_le_some] at hxy hyz ⊢
  exact Std.TransCmp.isLE_trans hxy hyz

end

namespace Scalar

variable {a b c : Scalar}

/-- Exact numbers are in the order of their values. -/
theorem compare?_rational {x y : ℚ} (ha : a.rational? = some x) (hb : b.rational? = some y) :
    a.compare? b = some (compare x y) := by
  cases a with
  | int m =>
    cases ha
    cases b with
    | int n =>
      cases hb
      exact congrArg some (compare_intCast m n)
    | uint n =>
      cases hb
      exact congrArg some (compare_intCast m n)
    | decimal d =>
      cases hb
      exact congrArg some (compare_ofInt_left m d)
    | _ => cases hb
  | uint m =>
    cases ha
    cases b with
    | int n =>
      cases hb
      exact congrArg some (compare_intCast m n)
    | uint n =>
      cases hb
      exact congrArg some (compare_natCast m n)
    | decimal d =>
      cases hb
      exact congrArg some (compare_ofInt_left m d)
    | _ => cases hb
  | decimal d =>
    cases ha
    cases b with
    | int n =>
      cases hb
      exact congrArg some (compare_ofInt_right d n)
    | uint n =>
      cases hb
      exact congrArg some (compare_ofInt_right d n)
    | decimal d' =>
      cases hb
      exact congrArg some (Decimal.compare_eq_value d d')
    | _ => cases hb
  | _ => cases ha

/-- Every pair of kinds is compared both ways. -/
theorem compare?_turned (a b : Scalar) : b.compare? a = (a.compare? b).map Ordering.swap := by
  cases a <;> cases b
  case float.float x y => exact (Binary.compare?_swap x y).symm
  case int.float n y => exact (Binary.compare?_swap _ y).symm
  case float.int x n => exact (Binary.compare?_swap x _).symm
  case int.int | int.uint | int.decimal | uint.int | uint.uint | uint.decimal | decimal.int | decimal.uint |
      decimal.decimal => exact map_swap _ _ _
  case bool.bool | char.char | text.text | dateTime.dateTime | date.date | duration.duration =>
    exact map_swap _ _ _
  -- all other pairs have no order
  all_goals rfl

theorem compare?_eq_swap {o : Ordering} (h : a.compare? b = some o) : b.compare? a = some o.swap := by
  rw [compare?_turned a b, h]
  rfl

theorem exists_of_atMost (h : a.AtMost b) : ∃ o, a.compare? b = some o := by
  unfold AtMost at h
  cases hcompare : a.compare? b with
  | none =>
    rw [hcompare] at h
    cases h
  | some o => exact ⟨o, rfl⟩

theorem atMost_iff {o : Ordering} (h : a.compare? b = some o) : a.AtMost b ↔ o.isLE = true := by
  unfold AtMost
  rw [h, admits_le_some]

theorem equals_iff : a.equals b = true ↔ a.compare? b = some .eq := decide_eq_true_iff

/-- Equal scalars are those that are at most each other. -/
theorem equals_iff_atMost : a.equals b = true ↔ a.AtMost b ∧ b.AtMost a := by
  unfold AtMost
  rw [equals_iff, compare?_turned a b]
  rcases a.compare? b with - | - | - | - <;> decide

theorem exists_rational (h : a.kind.isExact = true) : ∃ x, a.rational? = some x := by
  cases a with
  | int n => exact ⟨_, rfl⟩
  | uint n => exact ⟨_, rfl⟩
  | decimal d => exact ⟨_, rfl⟩
  | _ => cases h

theorem Alike.exists_compare? (h : a.Alike b) : ∃ o, a.compare? b = some o := by
  rcases h with ⟨ha, hb⟩ | ⟨hkind, hfloat⟩
  · obtain ⟨x, hx⟩ := exists_rational ha
    obtain ⟨y, hy⟩ := exists_rational hb
    exact ⟨_, compare?_rational hx hy⟩
  · rw [← Option.isSome_iff_exists, Option.isSome_iff_ne_none]
    intro hnone
    -- only floats are not numbers
    have hnan {s : Scalar} (hs : s.isNaN = true) : s.kind = .float := by
      cases s with
      | float x => rfl
      | _ => cases hs
    rcases (compare?_eq_none_iff hkind).1 hnone with ha | hb
    · exact hfloat (hnan ha)
    · exact hfloat (hkind.trans (hnan hb))

theorem atMost_trans_of_kind (hab : a.kind = b.kind) (hbc : b.kind = c.kind) (hfloat : a.kind ≠ .float)
    (h : a.AtMost b) (h' : b.AtMost c) : a.AtMost c := by
  cases a <;> cases b <;> cases hab <;> cases c <;> cases hbc
  case float.float.refl.float.refl => exact absurd rfl hfloat
  all_goals exact admits_le_trans _ h h'

/-- Among scalars that are alike, `<=` is transitive. -/
theorem atMost_trans (hab : a.Alike b) (hbc : b.Alike c) (h : a.AtMost b) (h' : b.AtMost c) : a.AtMost c := by
  have hrational (ha : a.kind.isExact = true) (hb : b.kind.isExact = true) (hc : c.kind.isExact = true) :
      a.AtMost c := by
    obtain ⟨x, hx⟩ := exists_rational ha
    obtain ⟨y, hy⟩ := exists_rational hb
    obtain ⟨z, hz⟩ := exists_rational hc
    unfold AtMost at h h' ⊢
    rw [compare?_rational hx hy] at h
    rw [compare?_rational hy hz] at h'
    rw [compare?_rational hx hz]
    exact admits_le_trans compare h h'
  rcases hab with ⟨ha, hb⟩ | ⟨hkind, hfloat⟩
  · rcases hbc with ⟨-, hc⟩ | ⟨hkind, -⟩
    · exact hrational ha hb hc
    · exact hrational ha hb (hkind ▸ hb)
  · rcases hbc with ⟨hb, hc⟩ | ⟨hkind', -⟩
    · exact hrational (hkind ▸ hb) hb hc
    · exact atMost_trans_of_kind hkind hkind' hfloat h h'

theorem Alike.symm (h : a.Alike b) : b.Alike a := by
  rcases h with ⟨ha, hb⟩ | ⟨hkind, hfloat⟩
  · exact .inl ⟨hb, ha⟩
  · exact .inr ⟨hkind.symm, hkind ▸ hfloat⟩

theorem Alike.atMost_total (h : a.Alike b) : a.AtMost b ∨ b.AtMost a := by
  obtain ⟨o, ho⟩ := h.exists_compare?
  rw [atMost_iff ho, atMost_iff (compare?_eq_swap ho)]
  cases o <;> decide

theorem equals_comm (a b : Scalar) : b.equals a = a.equals b := by
  rw [Bool.eq_iff_iff, equals_iff_atMost, equals_iff_atMost, and_comm]

theorem equals_trans (hab : a.Alike b) (hbc : b.Alike c) (h : a.equals b = true) (h' : b.equals c = true) :
    a.equals c = true := by
  obtain ⟨h₁, h₂⟩ := equals_iff_atMost.1 h
  obtain ⟨h₁', h₂'⟩ := equals_iff_atMost.1 h'
  exact equals_iff_atMost.2 ⟨atMost_trans hab hbc h₁ h₁', atMost_trans hbc.symm hab.symm h₂' h₂⟩

end Scalar

/-! ## Top theorem (proved from the lemmas above) -/

/-- Whole numbers and decimals, in any mixture, are in the order of their exact values. Two scalars of
whatever kinds have the opposite order when turned round, or none both ways, and are equal both ways.
Scalars that are alike always have an order, and it is total and transitive, as is their equality. -/
theorem scalar_order (a b c : Scalar) :
    (∀ x y, a.rational? = some x → b.rational? = some y → a.compare? b = some (compare x y)) ∧
    b.compare? a = (a.compare? b).map Ordering.swap ∧ b.equals a = a.equals b ∧
    (a.Alike b → (∃ o, a.compare? b = some o) ∧ (a.AtMost b ∨ b.AtMost a)) ∧
    (a.Alike b → b.Alike c →
      (a.AtMost b → b.AtMost c → a.AtMost c) ∧
      (a.equals b = true → b.equals c = true → a.equals c = true)) :=
  ⟨fun _ _ => Scalar.compare?_rational, Scalar.compare?_turned a b, Scalar.equals_comm a b,
    fun hab => ⟨hab.exists_compare?, hab.atMost_total⟩,
    fun hab hbc => ⟨Scalar.atMost_trans hab hbc, Scalar.equals_trans hab hbc⟩⟩

/-- The greatest whole number of 64 bits comes between numbers of the other two kinds. -/
theorem scalar_order_greatest :
    (Scalar.int (-1)).compare? (.uint 18446744073709551615) =
      some (compare ((-1 : ℤ) : ℚ) (18446744073709551615 : ℕ)) ∧
    (Scalar.int (-1)).Alike (.uint 18446744073709551615) ∧
    (Scalar.uint 18446744073709551615).AtMost (.decimal ⟨184467440737095516155, 1⟩) ∧
    (Scalar.int (-1)).AtMost (.decimal ⟨184467440737095516155, 1⟩) := by
  obtain ⟨hvalues, -, -, -, htrans⟩ := scalar_order (.int (-1)) (.uint 18446744073709551615)
    (.decimal ⟨184467440737095516155, 1⟩)
  have hab : (Scalar.int (-1)).Alike (.uint 18446744073709551615) := .inl (by decide)
  have hbc : (Scalar.uint 18446744073709551615).AtMost (.decimal ⟨184467440737095516155, 1⟩) := by
    unfold Scalar.AtMost
    decide
  exact ⟨hvalues _ _ rfl rfl, hab, hbc, (htrans hab (.inl (by decide))).1 (by unfold Scalar.AtMost; decide) hbc⟩

end RecordQuery
