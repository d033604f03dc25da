import RecordQuery.Proofs.Number.Conversion
import RecordQuery.Proofs.Outcome

/-!
# Number literals, kept exactly

A number literal becomes a whole number of a type just if its value is a whole number that the type has, and
then it becomes that number. The test for a fraction, the conversion to 64 bits and the one to a smaller
range are three steps, and all that matters after them is the value:

    d.isWhole → d.value = d.truncate                                             (Decimal.value_of_isWhole)
    numberToInteger n r type field = .ok y  →  n.value is a k of r, and y = r.scalar k
                                                                            (exists_of_numberToInteger)
    (number n).coerce type nullable field = .ok w  ↔  n.value is a k of the type, and w is that k
                                                                                    (coerce_integer_iff)

Decimals take every number as it is written. `number_literal_kept_exactly` puts the five types together.
-/

namespace RecordQuery

/-- A number without a fraction is not changed when it is cut to a whole number. -/
theorem Decimal.value_of_isWhole {d : Decimal} (h : d.isWhole = true) : d.value = d.truncate := by
  unfold Decimal.truncate
  by_cases hscale : d.scale ≤ 0
  · rw [if_pos hscale, value, zpow_eq_pow 10 (by omega)]
    push_cast
    rfl
  · have hdvd : (10 : ℤ) ^ d.scale.toNat ∣ d.coefficient := by
      unfold isWhole at h
      rw [Bool.or_eq_true, decide_eq_true_eq, decide_eq_true_eq] at h
      exact Int.dvd_of_emod_eq_zero (h.resolve_left hscale)
    have hcoefficient : (10 : ℚ) ^ d.scale.toNat * d.coefficient.tdiv (10 ^ d.scale.toNat) = d.coefficient := by
      exact_mod_cast Int.mul_tdiv_cancel' hdvd
    rw [if_neg hscale, value, zpow_neg, zpow_eq_pow 10 (by omega), ← div_eq_mul_inv,
      div_eq_iff (by positivity), mul_comm]
    exact hcoefficient.symm

namespace Coercion

/-! ## Types of whole numbers -/

/-- A conversion to a whole number loses nothing. -/
theorem exists_of_numberToInteger {n : Decimal} {r : IntegerRange} {type : FieldType} {field : String}
    {y : Scalar} (h : numberToInteger n r type field = .ok y) :
    ∃ k : ℤ, n.value = k ∧ r.contains k = true ∧ y = r.scalar k := by
  have hsteps := h
  unfold numberToInteger at hsteps
  split at hsteps
  · cases hsteps
  · next hwhole =>
    split at hsteps
    · cases hsteps
    · next hwidest =>
      have hvalue : n.value = n.truncate := Decimal.value_of_isWhole (by simpa using hwhole)
      exact ⟨n.truncate, hvalue, (numberToInteger_eq_ok_iff hvalue (by simpa using hwidest)).1 h⟩

/-- What the smaller ranges have, those of 64 bits have. -/
theorem widest_of_contains {type : FieldType} {r : IntegerRange} (hr : type.integerRange? = some r) {k : ℤ}
    (hk : r.contains k = true) : r.widest.contains k = true := by
  rw [IntegerRange.contains_iff] at hk ⊢
  cases type with
  | int64 | uint64 =>
    cases hr
    exact hk
  | int32 =>
    cases hr
    have hlow : (-2147483648 : ℤ) ≤ k := hk.1
    have hhigh : k ≤ 2147483647 := hk.2
    show (-9223372036854775808 : ℤ) ≤ k ∧ k ≤ 9223372036854775807
    omega
  | uint32 =>
    cases hr
    have hlow : (0 : ℤ) ≤ k := hk.1
    have hhigh : k ≤ 4294967295 := hk.2
    show (0 : ℤ) ≤ k ∧ k ≤ 18446744073709551615
    omega
  | _ => cases hr

theorem coerce_integer_iff {type : FieldType} {r : IntegerRange} (hr : type.integerRange? = some r)
    (n : Decimal) (nullable : Bool) (field : String) (w : Option Scalar) :
    (Literal.number n).coerce type nullable field = .ok w ↔
      ∃ k : ℤ, n.value = k ∧ r.contains k = true ∧ w = some (r.scalar k) := by
  rw [coerce_eq_numberToInteger hr, map_eq_ok_iff]
  constructor
  · rintro ⟨y, hy, rfl⟩
    obtain ⟨k, hvalue, hcontains, rfl⟩ := exists_of_numberToInteger hy
    exact ⟨k, hvalue, hcontains, rfl⟩
  · rintro ⟨k, hvalue, hcontains, rfl⟩
    have hok : numberToInteger n r type field = .ok (r.scalar k) :=
      (numberToInteger_eq_ok_iff hvalue (widest_of_contains hr hcontains)).2 ⟨hcontains, rfl⟩
    exact ⟨r.scalar k, hok, rfl⟩

theorem coerce_signed_iff {type : FieldType} {bits : ℕ} (hr : type.integerRange? = some (.signed bits))
    (n : Decimal) (nullable : Bool) (field : String) (w : Option Scalar) :
    (Literal.number n).coerce type nullable field = .ok w ↔
      ∃ k : ℤ, n.value = k ∧ -2 ^ (bits - 1) ≤ k ∧ k < 2 ^ (bits - 1) ∧ w = some (.int k) := by
  have hlow : (IntegerRange.signed bits).low < 0 := Int.neg_neg_of_pos (by positivity)
  have hscalar (k : ℤ) : (IntegerRange.signed bits).scalar k = .int k := if_pos hlow
  have hcontains (k : ℤ) : (IntegerRange.signed bits).contains k = true ↔
      -2 ^ (bits - 1) ≤ k ∧ k < 2 ^ (bits - 1) := by
    rw [IntegerRange.contains_iff, ← Int.le_sub_one_iff]
    rfl
  rw [coerce_integer_iff hr]
  simp only [hscalar, hcontains, and_assoc]

theorem coerce_unsigned_iff {type : FieldType} {bits : ℕ} (hr : type.integerRange? = some (.unsigned bits))
    (n : Decimal) (nullable : Bool) (field : String) (w : Option Scalar) :
    (Literal.number n).coerce type nullable field = .ok w ↔
      ∃ k : ℕ, n.value = k ∧ k < 2 ^ bits ∧ w = some (.uint k) := by
  have hscalar (k : ℤ) : (IntegerRange.unsigned bits).scalar k = .uint k.toNat := if_neg (lt_irrefl 0)
  have hcontains (k : ℤ) : (IntegerRange.unsigned bits).contains k = true ↔ 0 ≤ k ∧ k < 2 ^ bits := by
    rw [IntegerRange.contains_iff, ← Int.le_sub_one_iff]
    rfl
  rw [coerce_integer_iff hr]
  simp only [hscalar, hcontains]
  constructor
  · rintro ⟨k, hvalue, ⟨hzero, hlt⟩, rfl⟩
    lift k to ℕ using hzero
    exact ⟨k, hvalue, by exact_mod_cast hlt, rfl⟩
  · rintro ⟨k, hvalue, hlt, rfl⟩
    exact ⟨k, hvalue, ⟨Int.natCast_nonneg k, by exact_mod_cast hlt⟩, rfl⟩

end Coercion

/-! ## Top theorem (proved from the lemmas above) -/

/-- A number literal of any coefficient and scale becomes a whole number of 32 or 64 bits just if its value
is one, and it becomes exactly that number; else it is refused, and never cut, wrapped or rounded. At a
decimal type it stays as it is, its scale included. -/
theorem number_literal_kept_exactly (n : Decimal) (nullable : Bool) (field : String) (w : Option Scalar) :
    ((Literal.number n).coerce .int32 nullable field = .ok w ↔
      ∃ k : ℤ, n.value = k ∧ -2 ^ 31 ≤ k ∧ k < 2 ^ 31 ∧ w = some (.int k)) ∧
    ((Literal.number n).coerce .int64 nullable field = .ok w ↔
      ∃ k : ℤ, n.value = k ∧ -2 ^ 63 ≤ k ∧ k < 2 ^ 63 ∧ w = some (.int k)) ∧
    ((Literal.number n).coerce .uint32 nullable field = .ok w ↔
      ∃ k : ℕ, n.value = k ∧ k < 2 ^ 32 ∧ w = some (.uint k)) ∧
    ((Literal.number n).coerce .uint64 nullable field = .ok w ↔
      ∃ k : ℕ, n.value = k ∧ k < 2 ^ 64 ∧ w = some (.uint k)) ∧
    ((Literal.number n).coerce .decimal nullable field = .ok w ↔ w = some (.decimal n)) := by
  have hint32 : FieldType.int32.integerRange? = some (.signed 32) := rfl
  have hint64 : FieldType.int64.integerRange? = some (.signed 64) := rfl
  have huint32 : FieldType.uint32.integerRange? = some (.unsigned 32) := rfl
  have huint64 : FieldType.uint64.integerRange? = some (.unsigned 64) := rfl
  refine ⟨Coercion.coerce_signed_iff hint32 n nullable field w,
    Coercion.coerce_signed_iff hint64 n nullable field w,
    Coercion.coerce_unsigned_iff huint32 n nullable field w,
    Coercion.coerce_unsigned_iff huint64 n nullable field w, ?_⟩
  have hdecimal : (Literal.number n).coerce .decimal nullable field = .ok (some (.decimal n)) := rfl
  rw [hdecimal, Except.ok.injEq, eq_comm]

/-- The least number of 32 bits, with a zero behind its point. -/
example : (Literal.number ⟨-21474836480, 1⟩).coerce .int32 false "n" = .ok (some (.int (-2147483648))) := by
  decide +kernel

end RecordQuery
