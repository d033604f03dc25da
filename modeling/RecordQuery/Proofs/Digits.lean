import RecordQuery.Number.Decimal.Printer

/-!
# Digits and plain notation

The digits of a number write that number, zeros in front aside. The plain notation of a decimal whose scale
is not negative is a whole part and, at a positive scale, a point and as many digits as the scale says:

    plainDigits d = whole ++ point ++ fraction,  number (whole ++ fraction) = |d.coefficient|
                                                                          (plainDigits_eq)
-/

namespace RecordQuery

namespace Digit

theorem number_eq (cs : List Char) : number cs = Nat.ofDigitChars 10 cs 0 := rfl

theorem number_digits (n : Nat) : number (digits n) = n := Nat.ofDigitChars_ten_toDigits

theorem number_replicate_zero_append (k : Nat) (cs : List Char) :
    number (List.replicate k '0' ++ cs) = number cs := by
  rw [number_eq, number_eq, Nat.ofDigitChars_append, Nat.ofDigitChars_replicate_zero, Nat.mul_zero]

theorem number_digits_append_zeros (n k : Nat) :
    number (digits n ++ List.replicate k '0') = n * 10 ^ k := by
  rw [number_eq, Nat.ofDigitChars_append, ← number_eq, number_digits, Nat.ofDigitChars_replicate_zero,
    Nat.mul_comm]

theorem isDigit_of_mem_zeros {k : Nat} {c : Char} (h : c ∈ List.replicate k '0') : c.isDigit = true := by
  rw [List.eq_of_mem_replicate h]
  decide

theorem isDigit_of_mem_digits {n : Nat} {c : Char} (h : c ∈ digits n) : c.isDigit = true :=
  Nat.isDigit_of_mem_toDigits (by omega) (by omega) h

theorem digits_ne_nil (n : Nat) : digits n ≠ [] := Nat.toDigits_ne_nil

theorem length_digits_pos (n : Nat) : 0 < (digits n).length := List.length_pos_iff.2 (digits_ne_nil n)

theorem lt_pow_length (n : Nat) : n < 10 ^ (digits n).length :=
  (Nat.length_toDigits_le_iff (by omega) (length_digits_pos n)).1 (Nat.le_refl _)

theorem length_digits_le {n k : Nat} (hk : 0 < k) (h : n < 10 ^ k) : (digits n).length ≤ k :=
  (Nat.length_toDigits_le_iff (by omega) hk).2 h

theorem pow_length_le {n : Nat} (hn : 0 < n) : 10 ^ ((digits n).length - 1) ≤ n := by
  refine Nat.not_lt.1 fun hlt => ?_
  rcases Nat.eq_zero_or_pos ((digits n).length - 1) with hzero | hpos
  · rw [hzero, Nat.pow_zero] at hlt
    omega
  · have hle := length_digits_le hpos hlt
    omega

/-- A number is less than the power of ten with as many zeros as it has digits. -/
theorem number_lt_pow {cs : List Char} (hcs : ∀ c ∈ cs, c.isDigit = true) :
    number cs < 10 ^ cs.length := by
  have hstep (n : Nat) : Nat.ofDigitChars 10 cs n < (n + 1) * 10 ^ cs.length := by
    induction cs generalizing n with
    | nil => exact Nat.lt_of_lt_of_eq (Nat.lt_succ_self n) (Nat.mul_one _).symm
    | cons c cs ih =>
      have hdigit : c.toNat - '0'.toNat < 10 := by
        have hc := hcs c List.mem_cons_self
        simp only [Char.isDigit, Bool.and_eq_true, decide_eq_true_eq] at hc
        have hhigh : c.toNat ≤ 57 := hc.2
        have hzero : '0'.toNat = 48 := rfl
        omega
      rw [Nat.ofDigitChars_cons, List.length_cons, Nat.pow_succ']
      calc Nat.ofDigitChars 10 cs (10 * n + (c.toNat - '0'.toNat))
          < (10 * n + (c.toNat - '0'.toNat) + 1) * 10 ^ cs.length :=
            ih (fun d hd => hcs d (List.mem_cons_of_mem c hd)) _
        _ ≤ (n + 1) * 10 * 10 ^ cs.length := Nat.mul_le_mul_right _ (by omega)
        _ = (n + 1) * (10 * 10 ^ cs.length) := Nat.mul_assoc _ _ _
  have h := hstep 0
  rwa [Nat.zero_add, Nat.one_mul] at h

/-! ## Numerals -/

/-- A text of digits, at least one. -/
def IsNumeral (cs : List Char) : Prop := cs ≠ [] ∧ ∀ c ∈ cs, c.isDigit = true

theorem isNumeral_digits (n : Nat) : IsNumeral (digits n) :=
  ⟨digits_ne_nil n, fun _ hc => isDigit_of_mem_digits hc⟩

theorem isNumeral_padded (width n : Nat) : IsNumeral (padded width n) := by
  unfold padded
  constructor
  · intro h
    exact digits_ne_nil n (List.append_eq_nil_iff.1 h).2
  · intro c hc
    rcases List.mem_append.1 hc with hc | hc
    · exact isDigit_of_mem_zeros hc
    · exact isDigit_of_mem_digits hc

theorem number_padded (width n : Nat) : number (padded width n) = n := by
  unfold padded
  rw [number_replicate_zero_append, number_digits]

theorem length_padded {width n : Nat} (hwidth : 0 < width) (h : n < 10 ^ width) :
    (padded width n).length = width := by
  have hle := length_digits_le hwidth h
  unfold padded
  rw [List.length_append, List.length_replicate]
  omega

/-- A mark that is no digit stands in no numeral. -/
theorem IsNumeral.not_mem {cs : List Char} (h : IsNumeral cs) {mark : Char} (hmark : mark.isDigit = false) :
    mark ∉ cs := by
  intro hmem
  rw [h.2 mark hmem] at hmark
  cases hmark

end Digit

namespace Decimal

open Digit

/-- A point in front of the digits after it, when there are any. -/
def pointed (fraction : List Char) : List Char := if fraction = [] then [] else '.' :: fraction

/-- A point before the last `places` of the digits, zeros filled in. -/
theorem withPoint_eq (n : Nat) {places : Nat} (h : 0 < places) :
    ∃ whole fraction, withPoint (digits n) places = whole ++ pointed fraction ∧ whole ≠ [] ∧
      (∀ c ∈ whole ++ fraction, c.isDigit = true) ∧ fraction.length = places ∧
      number (whole ++ fraction) = n := by
  unfold withPoint
  generalize hfilled : List.replicate (places + 1 - (digits n).length) '0' ++ digits n = filled
  have hlength : places < filled.length := by
    rw [← hfilled, List.length_append, List.length_replicate]
    omega
  have hsplit : filled.take (filled.length - places) ++ filled.drop (filled.length - places) = filled :=
    List.take_append_drop _ _
  refine ⟨filled.take (filled.length - places), filled.drop (filled.length - places), ?_, ?_, ?_, ?_, ?_⟩
  · have hne : filled.drop (filled.length - places) ≠ [] := by
      intro h0
      have := congrArg List.length h0
      simp at this
      omega
    rw [pointed, if_neg hne]
  · intro h0
    have := congrArg List.length h0
    simp at this
    omega
  · rw [hsplit, ← hfilled]
    intro c hc
    rcases List.mem_append.1 hc with hc | hc
    · rw [List.eq_of_mem_replicate hc]; decide
    · exact isDigit_of_mem_digits hc
  · rw [List.length_drop]
    omega
  · rw [hsplit, ← hfilled, number_replicate_zero_append, number_digits]

theorem plainDigits_eq {d : Decimal} (h : 0 ≤ d.scale) :
    ∃ whole fraction, d.plainDigits = whole ++ pointed fraction ∧ whole ≠ [] ∧
      (∀ c ∈ whole ++ fraction, c.isDigit = true) ∧ (fraction.length : Int) = d.scale ∧
      number (whole ++ fraction) = d.coefficient.natAbs := by
  unfold plainDigits
  rcases Int.lt_or_eq_of_le h with hpos | hzero
  · rw [if_neg (by omega)]
    obtain ⟨whole, fraction, he, hne, hd, hl, hn⟩ :=
      withPoint_eq d.coefficient.natAbs (show 0 < d.scale.toNat by omega)
    exact ⟨whole, fraction, he, hne, hd, by omega, hn⟩
  · refine ⟨digits d.coefficient.natAbs, [], ?_, digits_ne_nil _, ?_, ?_, ?_⟩
    · rw [if_pos (by omega), ← hzero]
      simp [pointed]
    · intro c hc
      exact isDigit_of_mem_digits (by simpa using hc)
    · simpa using hzero
    · rw [List.append_nil, number_digits]

end Decimal

end RecordQuery
