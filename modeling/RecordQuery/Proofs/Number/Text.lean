import RecordQuery.Number.Binary.Printer
import RecordQuery.Proofs.Lexing
import RecordQuery.Proofs.Outcome
import RecordQuery.Proofs.Number.Shortest

/-!
# Numbers that are read back

The text of a whole number is read as that number. The text of a double is the shortest decimal that rounds
to it, in one of three layouts, and each of them is read as a decimal of that value:

    x ∈ range → range.read (toString x).toList = .ok x                             (read_toString)
    Decimal.read (toString n) = .ok (ofInt n)                                      (Decimal.read_toString_int)
    Decimal.read (finite s m e).yamlText = .ok d,  |d.value| rounds to m · 2 ^ e,  d has the sign s
                                                                                   (read_yamlText)
-/

namespace RecordQuery

/-! ## Whole numbers -/

namespace Digit

theorem value?_of_isDigit {c : Char} (h : c.isDigit = true) : value? c = some (c.toNat - '0'.toNat) := by
  rw [value?, if_pos h]

/-- More digits never make a number smaller. -/
theorem le_ofDigitChars (cs : List Char) (n : ℕ) : n ≤ Nat.ofDigitChars 10 cs n := by
  induction cs generalizing n with
  | nil => exact le_rfl
  | cons c cs ih =>
    rw [Nat.ofDigitChars_cons]
    have hle := ih (10 * n + (c.toNat - '0'.toNat))
    omega

end Digit

open Digit
open Lexer (ne_of_class)

namespace IntegerRange

theorem contains_iff {r : IntegerRange} {x : ℤ} : r.contains x = true ↔ r.low ≤ x ∧ x ≤ r.high := by
  rw [contains, Bool.and_eq_true, decide_eq_true_eq, decide_eq_true_eq]

/-- Every range of 64 or more bits has all small numbers. -/
theorem contains_signed {bits : ℕ} (hbits : 64 ≤ bits) {x : ℤ} (hlow : -2000 ≤ x) (hhigh : x ≤ 2000) :
    (signed bits).contains x = true := by
  have hpow : (2 : ℤ) ^ 11 ≤ 2 ^ (bits - 1) := pow_le_pow_right₀ (by norm_num) (by omega)
  have hends : (signed bits).low = -2 ^ (bits - 1) ∧ (signed bits).high = 2 ^ (bits - 1) - 1 := ⟨rfl, rfl⟩
  rw [contains_iff, hends.1, hends.2]
  omega

theorem readUp_eq {high : ℤ} {cs : List Char} (hcs : ∀ c ∈ cs, c.isDigit = true) (n : ℕ)
    (h : (Nat.ofDigitChars 10 cs n : ℤ) ≤ high) : readUp high n cs = .ok (Nat.ofDigitChars 10 cs n : ℤ) := by
  induction cs generalizing n with
  | nil => rfl
  | cons c cs ih =>
    rw [Nat.ofDigitChars_cons] at h ⊢
    have hle := le_ofDigitChars cs (10 * n + (c.toNat - '0'.toNat))
    have hnext := ih (fun d hd => hcs d (List.mem_cons_of_mem c hd)) _ h
    have hstep : 10 * (n : ℤ) + ((c.toNat - '0'.toNat : ℕ) : ℤ) =
        ((10 * n + (c.toNat - '0'.toNat) : ℕ) : ℤ) := by
      push_cast
      rfl
    rw [readUp, value?_of_isDigit (hcs c List.mem_cons_self)]
    simp only [hstep]
    rw [if_pos (by omega), hnext]

theorem readDown_eq {low : ℤ} {cs : List Char} (hcs : ∀ c ∈ cs, c.isDigit = true) (n : ℕ)
    (h : low ≤ -(Nat.ofDigitChars 10 cs n : ℤ)) :
    readDown low (-n) cs = .ok (-(Nat.ofDigitChars 10 cs n : ℤ)) := by
  induction cs generalizing n with
  | nil => rfl
  | cons c cs ih =>
    rw [Nat.ofDigitChars_cons] at h ⊢
    have hle := le_ofDigitChars cs (10 * n + (c.toNat - '0'.toNat))
    have hnext := ih (fun d hd => hcs d (List.mem_cons_of_mem c hd)) _ h
    have hstep : 10 * -(n : ℤ) - ((c.toNat - '0'.toNat : ℕ) : ℤ) =
        -((10 * n + (c.toNat - '0'.toNat) : ℕ) : ℤ) := by
      push_cast
      omega
    rw [readDown, value?_of_isDigit (hcs c List.mem_cons_self)]
    simp only [hstep]
    rw [if_pos (by omega), hnext]

/-- The text of a whole number: digits, behind a minus sign when it is negative. -/
theorem toList_toString (x : ℤ) :
    (toString x).toList = if x < 0 then '-' :: digits x.natAbs else digits x.natAbs := by
  have hrepr : toString x = x.repr := rfl
  rw [hrepr, Int.repr_eq_if]
  by_cases hx : x < 0
  · have habs : (-x).toNat = x.natAbs := by omega
    rw [if_pos hx, if_neg (by omega), String.toList_append, Nat.toList_repr, habs]
    rfl
  · have habs : x.toNat = x.natAbs := by omega
    rw [if_neg hx, if_pos (by omega), Nat.toList_repr, habs]
    rfl

theorem read_digits (r : IntegerRange) {cs : List Char} (hcs : ∀ c ∈ cs, c.isDigit = true) (hne : cs ≠ []) :
    r.read cs = readUp r.high 0 cs := by
  cases cs with
  | nil => exact absurd rfl hne
  | cons c cs =>
    have hc := hcs c List.mem_cons_self
    have hplus : c ≠ '+' := ne_of_class hc (by decide)
    have hminus : c ≠ '-' := ne_of_class hc (by decide)
    unfold read
    split <;> simp_all

theorem read_minus {r : IntegerRange} (hr : r.low < 0) {cs : List Char} (hne : cs ≠ []) :
    r.read ('-' :: cs) = readDown r.low 0 cs := by
  cases cs with
  | nil => exact absurd rfl hne
  | cons c cs =>
    rw [read, if_pos hr]
    simp

/-- The text of a whole number of a range is read as that number. -/
theorem read_toString {r : IntegerRange} {x : ℤ} (hx : r.contains x = true) :
    r.read (toString x).toList = .ok x := by
  have hrange := contains_iff.1 hx
  have hdigits : ∀ c ∈ digits x.natAbs, c.isDigit = true := fun c hc => isDigit_of_mem_digits hc
  have hnumber : Nat.ofDigitChars 10 (digits x.natAbs) 0 = x.natAbs := number_digits x.natAbs
  rw [toList_toString]
  by_cases hneg : x < 0
  · have hvalue : -((x.natAbs : ℕ) : ℤ) = x := by omega
    have hlow : r.low ≤ -(Nat.ofDigitChars 10 (digits x.natAbs) 0 : ℤ) := by
      rw [hnumber, hvalue]
      exact hrange.1
    have hdown := readDown_eq hdigits 0 hlow
    rw [hnumber, hvalue] at hdown
    rw [if_pos hneg, read_minus (by omega) (digits_ne_nil _)]
    exact hdown
  · have hvalue : ((x.natAbs : ℕ) : ℤ) = x := by omega
    have hhigh : (Nat.ofDigitChars 10 (digits x.natAbs) 0 : ℤ) ≤ r.high := by
      rw [hnumber, hvalue]
      exact hrange.2
    have hup := readUp_eq hdigits 0 hhigh
    rw [hnumber, hvalue] at hup
    rw [if_neg hneg, read_digits r hdigits (digits_ne_nil _)]
    exact hup

end IntegerRange

/-! ## Decimals -/

namespace Decimal

open Lexer (NotNext notNext_cons takeWhile_append_notNext dropWhile_append_notNext)

theorem readDigits_eq {cs : List Char} (hcs : ∀ c ∈ cs, c.isDigit = true) (n : ℕ) :
    readDigits n cs = .ok (Nat.ofDigitChars 10 cs n) := by
  induction cs generalizing n with
  | nil => rfl
  | cons c cs ih =>
    have hc := hcs c List.mem_cons_self
    have hne : c ≠ '_' := ne_of_class hc (by decide)
    rw [readDigits, value?_of_isDigit hc, Nat.ofDigitChars_cons]
    · exact ih (fun d hd => hcs d (List.mem_cons_of_mem c hd)) _
    · exact hne

theorem readUnsigned_eq {cs : List Char} (hcs : ∀ c ∈ cs, c.isDigit = true) (hne : cs ≠ []) :
    readUnsigned cs = .ok (number cs) := by
  cases cs with
  | nil => exact absurd rfl hne
  | cons c cs =>
    have hscore : c ≠ '_' := ne_of_class (hcs c List.mem_cons_self) (by decide)
    rw [readUnsigned, readDigits_eq hcs, number_eq]
    · simp
    · simpa using hscore

/-- A sign before a whole number. -/
def signedCoefficient (negative : Bool) (n : ℕ) : ℤ := if negative then -n else n

theorem readCoefficient_eq (negative : Bool) {cs : List Char} (hcs : ∀ c ∈ cs, c.isDigit = true)
    (hne : cs ≠ []) :
    readCoefficient (Binary.signed negative cs) = .ok (signedCoefficient negative (number cs)) := by
  have hread := readUnsigned_eq hcs hne
  cases negative with
  | true =>
    show (readUnsigned cs).map (fun n => -(n : ℤ)) = _
    rw [hread]
    rfl
  | false =>
    cases cs with
    | nil => exact absurd rfl hne
    | cons c cs =>
      have hc := hcs c List.mem_cons_self
      have hplus : c ≠ '+' := ne_of_class hc (by decide)
      have hminus : c ≠ '-' := ne_of_class hc (by decide)
      have hsigned : Binary.signed false (c :: cs) = c :: cs := rfl
      rw [hsigned, readCoefficient, hread]
      · rfl
      · simpa using hminus
      · simpa using hplus

/-- An exponent behind its mark, if there is one. -/
def exponentText : Option ℤ → List Char
  | none => []
  | some x => 'e' :: (toString x).toList

theorem readExponent_eq {x : Option ℤ} (hx : (IntegerRange.signed 128).contains (x.getD 0) = true) :
    readExponent (exponentText x) = .ok (x.getD 0) := by
  cases x with
  | none => rfl
  | some x => exact IntegerRange.read_toString hx

theorem notNext_exponentText (x : Option ℤ) : NotNext (!isExponentMark ·) (exponentText x) := by
  cases x with
  | none => rfl
  | some x => exact notNext_cons (by decide)

theorem forall_signed {p : Char → Prop} (negative : Bool) (hminus : p '-') {cs : List Char}
    (h : ∀ c ∈ cs, p c) : ∀ c ∈ Binary.signed negative cs, p c := by
  cases negative with
  | true => exact List.forall_mem_cons.2 ⟨hminus, h⟩
  | false => exact h

theorem signed_append (negative : Bool) (cs ds : List Char) :
    Binary.signed negative (cs ++ ds) = Binary.signed negative cs ++ ds := by
  cases negative <;> rfl

theorem splitPoint_eq (negative : Bool) {whole fraction : List Char}
    (hdigits : ∀ c ∈ whole ++ fraction, c.isDigit = true) :
    splitPoint (Binary.signed negative (whole ++ pointed fraction)) =
      (Binary.signed negative (whole ++ fraction), fraction.length) := by
  have hfront : ∀ c ∈ Binary.signed negative whole, decide (c ≠ '.') = true := by
    refine forall_signed negative (by decide) fun c hc => ?_
    exact decide_eq_true (ne_of_class (hdigits c (List.mem_append_left _ hc)) (by decide))
  rw [signed_append, signed_append]
  unfold splitPoint pointed
  by_cases hnil : fraction = []
  · have hend : (Binary.signed negative whole).dropWhile (fun c => decide (c ≠ '.')) = [] := by
      have hempty : NotNext (fun c => decide (c ≠ '.')) [] := rfl
      simpa using dropWhile_append_notNext hfront hempty
    rw [if_pos hnil, hnil, List.append_nil, hend]
    rfl
  · have hstop : NotNext (fun c => decide (c ≠ '.')) ('.' :: fraction) := notNext_cons (by decide)
    have hplaces : fraction.filter (fun c => decide (c ≠ '_')) = fraction := by
      rw [List.filter_eq_self]
      intro c hc
      exact decide_eq_true (ne_of_class (hdigits c (List.mem_append_right _ hc)) (by decide))
    rw [if_neg hnil, dropWhile_append_notNext hfront hstop, takeWhile_append_notNext hfront hstop]
    simp only [hplaces]

/-- The text of a number is read as its digits and the places that the point and the exponent leave. -/
theorem read_numeral (negative : Bool) {whole fraction : List Char} {x : Option ℤ} (hne : whole ≠ [])
    (hdigits : ∀ c ∈ whole ++ fraction, c.isDigit = true)
    (hexponent : (IntegerRange.signed 128).contains (x.getD 0) = true)
    (hscale : (IntegerRange.signed 64).contains (fraction.length - x.getD 0) = true) :
    read (String.ofList (Binary.signed negative (whole ++ pointed fraction ++ exponentText x))) =
      .ok ⟨signedCoefficient negative (number (whole ++ fraction)), fraction.length - x.getD 0⟩ := by
  have hbase : ∀ c ∈ Binary.signed negative (whole ++ pointed fraction), (!isExponentMark c) = true := by
    have hno {c : Char} (hc : c.isDigit = true) : (!isExponentMark c) = true := by
      have he : c ≠ 'e' := ne_of_class hc (by decide)
      have hE : c ≠ 'E' := ne_of_class hc (by decide)
      simp [isExponentMark, he, hE]
    have hbody : ∀ c ∈ whole ++ pointed fraction, (!isExponentMark c) = true := by
      intro c hc
      rcases List.mem_append.1 hc with hc | hc
      · exact hno (hdigits c (List.mem_append_left _ hc))
      · unfold pointed at hc
        split at hc
        · cases hc
        · rcases List.mem_cons.1 hc with rfl | hc
          · decide
          · exact hno (hdigits c (List.mem_append_right _ hc))
    exact forall_signed negative (by decide) hbody
  have hbasene : Binary.signed negative (whole ++ pointed fraction) ≠ [] := by
    cases negative with
    | true => exact List.cons_ne_nil _ _
    | false => exact List.append_ne_nil_of_left_ne_nil hne _
  have hcoefficient := readCoefficient_eq negative hdigits (List.append_ne_nil_of_left_ne_nil hne _)
  unfold read
  rw [signed_append, String.toList_ofList, takeWhile_append_notNext hbase (notNext_exponentText x),
    dropWhile_append_notNext hbase (notNext_exponentText x), readExponent_eq hexponent]
  simp only [Except.mapError, ok_bind, if_neg hbasene, splitPoint_eq negative hdigits, hscale, hcoefficient]
  rfl

/-- The text of a whole number is read as that number. -/
theorem read_toString_int (n : ℤ) : read (toString n) = .ok (ofInt n) := by
  have htext : toString n = String.ofList (Binary.signed (n < 0) (digits n.natAbs)) := by
    rw [← String.toList_inj, IntegerRange.toList_toString, String.toList_ofList, Binary.signed]
    simp only [decide_eq_true_eq]
  have hcoefficient : signedCoefficient (n < 0) n.natAbs = n := by
    unfold signedCoefficient
    by_cases hn : n < 0
    · rw [if_pos (decide_eq_true hn)]
      omega
    · rw [if_neg (by rwa [decide_eq_true_eq])]
      omega
  have hdigits : ∀ c ∈ digits n.natAbs ++ [], c.isDigit = true := by
    rw [List.append_nil]
    exact fun c hc => isDigit_of_mem_digits hc
  have hread := read_numeral (n < 0) (x := none) (digits_ne_nil n.natAbs) hdigits (by decide) (by decide)
  rw [exponentText, pointed, if_pos rfl, List.append_nil, List.append_nil, number_digits,
    hcoefficient] at hread
  rw [htext, hread]
  rfl

theorem value_signedCoefficient (negative : Bool) (n : ℕ) (scale : ℤ) :
    (⟨signedCoefficient negative n, scale⟩ : Decimal).value =
      Binary.withSign negative (n * 10 ^ (-scale)) := by
  unfold value signedCoefficient Binary.withSign
  cases negative with
  | true =>
    simp only [if_true]
    push_cast
    rw [neg_mul]
  | false =>
    simp only [Bool.false_eq_true, if_false]
    push_cast
    rfl

end Decimal

/-! ## Doubles -/

namespace Binary

open Decimal (pointed exponentText read_numeral value_signedCoefficient)

/-- The text sets digits around a point so that they have the value. -/
def LaysOut (d : DecimalDigits) (cs : List Char) : Prop :=
  ∃ whole fraction, cs = whole ++ pointed fraction ∧ whole ≠ [] ∧
    (∀ c ∈ whole ++ fraction, c.isDigit = true) ∧ fraction.length ≤ 1 + d.exponent.natAbs ∧
    (number (whole ++ fraction) : ℚ) * 10 ^ (-(fraction.length : ℤ)) = d.value

/-- Zeros behind the digits of a whole number, and a point that shows that it is a float. -/
theorem laysOut_zeros {d : DecimalDigits} (h : 0 ≤ d.exponent) :
    LaysOut d (digits d.digits ++ List.replicate d.exponent.toNat '0' ++ ['.', '0']) := by
  have hzeros : digits d.digits ++ List.replicate d.exponent.toNat '0' ++ ['0'] =
      digits d.digits ++ List.replicate (d.exponent.toNat + 1) '0' := by
    rw [List.append_assoc, ← List.replicate_succ']
  refine ⟨digits d.digits ++ List.replicate d.exponent.toNat '0', ['0'], rfl, ?_, ?_, ?_, ?_⟩
  · exact List.append_ne_nil_of_left_ne_nil (digits_ne_nil _) _
  · rw [hzeros]
    intro c hc
    exact (List.mem_append.1 hc).elim isDigit_of_mem_digits isDigit_of_mem_zeros
  · rw [List.length_singleton]
    omega
  · rw [hzeros, number_digits_append_zeros, DecimalDigits.value, zpow_eq_pow 10 h, List.length_singleton]
    push_cast
    rw [zpow_neg_one, pow_succ]
    field_simp

/-- A point between two of the digits. -/
theorem laysOut_split {d : DecimalDigits} (h : d.exponent < 0) {k : ℕ} (hk : 0 < k)
    (hpoint : (k : ℤ) = (digits d.digits).length + d.exponent) :
    LaysOut d ((digits d.digits).take k ++ '.' :: (digits d.digits).drop k) := by
  have hsplit : (digits d.digits).take k ++ (digits d.digits).drop k = digits d.digits :=
    List.take_append_drop k _
  have hlength : (((digits d.digits).drop k).length : ℤ) = -d.exponent := by
    rw [List.length_drop]
    omega
  refine ⟨(digits d.digits).take k, (digits d.digits).drop k, ?_, ?_, ?_, by omega, ?_⟩
  · have hne : (digits d.digits).drop k ≠ [] := by
      intro hnil
      rw [hnil, List.length_nil] at hlength
      omega
    rw [pointed, if_neg hne]
  · intro hnil
    have hzero := congrArg List.length hnil
    rw [List.length_take, List.length_nil] at hzero
    omega
  · rw [hsplit]
    exact fun c hc => isDigit_of_mem_digits hc
  · rw [hsplit, number_digits, hlength, Int.neg_neg]
    rfl

/-- A point in front of all digits, zeros between them where the number is small. -/
theorem laysOut_leading {d : DecimalDigits} {k : ℕ}
    (hpoint : (k : ℤ) = -((digits d.digits).length + d.exponent)) :
    LaysOut d ('0' :: '.' :: (List.replicate k '0' ++ digits d.digits)) := by
  have hlength : ((List.replicate k '0' ++ digits d.digits).length : ℤ) = -d.exponent := by
    rw [List.length_append, List.length_replicate]
    omega
  have hzeros : ['0'] ++ (List.replicate k '0' ++ digits d.digits) =
      List.replicate (k + 1) '0' ++ digits d.digits := rfl
  refine ⟨['0'], List.replicate k '0' ++ digits d.digits, ?_, List.cons_ne_nil _ _, ?_, by omega, ?_⟩
  · have hne : List.replicate k '0' ++ digits d.digits ≠ [] :=
      List.append_ne_nil_of_right_ne_nil _ (digits_ne_nil _)
    rw [pointed, if_neg hne]
    rfl
  · rw [hzeros]
    intro c hc
    exact (List.mem_append.1 hc).elim isDigit_of_mem_zeros isDigit_of_mem_digits
  · rw [hzeros, number_replicate_zero_append, number_digits, hlength, Int.neg_neg]
    rfl

theorem positional_form (d : DecimalDigits) : LaysOut d (positional d ['.', '0']) := by
  unfold positional
  simp only
  by_cases hexponent : 0 ≤ d.exponent
  · rw [if_pos hexponent]
    exact laysOut_zeros hexponent
  · rw [if_neg hexponent]
    by_cases hpoint : 0 < ((digits d.digits).length : ℤ) + d.exponent
    · rw [if_pos hpoint]
      exact laysOut_split (by omega) (by omega) (Int.toNat_of_nonneg hpoint.le)
    · rw [if_neg hpoint]
      exact laysOut_leading (Int.toNat_of_nonneg (by omega))

/-- The layout with an exponent. -/
theorem scientific_form (d : DecimalDigits) : ∃ whole fraction,
    scientific d = whole ++ pointed fraction ++ exponentText (some (fraction.length + d.exponent)) ∧
      whole ≠ [] ∧ whole ++ fraction = digits d.digits := by
  unfold scientific
  split
  · next hdigits => exact absurd hdigits (digits_ne_nil _)
  · next first rest hdigits =>
    rw [hdigits]
    exact ⟨[first], rest, rfl, List.cons_ne_nil _ _, rfl⟩

/-- Both layouts are read as decimals of the value that they lay out. -/
theorem read_layout (d : DecimalDigits) (negative : Bool) (hlow : -500 ≤ d.exponent)
    (hhigh : d.exponent ≤ 500) (hlength : (digits d.digits).length ≤ 900) :
    ∃ c, Decimal.read (String.ofList (signed negative
        (if isPositional d then positional d ['.', '0'] else scientific d))) = .ok c ∧
      c.value = withSign negative d.value := by
  by_cases hpositional : isPositional d = true
  · obtain ⟨whole, fraction, htext, hne, hdigits, hplaces, hvalue⟩ := positional_form d
    have hread := read_numeral negative (x := none) hne hdigits (by decide) (by
      rw [Option.getD_none]
      exact IntegerRange.contains_signed le_rfl (by omega) (by omega))
    rw [exponentText, List.append_nil, Option.getD_none, sub_zero] at hread
    rw [if_pos hpositional, htext, hread]
    refine ⟨_, rfl, ?_⟩
    rw [value_signedCoefficient, hvalue]
  · obtain ⟨whole, fraction, htext, hne, hwhole⟩ := scientific_form d
    have hdigits : ∀ c ∈ whole ++ fraction, c.isDigit = true := by
      rw [hwhole]
      exact fun c hc => isDigit_of_mem_digits hc
    have hplaces : fraction.length ≤ 900 := by
      rw [← hwhole, List.length_append] at hlength
      omega
    have hscale : (fraction.length : ℤ) - (some (fraction.length + d.exponent)).getD 0 = -d.exponent := by
      rw [Option.getD_some]
      omega
    have hexponent : (IntegerRange.signed 128).contains
        ((some (fraction.length + d.exponent)).getD 0) = true := by
      rw [Option.getD_some]
      exact IntegerRange.contains_signed (by omega) (by omega) (by omega)
    have hread := read_numeral negative hne hdigits hexponent (by
      rw [hscale]
      exact IntegerRange.contains_signed le_rfl (by omega) (by omega))
    rw [hscale, hwhole, number_digits] at hread
    rw [if_neg hpositional, htext, hread]
    refine ⟨_, rfl, ?_⟩
    rw [value_signedCoefficient, neg_neg]
    rfl

theorem read_zero (s : Bool) : Decimal.read (String.ofList (signed s ['0', '.', '0'])) =
    .ok ⟨Decimal.signedCoefficient s 0, 1⟩ := by
  cases s <;>
  · apply toOption_eq_some_iff.1
    decide +kernel

/-- The text of a double is read as a decimal that rounds to the double and has its sign. -/
theorem read_yamlText {m : ℕ} {e : ℤ} (h : Canonical .double m e) (s : Bool) :
    ∃ (d : Decimal) (q : ℚ), Decimal.read (finite s m e).yamlText = .ok d ∧ d.value = withSign s q ∧
      0 ≤ q ∧ RoundsTo .double m e q := by
  have htext : (finite s m e).yamlText =
      String.ofList (signed s (if m = 0 then ['0', '.', '0'] else
        if isPositional (shortest .even m e) then positional (shortest .even m e) ['.', '0']
        else scientific (shortest .even m e))) := rfl
  rw [htext]
  rcases Nat.eq_zero_or_pos m with rfl | hm
  · refine ⟨⟨Decimal.signedCoefficient s 0, 1⟩, 0, ?_, ?_, le_rfl, ?_⟩
    · rw [if_pos rfl]
      exact read_zero s
    · rw [value_signedCoefficient, Nat.cast_zero, zero_mul]
    · have hself := roundsTo_self .double 0 e
      rwa [Nat.cast_zero, zero_mul] at hself
  · obtain ⟨hlow, hhigh⟩ := shortest_exponent h hm .even
    obtain ⟨d, hread, hvalue⟩ := read_layout _ s hlow hhigh (shortest_length h hm .even)
    refine ⟨d, (shortest .even m e).value, ?_, hvalue, ?_, shortest_rounds h hm .even⟩
    · rw [if_neg (by omega)]
      exact hread
    · exact mul_nonneg (Nat.cast_nonneg _) (by positivity)

end Binary

end RecordQuery
