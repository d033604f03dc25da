import RecordQuery.Condition.Coercion
import RecordQuery.Proofs.Durations
import RecordQuery.Proofs.Number.Values

/-!
# The form of durations

`Form` holds the parts of a text `[-][d.]hh:mm:ss[.f]` and what they say, in seconds. A text is read just if
it is written in this form, with white space around it at most, and a duration is read just if it is not too
long:

    readClock? cs = some n   ↔  cs is hh:mm:ss[.f] with these nanoseconds          (readClock?_eq_some_iff)
    readLength? cs = some n  ↔  cs is [d.]hh:mm:ss[.f] with these nanoseconds      (readLength?_eq_some_iff)
    read? s = some d         ↔  some form writes s and says d                      (read?_eq_some_iff)

The two points are told apart by the colons, so each text has one form at most.
-/

namespace RecordQuery

namespace Duration

open Digit

/-! ## The parts -/

theorem readDigits?_eq_some_iff {cs : List Char} {n : Nat} :
    readDigits? cs = some n ↔ IsNumeral cs ∧ n = number cs := by
  constructor
  · intro h
    unfold readDigits? at h
    split at h
    · next hcs =>
      cases h
      exact ⟨⟨hcs.1, List.all_eq_true.1 hcs.2⟩, rfl⟩
    · cases h
  · rintro ⟨hcs, rfl⟩
    exact readDigits?_eq hcs

/-- Seconds with a fraction are digits up to 59, and behind a point one to nine digits. -/
theorem exists_of_readSeconds? {cs : List Char} {n : Nat} (h : readSeconds? cs = some n) :
    ∃ seconds fraction, IsNumeral seconds ∧ number seconds ≤ 59 ∧ (∀ c ∈ fraction, c.isDigit = true) ∧
      fraction.length ≤ 9 ∧ cs = seconds ++ Decimal.pointed fraction ∧
      n = number seconds * 1000000000 + fractionOf fraction := by
  unfold readSeconds? at h
  cases hcut : Text.cut? '.' cs with
  | none =>
    rw [hcut] at h
    simp only [Option.elim_none, Option.bind_eq_bind, Option.bind_eq_some_iff] at h
    obtain ⟨s, hs, h⟩ := h
    obtain ⟨hcs, rfl⟩ := readDigits?_eq_some_iff.1 hs
    split at h
    · cases h
    · next hle =>
      cases h
      have hzero : fractionOf [] = 0 := rfl
      refine ⟨cs, [], hcs, Nat.not_lt.1 hle, by simp, by simp, by simp [Decimal.pointed], ?_⟩
      rw [hzero, Nat.add_zero]
  | some parts =>
    obtain ⟨whole, fraction⟩ := parts
    obtain ⟨-, rfl⟩ := Text.cut?_eq_some_iff.1 hcut
    rw [hcut] at h
    simp only [Option.elim_some, Option.bind_eq_bind, Option.bind_eq_some_iff] at h
    obtain ⟨s, hs, h⟩ := h
    obtain ⟨hwhole, rfl⟩ := readDigits?_eq_some_iff.1 hs
    split at h
    · cases h
    · next hle =>
      obtain ⟨k, hk, h⟩ := Option.bind_eq_some_iff.1 h
      obtain ⟨hfraction, rfl⟩ := readDigits?_eq_some_iff.1 hk
      split at h
      · cases h
      · next hlength =>
        cases h
        refine ⟨whole, fraction, hwhole, Nat.not_lt.1 hle, hfraction.2, Nat.not_lt.1 hlength, ?_, rfl⟩
        rw [Decimal.pointed, if_neg hfraction.1]

theorem readClock?_eq_some_iff {cs : List Char} {n : Nat} : readClock? cs = some n ↔
    ∃ hours minutes seconds fraction, IsClock hours minutes seconds fraction ∧
      cs = clockText hours minutes seconds fraction ∧ n = clockValue hours minutes seconds fraction := by
  constructor
  · intro h
    unfold readClock? at h
    simp only [Option.bind_eq_bind, Option.bind_eq_some_iff] at h
    obtain ⟨⟨hours, rest⟩, hfirst, ⟨minutes, last⟩, hsecond, h', hh, m, hm, h⟩ := h
    obtain ⟨-, rfl⟩ := Text.cut?_eq_some_iff.1 hfirst
    obtain ⟨-, rfl⟩ := Text.cut?_eq_some_iff.1 hsecond
    obtain ⟨hhours, rfl⟩ := readDigits?_eq_some_iff.1 hh
    obtain ⟨hminutes, rfl⟩ := readDigits?_eq_some_iff.1 hm
    split at h
    · cases h
    · next hle =>
      simp only at hhours hminutes hle h
      obtain ⟨s, hs, hn⟩ := Option.bind_eq_some_iff.1 h
      cases hn
      obtain ⟨seconds, fraction, hseconds, hseconds', hfraction, hplaces, rfl, rfl⟩ :=
        exists_of_readSeconds? hs
      refine ⟨hours, minutes, seconds, fraction, ⟨hhours, hminutes, hseconds, hfraction, by omega, by omega,
        hseconds', hplaces⟩, rfl, ?_⟩
      unfold clockValue
      omega
  · rintro ⟨hours, minutes, seconds, fraction, hclock, rfl, rfl⟩
    exact readClock?_eq hclock

/-! ## Lengths -/

/-- The digits of the days and a point, when days are written. -/
def daysText (days : List Char) : List Char := if days = [] then [] else days ++ ['.']

/-- The nanoseconds of days and a time of day. -/
def lengthValue (days hours minutes seconds fraction : List Char) : Nat :=
  number days * 86400 * 1000000000 + clockValue hours minutes seconds fraction

theorem lengthValue_nil (hours minutes seconds fraction : List Char) :
    lengthValue [] hours minutes seconds fraction = clockValue hours minutes seconds fraction := by
  have hzero : number [] = 0 := rfl
  rw [lengthValue, hzero]
  omega

theorem readLength?_eq_some_iff {cs : List Char} {n : Nat} : readLength? cs = some n ↔
    ∃ days hours minutes seconds fraction, (∀ c ∈ days, c.isDigit = true) ∧
      IsClock hours minutes seconds fraction ∧
      cs = daysText days ++ clockText hours minutes seconds fraction ∧
      n = lengthValue days hours minutes seconds fraction := by
  constructor
  · intro h
    have hplain (h : readClock? cs = some n) : ∃ days hours minutes seconds fraction,
        (∀ c ∈ days, c.isDigit = true) ∧ IsClock hours minutes seconds fraction ∧
          cs = daysText days ++ clockText hours minutes seconds fraction ∧
          n = lengthValue days hours minutes seconds fraction := by
      obtain ⟨hours, minutes, seconds, fraction, hclock, hcs, hn⟩ := readClock?_eq_some_iff.1 h
      refine ⟨[], hours, minutes, seconds, fraction, by simp, hclock, hcs, ?_⟩
      rw [lengthValue_nil]
      exact hn
    unfold readLength? at h
    split at h
    · next days clock hcut =>
      split at h
      · exact hplain h
      · simp only [Option.bind_eq_bind, Option.bind_eq_some_iff] at h
        obtain ⟨d, hd, k, hk, hn⟩ := h
        cases hn
        obtain ⟨-, rfl⟩ := Text.cut?_eq_some_iff.1 hcut
        obtain ⟨hdays, rfl⟩ := readDigits?_eq_some_iff.1 hd
        obtain ⟨hours, minutes, seconds, fraction, hclock, rfl, rfl⟩ := readClock?_eq_some_iff.1 hk
        refine ⟨days, hours, minutes, seconds, fraction, hdays.2, hclock, ?_, rfl⟩
        rw [daysText, if_neg hdays.1, List.append_assoc, List.singleton_append]
    · exact hplain h
  · rintro ⟨days, hours, minutes, seconds, fraction, hdays, hclock, rfl, rfl⟩
    by_cases hnil : days = []
    · subst hnil
      rw [lengthValue_nil]
      exact readLength?_clock hclock
    · rw [daysText, if_neg hnil, List.append_assoc, List.singleton_append]
      exact readLength?_days ⟨hnil, hdays⟩ hclock

/-! ## Forms -/

/-- The parts of a text `[-][d.]hh:mm:ss[.f]`: a sign, and the digits of each part. Where there are no days
or no fraction, these have no digits. -/
structure Form where
  negative : Bool
  days : List Char
  hours : List Char
  minutes : List Char
  seconds : List Char
  fraction : List Char

namespace Form

/-- The parts are those of a duration: digits in all of them, and a time of day in the last four. -/
structure IsProper (p : Form) : Prop where
  days : ∀ c ∈ p.days, c.isDigit = true
  clock : IsClock p.hours p.minutes p.seconds p.fraction

/-- The text of a form. -/
def text (p : Form) : List Char :=
  (if p.negative then ['-'] else []) ++ (daysText p.days ++ clockText p.hours p.minutes p.seconds p.fraction)

/-- What a form says, in seconds. -/
def value (p : Form) : ℚ :=
  (if p.negative then -1 else 1) * (number p.days * 86400 + number p.hours * 3600 + number p.minutes * 60 +
    number p.seconds + number p.fraction / 10 ^ p.fraction.length)

/-- The form writes a text, white space at its ends aside. -/
def Writes (p : Form) (s : String) : Prop := p.IsProper ∧ (Text.trim s).toList = p.text

/-- What a form says, in nanoseconds. -/
def nanoseconds (p : Form) : ℤ :=
  if p.negative then -(lengthValue p.days p.hours p.minutes p.seconds p.fraction : ℤ)
  else lengthValue p.days p.hours p.minutes p.seconds p.fraction

/-- A second has a whole number of nanoseconds, and so has a fraction of nine digits. -/
theorem value_mul {p : Form} (hp : p.IsProper) : p.value * 10 ^ 9 = p.nanoseconds := by
  have hplaces : (10 : ℚ) ^ 9 = 10 ^ p.fraction.length * 10 ^ (9 - p.fraction.length) := by
    rw [← pow_add]
    congr 1
    have := hp.clock.places_le
    omega
  have hfraction : (number p.fraction : ℚ) / 10 ^ p.fraction.length * 10 ^ 9 = fractionOf p.fraction := by
    rw [hplaces, ← mul_assoc, div_mul_cancel₀ _ (by positivity), fractionOf]
    push_cast
    rfl
  have hlength : ((number p.days : ℚ) * 86400 + number p.hours * 3600 + number p.minutes * 60 +
      number p.seconds + number p.fraction / 10 ^ p.fraction.length) * 10 ^ 9 =
        lengthValue p.days p.hours p.minutes p.seconds p.fraction := by
    rw [add_mul, hfraction, lengthValue, clockValue]
    push_cast
    ring
  rw [value, mul_assoc, hlength, nanoseconds]
  cases p.negative with
  | true => simp
  | false => simp

theorem nanoseconds_natAbs_le_iff {p : Form} (hp : p.IsProper) :
    p.nanoseconds.natAbs ≤ limit ↔ |p.value| ≤ (2 ^ 63 - 1) / 1000 := by
  have hvalue : |p.value| * 10 ^ 9 = (p.nanoseconds.natAbs : ℚ) := by
    rw [Nat.cast_natAbs, Int.cast_abs, ← value_mul hp, abs_mul, abs_of_pos (by positivity : (0 : ℚ) < 10 ^ 9)]
  have hlimit : (limit : ℚ) = (2 ^ 63 - 1) / 1000 * 10 ^ 9 := by
    have hnat : limit = 9223372036854775807000000 := by decide
    rw [hnat]
    norm_num
  rw [← Nat.cast_le (α := ℚ), ← hvalue, hlimit, mul_le_mul_iff_left₀ (by positivity)]

end Form

/-! ## Signs -/

theorem of?_eq_some_iff {n : ℤ} {d : Duration} : of? n = some d ↔ d.nanoseconds = n := by
  constructor
  · intro h
    unfold of? at h
    split at h
    · cases h
      rfl
    · cases h
  · rintro rfl
    exact of?_nanoseconds d

theorem of?_eq_none {n : ℤ} (h : limit < n.natAbs) : of? n = none := dif_neg (Nat.not_le.2 h)

/-- Days and a time of day start with a digit. -/
theorem head_unsigned {days hours minutes seconds fraction : List Char} (hdays : ∀ c ∈ days, c.isDigit = true)
    (hclock : IsClock hours minutes seconds fraction) :
    (daysText days ++ clockText hours minutes seconds fraction).head? ≠ some '-' := by
  have hfirst {front : List Char} (h : IsNumeral front) (rest : List Char) :
      (front ++ rest).head? ≠ some '-' := by
    cases front with
    | nil => exact absurd rfl h.1
    | cons c cs =>
      have hc : c.isDigit = true := h.2 c List.mem_cons_self
      rw [List.cons_append, List.head?_cons]
      rintro ⟨⟩
      exact absurd hc (by decide)
  by_cases hnil : days = []
  · rw [hnil, daysText, if_pos rfl, List.nil_append]
    exact hfirst hclock.hours _
  · rw [daysText, if_neg hnil, List.append_assoc]
    exact hfirst ⟨hnil, hdays⟩ _

theorem readChars?_eq_some_iff {cs : List Char} {d : Duration} : readChars? cs = some d ↔
    ∃ p : Form, p.IsProper ∧ cs = p.text ∧ d.nanoseconds = p.nanoseconds := by
  constructor
  · intro h
    unfold readChars? at h
    split at h
    · obtain ⟨n, hn, hd⟩ := Option.bind_eq_some_iff.1 h
      obtain ⟨days, hours, minutes, seconds, fraction, hdays, hclock, rfl, rfl⟩ :=
        readLength?_eq_some_iff.1 hn
      refine ⟨⟨true, days, hours, minutes, seconds, fraction⟩, ⟨hdays, hclock⟩, rfl, ?_⟩
      rw [Form.nanoseconds, if_pos rfl]
      exact of?_eq_some_iff.1 hd
    · obtain ⟨n, hn, hd⟩ := Option.bind_eq_some_iff.1 h
      obtain ⟨days, hours, minutes, seconds, fraction, hdays, hclock, rfl, rfl⟩ :=
        readLength?_eq_some_iff.1 hn
      refine ⟨⟨false, days, hours, minutes, seconds, fraction⟩, ⟨hdays, hclock⟩, rfl, ?_⟩
      rw [Form.nanoseconds, if_neg Bool.false_ne_true]
      exact of?_eq_some_iff.1 hd
  · rintro ⟨⟨negative, days, hours, minutes, seconds, fraction⟩, ⟨hdays, hclock⟩, rfl, hd⟩
    have hlength := readLength?_eq_some_iff.2 ⟨days, hours, minutes, seconds, fraction, hdays, hclock, rfl, rfl⟩
    cases negative with
    | true =>
      rw [Form.nanoseconds, if_pos rfl] at hd
      show readChars? ('-' :: (daysText days ++ clockText hours minutes seconds fraction)) = some d
      rw [readChars?, hlength, Option.bind_eq_bind, Option.bind_some]
      exact of?_eq_some_iff.2 hd
    | false =>
      rw [Form.nanoseconds, if_neg Bool.false_ne_true] at hd
      show readChars? (daysText days ++ clockText hours minutes seconds fraction) = some d
      rw [readChars?_unsigned (head_unsigned hdays hclock), hlength, Option.bind_some]
      exact of?_eq_some_iff.2 hd

/-- A duration is read from the texts of the forms that say it. -/
theorem read?_eq_some_iff {s : String} {d : Duration} :
    read? s = some d ↔ ∃ p : Form, p.Writes s ∧ (d.nanoseconds : ℚ) = p.value * 10 ^ 9 := by
  have htrim : (Text.trim s).toList = Text.trimChars s.toList := String.toList_ofList
  rw [read?, readChars?_eq_some_iff]
  unfold Form.Writes
  rw [htrim]
  constructor
  · rintro ⟨p, hp, htext, hd⟩
    refine ⟨p, ⟨hp, htext⟩, ?_⟩
    rw [hd, Form.value_mul hp]
  · rintro ⟨p, ⟨hp, htext⟩, hd⟩
    rw [Form.value_mul hp] at hd
    exact ⟨p, hp, htext, Int.cast_injective hd⟩

/-- A text is read just if it has the form of a duration that is not too long. -/
theorem exists_read?_iff {s : String} :
    (∃ d, read? s = some d) ↔ ∃ p : Form, p.Writes s ∧ |p.value| ≤ (2 ^ 63 - 1) / 1000 := by
  constructor
  · rintro ⟨d, hd⟩
    obtain ⟨p, hp, hvalue⟩ := read?_eq_some_iff.1 hd
    rw [Form.value_mul hp.1] at hvalue
    have hnanoseconds : d.nanoseconds = p.nanoseconds := Int.cast_injective hvalue
    refine ⟨p, hp, (Form.nanoseconds_natAbs_le_iff hp.1).1 ?_⟩
    rw [← hnanoseconds]
    exact d.natAbs_le
  · rintro ⟨p, hp, hle⟩
    exact ⟨⟨p.nanoseconds, (Form.nanoseconds_natAbs_le_iff hp.1).2 hle⟩,
      read?_eq_some_iff.2 ⟨p, hp, (Form.value_mul hp.1).symm⟩⟩

end Duration

end RecordQuery
