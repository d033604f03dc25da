import RecordQuery.Scalar
import RecordQuery.Proofs.Digits
import RecordQuery.Proofs.Characters
import RecordQuery.Proofs.Splitting

/-!
# Texts of durations

A text of the form `[d.]hh:mm:ss[.f]` is read by its points and colons. The point behind the days comes
before the first colon and the point of the fraction behind the last, so both may be missing and neither is
taken for the other. Numbers are read at their values, whatever their width (`readClock?_eq`,
`readLength?_days`, `readLength?_clock`). What is displayed of a duration has this form, so it is read back:

    Duration.read? (Scalar.duration d).display = some d    (read?_display)
-/

namespace RecordQuery

namespace Duration

open Digit

/-! ## The parts of a length -/

/-- The nanoseconds that the digits behind the point of the seconds stand for. -/
def fractionOf (digits : List Char) : Nat := number digits * 10 ^ (9 - digits.length)

/-- The clock text of hours, minutes, seconds and the digits of a fraction. -/
def clockText (hours minutes seconds fraction : List Char) : List Char :=
  hours ++ ':' :: (minutes ++ ':' :: (seconds ++ Decimal.pointed fraction))

/-- The texts are those of a time of day: numerals up to 23, 59 and 59, and at most nine digits. -/
structure IsClock (h m s f : List Char) : Prop where
  hours : IsNumeral h
  minutes : IsNumeral m
  seconds : IsNumeral s
  fraction : ∀ c ∈ f, c.isDigit = true
  hours_le : number h ≤ 23
  minutes_le : number m ≤ 59
  seconds_le : number s ≤ 59
  places_le : f.length ≤ 9

/-- The nanoseconds of a time of day. -/
def clockValue (hours minutes seconds fraction : List Char) : Nat :=
  (number hours * 3600 + number minutes * 60 + number seconds) * 1000000000 + fractionOf fraction

/-! ## Reading a length -/

theorem readDigits?_eq {cs : List Char} (h : IsNumeral cs) : readDigits? cs = some (number cs) := by
  unfold readDigits?
  rw [if_pos ⟨h.1, List.all_eq_true.2 h.2⟩]

variable {hours minutes seconds fraction : List Char}

theorem readSeconds?_eq (h : IsClock hours minutes seconds fraction) :
    readSeconds? (seconds ++ Decimal.pointed fraction) =
      some (number seconds * 1000000000 + fractionOf fraction) := by
  have hpoint : '.' ∉ seconds := h.seconds.not_mem (by decide)
  have hle : ¬ number seconds > 59 := Nat.not_lt.2 h.seconds_le
  unfold readSeconds? Decimal.pointed
  by_cases hnil : fraction = []
  · subst hnil
    rw [if_pos rfl, List.append_nil, Text.cut?_eq_none hpoint]
    have hzero : fractionOf [] = 0 := rfl
    simp [readDigits?_eq h.seconds, h.seconds_le, hzero]
  · have hplaces : ¬ fraction.length > 9 := Nat.not_lt.2 h.places_le
    rw [if_neg hnil, Text.cut?_append hpoint]
    simp [readDigits?_eq h.seconds, readDigits?_eq ⟨hnil, h.fraction⟩, hle, hplaces, fractionOf]

theorem readClock?_eq (h : IsClock hours minutes seconds fraction) :
    readClock? (clockText hours minutes seconds fraction) =
      some (clockValue hours minutes seconds fraction) := by
  have hfirst : ':' ∉ hours := h.hours.not_mem (by decide)
  have hsecond : ':' ∉ minutes := h.minutes.not_mem (by decide)
  have hle : ¬ (number hours > 23 ∨ number minutes > 59) := by
    have := h.hours_le
    have := h.minutes_le
    omega
  have hsum : (number hours * 3600 + number minutes * 60) * 1000000000 +
      (number seconds * 1000000000 + fractionOf fraction) =
        clockValue hours minutes seconds fraction := by
    unfold clockValue
    omega
  unfold readClock? clockText
  rw [Text.cut?_append hfirst]
  simp only [Option.bind_eq_bind, Option.bind_some]
  rw [Text.cut?_append hsecond]
  simp only [Option.bind_some, readDigits?_eq h.hours, readDigits?_eq h.minutes, if_neg hle,
    readSeconds?_eq h, hsum]

/-- The point of a fraction stands behind a colon. -/
theorem cut?_clockText (h : IsClock hours minutes seconds fraction) :
    Text.cut? '.' (clockText hours minutes seconds fraction) = none ∨
      ∃ front rest, Text.cut? '.' (clockText hours minutes seconds fraction) = some (front, rest) ∧
        ':' ∈ front := by
  have hclock : clockText hours minutes seconds fraction =
      hours ++ ':' :: (minutes ++ ':' :: seconds) ++ Decimal.pointed fraction := by
    simp [clockText]
  have hpoint : '.' ∉ hours ++ ':' :: (minutes ++ ':' :: seconds) := by
    simp [h.hours.not_mem, h.minutes.not_mem, h.seconds.not_mem]
  by_cases hnil : fraction = []
  · left
    apply Text.cut?_eq_none
    rwa [hclock, hnil, Decimal.pointed, if_pos rfl, List.append_nil]
  · right
    refine ⟨hours ++ ':' :: (minutes ++ ':' :: seconds), fraction, ?_, by simp⟩
    rw [hclock, Decimal.pointed, if_neg hnil, Text.cut?_append hpoint]

theorem readLength?_clock (h : IsClock hours minutes seconds fraction) :
    readLength? (clockText hours minutes seconds fraction) =
      some (clockValue hours minutes seconds fraction) := by
  unfold readLength?
  rcases cut?_clockText h with hnone | ⟨front, rest, hsome, hcolon⟩
  · rw [hnone]
    exact readClock?_eq h
  · rw [hsome]
    simp only [if_pos hcolon]
    exact readClock?_eq h

/-- The point of the days stands before the first colon. -/
theorem readLength?_days {days : List Char} (hdays : IsNumeral days)
    (h : IsClock hours minutes seconds fraction) :
    readLength? (days ++ '.' :: clockText hours minutes seconds fraction) =
      some (number days * 86400 * 1000000000 + clockValue hours minutes seconds fraction) := by
  have hcolon : ':' ∉ days := hdays.not_mem (by decide)
  unfold readLength?
  rw [Text.cut?_append (hdays.not_mem (by decide))]
  simp [hcolon, readDigits?_eq hdays, readClock?_eq h]

/-! ## Displayed lengths -/

/-- The digits of the fraction that is displayed. -/
def fractionShown (n : Nat) : List Char := if n = 0 then [] else padded 9 n

theorem fractionOf_fractionShown {n : Nat} (h : n < 1000000000) : fractionOf (fractionShown n) = n := by
  unfold fractionShown
  split
  · next hzero => rw [hzero]; rfl
  · rw [fractionOf, number_padded, length_padded (by omega) h, Nat.sub_self, Nat.pow_zero, Nat.mul_one]

theorem isClock_shown {s n : Nat} (hs : s < 86400) (hn : n < 1000000000) :
    IsClock (padded 2 (s / 3600)) (padded 2 (s % 3600 / 60)) (padded 2 (s % 60)) (fractionShown n) where
  hours := isNumeral_padded _ _
  minutes := isNumeral_padded _ _
  seconds := isNumeral_padded _ _
  fraction := by
    intro c hc
    unfold fractionShown at hc
    split at hc
    · cases hc
    · exact (isNumeral_padded 9 n).2 c hc
  hours_le := by rw [number_padded]; omega
  minutes_le := by rw [number_padded]; omega
  seconds_le := by rw [number_padded]; omega
  places_le := by
    unfold fractionShown
    split
    · simp
    · exact Nat.le_of_eq (length_padded (by omega) hn)

theorem clockValue_shown {s n : Nat} (hn : n < 1000000000) :
    clockValue (padded 2 (s / 3600)) (padded 2 (s % 3600 / 60)) (padded 2 (s % 60)) (fractionShown n) =
      s * 1000000000 + n := by
  unfold clockValue
  rw [number_padded, number_padded, number_padded, fractionOf_fractionShown hn]
  omega

theorem lengthChars_eq (n : Nat) :
    lengthChars n = (if n / 1000000000 / 86400 = 0 then [] else digits (n / 1000000000 / 86400) ++ ['.']) ++
      clockText (padded 2 (n / 1000000000 % 86400 / 3600)) (padded 2 (n / 1000000000 % 86400 % 3600 / 60))
        (padded 2 (n / 1000000000 % 86400 % 60)) (fractionShown (n % 1000000000)) := by
  have hfraction : (if n % 1000000000 = 0 then [] else '.' :: padded 9 (n % 1000000000)) =
      Decimal.pointed (fractionShown (n % 1000000000)) := by
    unfold Decimal.pointed fractionShown
    split
    · rfl
    · rw [if_neg (isNumeral_padded 9 _).1]
  unfold lengthChars
  simp only [hfraction, clockChars, clockText, List.append_assoc, List.cons_append]

/-- A displayed length is read back. -/
theorem readLength?_lengthChars (n : Nat) : readLength? (lengthChars n) = some n := by
  have hs : n / 1000000000 % 86400 < 86400 := Nat.mod_lt _ (by omega)
  have hn : n % 1000000000 < 1000000000 := Nat.mod_lt _ (by omega)
  have hclock := isClock_shown hs hn
  rw [lengthChars_eq]
  by_cases hzero : n / 1000000000 / 86400 = 0
  · have hsum : n / 1000000000 % 86400 * 1000000000 + n % 1000000000 = n := by omega
    rw [if_pos hzero, List.nil_append, readLength?_clock hclock, clockValue_shown hn, hsum]
  · have hsum : n / 1000000000 / 86400 * 86400 * 1000000000 +
        (n / 1000000000 % 86400 * 1000000000 + n % 1000000000) = n := by omega
    rw [if_neg hzero, List.append_assoc, List.singleton_append,
      readLength?_days (isNumeral_digits _) hclock, clockValue_shown hn, number_digits, hsum]

/-! ## Signs and white space -/

theorem head_lengthChars (n : Nat) : ∃ c cs, lengthChars n = c :: cs ∧ c.isDigit = true := by
  have hfirst {front : List Char} (h : IsNumeral front) (rest : List Char) :
      ∃ c cs, front ++ rest = c :: cs ∧ c.isDigit = true := by
    cases front with
    | nil => exact absurd rfl h.1
    | cons c cs => exact ⟨c, cs ++ rest, rfl, h.2 c List.mem_cons_self⟩
  rw [lengthChars_eq]
  split
  · exact hfirst (isNumeral_padded _ _) _
  · rw [List.append_assoc]
    exact hfirst (isNumeral_digits _) _

theorem isBlank_of_mem_lengthChars {n : Nat} {c : Char} (h : c ∈ lengthChars n) :
    Text.isBlank c = false := by
  have hnumeral {cs : List Char} (hcs : IsNumeral cs) (hc : c ∈ cs) : Text.isBlank c = false :=
    Lexer.isBlank_of_isDigit (hcs.2 c hc)
  have hmark {mark : Char} (hm : Text.isBlank mark = false) (hc : c = mark) : Text.isBlank c = false := by
    rw [hc, hm]
  unfold lengthChars clockChars at h
  simp only [List.mem_append, List.mem_cons] at h
  rcases h with (h | h | h | h | h | h) | h
  · split at h
    · cases h
    · rcases List.mem_append.1 h with h | h
      · exact hnumeral (isNumeral_digits _) h
      · exact hmark (by decide) (List.mem_singleton.1 h)
  · exact hnumeral (isNumeral_padded _ _) h
  · exact hmark (by decide) h
  · exact hnumeral (isNumeral_padded _ _) h
  · exact hmark (by decide) h
  · exact hnumeral (isNumeral_padded _ _) h
  · split at h
    · cases h
    · rcases List.mem_cons.1 h with h | h
      · exact hmark (by decide) h
      · exact hnumeral (isNumeral_padded _ _) h

theorem readChars?_unsigned {cs : List Char} (h : cs.head? ≠ some '-') :
    readChars? cs = (readLength? cs).bind fun n => of? n := by
  unfold readChars?
  split
  · exact absurd rfl h
  · rfl

theorem of?_nanoseconds (d : Duration) : of? d.nanoseconds = some d := by
  unfold of?
  rw [dif_pos d.natAbs_le]

/-! ## Top theorem (proved from the lemmas above) -/

/-- What is displayed of a duration is read as that duration, whatever its sign and length. -/
theorem read?_display (d : Duration) : read? (Scalar.duration d).display = some d := by
  have hblank : ∀ c ∈ (if d.nanoseconds < 0 then ['-'] else []) ++ lengthChars d.nanoseconds.natAbs,
      Text.isBlank c = false := by
    intro c hc
    rcases List.mem_append.1 hc with hc | hc
    · split at hc
      · rw [List.mem_singleton.1 hc]
        decide
      · cases hc
    · exact isBlank_of_mem_lengthChars hc
  show read? d.text = some d
  rw [read?, text, String.toList_ofList, Text.trimChars_of_not_isBlank hblank]
  by_cases hneg : d.nanoseconds < 0
  · have habs : -(d.nanoseconds.natAbs : Int) = d.nanoseconds := by omega
    rw [if_pos hneg, List.singleton_append, readChars?, readLength?_lengthChars]
    simp only [Option.bind_eq_bind, Option.bind_some, habs]
    exact of?_nanoseconds d
  · have habs : (d.nanoseconds.natAbs : Int) = d.nanoseconds := by omega
    obtain ⟨c, cs, heq, hc⟩ := head_lengthChars d.nanoseconds.natAbs
    have hhead : (lengthChars d.nanoseconds.natAbs).head? ≠ some '-' := by
      rw [heq, List.head?_cons]
      rintro ⟨⟩
      exact absurd hc (by decide)
    rw [if_neg hneg, List.nil_append, readChars?_unsigned hhead, readLength?_lengthChars, Option.bind_some,
      habs]
    exact of?_nanoseconds d

/-- The least duration, with days, a time of day and a fraction. -/
example : (Scalar.duration ⟨-9223372036854775807000000, by decide⟩).display =
    "-106751991167.07:12:55.807000000" := by decide +kernel

end Duration

end RecordQuery
