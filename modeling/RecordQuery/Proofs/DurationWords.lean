import RecordQuery.Proofs.DurationForms
import RecordQuery.Proofs.Number.Text
import RecordQuery.Proofs.Outcome
import RecordQuery.Proofs.Splitting

/-!
# Durations in words of 64 bits

`Words.read` reads a duration with numbers of 64 bits, one operation after the other. A product or a sum that
is checked refuses the text when it has no room; all others are taken as they come, and would wrap. None of
them ever does, so the bounds that are checked are enough, and the reading is that of whole numbers:

    Words.read s = .ok d        ↔  read? s = some d
    Words.read s = .error stop  ↔  read? s = none  and  stop = .refused             (read_eq)

With what is known of `read?`, this says which texts are durations, and which (`reading_duration_iff`).
-/

namespace RecordQuery

namespace Duration

/-! ## Algorithm -/

namespace Words

/-- Why a reading ends without a duration: the text is refused, or a result had no room in its word. -/
inductive Stop where
  | refused
  | wrapped
deriving DecidableEq, Repr

/-- The result of an operation that is not checked. -/
def unchecked (word : IntegerRange) (n : Int) : Except Stop Int :=
  if word.contains n then .ok n else .error .wrapped

/-- The result of an operation that is checked. -/
def checked (n : Int) : Except Stop Int :=
  if (IntegerRange.signed 64).contains n then .ok n else .error .refused

/-- The result of an operation on words of 64 bits that is not checked. -/
def word (n : Int) : Except Stop Int := unchecked (.signed 64) n

/-- Reads digits that make up the whole text. -/
def numeral (cs : List Char) : Except Stop Int :=
  if cs ≠ [] ∧ cs.all Char.isDigit then ((IntegerRange.signed 64).read cs).mapError fun _ => .refused
  else .error .refused

/-- Reads the days, if there are any, and leaves the time of day. -/
def splitDays (cs : List Char) : Except Stop (Int × List Char) :=
  match Text.cut? '.' cs with
  | some (days, clock) => if ':' ∈ days then .ok (0, cs) else (numeral days).map fun d => (d, clock)
  | none => .ok (0, cs)

/-- The seconds and what is behind their point. -/
def splitSeconds (cs : List Char) : List Char × Option (List Char) :=
  (Text.cut? '.' cs).elim (cs, none) fun (whole, fraction) => (whole, some fraction)

/-- The nanoseconds of a fraction. -/
def fractionWord : Option (List Char) → Except Stop Int
  | none => .ok 0
  | some digits =>
    if digits = [] ∨ 9 < digits.length then .error .refused
    else do
      let n ← numeral digits
      let unit ← word (10 ^ (9 - digits.length))
      word (n * unit)

/-- The seconds since midnight. -/
def clockWord (hours minutes seconds : Int) : Except Stop Int := do
  let h ← word (hours * 3600)
  let m ← word (minutes * 60)
  let sum ← word (h + m)
  word (sum + seconds)

/-- The duration of days, seconds and nanoseconds. The nanoseconds are narrowed to 32 bits. -/
def spanOf (days clock nanoseconds : Int) : Except Stop Duration := do
  let length ← checked (days * 86400)
  let total ← checked (length + clock)
  let n ← unchecked (.unsigned 32) nanoseconds
  match of? (total * 1000000000 + n) with
  | some d => return d
  | none => throw .refused

/-- Reads `hh:mm:ss[.f]`: the seconds since midnight, and the nanoseconds of the fraction. -/
def readTime (cs : List Char) : Except Stop (Int × Int) :=
  match Text.splitList ':' cs with
  | [hours, minutes, last] => do
    let h ← numeral hours
    let m ← numeral minutes
    let s ← numeral (splitSeconds last).1
    if 23 < h ∨ 59 < m ∨ 59 < s then throw .refused
    let n ← fractionWord (splitSeconds last).2
    let time ← clockWord h m s
    return (time, n)
  | _ => .error .refused

/-- Reads `[d.]hh:mm:ss[.f]`. -/
def readLength (cs : List Char) : Except Stop Duration := do
  let (days, clock) ← splitDays cs
  let (time, n) ← readTime clock
  spanOf days time n

/-- The opposite duration. There is one for each. -/
def opposite (d : Duration) : Duration :=
  ⟨-d.nanoseconds, by rw [Int.natAbs_neg]; exact d.natAbs_le⟩

/-- Reads a duration with white space around it. -/
def read (s : String) : Except Stop Duration :=
  match Text.trimChars s.toList with
  | '-' :: cs => (readLength cs).map opposite
  | cs => readLength cs

end Words

/-! ## Digits -/

/-- Digits of a number that has no room are refused. -/
theorem readUp_error {high : ℤ} {cs : List Char} (hcs : ∀ c ∈ cs, c.isDigit = true) {n : ℕ}
    (hn : (n : ℤ) ≤ high) (h : high < (Nat.ofDigitChars 10 cs n : ℤ)) :
    ∃ e, IntegerRange.readUp high n cs = .error e := by
  induction cs generalizing n with
  | nil =>
    have hnil : Nat.ofDigitChars 10 [] n = n := rfl
    rw [hnil] at h
    omega
  | cons c cs ih =>
    rw [Nat.ofDigitChars_cons] at h
    rw [IntegerRange.readUp, Digit.value?_of_isDigit (hcs c List.mem_cons_self)]
    simp only
    split
    · next hle => exact ih (fun d hd => hcs d (List.mem_cons_of_mem c hd)) hle h
    · exact ⟨_, rfl⟩

namespace Words

open Digit

/-! ## Single operations -/

theorem contains_word {n : ℤ} (hlow : -9223372036854775808 ≤ n) (hhigh : n ≤ 9223372036854775807) :
    (IntegerRange.signed 64).contains n = true := IntegerRange.contains_iff.2 ⟨hlow, hhigh⟩

theorem word_eq {n : ℤ} (hlow : -9223372036854775808 ≤ n) (hhigh : n ≤ 9223372036854775807) :
    word n = .ok n := if_pos (contains_word hlow hhigh)

theorem checked_eq {n : ℤ} (hlow : -9223372036854775808 ≤ n) (hhigh : n ≤ 9223372036854775807) :
    checked n = .ok n := if_pos (contains_word hlow hhigh)

theorem checked_refused {n : ℤ} (h : 9223372036854775807 < n) : checked n = .error .refused := by
  have hcontains : ¬ (IntegerRange.signed 64).contains n = true := fun hc =>
    absurd (IntegerRange.contains_iff.1 hc).2 (not_le.2 h)
  exact if_neg hcontains

/-- A numeral is a checked number. -/
theorem numeral_eq {cs : List Char} (h : IsNumeral cs) : numeral cs = checked (number cs) := by
  have hhigh : (IntegerRange.signed 64).high = 9223372036854775807 := rfl
  unfold numeral
  rw [if_pos ⟨h.1, List.all_eq_true.2 h.2⟩, IntegerRange.read_digits _ h.2 h.1, hhigh]
  rcases Int.lt_or_le 9223372036854775807 (number cs) with hlt | hle
  · obtain ⟨e, he⟩ := readUp_error h.2 (n := 0) (by omega) hlt
    rw [Nat.cast_zero] at he
    rw [he, checked_refused hlt]
    rfl
  · have hread := IntegerRange.readUp_eq h.2 0 hle
    rw [Nat.cast_zero] at hread
    rw [hread, checked_eq (by omega) hle]
    rfl

theorem numeral_of_le {cs : List Char} (h : IsNumeral cs) {b : ℕ} (hle : number cs ≤ b)
    (hb : b ≤ 1000000000) : numeral cs = .ok (number cs : ℤ) := by
  rw [numeral_eq h, checked_eq (by omega) (by omega)]

/-- Only numerals are not refused. -/
theorem isNumeral_of_ne_refused {cs : List Char} (h : numeral cs ≠ .error .refused) : IsNumeral cs := by
  unfold numeral at h
  split at h
  · next hcs => exact ⟨hcs.1, List.all_eq_true.1 hcs.2⟩
  · exact absurd rfl h

/-! ## Forms -/

variable {days hours minutes seconds fraction : List Char}

theorem splitDays_eq (hdays : ∀ c ∈ days, c.isDigit = true) (h : IsClock hours minutes seconds fraction) :
    splitDays (daysText days ++ clockText hours minutes seconds fraction) =
      (checked (number days)).map fun d => (d, clockText hours minutes seconds fraction) := by
  unfold splitDays
  by_cases hnil : days = []
  · have hzero : checked (number []) = .ok 0 := rfl
    rw [hnil, daysText, if_pos rfl, List.nil_append, hzero]
    rcases cut?_clockText h with hnone | ⟨front, rest, hsome, hcolon⟩
    · rw [hnone]
      rfl
    · rw [hsome]
      simp only [if_pos hcolon]
      rfl
  · have hnumeral : IsNumeral days := ⟨hnil, hdays⟩
    have hcolon : ':' ∉ days := hnumeral.not_mem (by decide)
    rw [daysText, if_neg hnil, List.append_assoc, List.singleton_append,
      Text.cut?_append (hnumeral.not_mem (by decide))]
    simp only [if_neg hcolon, numeral_eq hnumeral]

theorem splitList_clockText (h : IsClock hours minutes seconds fraction) :
    Text.splitList ':' (clockText hours minutes seconds fraction) =
      [hours, minutes, seconds ++ Decimal.pointed fraction] := by
  have hlast : ':' ∉ seconds ++ Decimal.pointed fraction := by
    unfold Decimal.pointed
    rw [List.mem_append]
    rintro (hmem | hmem)
    · exact h.seconds.not_mem (by decide) hmem
    · split at hmem
      · cases hmem
      · next hne =>
        rcases List.mem_cons.1 hmem with heq | hmem
        · cases heq
        · have hnumeral : IsNumeral fraction := ⟨hne, h.fraction⟩
          exact hnumeral.not_mem (by decide) hmem
  rw [Text.splitList_eq_splitOn, clockText, List.splitOn_append_cons_self, List.splitOn_append_cons_self,
    List.splitOn_eq_singleton (h.hours.not_mem (by decide)),
    List.splitOn_eq_singleton (h.minutes.not_mem (by decide)), List.splitOn_eq_singleton hlast]
  rfl

theorem splitSeconds_eq (h : IsNumeral seconds) (fraction : List Char) :
    splitSeconds (seconds ++ Decimal.pointed fraction) =
      (seconds, if fraction = [] then none else some fraction) := by
  have hpoint : '.' ∉ seconds := h.not_mem (by decide)
  unfold splitSeconds Decimal.pointed
  by_cases hnil : fraction = []
  · rw [if_pos hnil, if_pos hnil, List.append_nil, Text.cut?_eq_none hpoint]
    rfl
  · rw [if_neg hnil, if_neg hnil, Text.cut?_append hpoint]
    rfl

theorem fractionOf_lt (hdigits : ∀ c ∈ fraction, c.isDigit = true) (hplaces : fraction.length ≤ 9) :
    fractionOf fraction < 1000000000 := by
  have hpos : (0 : ℕ) < 10 ^ (9 - fraction.length) := by positivity
  calc fractionOf fraction < 10 ^ fraction.length * 10 ^ (9 - fraction.length) :=
        Nat.mul_lt_mul_of_pos_right (Digit.number_lt_pow hdigits) hpos
    _ = 10 ^ 9 := by rw [← Nat.pow_add, Nat.add_sub_cancel' hplaces]
    _ = 1000000000 := rfl

theorem fractionWord_eq (hdigits : ∀ c ∈ fraction, c.isDigit = true) (hplaces : fraction.length ≤ 9) :
    fractionWord (if fraction = [] then none else some fraction) = .ok (fractionOf fraction : ℤ) := by
  by_cases hnil : fraction = []
  · subst hnil
    rfl
  · have hvalue := fractionOf_lt hdigits hplaces
    have hpos : (0 : ℕ) < 10 ^ (9 - fraction.length) := by positivity
    have hunit : (10 : ℕ) ^ (9 - fraction.length) ≤ 1000000000 :=
      calc 10 ^ (9 - fraction.length) ≤ 10 ^ 9 := Nat.pow_le_pow_right (by decide) (Nat.sub_le _ _)
        _ = 1000000000 := rfl
    have hnumber : number fraction ≤ fractionOf fraction := Nat.le_mul_of_pos_right _ hpos
    have hcast : (number fraction : ℤ) * 10 ^ (9 - fraction.length) = (fractionOf fraction : ℤ) := by
      unfold fractionOf
      push_cast
      rfl
    have hcastUnit : ((10 ^ (9 - fraction.length) : ℕ) : ℤ) = 10 ^ (9 - fraction.length) := by
      push_cast
      rfl
    have hwritten : ¬ (fraction = [] ∨ 9 < fraction.length) := by
      rintro (h | h)
      · exact hnil h
      · omega
    rw [if_neg hnil]
    simp only [fractionWord]
    rw [if_neg hwritten, numeral_of_le ⟨hnil, hdigits⟩ (b := 1000000000) (by omega) (by decide), ok_bind,
      word_eq (by omega) (by omega), ok_bind, hcast, word_eq (by omega) (by omega)]

theorem clockWord_eq {h m s : ℕ} (hh : h ≤ 23) (hm : m ≤ 59) (hs : s ≤ 59) :
    clockWord h m s = .ok ((h * 3600 + m * 60 + s : ℕ) : ℤ) := by
  unfold clockWord
  rw [word_eq (by omega) (by omega), ok_bind, word_eq (by omega) (by omega), ok_bind,
    word_eq (by omega) (by omega), ok_bind, word_eq (by omega) (by omega)]
  push_cast
  rfl

/-- A duration, or a refusal. -/
def orRefused (d : Option Duration) : Except Stop Duration := d.elim (.error .refused) .ok

/-- What does not fit into the words is no duration. -/
theorem spanOf_eq {d c n : ℕ} (hc : c < 86400) (hn : n < 1000000000) :
    (checked d >>= fun d => spanOf d c n) =
      orRefused (of? ((d * 86400 * 1000000000 + (c * 1000000000 + n) : ℕ) : ℤ)) := by
  by_cases hfits : d * 86400 + c ≤ 9223372036854775807
  · have hnarrow : unchecked (.unsigned 32) n = .ok (n : ℤ) := by
      have hlow : (0 : ℤ) ≤ n := by omega
      have hhigh : (n : ℤ) ≤ 4294967295 := by omega
      have hcontains : (IntegerRange.unsigned 32).contains n = true :=
        IntegerRange.contains_iff.2 ⟨hlow, hhigh⟩
      exact if_pos hcontains
    have hsum : (d : ℤ) * 86400 + c = ((d * 86400 + c : ℕ) : ℤ) := by push_cast; rfl
    have htotal : ((d * 86400 + c : ℕ) : ℤ) * 1000000000 + n =
        ((d * 86400 * 1000000000 + (c * 1000000000 + n) : ℕ) : ℤ) := by
      push_cast
      ring
    rw [checked_eq (by omega) (by omega), ok_bind]
    unfold spanOf
    rw [checked_eq (by omega) (by omega), ok_bind, hsum, checked_eq (by omega) (by omega), ok_bind, hnarrow,
      ok_bind, htotal]
    generalize of? _ = o
    cases o with
    | none => rfl
    | some d => rfl
  · have hnone : of? ((d * 86400 * 1000000000 + (c * 1000000000 + n) : ℕ) : ℤ) = none := by
      have hlimit : limit = 9223372036854775807000000 := by decide
      apply of?_eq_none
      rw [hlimit, Int.natAbs_natCast]
      omega
    rw [hnone]
    -- one of the three checks refuses
    by_cases hdays : d ≤ 9223372036854775807
    · rw [checked_eq (by omega) (by omega), ok_bind]
      unfold spanOf
      by_cases hlength : d * 86400 ≤ 9223372036854775807
      · rw [checked_eq (by omega) (by omega), ok_bind, checked_refused (by omega)]
        rfl
      · rw [checked_refused (by omega)]
        rfl
    · rw [checked_refused (by omega)]
      rfl

theorem readTime_eq (h : IsClock hours minutes seconds fraction) :
    readTime (clockText hours minutes seconds fraction) =
      .ok (((number hours * 3600 + number minutes * 60 + number seconds : ℕ) : ℤ), (fractionOf fraction : ℤ)) := by
  have htime : ¬ (23 < (number hours : ℤ) ∨ 59 < (number minutes : ℤ) ∨ 59 < (number seconds : ℤ)) := by
    have := h.hours_le
    have := h.minutes_le
    have := h.seconds_le
    omega
  unfold readTime
  rw [splitList_clockText h]
  simp only [splitSeconds_eq h.seconds]
  rw [numeral_of_le h.hours h.hours_le (by decide), ok_bind, numeral_of_le h.minutes h.minutes_le (by decide),
    ok_bind, numeral_of_le h.seconds h.seconds_le (by decide), ok_bind, if_neg htime,
    fractionWord_eq h.fraction h.places_le, clockWord_eq h.hours_le h.minutes_le h.seconds_le]
  rfl

/-- In words, a text of the form is read as in whole numbers. -/
theorem readLength_eq (hdays : ∀ c ∈ days, c.isDigit = true) (h : IsClock hours minutes seconds fraction) :
    readLength (daysText days ++ clockText hours minutes seconds fraction) =
      orRefused (of? (lengthValue days hours minutes seconds fraction : ℤ)) := by
  have hclock : number hours * 3600 + number minutes * 60 + number seconds < 86400 := by
    have := h.hours_le
    have := h.minutes_le
    have := h.seconds_le
    omega
  have hspan := spanOf_eq (d := number days) hclock (fractionOf_lt h.fraction h.places_le)
  unfold lengthValue clockValue
  rw [← hspan]
  unfold readLength
  rw [splitDays_eq hdays h]
  cases checked (number days) with
  | error stop => rfl
  | ok d =>
    show (readTime (clockText hours minutes seconds fraction) >>= fun p => spanOf d p.1 p.2) = spanOf d _ _
    rw [readTime_eq h]
    rfl

/-! ## All texts -/

theorem ne_error_of_bind {ε α β : Type} {x : Except ε α} {f : α → Except ε β} {e : ε}
    (h : x >>= f ≠ .error e) : x ≠ .error e ∧ ∀ a, x = .ok a → f a ≠ .error e := by
  constructor
  · rintro rfl
    exact h rfl
  · rintro a rfl
    exact h

theorem numeral_of_ne_refused {cs : List Char} (h : numeral cs ≠ .error .refused) :
    IsNumeral cs ∧ numeral cs = .ok (number cs : ℤ) := by
  have hcs := isNumeral_of_ne_refused h
  refine ⟨hcs, ?_⟩
  rw [numeral_eq hcs] at h ⊢
  unfold checked at h ⊢
  split
  · rfl
  · next hno =>
    rw [if_neg hno] at h
    exact absurd rfl h

theorem seconds_of_ne_refused {cs : List Char} (hwhole : numeral (splitSeconds cs).1 ≠ .error .refused)
    (hfraction : fractionWord (splitSeconds cs).2 ≠ .error .refused) :
    ∃ fraction, cs = (splitSeconds cs).1 ++ Decimal.pointed fraction ∧
      (∀ c ∈ fraction, c.isDigit = true) ∧ fraction.length ≤ 9 := by
  unfold splitSeconds at hwhole hfraction ⊢
  cases hcut : Text.cut? '.' cs with
  | none => exact ⟨[], by simp [Decimal.pointed], by simp, by simp⟩
  | some parts =>
    obtain ⟨whole, fraction⟩ := parts
    obtain ⟨-, rfl⟩ := Text.cut?_eq_some_iff.1 hcut
    rw [hcut] at hfraction
    simp only [Option.elim_some, fractionWord] at hfraction
    split at hfraction
    · exact absurd rfl hfraction
    · next hlength =>
      have hdigits := isNumeral_of_ne_refused (ne_error_of_bind hfraction).1
      refine ⟨fraction, ?_, hdigits.2, by omega⟩
      rw [Decimal.pointed, if_neg hdigits.1]
      rfl

/-- Only a time of day is not refused as one. -/
theorem isClock_of_ne_refused {cs : List Char} (h : readTime cs ≠ .error .refused) :
    ∃ hours minutes seconds fraction, IsClock hours minutes seconds fraction ∧
      cs = clockText hours minutes seconds fraction := by
  unfold readTime at h
  split at h
  · next hours minutes last hsplit =>
    obtain ⟨hh, h⟩ := ne_error_of_bind h
    obtain ⟨hhours, hh⟩ := numeral_of_ne_refused hh
    obtain ⟨hm, h⟩ := ne_error_of_bind (h _ hh)
    obtain ⟨hminutes, hm⟩ := numeral_of_ne_refused hm
    obtain ⟨hs, h⟩ := ne_error_of_bind (h _ hm)
    obtain ⟨hseconds, hsEq⟩ := numeral_of_ne_refused hs
    have hrest := h _ hsEq
    split at hrest
    · exact absurd rfl hrest
    · next htime =>
      obtain ⟨fraction, hlast, hdigits, hplaces⟩ :=
        seconds_of_ne_refused hs (ne_error_of_bind hrest).1
      refine ⟨hours, minutes, (splitSeconds last).1, fraction,
        ⟨hhours, hminutes, hseconds, hdigits, by omega, by omega, by omega, hplaces⟩, ?_⟩
      have hjoined : [':'].intercalate (cs.splitOn ':') = cs := List.intercalate_splitOn ':'
      rw [← Text.splitList_eq_splitOn, hsplit] at hjoined
      rw [clockText, ← hlast, ← hjoined]
      simp [List.intercalate]
  · exact absurd rfl h

/-- Only a text of the form is not refused. -/
theorem exists_of_ne_refused {cs : List Char} (h : readLength cs ≠ .error .refused) :
    ∃ n, readLength? cs = some n := by
  have hplain {cs : List Char} (h : readTime cs ≠ .error .refused) : ∃ n, readLength? cs = some n := by
    obtain ⟨hours, minutes, seconds, fraction, hclock, rfl⟩ := isClock_of_ne_refused h
    exact ⟨_, readLength?_clock hclock⟩
  obtain ⟨hdays, h⟩ := ne_error_of_bind h
  cases hcut : Text.cut? '.' cs with
  | none =>
    have hsplit : splitDays cs = .ok (0, cs) := by
      unfold splitDays
      rw [hcut]
    exact hplain (ne_error_of_bind (h _ hsplit)).1
  | some parts =>
    obtain ⟨days, clock⟩ := parts
    have hsplit : splitDays cs =
        if ':' ∈ days then .ok (0, cs) else (numeral days).map fun d => (d, clock) := by
      unfold splitDays
      rw [hcut]
    by_cases hcolon : ':' ∈ days
    · rw [if_pos hcolon] at hsplit
      exact hplain (ne_error_of_bind (h _ hsplit)).1
    · rw [if_neg hcolon] at hsplit
      have hne : numeral days ≠ .error .refused := by
        intro herror
        rw [hsplit, herror] at hdays
        exact hdays rfl
      obtain ⟨hnumeral, hd⟩ := numeral_of_ne_refused hne
      rw [hd] at hsplit
      obtain ⟨hours, minutes, seconds, fraction, hclock, rfl⟩ :=
        isClock_of_ne_refused (ne_error_of_bind (h (number days, clock) hsplit)).1
      obtain ⟨-, rfl⟩ := Text.cut?_eq_some_iff.1 hcut
      exact ⟨_, readLength?_days hnumeral hclock⟩

theorem readLength_eq_readLength? (cs : List Char) :
    readLength cs = orRefused ((readLength? cs).bind fun n => of? n) := by
  cases hread : readLength? cs with
  | some n =>
    obtain ⟨days, hours, minutes, seconds, fraction, hdays, hclock, rfl, rfl⟩ :=
      readLength?_eq_some_iff.1 hread
    rw [Option.bind_some]
    exact readLength_eq hdays hclock
  | none =>
    by_contra hne
    obtain ⟨n, hn⟩ := exists_of_ne_refused hne
    rw [hread] at hn
    cases hn

theorem opposite_of? (n : ℕ) : (of? (n : ℤ)).map opposite = of? (-(n : ℤ)) := by
  unfold of?
  simp only [Int.natAbs_neg]
  split
  · rfl
  · rfl

/-- In words, durations are read as in whole numbers, and nothing wraps. -/
theorem read_eq (s : String) : read s = orRefused (read? s) := by
  unfold read Duration.read?
  generalize Text.trimChars s.toList = cs
  split
  · next rest =>
    have hsigned : readChars? ('-' :: rest) = (readLength? rest).bind fun n => of? (-(n : ℤ)) := rfl
    rw [hsigned, readLength_eq_readLength? rest]
    cases readLength? rest with
    | none => rfl
    | some n =>
      rw [Option.bind_some, Option.bind_some, ← opposite_of?]
      cases of? (n : ℤ) with
      | none => rfl
      | some d => rfl
  · next hsign =>
    have hhead : cs.head? ≠ some '-' := by
      intro h
      obtain ⟨rest, hrest⟩ := List.head?_eq_some_iff.1 h
      exact hsign rest hrest
    rw [readChars?_unsigned hhead, readLength_eq_readLength? cs]

end Words

/-! ## Top theorem (proved from the lemmas above) -/

/-- A text is read as a duration just if, white space at its ends aside, it has the form
`[-][d.]hh:mm:ss[.f]` and what it says is not too long, and then the duration is exactly what it says. Any
other text is refused with an error that holds it as it was given. Words of 64 bits are enough to find that
out, and no operation on them wraps. -/
theorem reading_duration_iff (s : String) :
    (∀ d, read? s = some d ↔ ∃ p : Form, p.Writes s ∧ (d.nanoseconds : ℚ) = p.value * 10 ^ 9) ∧
    ((∃ d, read? s = some d) ↔ ∃ p : Form, p.Writes s ∧ |p.value| ≤ (2 ^ 63 - 1) / 1000) ∧
    (Coercion.reading s .duration = .error (some (.duration s)) ↔
      ¬ ∃ p : Form, p.Writes s ∧ |p.value| ≤ (2 ^ 63 - 1) / 1000) ∧
    (∀ d, Words.read s = .ok d ↔ read? s = some d) ∧ Words.read s ≠ .error .wrapped := by
  refine ⟨fun _ => read?_eq_some_iff, exists_read?_iff, ?_, ?_, ?_⟩
  · rw [← exists_read?_iff]
    unfold Coercion.reading
    simp only
    cases read? s with
    | none => simp
    | some d => simp
  · intro d
    rw [Words.read_eq]
    cases read? s with
    | none => simp [Words.orRefused]
    | some d' => simp [Words.orRefused]
  · rw [Words.read_eq]
    cases read? s with
    | none => simp [Words.orRefused]
    | some d => simp [Words.orRefused]

/-- Days without end have no room in a word, and are refused without having wrapped. -/
example : Words.read "99999999999999999999.00:00:00" = .error .refused := by decide +kernel

end Duration

end RecordQuery
