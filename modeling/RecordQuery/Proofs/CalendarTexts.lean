import RecordQuery.Scalar
import RecordQuery.Proofs.Digits
import RecordQuery.Proofs.Lexing

/-!
# Texts of dates and date-times

What is displayed of a date or a date-time has every field at its full width and a mark that is no digit
behind it, so a field ends for the reader where it ended for the printer. A field is read back in front of
whatever follows it, and the texts are put together from such fields:

    readNumber width (cs ++ rest) = .ok (number cs, rest)                              (readNumber_eq)
    Date.readParts (d.chars ++ rest) = .ok ((d.year, d.month, d.day), rest)         (readParts_chars)
    of? t.hour t.minute t.shownSecond (t.nanosecond % 1000000000) = some t        (ClockTime.of?_shown)

The sign of a year outside 0 to 9999 is read in a date, and in a date-time without an offset. In front of an
offset it is not: there a year is four digits, and so the texts of these date-times are not read back
(`calendar_texts_read_back`).
-/

namespace RecordQuery

/-! ## Fields -/

namespace Calendar

open Digit
open Lexer (NotNext notNext_cons takeWhile_append_notNext dropWhile_append_notNext)

variable {cs rest : List Char} {low high n width : Nat}

/-- Digits that fill the field, or that another character ends, are read at their value. -/
theorem readNumber_eq (h : IsNumeral cs) (hwidth : cs.length ≤ width)
    (hrest : cs.length = width ∨ NotNext Char.isDigit rest) :
    readNumber width (cs ++ rest) = .ok (number cs, rest) := by
  have hstop : NotNext Char.isDigit (rest.take (width - cs.length)) := by
    rcases hrest with hfull | hstop
    · rw [hfull, Nat.sub_self, List.take_zero]
      rfl
    · cases width - cs.length with
      | zero => rfl
      | succ k =>
        cases rest with
        | nil => rfl
        | cons c rest => exact hstop
  have hdigits : ((cs ++ rest).take width).takeWhile Char.isDigit = cs := by
    rw [List.take_append, List.take_of_length_le hwidth]
    exact takeWhile_append_notNext h.2 hstop
  obtain ⟨c, cs, rfl⟩ := List.exists_cons_of_ne_nil h.1
  rw [List.cons_append] at hdigits ⊢
  unfold readNumber
  simp only [if_pos (h.2 c List.mem_cons_self), hdigits]
  rw [← List.cons_append, List.drop_left]

/-- White space is skipped only where it stands. -/
theorem dropBlanks_numeral (h : IsNumeral cs) (rest : List Char) :
    Text.dropBlanks (cs ++ rest) = cs ++ rest := by
  obtain ⟨c, cs, rfl⟩ := List.exists_cons_of_ne_nil h.1
  have hc : Text.isBlank c = false := Lexer.isBlank_of_isDigit (h.2 c List.mem_cons_self)
  exact List.dropWhile_cons_of_neg (by simp [hc])

theorem readPart_padded (hlow : low ≤ n) (hhigh : n ≤ high) (hn : n < 10 ^ 2) (rest : List Char) :
    readPart low high (padded 2 n ++ rest) = .ok (n, rest) := by
  have hlength := length_padded (by omega) hn
  unfold readPart
  rw [dropBlanks_numeral (isNumeral_padded 2 n),
    readNumber_eq (isNumeral_padded 2 n) (Nat.le_of_eq hlength) (.inl hlength), number_padded, ok_bind]
  exact if_pos ⟨hlow, hhigh⟩

theorem readMark_cons (mark : Char) (cs : List Char) : readMark mark (mark :: cs) = .ok cs := if_pos rfl

theorem readMark?_cons (mark : Char) (cs : List Char) : readMark? mark (mark :: cs) = some cs := if_pos rfl

theorem readFixed?_eq (width : Nat) (cs : List Char) :
    readFixed? width cs =
      if (cs.take width).length = width ∧ (cs.take width).all Char.isDigit then
        some (number (cs.take width), cs.drop width)
      else none := rfl

theorem readFixed?_padded (hwidth : 0 < width) (h : n < 10 ^ width) (rest : List Char) :
    readFixed? width (padded width n ++ rest) = some (n, rest) := by
  have hlength := length_padded hwidth h
  have htake : (padded width n ++ rest).take width = padded width n := List.take_left' hlength
  have hdrop : (padded width n ++ rest).drop width = rest := List.drop_left' hlength
  have hdigits : (padded width n).all Char.isDigit = true := List.all_eq_true.2 (isNumeral_padded width n).2
  rw [readFixed?_eq, htake, hdrop, number_padded]
  exact if_pos ⟨hlength, hdigits⟩

theorem readTwo?_padded (hlow : low ≤ n) (hhigh : n ≤ high) (hn : n < 10 ^ 2) (rest : List Char) :
    readTwo? low high (padded 2 n ++ rest) = some (n, rest) := by
  unfold readTwo?
  rw [readFixed?_padded (by omega) hn]
  exact if_pos ⟨hlow, hhigh⟩

/-- A sign is no digit of a field with a full width. -/
theorem readFixed?_of_not_isDigit {c : Char} (hwidth : 0 < width) (hc : c.isDigit = false) (cs : List Char) :
    readFixed? width (c :: cs) = none := by
  obtain ⟨k, rfl⟩ : ∃ k, width = k + 1 := ⟨width - 1, by omega⟩
  rw [readFixed?_eq, List.take_succ_cons, List.all_cons, hc, Bool.false_and]
  exact if_neg fun h => Bool.false_ne_true h.2

/-- What a field of `width` digits holds is less than the power of ten. -/
theorem lt_pow_of_readFixed? (h : readFixed? width cs = some (n, rest)) : n < 10 ^ width := by
  rw [readFixed?_eq] at h
  split at h
  · next hdigits =>
    cases h
    have hlt := number_lt_pow (List.all_eq_true.1 hdigits.2)
    rwa [hdigits.1] at hlt
  · cases h

/-! ## Years -/

theorem readYear_minus (cs : List Char) :
    readYear ('-' :: cs) = (readNumber cs.length cs >>= fun (n, rest) => checkYear (-n) rest) := rfl

theorem readYear_plus (cs : List Char) :
    readYear ('+' :: cs) = (readNumber cs.length cs >>= fun (n, rest) => checkYear n rest) := rfl

theorem readYear_numeral (h : IsNumeral cs) (rest : List Char) :
    readYear (cs ++ rest) = (readNumber 4 (cs ++ rest) >>= fun (n, rest) => checkYear n rest) := by
  have hdrop := dropBlanks_numeral h rest
  obtain ⟨c, cs, rfl⟩ := List.exists_cons_of_ne_nil h.1
  have hc : c.isDigit = true := h.2 c List.mem_cons_self
  unfold readYear
  rw [hdrop]
  split
  · next heq =>
    cases heq
    exact absurd hc (by decide)
  · next heq =>
    cases heq
    exact absurd hc (by decide)
  · rfl

/-- The years of the calendar have room in a word. -/
theorem checkYear_eq {year : Int} (hlow : minYear ≤ year) (hhigh : year ≤ maxYear) (rest : List Char) :
    checkYear year rest = .ok (year, rest) := by
  have hmin : (-2147483648 : Int) ≤ year := Int.le_trans (by decide) hlow
  have hmax : year ≤ 2147483647 := Int.le_trans hhigh (by decide)
  have hword : (IntegerRange.signed 32).contains year = true := by
    unfold IntegerRange.contains
    rw [Bool.and_eq_true, decide_eq_true_eq, decide_eq_true_eq]
    exact ⟨hmin, hmax⟩
  exact if_pos hword

/-- A year is read back from the front of a text, with its sign if it has one. -/
theorem readYear_yearText {year : Int} (hlow : minYear ≤ year) (hhigh : year ≤ maxYear)
    (hrest : NotNext Char.isDigit rest) : readYear (Date.yearText year ++ rest) = .ok (year, rest) := by
  have hcheck := checkYear_eq hlow hhigh rest
  have hnumeral := isNumeral_padded 4 year.natAbs
  have hsigned : readNumber (padded 4 year.natAbs ++ rest).length (padded 4 year.natAbs ++ rest) =
      .ok (year.natAbs, rest) := by
    rw [readNumber_eq hnumeral (by rw [List.length_append]; omega) (.inr hrest), number_padded]
  unfold Date.yearText
  by_cases hplain : 0 ≤ year ∧ year ≤ 9999
  · have hlength : (padded 4 year.natAbs).length = 4 := length_padded (by omega) (by omega)
    have hvalue : (year.natAbs : Int) = year := by omega
    rw [if_pos hplain, readYear_numeral hnumeral,
      readNumber_eq hnumeral (Nat.le_of_eq hlength) (.inl hlength), number_padded, ok_bind]
    simp only [hvalue]
    exact hcheck
  · rw [if_neg hplain, List.cons_append]
    by_cases hneg : year < 0
    · have hvalue : -(year.natAbs : Int) = year := by omega
      rw [if_pos hneg, readYear_minus, hsigned, ok_bind]
      simp only [hvalue]
      exact hcheck
    · have hvalue : (year.natAbs : Int) = year := by omega
      rw [if_neg hneg, readYear_plus, hsigned, ok_bind]
      simp only [hvalue]
      exact hcheck

/-! ## Fractions -/

theorem readFraction?_padded (hwidth : 0 < width) (hle : width ≤ 9) (hn : n < 10 ^ width)
    (hrest : NotNext Char.isDigit rest) :
    readFraction? ('.' :: (padded width n ++ rest)) = some (n * 10 ^ (9 - width), rest) := by
  have hnumeral := isNumeral_padded width n
  have hlength := length_padded hwidth hn
  have hkept : (padded width n).take 9 = padded width n := List.take_of_length_le (by omega)
  unfold readFraction?
  simp only [takeWhile_append_notNext hnumeral.2 hrest, dropWhile_append_notNext hnumeral.2 hrest,
    if_neg hnumeral.1, billionths, hkept, hlength, number_padded]

/-- A fraction is read back whole, whichever of its widths is shown. -/
theorem readFraction?_fractionChars (n : Nat) (hdigit : NotNext Char.isDigit rest)
    (hpoint : rest.head? ≠ some '.') :
    readFraction? (ClockTime.fractionChars n ++ rest) = some (n % 1000000000, rest) := by
  have hlt : n % 1000000000 < 1000000000 := Nat.mod_lt _ (by omega)
  unfold ClockTime.fractionChars
  simp only
  generalize n % 1000000000 = k at hlt ⊢
  split
  · next hzero =>
    rw [hzero, List.nil_append]
    unfold readFraction?
    split
    · exact absurd rfl hpoint
    · rfl
  · split
    · next hmilli =>
      have hwhole : k / 1000000 * 10 ^ (9 - 3) = k := by omega
      rw [List.cons_append, readFraction?_padded (by omega) (by omega) (by omega) hdigit, hwhole]
    · split
      · next hmicro =>
        have hwhole : k / 1000 * 10 ^ (9 - 6) = k := by omega
        rw [List.cons_append, readFraction?_padded (by omega) (by omega) (by omega) hdigit, hwhole]
      · have hwhole : k * 10 ^ (9 - 9) = k := Nat.mul_one k
        rw [List.cons_append, readFraction?_padded (by omega) (by omega) (by omega) hdigit, hwhole]

end Calendar

open Calendar
open Lexer (NotNext notNext_cons)

/-! ## Dates -/

namespace Date

theorem day_le (d : Date) : d.day ≤ 31 := by
  have hday := d.isDay
  have hlength : daysInMonth d.year d.month ≤ 31 := by
    unfold daysInMonth
    split
    · split <;> omega
    · split <;> omega
  simp only [Calendar.isDay, Bool.and_eq_true, decide_eq_true_eq] at hday
  omega

theorem of?_parts (d : Date) : of? d.year d.month d.day = some d := dif_pos d.isDay

theorem year_of_of? {year : Int} {month day : Nat} {d : Date} (h : of? year month day = some d) :
    d.year = year := by
  unfold of? at h
  split at h
  · cases h
    rfl
  · cases h

/-- The three parts of a date are read back from the front of a text. -/
theorem readParts_chars (d : Date) (rest : List Char) :
    readParts (d.chars ++ rest) = .ok ((d.year, d.month, d.day), rest) := by
  have hday := d.isDay
  have hle := d.day_le
  simp only [Calendar.isDay, Bool.and_eq_true, decide_eq_true_eq] at hday
  obtain ⟨⟨⟨⟨⟨hmin, hmax⟩, hmonth⟩, hmonth'⟩, hfirst⟩, -⟩ := hday
  have hmark (rest : List Char) : NotNext Char.isDigit ('-' :: rest) := notNext_cons (by decide)
  unfold readParts chars
  simp only [List.append_assoc, List.cons_append, readYear_yearText hmin hmax (hmark _), readMark_cons,
    readPart_padded hmonth hmonth' (by omega), readPart_padded hfirst hle (by omega), ok_bind, pure_eq_ok]

theorem readChars_chars (d : Date) : readChars d.chars = .ok d := by
  have hparts := d.readParts_chars []
  rw [List.append_nil] at hparts
  unfold readChars
  rw [hparts, ok_bind]
  simp only [ne_eq, not_true_eq_false, if_false, of?_parts, pure_eq_ok]

theorem readChars_append (d : Date) (c : Char) (rest : List Char) :
    readChars (d.chars ++ c :: rest) = .error .tooLong := by
  unfold readChars
  rw [d.readParts_chars, ok_bind]
  simp only [ne_eq, reduceCtorEq, not_false_eq_true, if_true, throw_eq_error, error_bind]

end Date

/-! ## Times of day -/

namespace ClockTime

theorem shownSecond_le (t : ClockTime) : t.shownSecond ≤ 60 := by
  have hsecond := t.second_lt
  unfold shownSecond
  split <;> omega

/-- Of a leap second the number 60 and the fraction are shown, and these give it back. -/
theorem of?_shown (t : ClockTime) :
    of? t.hour t.minute t.shownSecond (t.nanosecond % 1000000000) = some t := by
  have hhour := t.hour_lt
  have hminute := t.minute_lt
  have hsecond := t.second_lt
  have hnano := t.nanosecond_lt
  by_cases hleap : 1000000000 ≤ t.nanosecond
  · have hlast : t.second = 59 := by
      split at hnano
      · assumption
      · omega
    rw [if_pos hlast] at hnano
    have hshown : t.shownSecond = 60 := by
      unfold shownSecond
      rw [if_pos hleap, hlast]
    have hwhole : t.nanosecond % 1000000000 + 1000000000 = t.nanosecond := by omega
    unfold of?
    simp only [hshown, if_true, hwhole, ← hlast]
    exact dif_pos ⟨hhour, hminute, hsecond, hnano⟩
  · have hshown : t.shownSecond = t.second := if_neg hleap
    have hwhole : t.nanosecond % 1000000000 = t.nanosecond := by omega
    have hne : t.second ≠ 60 := by omega
    unfold of?
    simp only [hshown, if_neg hne, hwhole]
    exact dif_pos ⟨hhour, hminute, hsecond, t.nanosecond_lt⟩

end ClockTime

/-! ## Date-times -/

namespace DateTime

variable {dt : DateTime}

/-- The characters of the text of a date-time. -/
def chars (dt : DateTime) : List Char :=
  dt.date.chars ++ 'T' :: (dt.time.chars ++ offsetChars dt.offset)

theorem display_eq (dt : DateTime) : (Scalar.dateTime dt).display = String.ofList dt.chars := rfl

theorem of?_parts (dt : DateTime) : of? (some dt.date) (some dt.time) dt.offset = some dt :=
  dif_pos dt.offset_lt

theorem date_of_of? {date : Option Date} {time : Option ClockTime} {offset : Int}
    (h : of? date time offset = some dt) : date = some dt.date := by
  unfold of? at h
  simp only [Option.bind_eq_bind, Option.bind_eq_some_iff] at h
  obtain ⟨d, rfl, t, -, h⟩ := h
  split at h
  · cases h
    rfl
  · cases h

theorem readOffset?_offsetChars {offset : Int} (h : offset.natAbs < 24 * 60) :
    readOffset? (offsetChars offset) = some (offset, []) := by
  obtain ⟨hours, minutes, hhours, hminutes, heq⟩ : ∃ hours minutes : Nat, offset.natAbs / 60 = hours ∧
      offset.natAbs % 60 = minutes ∧ offset.natAbs = 60 * hours + minutes := ⟨_, _, rfl, rfl, by omega⟩
  have hread (rest : List Char) : readTwo? 0 23 (Digit.padded 2 hours ++ rest) = some (hours, rest) :=
    readTwo?_padded (Nat.zero_le _) (by omega) (by omega) rest
  have hread' : readTwo? 0 59 (Digit.padded 2 minutes) = some (minutes, []) := by
    have hall := readTwo?_padded (Nat.zero_le minutes) (show minutes ≤ 59 by omega) (by omega) []
    rwa [List.append_nil] at hall
  unfold offsetChars
  rw [hhours, hminutes]
  by_cases hneg : offset < 0
  · have hvalue : -(60 * (hours : Int) + minutes) = offset := by omega
    rw [if_pos hneg, ← hvalue]
    simp [readOffset?, hread, readMark?_cons, hread']
  · have hvalue : 60 * (hours : Int) + minutes = offset := by omega
    rw [if_neg hneg, ← hvalue]
    simp [readOffset?, hread, readMark?_cons, hread']

/-! ## Date-times with a year of four digits -/

/-- All years of four digits, and no others, are written without a sign. -/
def HasPlainYear (dt : DateTime) : Prop := 0 ≤ dt.date.year ∧ dt.date.year ≤ 9999

instance (dt : DateTime) : Decidable dt.HasPlainYear := inferInstanceAs (Decidable (_ ∧ _))

/-- What stands behind the seconds neither goes on with the number nor with the fraction. -/
theorem offsetChars_head (offset : Int) : ∃ c cs, offsetChars offset = c :: cs ∧ c.isDigit = false ∧ c ≠ '.' := by
  unfold offsetChars
  split
  · exact ⟨_, _, rfl, by decide, by decide⟩
  · exact ⟨_, _, rfl, by decide, by decide⟩

theorem readFraction?_chars (dt : DateTime) :
    readFraction? (ClockTime.fractionChars dt.time.nanosecond ++ offsetChars dt.offset) =
      some (dt.time.nanosecond % 1000000000, offsetChars dt.offset) := by
  obtain ⟨c, cs, heq, hdigit, hpoint⟩ := offsetChars_head dt.offset
  rw [heq]
  exact readFraction?_fractionChars _ (notNext_cons hdigit) (by simpa using hpoint)

theorem readFull?_chars (h : dt.HasPlainYear) : readFull? dt.chars = some dt := by
  have hday := dt.date.isDay
  have hle := dt.date.day_le
  simp only [Calendar.isDay, Bool.and_eq_true, decide_eq_true_eq] at hday
  obtain ⟨⟨⟨-, hmonth⟩, hmonth'⟩, hfirst⟩ := hday.1
  have hyear : (dt.date.year.natAbs : Int) = dt.date.year := by
    have hpos := h.1
    omega
  have hwidth : dt.date.year.natAbs < 10 ^ 4 := by
    have hmax := h.2
    omega
  have htext : Date.yearText dt.date.year = Digit.padded 4 dt.date.year.natAbs := if_pos h
  have hhour := dt.time.hour_lt
  have hminute := dt.time.minute_lt
  have hsecond := dt.time.shownSecond_le
  have hseparator (cs : List Char) : readSeparator? ('T' :: cs) = some cs := rfl
  unfold readFull? chars Date.chars ClockTime.chars
  simp only [htext, List.append_assoc, List.cons_append, readFixed?_padded (by omega) hwidth, readMark?_cons,
    readTwo?_padded hmonth hmonth' (by omega), readTwo?_padded hfirst hle (by omega), hseparator,
    readTwo?_padded (Nat.zero_le _) (Nat.le_of_lt_succ hhour) (by omega),
    readTwo?_padded (Nat.zero_le _) (Nat.le_of_lt_succ hminute) (by omega),
    readTwo?_padded (Nat.zero_le _) hsecond (by omega), readFraction?_chars,
    readOffset?_offsetChars dt.offset_lt, Option.bind_eq_bind, Option.bind_some, if_true, hyear,
    Date.of?_parts, ClockTime.of?_shown, of?_parts]

/-- In front of an offset the year is four digits. -/
theorem hasPlainYear_of_readFull? {cs : List Char} (h : readFull? cs = some dt) : dt.HasPlainYear := by
  unfold readFull? at h
  simp only [Option.bind_eq_bind, Option.bind_eq_some_iff] at h
  obtain ⟨⟨year, rest⟩, hyear, _, -, month, -, _, -, day, -, _, -, _, -, _, -, _, -, _, -, _, -, _, -, _, -, h⟩ := h
  have hlt := lt_pow_of_readFixed? hyear
  split at h
  · have hdate := date_of_of? h
    rw [HasPlainYear, Date.year_of_of? hdate]
    exact ⟨Int.natCast_nonneg year, by omega⟩
  · cases h

/-! ## Date-times with another year -/

/-- A sign is no digit of a year that has to have four. -/
theorem readFull?_signed (h : ¬ dt.HasPlainYear) : readFull? dt.chars = none := by
  obtain ⟨sign, cs, htext, hsign⟩ : ∃ sign cs, dt.chars = sign :: cs ∧ sign.isDigit = false := by
    have hyear : Date.yearText dt.date.year =
        (if dt.date.year < 0 then '-' else '+') :: Digit.padded 4 dt.date.year.natAbs := if_neg h
    refine ⟨_, _, by rw [chars, Date.chars, hyear, List.cons_append, List.cons_append], ?_⟩
    split <;> decide
  unfold readFull?
  rw [htext, readFixed?_of_not_isDigit (by omega) hsign]
  rfl

/-- A date-time without an offset ends behind its seconds. -/
theorem readLocalParts_chars (dt : DateTime) : readLocalParts dt.chars = .error .tooLong := by
  have hhour := dt.time.hour_lt
  have hminute := dt.time.minute_lt
  have hsecond := dt.time.shownSecond_le
  have hne : offsetChars dt.offset ≠ [] := by
    obtain ⟨c, cs, heq, -⟩ := offsetChars_head dt.offset
    rw [heq]
    exact List.cons_ne_nil c cs
  unfold readLocalParts chars
  rw [dt.date.readParts_chars, ok_bind]
  unfold ClockTime.chars
  simp only [List.append_assoc, List.cons_append, readMark_cons,
    readPart_padded (Nat.zero_le _) (Nat.le_of_lt_succ hhour) (by omega),
    readPart_padded (Nat.zero_le _) (Nat.le_of_lt_succ hminute) (by omega),
    readPart_padded (Nat.zero_le _) hsecond (by omega), readFraction?_chars, ok_bind, ne_eq, hne,
    not_false_eq_true, if_true, throw_eq_error, error_bind]

end DateTime

/-! ## White space -/

theorem Digit.IsNumeral.not_isBlank {cs : List Char} (h : Digit.IsNumeral cs) :
    ∀ c ∈ cs, Text.isBlank c = false := fun c hc => Lexer.isBlank_of_isDigit (h.2 c hc)

theorem Date.chars_not_isBlank (d : Date) : ∀ c ∈ d.chars, Text.isBlank c = false := by
  have hyear : ∀ c ∈ yearText d.year, Text.isBlank c = false := by
    have hdigits := (Digit.isNumeral_padded 4 d.year.natAbs).not_isBlank
    unfold yearText
    split
    · exact hdigits
    · refine List.forall_mem_cons.2 ⟨?_, hdigits⟩
      split <;> decide
  unfold chars
  simp only [List.forall_mem_append, List.forall_mem_cons]
  exact ⟨hyear, by decide, (Digit.isNumeral_padded 2 _).not_isBlank, by decide,
    (Digit.isNumeral_padded 2 _).not_isBlank⟩

theorem DateTime.chars_not_isBlank (dt : DateTime) : ∀ c ∈ dt.chars, Text.isBlank c = false := by
  have hpadded (width n : Nat) := (Digit.isNumeral_padded width n).not_isBlank
  have hfraction : ∀ c ∈ ClockTime.fractionChars dt.time.nanosecond, Text.isBlank c = false := by
    unfold ClockTime.fractionChars
    simp only
    split
    · exact fun c hc => absurd hc List.not_mem_nil
    · split
      · exact List.forall_mem_cons.2 ⟨by decide, hpadded _ _⟩
      · split <;> exact List.forall_mem_cons.2 ⟨by decide, hpadded _ _⟩
  have hoffset : ∀ c ∈ offsetChars dt.offset, Text.isBlank c = false := by
    unfold offsetChars
    simp only [List.forall_mem_append, List.forall_mem_cons]
    refine ⟨?_, hpadded _ _, by decide, hpadded _ _⟩
    split <;> decide
  unfold chars ClockTime.chars
  simp only [List.forall_mem_append, List.forall_mem_cons]
  exact ⟨dt.date.chars_not_isBlank, by decide, ⟨hpadded _ _, by decide, hpadded _ _, by decide, hpadded _ _,
    hfraction⟩, hoffset⟩

/-! ## Displayed texts -/

theorem Date.read_display_eq (d : Date) : Date.read (Scalar.date d).display = .ok d := by
  show Date.readChars (Text.trimChars (String.ofList d.chars).toList) = .ok d
  rw [String.toList_ofList, Text.trimChars_of_not_isBlank d.chars_not_isBlank, readChars_chars]

theorem DateTime.read_display_eq (dt : DateTime) : DateTime.read (Scalar.dateTime dt).display =
    if dt.HasPlainYear then .ok dt else .error .tooLong := by
  rw [display_eq, read, String.toList_ofList, Text.trimChars_of_not_isBlank dt.chars_not_isBlank]
  by_cases h : dt.HasPlainYear
  · rw [if_pos h, readFull?_chars h]
  · have hdate : Date.readChars dt.chars = .error .tooLong := dt.date.readChars_append 'T' _
    rw [if_neg h, readFull?_signed h, readLocalParts_chars]
    simp only [hdate]
    rfl

/-! ## Top theorem (proved from the lemmas above) -/

/-- What is displayed of a date-time is read as that date-time, with its offset, its fraction and its leap
second, just if the year has four digits; whatever was read with an offset has such a year. Of all others
the text shows a sign in front of the year and an offset, and there is no format with both. What is displayed
of a date is read as that date, whatever the year. -/
theorem calendar_texts_read_back (dt : DateTime) (d : Date) :
    (DateTime.read (Scalar.dateTime dt).display =
      if 0 ≤ dt.date.year ∧ dt.date.year ≤ 9999 then .ok dt else .error .tooLong) ∧
    (∀ s : String, DateTime.readFull? (Text.trimChars s.toList) = some dt →
      DateTime.read (Scalar.dateTime dt).display = .ok dt) ∧
    Date.read (Scalar.date d).display = .ok d := by
  refine ⟨dt.read_display_eq, fun s h => ?_, d.read_display_eq⟩
  rw [dt.read_display_eq, if_pos (DateTime.hasPlainYear_of_readFull? h)]

/-- The leap second at the end of 2016, and half a second of it, on a clock of Nepal. -/
def leapSecond : DateTime :=
  ⟨⟨2017, 1, 1, by decide⟩, ⟨5, 44, 59, 1500000000, by decide, by decide, by decide, by decide⟩, 345, by decide⟩

/-- A text with a leap second, a fraction and an offset in minutes. -/
theorem calendar_texts_read_back_leap_second :
    DateTime.readFull? (Text.trimChars " 2017-01-01t05:44:60.50+05:45".toList) = some leapSecond ∧
    DateTime.read (Scalar.dateTime leapSecond).display = .ok leapSecond := by
  have hread : DateTime.readFull? (Text.trimChars " 2017-01-01t05:44:60.50+05:45".toList) = some leapSecond := by
    decide +kernel
  exact ⟨hread, (calendar_texts_read_back leapSecond leapSecond.date).2.1 _ hread⟩

/-- A date with a signed year is read as its midnight, and the text of that midnight is not read. -/
theorem signed_year_not_read_back :
    ∃ dt : DateTime, DateTime.read "+12345-01-31" = .ok dt ∧
      (Scalar.dateTime dt).display = "+12345-01-31T00:00:00+00:00" ∧
      DateTime.read (Scalar.dateTime dt).display = .error .tooLong := by
  refine ⟨.ofDate ⟨12345, 1, 31, by decide⟩, by rfl, by decide +kernel, by rfl⟩

end RecordQuery
