import RecordQuery.Calendar.Date

/-!
# Date-times with an offset

A `DateTime` is a date and a time of day on the clock of some offset from universal time. Two of
them are ordered by the instants that they denote. A leap second is the second 59 with a fraction of
a second or more.

Text is read in three formats, the first that fits: a full date and time with an offset
(`2024-03-01T10:00:00+02:00`), a date and time without one, taken as universal time, and a date alone,
taken as its midnight. When none fits, the fault is that of the last.
-/

namespace RecordQuery

/-- A time on the clock. -/
structure ClockTime where
  hour : Nat
  minute : Nat
  second : Nat
  nanosecond : Nat
  hour_lt : hour < 24
  minute_lt : minute < 60
  second_lt : second < 60
  nanosecond_lt : nanosecond < if second = 59 then 2000000000 else 1000000000
deriving DecidableEq, Repr

/-- A date and clock time, so many minutes ahead of universal time. -/
structure DateTime where
  date : Date
  time : ClockTime
  offset : Int
  offset_lt : offset.natAbs < 24 * 60
deriving DecidableEq, Repr

namespace ClockTime

/-! ## Algorithm -/

/-- The time with these parts, where second 60 is a leap second. -/
def of? (hour minute second nanosecond : Nat) : Option ClockTime :=
  let leap := second = 60
  let s := if leap then 59 else second
  let n := if leap then nanosecond + 1000000000 else nanosecond
  if h : hour < 24 ∧ minute < 60 ∧ s < 60 ∧ n < if s = 59 then 2000000000 else 1000000000 then
    some ⟨hour, minute, s, n, h.1, h.2.1, h.2.2.1, h.2.2.2⟩
  else none

/-- The first moment of a day. -/
def midnight : ClockTime := ⟨0, 0, 0, 0, by decide, by decide, by decide, by decide⟩

/-- The second as it is written, 60 in a leap second. -/
def shownSecond (t : ClockTime) : Nat :=
  if 1000000000 ≤ t.nanosecond then t.second + 1 else t.second

/-- The fraction in the fewest of 0, 3, 6 and 9 digits that keep it whole. -/
def fractionChars (nanosecond : Nat) : List Char :=
  let n := nanosecond % 1000000000
  if n = 0 then []
  else if n % 1000000 = 0 then '.' :: Digit.padded 3 (n / 1000000)
  else if n % 1000 = 0 then '.' :: Digit.padded 6 (n / 1000)
  else '.' :: Digit.padded 9 n

/-- The characters of `hh:mm:ss` and the fraction. -/
def chars (t : ClockTime) : List Char :=
  Digit.padded 2 t.hour ++ ':' :: (Digit.padded 2 t.minute ++ ':' ::
    (Digit.padded 2 t.shownSecond ++ fractionChars t.nanosecond))

end ClockTime

namespace DateTime

open Calendar

/-- Whole seconds of universal time since a fixed day. -/
def instant (dt : DateTime) : Int :=
  86400 * dt.date.dayNumber + 3600 * dt.time.hour + 60 * dt.time.minute + dt.time.second -
    60 * dt.offset

/-- Earlier instants come first, whatever the offsets. -/
def compare (a b : DateTime) : Ordering :=
  (Ord.compare a.instant b.instant).then (Ord.compare a.time.nanosecond b.time.nanosecond)

/-- The characters of an offset, `+hh:mm` or `-hh:mm`. -/
def offsetChars (offset : Int) : List Char :=
  (if offset < 0 then '-' else '+') :: (Digit.padded 2 (offset.natAbs / 60) ++
    ':' :: Digit.padded 2 (offset.natAbs % 60))

/-- The text `YYYY-MM-DDThh:mm:ss[.f]+hh:mm`. -/
def text (dt : DateTime) : String :=
  String.ofList (dt.date.chars ++ 'T' :: (dt.time.chars ++ offsetChars dt.offset))

/-- The date-time with these parts. -/
def of? (date : Option Date) (time : Option ClockTime) (offset : Int) : Option DateTime := do
  let d ← date
  let t ← time
  if h : offset.natAbs < 24 * 60 then some ⟨d, t, offset, h⟩ else none

/-- Reads an offset: `Z` or `z`, or a sign, two digits of hours, a colon and two of minutes. The
minus sign may be the typographic one. -/
def readOffset? : List Char → Option (Int × List Char)
  | [] => none
  | c :: cs =>
    if c = 'Z' ∨ c = 'z' then some (0, cs)
    else if c = '+' ∨ c = '-' ∨ c = '−' then do
      let (hours, cs) ← readTwo? 0 23 cs
      let cs ← readMark? ':' cs
      let (minutes, cs) ← readTwo? 0 59 cs
      let offset : Int := 60 * hours + minutes
      some (if c = '+' then offset else -offset, cs)
    else none

/-- Reads the mark between date and time: `T`, `t` or one space. -/
def readSeparator? : List Char → Option (List Char)
  | [] => none
  | c :: cs => if c = 'T' ∨ c = 't' ∨ c = ' ' then some cs else none

/-- Reads a date-time with an offset, all fields at their full width. -/
def readFull? (cs : List Char) : Option DateTime := do
  let (year, cs) ← readFixed? 4 cs
  let cs ← readMark? '-' cs
  let (month, cs) ← readTwo? 1 12 cs
  let cs ← readMark? '-' cs
  let (day, cs) ← readTwo? 1 31 cs
  let cs ← readSeparator? cs
  let (hour, cs) ← readTwo? 0 23 cs
  let cs ← readMark? ':' cs
  let (minute, cs) ← readTwo? 0 59 cs
  let cs ← readMark? ':' cs
  let (second, cs) ← readTwo? 0 60 cs
  let (nanosecond, cs) ← readFraction? cs
  let (offset, cs) ← readOffset? cs
  if cs = [] then of? (Date.of? year month day) (ClockTime.of? hour minute second nanosecond) offset
  else none

/-- Reads a date and time without an offset, field by field. -/
def readLocalParts (cs : List Char) : Except FormatError DateTime := do
  let ((year, month, day), cs) ← Date.readParts cs
  let cs ← readMark 'T' cs
  let (hour, cs) ← readPart 0 23 cs
  let cs ← readMark ':' cs
  let (minute, cs) ← readPart 0 59 cs
  let cs ← readMark ':' cs
  let (second, cs) ← readPart 0 60 cs
  match readFraction? cs with
  | none => throw .invalid
  | some (nanosecond, rest) =>
    if rest ≠ [] then throw .tooLong
    match of? (Date.of? year month day) (ClockTime.of? hour minute second nanosecond) 0 with
    | some dt => return dt
    | none => throw .outOfRange

/-- The midnight of a date in universal time. -/
def ofDate (d : Date) : DateTime := ⟨d, .midnight, 0, by decide⟩

/-- Reads a date-time with white space around it. -/
def read (s : String) : Except FormatError DateTime :=
  let cs := Text.trimChars s.toList
  match readFull? cs with
  | some dt => .ok dt
  | none =>
    match readLocalParts cs with
    | .ok dt => .ok dt
    | .error _ => (Date.readChars cs).map ofDate

end DateTime

end RecordQuery
