import RecordQuery.Calendar.Field

/-!
# Calendar dates

Dates of the Gregorian calendar, extended to all years from -262143 to 262142. A `Date` is always a
day that exists. Its text is `YYYY-MM-DD`, with a sign for years outside 0 to 9999.
-/

namespace RecordQuery

/-! ## Algorithm -/

namespace Calendar

/-- Every fourth year has a leap day, but of the full centuries only every fourth. -/
def isLeapYear (year : Int) : Bool := year % 4 = 0 && (year % 100 ≠ 0 || year % 400 = 0)

/-- The length of a month. -/
def daysInMonth (year : Int) (month : Nat) : Nat :=
  if month = 2 then if isLeapYear year then 29 else 28
  else if month = 4 ∨ month = 6 ∨ month = 9 ∨ month = 11 then 30
  else 31

/-- The first year that a date can have. -/
def minYear : Int := -262143

/-- The last year that a date can have. -/
def maxYear : Int := 262142

/-- Is there such a day? -/
def isDay (year : Int) (month day : Nat) : Bool :=
  minYear ≤ year && year ≤ maxYear && 1 ≤ month && month ≤ 12 && 1 ≤ day &&
    day ≤ daysInMonth year month

end Calendar

/-- A day of the calendar. -/
structure Date where
  year : Int
  month : Nat
  day : Nat
  isDay : Calendar.isDay year month day = true
deriving DecidableEq, Repr

namespace Date

open Calendar

/-- The date with these parts, if there is such a day. -/
def of? (year : Int) (month day : Nat) : Option Date :=
  if h : Calendar.isDay year month day = true then some ⟨year, month, day, h⟩ else none

/-- Days since the first of March of year 0, counting years from March on. -/
def dayNumber (d : Date) : Int :=
  let year := if d.month ≤ 2 then d.year - 1 else d.year
  let month := (d.month + 9) % 12
  365 * year + year / 4 - year / 100 + year / 400 + (153 * month + 2) / 5 + d.day - 1

/-- Earlier dates come first. -/
def compare (a b : Date) : Ordering :=
  (Ord.compare a.year b.year).then ((Ord.compare a.month b.month).then (Ord.compare a.day b.day))

/-- A year in four digits. Years outside 0 to 9999 carry a sign. -/
def yearText (year : Int) : List Char :=
  if 0 ≤ year ∧ year ≤ 9999 then Digit.padded 4 year.natAbs
  else (if year < 0 then '-' else '+') :: Digit.padded 4 year.natAbs

/-- The characters of `YYYY-MM-DD`. -/
def chars (d : Date) : List Char :=
  yearText d.year ++ '-' :: (Digit.padded 2 d.month ++ '-' :: Digit.padded 2 d.day)

/-- The text `YYYY-MM-DD`. -/
def text (d : Date) : String := String.ofList d.chars

/-- Reads year, month and day with hyphens between them. -/
def readParts (cs : List Char) : Except FormatError ((Int × Nat × Nat) × List Char) := do
  let (year, cs) ← readYear cs
  let cs ← readMark '-' cs
  let (month, cs) ← readPart 1 12 cs
  let cs ← readMark '-' cs
  let (day, cs) ← readPart 1 31 cs
  return ((year, month, day), cs)

/-- Reads a date that makes up the whole text. -/
def readChars (cs : List Char) : Except FormatError Date := do
  let ((year, month, day), rest) ← readParts cs
  if rest ≠ [] then throw .tooLong
  match of? year month day with
  | some d => return d
  | none => throw .outOfRange

/-- Reads a date with white space around it. -/
def read (s : String) : Except FormatError Date := readChars (Text.trimChars s.toList)

end Date

end RecordQuery
