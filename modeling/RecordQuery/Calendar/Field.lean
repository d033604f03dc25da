import RecordQuery.Text.Blank
import RecordQuery.Number.Integer

/-!
# Numeric fields of dates and times

A date is read from the left, field by field. White space may stand before a field's number; each
fault names what is wrong at the first place that does not fit.
-/

namespace RecordQuery.Calendar

/-- Why a text is no date. -/
inductive FormatError where
  | invalid
  | outOfRange
  | tooShort
  | tooLong
deriving DecidableEq, Repr

/-- The wording of each fault. -/
def FormatError.message : FormatError → String
  | invalid => "input contains invalid characters"
  | outOfRange => "input is out of range"
  | tooShort => "premature end of input"
  | tooLong => "trailing input"

/-! ## Algorithm -/

/-- Reads at least one digit and at most `width`. -/
def readNumber (width : Nat) : List Char → Except FormatError (Nat × List Char)
  | [] => .error .tooShort
  | c :: cs =>
    if c.isDigit then
      let digits := ((c :: cs).take width).takeWhile Char.isDigit
      .ok (Digit.number digits, (c :: cs).drop digits.length)
    else .error .invalid

/-- Reads a number of one or two digits that lies between `low` and `high`. -/
def readPart (low high : Nat) (cs : List Char) : Except FormatError (Nat × List Char) := do
  let (n, rest) ← readNumber 2 (Text.dropBlanks cs)
  if low ≤ n ∧ n ≤ high then return (n, rest) else throw .outOfRange

/-- Reads one given character. -/
def readMark (mark : Char) : List Char → Except FormatError (List Char)
  | [] => .error .tooShort
  | c :: cs => if c = mark then .ok cs else .error .invalid

/-- The years that a 32-bit word can count. -/
def checkYear (year : Int) (rest : List Char) : Except FormatError (Int × List Char) :=
  if (IntegerRange.signed 32).contains year then .ok (year, rest) else .error .outOfRange

/-- Reads a year: up to four digits, or a sign and any number of them. -/
def readYear (cs : List Char) : Except FormatError (Int × List Char) :=
  match Text.dropBlanks cs with
  | '-' :: cs => do
    let (n, rest) ← readNumber cs.length cs
    checkYear (-n) rest
  | '+' :: cs => do
    let (n, rest) ← readNumber cs.length cs
    checkYear n rest
  | cs => do
    let (n, rest) ← readNumber 4 cs
    checkYear n rest

/-- Reads exactly `width` digits. -/
def readFixed? (width : Nat) (cs : List Char) : Option (Nat × List Char) :=
  let digits := cs.take width
  if digits.length = width ∧ digits.all Char.isDigit then
    some (Digit.number digits, cs.drop width)
  else none

/-- Reads exactly two digits that write a number from `low` to `high`. -/
def readTwo? (low high : Nat) (cs : List Char) : Option (Nat × List Char) := do
  let (n, rest) ← readFixed? 2 cs
  if low ≤ n ∧ n ≤ high then some (n, rest) else none

/-- Reads one given character. -/
def readMark? (mark : Char) : List Char → Option (List Char)
  | [] => none
  | c :: cs => if c = mark then some cs else none

/-- The billionths that a fraction's digits write. Digits after the ninth are dropped. -/
def billionths (digits : List Char) : Nat :=
  let kept := digits.take 9
  Digit.number kept * 10 ^ (9 - kept.length)

/-- Reads the fraction of a second, when a point comes first. -/
def readFraction? : List Char → Option (Nat × List Char)
  | '.' :: cs =>
    let digits := cs.takeWhile Char.isDigit
    if digits = [] then none else some (billionths digits, cs.dropWhile Char.isDigit)
  | cs => some (0, cs)

end RecordQuery.Calendar
