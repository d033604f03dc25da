import RecordQuery.Number.Power

/-!
# Whole numbers in decimal digits

`IntegerRange.read` reads the decimal text of a whole number that has to lie in a range. It goes
through the text from the left and stops at the first fault, so a text that both overflows and holds
a bad character fails with whichever comes first.
-/

namespace RecordQuery

/-- Why a text is not the decimal text of a whole number of a given range. -/
inductive IntegerError where
  | empty
  | invalidDigit
  | tooLarge
  | tooSmall
deriving DecidableEq, Repr

/-- The wording of each fault. -/
def IntegerError.message : IntegerError → String
  | empty => "cannot parse integer from empty string"
  | invalidDigit => "invalid digit found in string"
  | tooLarge => "number too large to fit in target type"
  | tooSmall => "number too small to fit in target type"

/-- The whole numbers from `low` to `high`. -/
structure IntegerRange where
  low : Int
  high : Int
deriving DecidableEq, Repr

namespace IntegerRange

/-- The whole numbers of a signed word of `bits` bits. -/
def signed (bits : Nat) : IntegerRange := ⟨-2 ^ (bits - 1), 2 ^ (bits - 1) - 1⟩

/-- The whole numbers of an unsigned word of `bits` bits. -/
def unsigned (bits : Nat) : IntegerRange := ⟨0, 2 ^ bits - 1⟩

/-- Does the range hold `n`? -/
def contains (r : IntegerRange) (n : Int) : Bool := r.low ≤ n && n ≤ r.high

end IntegerRange

namespace Digit

/-! ## Algorithm -/

/-- The value of an ASCII digit. -/
def value? (c : Char) : Option Nat := if c.isDigit then some (c.toNat - '0'.toNat) else none

/-- The number that a list of digits writes. -/
def number (cs : List Char) : Nat :=
  cs.foldl (fun n c => 10 * n + (c.toNat - '0'.toNat)) 0

/-- The decimal digits of a number. -/
def digits (n : Nat) : List Char := Nat.toDigits 10 n

/-- The decimal digits of a number, with zeros in front to fill `width` places. -/
def padded (width n : Nat) : List Char :=
  List.replicate (width - (digits n).length) '0' ++ digits n

end Digit

namespace IntegerRange

/-- Appends digits to `n` on the side of the positive numbers. -/
def readUp (high : Int) (n : Int) : List Char → Except IntegerError Int
  | [] => .ok n
  | c :: cs =>
    match Digit.value? c with
    | none => .error .invalidDigit
    | some d => if 10 * n + d ≤ high then readUp high (10 * n + d) cs else .error .tooLarge

/-- Appends digits to `n` on the side of the negative numbers. -/
def readDown (low : Int) (n : Int) : List Char → Except IntegerError Int
  | [] => .ok n
  | c :: cs =>
    match Digit.value? c with
    | none => .error .invalidDigit
    | some d => if low ≤ 10 * n - d then readDown low (10 * n - d) cs else .error .tooSmall

/-- Reads an optional sign and decimal digits. A minus sign belongs to ranges with negative numbers
only, and a sign alone is no number. -/
def read (r : IntegerRange) : List Char → Except IntegerError Int
  | [] => .error .empty
  | ['+'] | ['-'] => .error .invalidDigit
  | '+' :: cs => readUp r.high 0 cs
  | '-' :: cs => if r.low < 0 then readDown r.low 0 cs else .error .invalidDigit
  | cs => readUp r.high 0 cs

/-- The side on which `n` misses the range, when it does. -/
def check (r : IntegerRange) (n : Int) : Except IntegerError Int :=
  if n < r.low then .error .tooSmall else if r.high < n then .error .tooLarge else .ok n

end IntegerRange

end RecordQuery
