import RecordQuery.Number.Decimal.Basic

/-!
# Reading decimal text

The text of a decimal is a base and, after an `e` or `E`, an exponent. The base holds at most one
point, an optional leading sign, and digits with underscores between or after them. The scale is the
number of digits after the point less the exponent. Faults are looked for in this order: the
exponent, an empty base, a scale beyond 64 bits, the digits of the base.
-/

namespace RecordQuery

/-- Why a text is no decimal. -/
inductive DecimalError where
  | integer (e : IntegerError)
  | empty
  | exponentOverflow (text : String)
deriving DecidableEq, Repr

/-- The wording of each fault. -/
def DecimalError.message : DecimalError → String
  | integer e => e.message
  | empty => "Failed to parse empty string"
  | exponentOverflow text => "Exponent overflow when parsing '" ++ text ++ "'"

namespace Decimal

/-! ## Algorithm -/

/-- Appends digits to `n`, passing over underscores. -/
def readDigits (n : Nat) : List Char → Except IntegerError Nat
  | [] => .ok n
  | '_' :: cs => readDigits n cs
  | c :: cs =>
    match Digit.value? c with
    | none => .error .invalidDigit
    | some d => readDigits (10 * n + d) cs

/-- Reads digits that start with a digit proper. -/
def readUnsigned : List Char → Except IntegerError Nat
  | [] => .error .empty
  | '_' :: _ => .error .invalidDigit
  | cs => readDigits 0 cs

/-- Reads a whole number of any size with an optional sign. -/
def readCoefficient : List Char → Except IntegerError Int
  | '-' :: cs => (readUnsigned cs).map fun n => -(n : Int)
  | '+' :: cs => (readUnsigned cs).map Int.ofNat
  | cs => (readUnsigned cs).map Int.ofNat

/-- Takes the point out of a base and counts the digits after it. -/
def splitPoint (base : List Char) : List Char × Nat :=
  match base.dropWhile (· ≠ '.') with
  | [] => (base, 0)
  | _ :: fraction =>
    (base.takeWhile (· ≠ '.') ++ fraction, (fraction.filter (· ≠ '_')).length)

/-- The exponent that follows the base, with its mark in front. No mark means none. -/
def readExponent : List Char → Except IntegerError Int
  | [] => .ok 0
  | _ :: cs => (IntegerRange.signed 128).read cs

/-- Does `c` start an exponent? -/
def isExponentMark (c : Char) : Bool := c = 'e' || c = 'E'

/-- Reads the text of a decimal. -/
def read (s : String) : Except DecimalError Decimal := do
  let base := s.toList.takeWhile (!isExponentMark ·)
  let exponent ← (readExponent (s.toList.dropWhile (!isExponentMark ·))).mapError .integer
  if base = [] then throw .empty
  let (digits, places) := splitPoint base
  let scale := places - exponent
  unless (IntegerRange.signed 64).contains scale do throw (.exponentOverflow s)
  let coefficient ← (readCoefficient digits).mapError .integer
  return ⟨coefficient, scale⟩

end Decimal

end RecordQuery
