import RecordQuery.Number.Decimal.Printer
import RecordQuery.Number.Binary.Reader
import RecordQuery.Number.Binary.Printer
import RecordQuery.Calendar.DateTime
import RecordQuery.Calendar.Duration

/-!
# Scalars

A `Scalar` is a value that a field can hold and a query can compare. `compare?` orders two scalars of
compatible kinds: integers and decimals of all kinds by their exact values, a signed integer and a
float as floats, and otherwise only scalars of one kind.
-/

namespace RecordQuery

/-- A value of a field. -/
inductive Scalar where
  | int (n : Int)
  | uint (n : Nat)
  | float (x : Binary)
  | decimal (d : Decimal)
  | bool (b : Bool)
  | char (c : Char)
  | text (s : String)
  | dateTime (t : DateTime)
  | date (d : Date)
  | duration (d : Duration)
deriving DecidableEq, Repr

namespace Scalar

/-! ## Algorithm -/

/-- The order of two scalars, none if their kinds do not compare or one is not a number. -/
def compare? : Scalar → Scalar → Option Ordering
  | int a, int b => some (compare a b)
  | uint a, uint b => some (compare a b)
  | int a, uint b => some (compare a (b : Int))
  | uint a, int b => some (compare (a : Int) b)
  | float a, float b => a.compare? b
  | int a, float b => (Binary.ofInt .double a).compare? b
  | float a, int b => a.compare? (.ofInt .double b)
  | decimal a, decimal b => some (a.compare b)
  | int a, decimal b => some ((Decimal.ofInt a).compare b)
  | decimal a, int b => some (a.compare (.ofInt b))
  | uint a, decimal b => some ((Decimal.ofInt a).compare b)
  | decimal a, uint b => some (a.compare (.ofInt b))
  | bool a, bool b => some (compare a b)
  | char a, char b => some (compare a b)
  | text a, text b => some (compare a b)
  | dateTime a, dateTime b => some (a.compare b)
  | date a, date b => some (a.compare b)
  | duration a, duration b => some (a.compare b)
  | _, _ => none

/-- Comparable and equal. -/
def equals (a b : Scalar) : Bool := a.compare? b = some .eq

/-- The characters of a text. -/
def text? : Scalar → Option String
  | text s => some s
  | _ => none

/-- A truth value in words. -/
def boolText (b : Bool) : String := if b then "true" else "false"

/-- The text of a scalar. -/
def display : Scalar → String
  | int n => toString n
  | uint n => toString n
  | float x => x.plainText
  | decimal d => d.text
  | bool b => boolText b
  | char c => String.ofList [c]
  | text s => s
  | dateTime t => t.text
  | date d => d.text
  | duration d => d.text

end Scalar

end RecordQuery
