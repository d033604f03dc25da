import RecordQuery.Number.Binary.Basic
import RecordQuery.Number.Decimal.Reader
import RecordQuery.Text.Lowercase

/-!
# Reading floating-point numbers

`ofDigits` rounds `digits · 10 ^ exponent` to the nearest number of a format. `read` reads text: an
optional sign, then `inf`, `infinity` or `nan` in any case, or digits with at most one point and an
optional exponent. `Decimal.toDouble` is the double of a decimal.
-/

namespace RecordQuery

/-- Why a text is no floating-point number. -/
inductive FloatError where
  | empty
  | invalid
deriving DecidableEq, Repr

/-- The wording of each fault. -/
def FloatError.message : FloatError → String
  | empty => "cannot parse float from empty string"
  | invalid => "invalid float literal"

namespace Binary

/-! ## Algorithm -/

/-- The number nearest to `± digits · 10 ^ exponent`. From `10 ^ 400` up every format overflows, and
below `10 ^ -400` every format rounds to zero, so powers of ten stay small. -/
def ofDigits (f : Format) (negative : Bool) (digits : Nat) (exponent : Int) : Binary :=
  let top : Int := (Digit.digits digits).length + exponent
  if digits = 0 || top < -400 then nearest f negative 0 1
  else if 400 < top then infinity negative
  else nearest f negative (digits * 10 ^ exponent.toNat) (10 ^ (-exponent).toNat)

/-- Reads an exponent, with its mark in front, of any size. -/
def readExponent? : List Char → Option Int
  | [] => some 0
  | _ :: '-' :: cs => if cs ≠ [] && cs.all Char.isDigit then some (-(Digit.number cs)) else none
  | _ :: '+' :: cs => if cs ≠ [] && cs.all Char.isDigit then some (Digit.number cs) else none
  | _ :: cs => if cs ≠ [] && cs.all Char.isDigit then some (Digit.number cs) else none

/-- Reads an unsigned number in digits: at least one digit before or after the point. -/
def readMagnitude? (f : Format) (negative : Bool) (cs : List Char) : Option Binary :=
  let base := cs.takeWhile (!Decimal.isExponentMark ·)
  let (digits, places) := Decimal.splitPoint base
  match readExponent? (cs.dropWhile (!Decimal.isExponentMark ·)) with
  | none => none
  | some exponent =>
    if digits ≠ [] && digits.all Char.isDigit then
      some (ofDigits f negative (Digit.number digits) (exponent - places))
    else none

/-- Reads what follows the sign. -/
def readUnsigned? (f : Format) (negative : Bool) (cs : List Char) : Option Binary :=
  let word := cs.map Char.toLower
  if word = ['i', 'n', 'f'] || word = "infinity".toList then some (infinity negative)
  else if word = ['n', 'a', 'n'] then some nan
  else readMagnitude? f negative cs

/-- Reads the text of a number of format `f`. -/
def read (f : Format) (s : String) : Except FloatError Binary :=
  match s.toList with
  | [] => .error .empty
  | '-' :: cs => (readUnsigned? f true cs).elim (.error .invalid) .ok
  | '+' :: cs => (readUnsigned? f false cs).elim (.error .invalid) .ok
  | cs => (readUnsigned? f false cs).elim (.error .invalid) .ok

/-- The power `base ^ n` by repeated squaring, each product rounded to a double. -/
def powDouble (acc base : Binary) (n : Nat) : Binary :=
  let acc := if n % 2 = 1 then mul .double acc base else acc
  if h : n / 2 = 0 then acc else powDouble acc (mul .double base base) (n / 2)
termination_by n

end Binary

namespace Decimal

/-- How many decimal digits a number of so many bits has, nearly: `bits + 1` times the logarithm of
two, rounded down. -/
def estimatedDigits (bits : Nat) : Nat := (bits + 1) * 30102999566398120 / 10 ^ 17

/-- The double of a decimal. Of a long coefficient the last digits are dropped, nineteen at a time,
while more than about forty are left; a value that then ends in zeros is multiplied up by a power of
ten in double precision. -/
def toDouble (d : Decimal) : Binary :=
  let negative : Bool := d.coefficient < 0
  let n := d.coefficient.natAbs
  if n = 0 then .nearest .double false 0 1
  else if d.scale = 0 then .nearest .double negative n 1
  else
    let dropped := 19 * ((estimatedDigits (n.log2 + 1) - 25) / 19)
    let n := n / 10 ^ dropped
    let scale := d.scale - dropped
    if 0 < scale then .ofDigits .double negative n (-scale)
    else
      Binary.mul .double (.nearest .double negative n 1)
        (.powDouble (.nearest .double false 1 1) (.nearest .double false 10 1) (-scale).toNat)

end Decimal

end RecordQuery
