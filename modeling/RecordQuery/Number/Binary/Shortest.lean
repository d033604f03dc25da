import RecordQuery.Number.Binary.Basic
import RecordQuery.Number.Integer

/-!
# The shortest decimal of a double

`shortest` gives the decimal with the fewest digits that rounds back to a double, and of those the
one nearest to it. For 1, 2, ... 17 digits it looks at the two neighbours of the double among the
decimals with so many digits, in exact arithmetic. A double in the middle between the two goes where `Tie`
says.
-/

namespace RecordQuery.Binary

/-- The number `digits · 10 ^ exponent`. -/
structure DecimalDigits where
  digits : Nat
  exponent : Int
deriving DecidableEq, Repr

/-- The neighbour that is chosen when both are equally near. -/
inductive Tie where
  | upper
  | even
deriving DecidableEq, Repr

/-- A positive double and the numbers that round to it, as ratios over `unit`: from `low` to `high`,
ends included when `closed`. -/
structure Interval where
  low : Nat
  value : Nat
  high : Nat
  unit : Nat
  closed : Bool

/-! ## Algorithm -/

/-- The interval of `m · 2 ^ e`. Below a power of two the neighbours lie half as far apart. -/
def interval (m : Nat) (e : Int) : Interval :=
  let gap := if m = 2 ^ 52 && Format.double.minExponent < e then 1 else 2
  { low := (4 * m - gap) * 2 ^ e.toNat
    value := 4 * m * 2 ^ e.toNat
    high := (4 * m + 2) * 2 ^ e.toNat
    unit := 4 * 2 ^ (-e).toNat
    closed := m % 2 = 0 }

/-- Does `n · 10 ^ g` round to the double? -/
def Interval.holds (i : Interval) (g : Int) (n : Nat) : Bool :=
  let c := n * 10 ^ g.toNat * i.unit
  let low := i.low * 10 ^ (-g).toNat
  let high := i.high * 10 ^ (-g).toNat
  if i.closed then low ≤ c && c ≤ high else low < c && c < high

/-- The greatest `p` with `10 ^ p ≤ n / d`. -/
def floorLog10 (n d : Nat) : Int :=
  if d ≤ n then (Digit.digits (n / d)).length - 1
  else -((if (d + n - 1) / n ≤ 1 then 0 else (Digit.digits ((d + n - 1) / n - 1)).length : Nat) : Int)

/-- Is `num / den`, which lies between `n` and `n + 1`, to be rounded to `n`? -/
def Tie.isLower (tie : Tie) (n num den : Nat) : Bool :=
  2 * (num % den) < den || (2 * (num % den) = den && tie = .even && n % 2 = 0)

/-- The better of the value's two neighbours among the multiples of `10 ^ g`, if one rounds to the
double. -/
def Interval.hit? (i : Interval) (tie : Tie) (g : Int) : Option DecimalDigits :=
  let num := i.value * 10 ^ (-g).toNat
  let den := i.unit * 10 ^ g.toNat
  let n := num / den
  match i.holds g n, i.holds g (n + 1) with
  | true, true => some ⟨if tie.isLower n num den then n else n + 1, g⟩
  | true, false => some ⟨n, g⟩
  | false, true => some ⟨n + 1, g⟩
  | false, false => none

/-- Takes zeros off the end of the digits, at most `fuel` of them. -/
def stripZeros (d : DecimalDigits) : Nat → DecimalDigits
  | 0 => d
  | fuel + 1 =>
    if d.digits ≠ 0 && d.digits % 10 = 0 then stripZeros ⟨d.digits / 10, d.exponent + 1⟩ fuel else d

/-- The shortest decimal that rounds to the positive double `m · 2 ^ e`. Seventeen digits always
suffice. -/
def shortest (tie : Tie) (m : Nat) (e : Int) : DecimalDigits :=
  let i := interval m e
  let top := floorLog10 i.value i.unit
  match (List.range 17).findSome? fun (k : Nat) => i.hit? tie (top - k) with
  | some d => stripZeros d 17
  | none => ⟨m * 2 ^ e.toNat, 0⟩

end RecordQuery.Binary
