import RecordQuery.Number.Integer

/-!
# Decimal numbers

A `Decimal` is an integer coefficient and a scale: `coefficient / 10 ^ scale`. Trailing zeros are
kept, so `1.5` and `1.50` are two decimals of one value, and `compare` looks at the value alone.
-/

namespace RecordQuery

/-- The number `coefficient / 10 ^ scale`. -/
structure Decimal where
  coefficient : Int
  scale : Int
deriving DecidableEq, Repr

namespace Decimal

/-! ## Algorithm -/

/-- The decimal of a whole number. -/
def ofInt (n : Int) : Decimal := ⟨n, 0⟩

/-- The coefficient of the same value at a scale of at least its own. -/
def coefficientAt (d : Decimal) (scale : Int) : Int := d.coefficient * 10 ^ (scale - d.scale).toNat

/-- The order of the values. -/
def compare (a b : Decimal) : Ordering :=
  Ord.compare (a.coefficientAt (max a.scale b.scale)) (b.coefficientAt (max a.scale b.scale))

/-- Has the value no fraction? -/
def isWhole (d : Decimal) : Bool :=
  d.scale ≤ 0 || d.coefficient % 10 ^ d.scale.toNat = 0

/-- The value, cut to a whole number towards zero. -/
def truncate (d : Decimal) : Int :=
  if d.scale ≤ 0 then d.coefficient * 10 ^ (-d.scale).toNat
  else d.coefficient.tdiv (10 ^ d.scale.toNat)

end Decimal

end RecordQuery
