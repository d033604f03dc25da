import RecordQuery.Number.Power

/-!
# Binary floating-point numbers

A `Binary` is a floating-point number in base two: not a number, an infinity, or
`± significand · 2 ^ exponent`. Zero has a sign. A `Format` bounds the significand and the exponent;
`nearest` rounds a ratio of whole numbers to a format, ties to the even significand.

    (x.compare? y).map Ordering.swap = y.compare? x            (compare?_swap)
-/

namespace RecordQuery

/-- A floating-point number in base two. -/
inductive Binary where
  | nan
  | infinity (negative : Bool)
  | finite (negative : Bool) (significand : Nat) (exponent : Int)
deriving DecidableEq, Repr

namespace Binary

/-- The numbers `m · 2 ^ e` with `m` below `2 ^ precision` and `e` between the two exponents. -/
structure Format where
  precision : Nat
  minExponent : Int
  maxExponent : Int
deriving DecidableEq, Repr

/-- Double precision. -/
def Format.double : Format := ⟨53, -1074, 971⟩

/-- Single precision. -/
def Format.single : Format := ⟨24, -149, 104⟩

/-! ## Algorithm -/

/-- The quotient rounded to the nearest whole number, a half to the even one. -/
def roundDiv (n d : Nat) : Nat :=
  let q := n / d
  let r := n % d
  if 2 * r < d then q else if d < 2 * r then q + 1 else if q % 2 = 0 then q else q + 1

/-- The greatest `l` with `2 ^ l ≤ n / d`, for positive `n` and `d`. -/
def floorLog2 (n d : Nat) : Int :=
  let l : Int := n.log2 - d.log2
  if n * 2 ^ (-l).toNat < d * 2 ^ l.toNat then l - 1 else l

/-- The number of format `f` nearest to `± n / d`. -/
def nearest (f : Format) (negative : Bool) (n d : Nat) : Binary :=
  if n = 0 then finite negative 0 f.minExponent
  else
    let e := max f.minExponent (floorLog2 n d - (f.precision - 1))
    let m := roundDiv (n * 2 ^ (-e).toNat) (d * 2 ^ e.toNat)
    let (m, e) := if m = 2 ^ f.precision then (m / 2, e + 1) else (m, e)
    if f.maxExponent < e then infinity negative else finite negative m e

/-- The number of format `f` nearest to a whole number. -/
def ofInt (f : Format) (n : Int) : Binary := nearest f (n < 0) n.natAbs 1

/-- Rounds to a format. -/
def round (f : Format) : Binary → Binary
  | nan => nan
  | infinity s => infinity s
  | finite s m e => nearest f s (m * 2 ^ e.toNat) (2 ^ (-e).toNat)

/-- The number as a double. Every single is a double too, so only the form changes. -/
def widen (x : Binary) : Binary := x.round .double

/-- The product, rounded to a format. -/
def mul (f : Format) : Binary → Binary → Binary
  | nan, _ | _, nan => nan
  | infinity s, infinity t => infinity (s != t)
  | infinity s, finite t m _ | finite t m _, infinity s => if m = 0 then nan else infinity (s != t)
  | finite s m e, finite t n x =>
    nearest f (s != t) (m * n * 2 ^ (e + x).toNat) (2 ^ (-(e + x)).toNat)

/-- The signed significand of `± m · 2 ^ e` when the exponent is lowered to `low`. -/
def scaled (negative : Bool) (m : Nat) (e low : Int) : Int :=
  let n : Int := m * 2 ^ (e - low).toNat
  if negative then -n else n

/-- The order of two numbers. Zeros of both signs are equal, and what is not a number has no order. -/
def compare? : Binary → Binary → Option Ordering
  | nan, _ | _, nan => none
  | infinity s, infinity t => some (compare t s)
  | infinity s, finite _ _ _ => some (if s then .lt else .gt)
  | finite _ _ _, infinity t => some (if t then .gt else .lt)
  | finite s m e, finite t n x =>
    some (compare (scaled s m e (min e x)) (scaled t n x (min e x)))

/-- The bits of a double, none for what is not a number. -/
def bits? : Binary → Option Nat
  | nan => none
  | infinity s => some ((if s then 2 ^ 63 else 0) + 2047 * 2 ^ 52)
  | finite s m e =>
    let field := if m < 2 ^ 52 then m else (e + 1075).toNat * 2 ^ 52 + (m - 2 ^ 52)
    some ((if s then 2 ^ 63 else 0) + field)

/-! ## Lemmas -/

theorem compare?_swap (x y : Binary) : (x.compare? y).map Ordering.swap = y.compare? x := by
  cases x <;> cases y <;> simp only [compare?, Option.map_none, Option.map_some]
  case infinity.infinity s t => cases s <;> cases t <;> rfl
  case infinity.finite s _ _ _ => cases s <;> rfl
  case finite.infinity _ _ _ t => cases t <;> rfl
  case finite.finite s m e t n x =>
    rw [Int.min_comm x e, Option.some.injEq]
    exact (@Std.OrientedCmp.eq_swap Int compare _ _ _).symm

end Binary

end RecordQuery
