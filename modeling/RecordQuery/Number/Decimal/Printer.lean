import RecordQuery.Number.Decimal.Basic

/-!
# Writing decimals

`plainText` writes all places of a decimal and no exponent. `text` does so too, unless the value is
far below one or has many zeros at its end: then an exponent takes their place.
-/

namespace RecordQuery.Decimal

/-! ## Algorithm -/

/-- A minus sign before the text of a negative number. -/
def withSign (n : Int) (cs : List Char) : List Char := if n < 0 then '-' :: cs else cs

/-- Sets a point before the last `places` digits, with zeros in front where they are too few. -/
def withPoint (digits : List Char) (places : Nat) : List Char :=
  let filled := List.replicate (places + 1 - digits.length) '0' ++ digits
  filled.take (filled.length - places) ++ '.' :: filled.drop (filled.length - places)

/-- The digits of a decimal in plain notation, without the sign. -/
def plainDigits (d : Decimal) : List Char :=
  let digits := Digit.digits d.coefficient.natAbs
  if d.scale ≤ 0 then digits ++ List.replicate (-d.scale).toNat '0'
  else withPoint digits d.scale.toNat

/-- Plain notation, with as many places as the scale says. -/
def plainText (d : Decimal) : String := String.ofList (withSign d.coefficient d.plainDigits)

/-- One digit before the point, and an exponent. -/
def scientificDigits (d : Decimal) : List Char :=
  match Digit.digits d.coefficient.natAbs with
  | [] => []
  | first :: rest =>
    (first :: (if rest = [] then [] else '.' :: rest)) ++
      'E' :: (toString (rest.length - d.scale)).toList

/-- More than five zeros after the point bring a scientific notation. -/
def isTiny (d : Decimal) : Bool := d.scale - (Digit.digits d.coefficient.natAbs).length > 5

/-- More than fifteen zeros at the end are written as an exponent. -/
def isRound (d : Decimal) : Bool := -d.scale > 15

/-- The text of a decimal. Zero is `0` at every scale. -/
def text (d : Decimal) : String :=
  if d.coefficient = 0 then "0"
  else
    String.ofList <| withSign d.coefficient <|
      if d.isTiny then d.scientificDigits
      else if d.isRound then
        Digit.digits d.coefficient.natAbs ++ 'e' :: '+' :: (toString (-d.scale)).toList
      else d.plainDigits

end RecordQuery.Decimal
