import RecordQuery.Number.Binary.Shortest

/-!
# Writing doubles

Two layouts of the shortest digits: `plainText` never has an exponent and writes whole numbers
without a point; `yamlText` always shows that the number is a float, by a point or an exponent. A double in
the middle between two shortest decimals goes to the upper one in plain text, to the even one in YAML.
-/

namespace RecordQuery.Binary

/-! ## Algorithm -/

/-- A minus sign before the text of a negative number. -/
def signed (negative : Bool) (cs : List Char) : List Char := if negative then '-' :: cs else cs

/-- The digits set around the point, where `fraction` ends a whole number. -/
def positional (d : DecimalDigits) (fraction : List Char) : List Char :=
  let ds := Digit.digits d.digits
  let point : Int := ds.length + d.exponent
  if 0 ≤ d.exponent then ds ++ List.replicate d.exponent.toNat '0' ++ fraction
  else if 0 < point then ds.take point.toNat ++ '.' :: ds.drop point.toNat
  else '0' :: '.' :: (List.replicate (-point).toNat '0' ++ ds)

/-- One digit before the point, and an exponent. -/
def scientific (d : DecimalDigits) : List Char :=
  match Digit.digits d.digits with
  | [] => []
  | first :: rest =>
    (first :: (if rest = [] then [] else '.' :: rest)) ++
      'e' :: (toString (rest.length + d.exponent)).toList

/-- The text without an exponent, however long. -/
def plainText : Binary → String
  | nan => "NaN"
  | infinity s => if s then "-inf" else "inf"
  | finite s m e =>
    String.ofList <| signed s <| if m = 0 then ['0'] else positional (shortest .upper m e) []

/-- Values from `10 ^ -5` up to `10 ^ 16` are written positionally in YAML. -/
def isPositional (d : DecimalDigits) : Bool :=
  let point : Int := (Digit.digits d.digits).length + d.exponent
  point > -5 && point ≤ 16

/-- The text of a float in YAML. -/
def yamlText : Binary → String
  | nan => ".nan"
  | infinity s => if s then "-.inf" else ".inf"
  | finite s m e =>
    String.ofList <| signed s <|
      if m = 0 then ['0', '.', '0']
      else
        let d := shortest .even m e
        if isPositional d then positional d ['.', '0'] else scientific d

end RecordQuery.Binary
