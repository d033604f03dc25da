import RecordQuery.Yaml.Node
import RecordQuery.Yaml.Value
import RecordQuery.Number.Binary.Reader

/-!
# Reading documents

`Yaml.read?` reads the value that a text writes. A plain scalar is null, a truth value, a number or, failing
all of these, a string; scalars in other styles are strings. A mapping with a repeated key, a
whole number beyond 64 bits, and nesting deeper than `maxDepth` make the text unreadable.
-/

namespace RecordQuery.Yaml

/-- The deepest nesting of collections. -/
def maxDepth : Nat := 128

/-! ## Plain scalars -/

/-- The words for null. -/
def isNullWord (s : String) : Bool := s = "" || s = "~" || s = "null" || s = "Null" || s = "NULL"

/-- The words for truth values. -/
def boolWord? (s : String) : Option Bool :=
  if s = "true" || s = "True" || s = "TRUE" then some true
  else if s = "false" || s = "False" || s = "FALSE" then some false
  else none

/-- Decimal digits after a leading zero are a string. -/
def hasLeadingZero (cs : List Char) : Bool :=
  let digits := match cs with
    | '-' :: rest => rest
    | '+' :: rest => rest
    | rest => rest
  1 < digits.length && digits.head? = some '0' && digits.all Char.isDigit

/-- The number that one or more digits of a base write. -/
def natural? (base : Nat) (cs : List Char) : Option Nat := if cs = [] then none else ofDigits? base cs

/-- An unsigned whole number: decimal, or hexadecimal, octal or binary behind `0x`, `0o` or `0b`. -/
def magnitude? : List Char → Option Nat
  | '0' :: 'x' :: cs => natural? 16 cs
  | '0' :: 'o' :: cs => natural? 8 cs
  | '0' :: 'b' :: cs => natural? 2 cs
  | cs => natural? 10 cs

/-- A whole number with an optional sign. -/
def integer? (cs : List Char) : Option Int :=
  if hasLeadingZero cs then none
  else
    match cs with
    | '-' :: cs => (magnitude? cs).map fun n => -(n : Int)
    | '+' :: cs => (magnitude? cs).map Int.ofNat
    | cs => (magnitude? cs).map Int.ofNat

/-- The whole numbers that a value can hold. -/
def isWord (n : Int) : Bool := (IntegerRange.signed 64).contains n || (IntegerRange.unsigned 64).contains n

/-- The whole numbers that are numbers at all. Others are read as floats. -/
def isLongWord (n : Int) : Bool :=
  (IntegerRange.signed 128).contains n || (IntegerRange.unsigned 128).contains n

/-- A finite float in digits. -/
def finite? (s : String) : Option Binary :=
  match Binary.read .double s with
  | .ok (.finite s m e) => some (.finite s m e)
  | _ => none

/-- A float in digits, or one of the words for infinities and for what is not a number. -/
def float? (cs : List Char) : Option Binary :=
  let s := String.ofList cs
  if s ∈ [".inf", ".Inf", ".INF", "+.inf", "+.Inf", "+.INF"] then some (.infinity false)
  else if s ∈ ["-.inf", "-.Inf", "-.INF"] then some (.infinity true)
  else if s ∈ [".nan", ".NaN", ".NAN"] then some .nan
  else if hasLeadingZero cs then none
  else
    match cs with
    | '+' :: '+' :: _ | '+' :: '-' :: _ => none
    | _ => finite? s

/-- The value of a plain scalar. -/
def ofPlain? (s : String) : Option Yaml :=
  let cs := s.toList
  if isNullWord s then some .null
  else
    match boolWord? s with
    | some b => some (.bool b)
    | none =>
      match (integer? cs).filter isLongWord with
      | some n => if isWord n then some (.int n) else none
      | none =>
        match float? cs with
        | some x => some (.float x)
        | none => some (.string s)

/-! ## Repeated keys -/

mutual

/-- Are two values the same? Of mappings the order of the entries does not count. -/
def same : Yaml → Yaml → Bool
  | .null, .null => true
  | .bool a, .bool b => a = b
  | .int a, .int b => a = b
  | .float a, .float b => (a = .nan && b = .nan) || a.compare? b = some .eq
  | .string a, .string b => a = b
  | .sequence as, .sequence bs => sameItems as bs
  | .mapping as, .mapping bs => as.length = bs.length && sameEntries as bs
  | _, _ => false

/-- Are two lists of values the same? -/
def sameItems : List Yaml → List Yaml → Bool
  | [], [] => true
  | a :: as, b :: bs => same a b && sameItems as bs
  | _, _ => false

/-- Is every entry found in another mapping? -/
def sameEntries : List (Yaml × Yaml) → List (Yaml × Yaml) → Bool
  | [], _ => true
  | (k, v) :: rest, bs => bs.any (fun b => same k b.1 && same v b.2) && sameEntries rest bs

end

/-- Does a key occur twice? -/
def hasRepeatedKey : List (Yaml × Yaml) → Bool
  | [] => false
  | (k, _) :: rest => rest.any (fun e => same k e.1) || hasRepeatedKey rest

/-! ## Nodes -/

mutual

/-- The value of a node, with at most `depth` levels of collections. -/
def ofNode? (depth : Nat) : Node → Option Yaml
  | .scalar text isPlain => if isPlain then ofPlain? text else some (.string text)
  | .sequence items =>
    if depth = 0 then none else (ofItems? (depth - 1) items).map .sequence
  | .mapping entries =>
    if depth = 0 then none
    else
      match ofEntries? (depth - 1) entries with
      | some es => if hasRepeatedKey es then none else some (.mapping es)
      | none => none

/-- The values of several nodes. -/
def ofItems? (depth : Nat) : List Node → Option (List Yaml)
  | [] => some []
  | n :: rest => do return (← ofNode? depth n) :: (← ofItems? depth rest)

/-- The values of the entries of a mapping. -/
def ofEntries? (depth : Nat) : List (Node × Node) → Option (List (Yaml × Yaml))
  | [] => some []
  | (k, v) :: rest => do
    return (← ofNode? depth k, ← ofNode? depth v) :: (← ofEntries? depth rest)

end

/-- The value that a text writes. -/
def read? (text : String) : Option Yaml := (Node.ofText? text).bind (ofNode? maxDepth)

end RecordQuery.Yaml
