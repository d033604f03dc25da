import RecordQuery.Scalar
import RecordQuery.Language.Fault

/-!
# Coercing literals to types

`Literal.coerce` reads a literal as a scalar of a field's type. Numbers become numbers of the type when
they fit it exactly, or the nearest float; strings are read as text of the type; a string field takes
the text of any literal; null is a value of nullable fields only.
-/

namespace RecordQuery

/-- The whole numbers of a type. -/
def FieldType.integerRange? : FieldType → Option IntegerRange
  | .int32 => some (.signed 32)
  | .int64 => some (.signed 64)
  | .uint32 => some (.unsigned 32)
  | .uint64 => some (.unsigned 64)
  | _ => none

/-- The widest range of whole numbers with the same sign rule as a range. -/
def IntegerRange.widest (r : IntegerRange) : IntegerRange :=
  if r.low < 0 then .signed 64 else .unsigned 64

/-- The scalar of a whole number of a range. -/
def IntegerRange.scalar (r : IntegerRange) (n : Int) : Scalar :=
  if r.low < 0 then .int n else .uint n.toNat

/-- The format of a type of floats. -/
def FieldType.floatFormat? : FieldType → Option Binary.Format
  | .float32 => some .single
  | .float64 => some .double
  | _ => none

namespace Coercion

/-! ## Algorithm -/

/-- A number as a whole number of a range. Only a number of 64 bits that misses a smaller range has a
cause. -/
def numberToInteger (n : Decimal) (r : IntegerRange) (type : FieldType) (field : String) :
    Except Fault Scalar :=
  if !n.isWhole then .error (.notWhole n field type)
  else if !r.widest.contains n.truncate then .error (.outOfRange n field type none)
  else
    match r.check n.truncate with
    | .ok v => .ok (r.scalar v)
    | .error e => .error (.outOfRange n field type (some (.integer e)))

/-- A number as a value of a type. -/
def number (n : Decimal) (type : FieldType) (field : String) : Except Fault Scalar :=
  match type.integerRange? with
  | some r => numberToInteger n r type field
  | none =>
    match type with
    | .float32 => .ok (.float (n.toDouble.round .single).widen)
    | .float64 => .ok (.float n.toDouble)
    | .decimal => .ok (.decimal n)
    | .string => .ok (.text n.plainText)
    | _ => .error (.unconvertible (.number n) type field none)

/-- The text of a whole number, decimal, float or character as a value of its type. -/
def plain (s : String) (type : FieldType) : Except (Option Cause) Scalar :=
  match type.integerRange? with
  | some r =>
    match r.read s.toList with
    | .ok n => .ok (r.scalar n)
    | .error e => .error (some (.integer e))
  | none =>
    match type.floatFormat? with
    | some f =>
      match Binary.read f s with
      | .ok x => .ok (.float x.widen)
      | .error e => .error (some (.float e))
    | none =>
      match type with
      | .decimal =>
        match Decimal.read s with
        | .ok d => .ok (.decimal d)
        | .error e => .error (some (.decimal e))
      | .char =>
        match s.toList with
        | [c] => .ok (.char c)
        | _ => .error none
      | _ => .error none

/-- The text of a value of a type. -/
def reading (s : String) (type : FieldType) : Except (Option Cause) Scalar :=
  match type with
  | .string => .ok (.text s)
  | .dateTime =>
    match DateTime.read s with
    | .ok t => .ok (.dateTime t)
    | .error e => .error (some (.calendar e))
  | .date =>
    match Date.read s with
    | .ok d => .ok (.date d)
    | .error e => .error (some (.calendar e))
  | .duration =>
    match Duration.read? s with
    | some d => .ok (.duration d)
    | none => .error (some (.duration s))
  | _ => plain (Text.trim s) type

/-- A string as a value of a type. -/
def string (s : String) (type : FieldType) (field : String) : Except Fault Scalar :=
  (reading s type).mapError fun cause => .unconvertible (.string s) type field cause

/-- A truth value as a value of a type. -/
def bool (b : Bool) (type : FieldType) (field : String) : Except Fault Scalar :=
  match type with
  | .bool => .ok (.bool b)
  | .string => .ok (.text (Scalar.boolText b))
  | _ => .error (.unconvertible (.bool b) type field none)

end Coercion

/-- A literal as a value of a field's type, or none for null. -/
def Literal.coerce (l : Literal) (type : FieldType) (nullable : Bool) (field : String) :
    Except Fault (Option Scalar) :=
  match l with
  | .null => if nullable then .ok none else .error (.nullNotAllowed field type)
  | .number n => (Coercion.number n type field).map some
  | .string s => (Coercion.string s type field).map some
  | .bool b => (Coercion.bool b type field).map some

end RecordQuery
