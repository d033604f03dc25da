import RecordQuery.Text.Lowercase
import RecordQuery.Number.Integer

/-!
# Field types

The types that a schema can give to a field: thirteen types of scalars, and references to records of
another shape.
-/

namespace RecordQuery

/-- The type of a field. -/
inductive FieldType where
  | int32
  | int64
  | uint32
  | uint64
  | float32
  | float64
  | decimal
  | bool
  | char
  | string
  | dateTime
  | date
  | duration
  | record (shape : String)
deriving DecidableEq, Repr

namespace FieldType

/-! ## Algorithm -/

/-- References to records. -/
def isRecord : FieldType → Bool
  | record _ => true
  | _ => false

/-- Types whose values are null only where the schema allows it. -/
def isValueType : FieldType → Bool
  | string | record _ => false
  | _ => true

/-- Types of whole numbers. -/
def isInteger : FieldType → Bool
  | int32 | int64 | uint32 | uint64 => true
  | _ => false

/-- Types of numbers. -/
def isNumeric (t : FieldType) : Bool :=
  t.isInteger || t = float32 || t = float64 || t = decimal

/-- Types with an order that queries may ask for. -/
def isOrdered (t : FieldType) : Bool :=
  t.isNumeric || t = dateTime || t = date || t = duration

/-- The name of a type, that of its shape for a reference. -/
def name : FieldType → String
  | int32 => "i32"
  | int64 => "i64"
  | uint32 => "u32"
  | uint64 => "u64"
  | float32 => "f32"
  | float64 => "f64"
  | decimal => "decimal"
  | bool => "bool"
  | char => "char"
  | string => "string"
  | dateTime => "datetime"
  | date => "date"
  | duration => "duration"
  | record shape => shape

/-- The type that a text names: a type of scalars by one of its names, in any ASCII case, or else a
reference to the shape of that name. The empty text names none. -/
def ofName? (s : String) : Option FieldType :=
  match Text.foldAscii s with
  | "" => none
  | "i32" | "int" => some int32
  | "i64" | "long" => some int64
  | "u32" => some uint32
  | "u64" => some uint64
  | "f32" | "float" => some float32
  | "f64" | "double" => some float64
  | "decimal" => some decimal
  | "bool" | "boolean" => some bool
  | "char" => some char
  | "string" => some string
  | "datetime" => some dateTime
  | "date" => some date
  | "duration" | "timespan" => some duration
  | _ => some (record s)

end FieldType

end RecordQuery
