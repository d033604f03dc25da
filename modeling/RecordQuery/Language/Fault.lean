import RecordQuery.Number.Decimal.Reader
import RecordQuery.Number.Binary.Reader
import RecordQuery.Calendar.Field
import RecordQuery.Schema.FieldType
import RecordQuery.Language.Token
import RecordQuery.Language.Expr

/-!
# Faults of queries

A `QueryError` is a fault and the position in the query text where it lies, as far as it is known.
Every fault has one wording, `Fault.message`, and some have an underlying cause in the text of a
literal.
-/

namespace RecordQuery

/-- Why the text of a literal does not read as a value of a type. -/
inductive Cause where
  | integer (e : IntegerError)
  | float (e : FloatError)
  | decimal (e : DecimalError)
  | calendar (e : Calendar.FormatError)
  | duration (text : String)
deriving DecidableEq, Repr

/-- The wording of a cause. -/
def Cause.message : Cause → String
  | integer e => e.message
  | float e => e.message
  | decimal e => e.message
  | calendar e => e.message
  | duration text => "invalid duration '" ++ text ++ "'"

/-- What was expected where something else stands. -/
inductive Wanted where
  | nullAfterIs
  | nullAfterIsNot
  | fieldName
  | fieldNameAfterDot
  | operatorAfter (path : String)
  | openParenAfterIn
  | listValue
  | listEnd
  | closingParen
  | value
  | endOfInput
deriving DecidableEq, Repr

/-- The wording of an expectation. -/
def Wanted.message : Wanted → String
  | nullAfterIs => "Expected 'null' or 'not null' after 'is'"
  | nullAfterIsNot => "Expected 'null' after 'is not'"
  | fieldName => "Expected field name"
  | fieldNameAfterDot => "Expected field name after '.'"
  | operatorAfter path => "Expected operator after field '" ++ path ++ "'"
  | openParenAfterIn => "Expected '(' after 'in'"
  | listValue => "'in' requires at least one value"
  | listEnd => "Expected ')' or ','"
  | closingParen => "Expected ')'"
  | value => "Expected value (string, number, true, false or null)"
  | endOfInput => "Expected end of input"

/-- What is wrong with a query. -/
inductive Fault where
  | bareExclamation
  | unexpectedCharacter (c : Char)
  | unterminatedString (start : Nat)
  | unexpected (wanted : Wanted) (found : Sight)
  | nestedTooDeeply (limit : Nat)
  | invalidPath (path : String)
  | unknownField (segment shape : String) (available : List String)
  | unknownRecordType (field target : String)
  | notARecord (field shape : String) (type : FieldType) (next : String)
  | nullNotAllowed (field : String) (type : FieldType)
  | notWhole (number : Decimal) (field : String) (type : FieldType)
  | outOfRange (number : Decimal) (field : String) (type : FieldType) (cause : Option Cause)
  | unconvertible (literal : Literal) (type : FieldType) (field : String) (cause : Option Cause)
  | unsupportedOperator (op : Operator) (field : String) (type : FieldType)
  | textOperatorOnType (op : Operator) (field : String) (type : FieldType)
  | textValueRequired (op : Operator) (field : String)
  | listRequired (field : String)
  | nullInList (field : String)
  | singleValueRequired (op : Operator) (field : String)
deriving DecidableEq, Repr

/-- A word between single quotes. -/
def quoted (s : String) : String := "'" ++ s ++ "'"

/-- The form that literals of some types have to take. -/
def FieldType.formHint? : FieldType → Option String
  | .bool => some "true or false"
  | .dateTime => some "an ISO 8601 date/time such as 2024-01-31T08:30:00Z"
  | .date => some "a date in the form YYYY-MM-DD"
  | .duration => some "a duration in the form [-][d.]hh:mm:ss[.fffffff]"
  | _ => none

namespace Fault

/-- The wording of a fault. -/
def message : Fault → String
  | bareExclamation => "Unexpected character '!', did you mean '!='?"
  | unexpectedCharacter c => "Unexpected character " ++ quoted (String.ofList [c])
  | unterminatedString start => "Unterminated string starting at position " ++ toString start
  | unexpected wanted found => wanted.message ++ " but found " ++ found.describe
  | nestedTooDeeply limit => "Expression nested too deeply (limit " ++ toString limit ++ ")"
  | invalidPath path => "Invalid field path " ++ quoted path
  | unknownField segment shape available =>
    "Unknown field " ++ quoted segment ++ " on " ++ shape ++ ". Available fields: " ++
      ", ".intercalate available
  | unknownRecordType field target =>
    "Field " ++ quoted field ++ " refers to unknown record type " ++ quoted target
  | notARecord field shape type next =>
    "Field " ++ quoted field ++ " on " ++ shape ++ " is of type " ++ type.name ++
      " and has no field " ++ quoted next ++ ". Available fields: none"
  | nullNotAllowed field type =>
    "Field " ++ quoted field ++ " of type " ++ type.name ++ " cannot be compared with null"
  | notWhole number field type =>
    "Number " ++ number.text ++ " is not a whole number, field " ++ quoted field ++
      " is of type " ++ type.name
  | outOfRange number field type _ =>
    "Number " ++ number.text ++ " is out of range for field " ++ quoted field ++ " of type " ++
      type.name
  | unconvertible literal type field _ =>
    "Cannot convert " ++ literal.describe ++ " to " ++ type.name ++ " for field " ++ quoted field ++
      match type.formHint? with
      | some hint => ": expected " ++ hint
      | none => ""
  | unsupportedOperator op field type =>
    "Operator " ++ quoted op.symbol ++ " is not supported for field " ++ quoted field ++
      " of type " ++ type.name
  | textOperatorOnType op field type =>
    "Operator " ++ quoted op.symbol ++ " requires a string field, but " ++ quoted field ++
      " is of type " ++ type.name
  | textValueRequired op field =>
    "Operator " ++ quoted op.symbol ++ " on field " ++ quoted field ++ " requires a string value"
  | listRequired field =>
    "Operator 'in' on field " ++ quoted field ++ " requires a list of values"
  | nullInList field =>
    "'in' cannot match null on field " ++ quoted field ++ ", use 'is null' instead"
  | singleValueRequired op field =>
    "Operator " ++ quoted op.symbol ++ " on field " ++ quoted field ++ " requires a single value"

/-- The cause beneath a fault. -/
def cause? : Fault → Option Cause
  | outOfRange _ _ _ cause => cause
  | unconvertible _ _ _ cause => cause
  | _ => none

end Fault

/-- A fault and its position, if that is known. -/
structure QueryError where
  fault : Fault
  position : Option Nat
deriving DecidableEq, Repr

namespace QueryError

/-- A fault at a position. -/
def located (position : Nat) (fault : Fault) : QueryError := ⟨fault, some position⟩

/-- A fault at no known position. -/
def unplaced (fault : Fault) : QueryError := ⟨fault, none⟩

/-- Gives a position to an error that has none. -/
def placedAt (position : Nat) (e : QueryError) : QueryError :=
  ⟨e.fault, some (e.position.getD position)⟩

/-- The message, followed by the position where there is one. -/
def display (e : QueryError) : String :=
  match e.position with
  | some p => e.fault.message ++ " (at position " ++ toString p ++ ")"
  | none => e.fault.message

end QueryError

end RecordQuery
