import RecordQuery.Scalar
import RecordQuery.Path.Chain

/-!
# Conditions

A `Condition` is a query whose paths are resolved and whose literals are values of the fields' types:
a Boolean combination of constants and of tests of single fields.
-/

namespace RecordQuery

/-- The comparisons of a field with a value. -/
inductive Comparator where
  | eq
  | ne
  | lt
  | le
  | gt
  | ge
deriving DecidableEq, Repr

/-- The tests of a part of a text. -/
inductive TextOperator where
  | contains
  | startsWith
  | endsWith
deriving DecidableEq, Repr

/-- A test of one field. -/
inductive Test where
  | isNull
  | isNotNull
  | compare (op : Comparator) (value : Scalar)
  | text (op : TextOperator) (needle : String)
  | isIn (values : List Scalar)
deriving DecidableEq, Repr

/-- A Boolean combination of tests. -/
inductive Condition where
  | const (value : Bool)
  | and (left right : Condition)
  | or (left right : Condition)
  | not (operand : Condition)
  | test (chain : Chain) (test : Test)
deriving DecidableEq, Repr

end RecordQuery
