import RecordQuery.Number.Decimal.Printer

/-!
# Query expressions

An `Expr` combines comparisons by `and`, `or` and `not`. A comparison tests the field at a dotted path
by an operator, most often against a literal or, for `in`, a list of literals.
-/

namespace RecordQuery

/-- A value written in a query. -/
inductive Literal where
  | string (s : String)
  | number (d : Decimal)
  | bool (b : Bool)
  | null
deriving DecidableEq, Repr

/-- A literal in error messages: strings in quotes, numbers in plain notation. -/
def Literal.describe : Literal → String
  | string s => "\"" ++ s ++ "\""
  | number d => d.plainText
  | bool b => if b then "true" else "false"
  | null => "null"

/-- The operators of comparisons. -/
inductive Operator where
  | equal
  | notEqual
  | less
  | lessEqual
  | greater
  | greaterEqual
  | contains
  | startsWith
  | endsWith
  | isIn
  | isNull
  | isNotNull
deriving DecidableEq, Repr

namespace Operator

/-- Operators that ask for an order. -/
def isOrdering : Operator → Bool
  | less | lessEqual | greater | greaterEqual => true
  | _ => false

/-- Operators on parts of texts. -/
def isText : Operator → Bool
  | contains | startsWith | endsWith => true
  | _ => false

/-- An operator as it is written. -/
def symbol : Operator → String
  | equal => "="
  | notEqual => "!="
  | less => "<"
  | lessEqual => "<="
  | greater => ">"
  | greaterEqual => ">="
  | contains => "contains"
  | startsWith => "startsWith"
  | endsWith => "endsWith"
  | isIn => "in"
  | isNull => "is null"
  | isNotNull => "is not null"

end Operator

/-- What stands on the right of an operator. -/
inductive Operand where
  | one (l : Literal)
  | list (ls : List Literal)
deriving DecidableEq, Repr

/-- A test of one field. The position is that of the path's first token. -/
structure Comparison where
  path : String
  operator : Operator
  operand : Option Operand
  position : Nat
deriving DecidableEq, Repr

/-- A query expression. -/
inductive Expr where
  | and (left right : Expr)
  | or (left right : Expr)
  | not (operand : Expr)
  | comparison (c : Comparison)
deriving DecidableEq, Repr

end RecordQuery
