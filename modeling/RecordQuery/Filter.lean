import RecordQuery.Language.Lexer
import RecordQuery.Language.Parser
import RecordQuery.Condition.Typing
import RecordQuery.Condition.Holds
import RecordQuery.Condition.Clause

/-!
# Filters

A query text compiles to a `Filter`, which keeps the records that satisfy its condition. A blank text
keeps all records. The same text gives an SQL clause with its parameters.
-/

namespace RecordQuery

/-- What a query text asks of records. -/
inductive Filter where
  | everything
  | matching (c : Condition)
deriving DecidableEq, Repr

/-- A WHERE clause and the values of its marks. -/
structure SqlFilter where
  clause : String
  parameters : List Scalar
deriving DecidableEq, Repr

/-! ## Algorithm -/

/-- The condition that a query text states about records of shape `root`. -/
def Condition.ofQuery (schema : Schema) (root : Shape) (aliases : Aliases) (query : String) :
    Except QueryError Condition := do
  Condition.ofExpr schema root aliases (← Expr.ofTokens (← tokenize query))

namespace Filter

/-- The filter of a query text. -/
def ofQuery (schema : Schema) (root : Shape) (aliases : Aliases) (query : String) :
    Except QueryError Filter :=
  if Text.isAllBlank query then .ok everything
  else (Condition.ofQuery schema root aliases query).map matching

/-- Does the filter keep every record, whatever it holds? -/
def isEverything : Filter → Bool
  | everything => true
  | matching _ => false

/-- Does the filter keep a record? -/
def keeps : Filter → Record → Bool
  | everything, _ => true
  | matching c, r => c.holds r

end Filter

namespace SqlFilter

/-- A condition in SQL. -/
def ofCondition (c : Condition) : SqlFilter := ⟨c.clause, c.parameters⟩

/-- The clause of a query text. -/
def ofQuery (schema : Schema) (root : Shape) (aliases : Aliases) (query : String) :
    Except QueryError SqlFilter :=
  if Text.isAllBlank query then .ok ⟨"1 = 1", []⟩
  else (Condition.ofQuery schema root aliases query).map ofCondition

end SqlFilter

end RecordQuery
