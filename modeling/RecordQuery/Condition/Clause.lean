import RecordQuery.Condition.Basic

/-!
# Conditions in SQL

`Condition.clause` writes a condition as the text of a WHERE clause, with a question mark for every value,
and `Condition.parameters` lists the values in the order of their marks. A test of a column that can be
NULL is guarded so that it is never unknown.
-/

namespace RecordQuery

/-! ## Algorithm -/

/-- A name between double quotes, its own quotes doubled. -/
def Sql.quote (name : String) : String :=
  String.ofList ('"' :: (name.toList.flatMap fun c => if c = '"' then ['"', '"'] else [c]) ++ ['"'])

/-- The column of a chain: the quoted names with points between them. -/
def Chain.column (c : Chain) : String := ".".intercalate (c.names.map Sql.quote)

/-- A comparison in SQL. -/
def Comparator.symbol : Comparator → String
  | eq => "="
  | ne => "<>"
  | lt => "<"
  | le => "<="
  | gt => ">"
  | ge => ">="

/-- The characters of a pattern that stand for themselves only behind a backslash. -/
def TextOperator.isSpecial (c : Char) : Bool := c = '%' || c = '_' || c = '\\'

/-- A text as part of a pattern. -/
def TextOperator.escape (cs : List Char) : List Char :=
  cs.flatMap fun c => if isSpecial c then ['\\', c] else [c]

/-- The LIKE pattern of a test of a text. -/
def TextOperator.pattern (op : TextOperator) (needle : String) : String :=
  String.ofList <| match op with
    | contains => '%' :: escape needle.toList ++ ['%']
    | startsWith => escape needle.toList ++ ['%']
    | endsWith => '%' :: escape needle.toList

namespace Test

/-- A condition that is false, not unknown, where the column is NULL. -/
def guarded (column condition : String) (mayBeNull : Bool) : String :=
  if mayBeNull then "(" ++ condition ++ " AND " ++ column ++ " IS NOT NULL)" else condition

/-- The text of a test of a column. -/
def clause (column : String) (mayBeNull : Bool) : Test → String
  | isNull => column ++ " IS NULL"
  | isNotNull => column ++ " IS NOT NULL"
  | compare .ne _ =>
    if mayBeNull then "(" ++ column ++ " <> ? OR " ++ column ++ " IS NULL)" else column ++ " <> ?"
  | compare op _ => guarded column (column ++ " " ++ op.symbol ++ " ?") mayBeNull
  | text _ _ => guarded column (column ++ " LIKE ? ESCAPE '\\'") mayBeNull
  | isIn values =>
    guarded column (column ++ " IN (" ++ ", ".intercalate (values.map fun _ => "?") ++ ")") mayBeNull

/-- The values of a test. -/
def parameters : Test → List Scalar
  | isNull | isNotNull => []
  | compare _ value => [value]
  | text op needle => [.text (op.pattern needle)]
  | isIn values => values

end Test

namespace Condition

/-- The text of a condition. -/
def clause : Condition → String
  | const true => "1 = 1"
  | const false => "1 = 0"
  | and l r => "(" ++ l.clause ++ " AND " ++ r.clause ++ ")"
  | or l r => "(" ++ l.clause ++ " OR " ++ r.clause ++ ")"
  | not c => "NOT (" ++ c.clause ++ ")"
  | test chain t => t.clause chain.column chain.mayBeNull

/-- The values of a condition, in the order of their marks. -/
def parameters : Condition → List Scalar
  | const _ => []
  | and l r => l.parameters ++ r.parameters
  | or l r => l.parameters ++ r.parameters
  | not c => c.parameters
  | test _ t => t.parameters

end Condition

end RecordQuery
