import RecordQuery.Condition.Basic
import RecordQuery.Condition.Coercion

/-!
# From expressions to conditions

`Condition.ofExpr` checks that every comparison suits the type of its field, and gives the condition that
it states. A comparison that does not suit is an error at its own position.
-/

namespace RecordQuery

/-- The comparison that an operator makes with a value. -/
def Operator.comparator? : Operator → Option Comparator
  | .equal => some .eq
  | .notEqual => some .ne
  | .less => some .lt
  | .lessEqual => some .le
  | .greater => some .gt
  | .greaterEqual => some .ge
  | _ => none

/-- The test that an operator makes of a text. -/
def Operator.textOperator? : Operator → Option TextOperator
  | .contains => some .contains
  | .startsWith => some .startsWith
  | .endsWith => some .endsWith
  | _ => none

namespace Typing

/-! ## Algorithm -/

/-- The single literal of a comparison. -/
def single (c : Comparison) : Except Fault Literal :=
  match c.operand with
  | some (.one l) => .ok l
  | _ => .error (.singleValueRequired c.operator c.path)

/-- Whether a null test can hold at all is known for fields that are never null. -/
def nullTest (chain : Chain) (isNull : Bool) : Condition :=
  if chain.isNullable then .test chain (if isNull then .isNull else .isNotNull)
  else .const !isNull

/-- A reference can be compared with null only. -/
def onRecord (chain : Chain) (c : Comparison) : Except Fault Condition := do
  match c.operator, ← single c with
  | .equal, .null => return .test chain .isNull
  | .notEqual, .null => return .test chain .isNotNull
  | op, _ => throw (.unsupportedOperator op chain.path chain.type)

/-- A comparison with the value of a literal. Null is equal to null, unequal to all else, and in no
order with anything. -/
def comparison (chain : Chain) (c : Comparison) (op : Comparator) : Except Fault Condition := do
  match ← (← single c).coerce chain.type chain.isNullable chain.path with
  | some value => return .test chain (.compare op value)
  | none =>
    match op with
    | .eq => return .test chain .isNull
    | .ne => return .test chain .isNotNull
    | _ => return .const false

/-- A test of a part of a text. -/
def textTest (chain : Chain) (c : Comparison) (op : TextOperator) : Except Fault Condition := do
  match ← single c with
  | .string needle => return .test chain (.text op needle)
  | _ => throw (.textValueRequired c.operator chain.path)

/-- A text can be tested for equality and for its parts. -/
def onText (chain : Chain) (c : Comparison) : Except Fault Condition :=
  match c.operator with
  | .equal => comparison chain c .eq
  | .notEqual => comparison chain c .ne
  | op =>
    match op.textOperator? with
    | some t => textTest chain c t
    | none => .error (.unsupportedOperator op chain.path chain.type)

/-- The values of the literals of a list, none of which is null. -/
def listValues (type : FieldType) (field : String) : List Literal → Except Fault (List Scalar)
  | [] => .ok []
  | .null :: _ => .error (.nullInList field)
  | l :: ls => do
    let value ← l.coerce type false field
    let values ← listValues type field ls
    return value.toList ++ values

/-- Is the value one of a list? -/
def membership (chain : Chain) (c : Comparison) : Except Fault Condition := do
  match c.operand with
  | some (.list ls) => return .test chain (.isIn (← listValues chain.type chain.path ls))
  | _ => throw (.listRequired chain.path)

/-- Other values can be compared, looked up in a list and, if their type has an order, ordered. -/
def onValue (chain : Chain) (c : Comparison) : Except Fault Condition :=
  if c.operator.isText then .error (.textOperatorOnType c.operator chain.path chain.type)
  else if c.operator.isOrdering && !chain.type.isOrdered then
    .error (.unsupportedOperator c.operator chain.path chain.type)
  else
    match c.operator.comparator? with
    | some op => comparison chain c op
    | none => membership chain c

/-- The condition that a comparison of the value at the end of a chain states. -/
def ofChain (chain : Chain) (c : Comparison) : Except Fault Condition :=
  match c.operator with
  | .isNull => .ok (nullTest chain true)
  | .isNotNull => .ok (nullTest chain false)
  | _ =>
    match chain.type with
    | .record _ => onRecord chain c
    | .string => onText chain c
    | _ => onValue chain c

/-- The condition that a comparison states. -/
def ofComparison (schema : Schema) (root : Shape) (aliases : Aliases) (c : Comparison) :
    Except Fault Condition := do
  ofChain (← schema.resolve root aliases c.path) c

end Typing

/-- The condition that an expression states about records of shape `root`. -/
def Condition.ofExpr (schema : Schema) (root : Shape) (aliases : Aliases) :
    Expr → Except QueryError Condition
  | .and l r => do return .and (← ofExpr schema root aliases l) (← ofExpr schema root aliases r)
  | .or l r => do return .or (← ofExpr schema root aliases l) (← ofExpr schema root aliases r)
  | .not e => do return .not (← ofExpr schema root aliases e)
  | .comparison c =>
    (Typing.ofComparison schema root aliases c).mapError fun fault => .located c.position fault

end RecordQuery
