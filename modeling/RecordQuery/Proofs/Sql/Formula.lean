import RecordQuery.Proofs.Sql.Like

/-!
# SQL conditions and their truth

A `Formula` is a condition of a WHERE clause whose values are bound. Its truth on a record follows the
three-valued logic of SQL: a comparison, LIKE or IN with NULL is unknown, `IS NULL` and `IS NOT NULL`
never are, and unknown spreads through AND, OR and NOT unless the other side decides.

A column is NULL where walking its path through the record ends at null. Values that are not NULL compare
as scalars do.
-/

namespace RecordQuery.Sql

/-! ## Three-valued logic -/

/-- The truth of a condition. -/
inductive Truth where
  | holds
  | fails
  | unknown
deriving DecidableEq, Repr

namespace Truth

/-- Truth that is known. -/
def ofBool (b : Bool) : Truth := if b then holds else fails

/-- AND fails as soon as one side fails. -/
def and : Truth → Truth → Truth
  | fails, _ | _, fails => fails
  | holds, holds => holds
  | _, _ => unknown

/-- OR holds as soon as one side holds. -/
def or : Truth → Truth → Truth
  | holds, _ | _, holds => holds
  | fails, fails => fails
  | _, _ => unknown

/-- NOT leaves unknown as it is. -/
def not : Truth → Truth
  | holds => fails
  | fails => holds
  | unknown => unknown

end Truth

/-! ## Formulas -/

/-- A side of a comparison: a column, by the names of its path, or a value. -/
inductive Operand where
  | column (names : List String)
  | value (v : Scalar)
deriving DecidableEq, Repr

/-- A condition. -/
inductive Formula where
  | compare (op : Comparator) (left right : Operand)
  | like (subject pattern : Operand) (escape : Char)
  | isIn (subject : Operand) (values : List Scalar)
  | isNull (subject : Operand)
  | isNotNull (subject : Operand)
  | and (left right : Formula)
  | or (left right : Formula)
  | not (operand : Formula)
deriving DecidableEq, Repr

/-- What an operand stands for: NULL, a scalar or a row. -/
def Operand.read (r : Record) : Operand → Field
  | column names => r.fieldAt names
  | value v => .scalar v

/-- A comparison of two scalars is known. -/
def compareTruth (op : Comparator) : Field → Field → Truth
  | .scalar a, .scalar b => .ofBool (op.admits (a.compare? b))
  | _, _ => .unknown

/-- LIKE is known of a text and a pattern that is well formed. -/
def likeTruth (escape : Char) : Field → Field → Truth
  | .scalar (.text s), .scalar (.text pattern) =>
    match likeParts? escape pattern.toList with
    | some parts => .ofBool (likeMatches parts s.toList)
    | none => .unknown
  | _, _ => .unknown

/-- IN is known of a scalar. -/
def inTruth (values : List Scalar) : Field → Truth
  | .scalar a => .ofBool (values.any a.equals)
  | _ => .unknown

/-- The truth of a condition on a record. -/
def Formula.truth (r : Record) : Formula → Truth
  | compare op x y => compareTruth op (x.read r) (y.read r)
  | like x pattern escape => likeTruth escape (x.read r) (pattern.read r)
  | isIn x values => inTruth values (x.read r)
  | isNull x => .ofBool (x.read r).isNull
  | isNotNull x => .ofBool !(x.read r).isNull
  | and f g => (f.truth r).and (g.truth r)
  | or f g => (f.truth r).or (g.truth r)
  | not f => (f.truth r).not

/-- A formula stands somewhere in another one, or is it. -/
inductive Formula.PartOf : Formula → Formula → Prop
  | self {f : Formula} : PartOf f f
  | andLeft {f g h : Formula} : PartOf f g → PartOf f (.and g h)
  | andRight {f g h : Formula} : PartOf f h → PartOf f (.and g h)
  | orLeft {f g h : Formula} : PartOf f g → PartOf f (.or g h)
  | orRight {f g h : Formula} : PartOf f h → PartOf f (.or g h)
  | not {f g : Formula} : PartOf f g → PartOf f (.not g)

/-! ## Lemmas -/

@[simp] theorem ofBool_and (a b : Bool) :
    (Truth.ofBool a).and (.ofBool b) = .ofBool (a && b) := by
  cases a <;> cases b <;> rfl

@[simp] theorem ofBool_or (a b : Bool) : (Truth.ofBool a).or (.ofBool b) = .ofBool (a || b) := by
  cases a <;> cases b <;> rfl

@[simp] theorem ofBool_not (a : Bool) : (Truth.ofBool a).not = .ofBool !a := by
  cases a <;> rfl

end RecordQuery.Sql
