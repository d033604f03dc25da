import RecordQuery.Record
import RecordQuery.Condition.Basic

/-!
# Conditions on records

`Condition.holds` decides a condition on a record. A null value is unequal to every value, and all other
tests of it fail; so do tests of a value of another kind than the query compares with.
-/

namespace RecordQuery

/-! ## Algorithm -/

/-- Does an order, if there is one, satisfy a comparison? -/
def Comparator.admits : Comparator → Option Ordering → Bool
  | eq, o => o = some .eq
  | ne, o => o ≠ some .eq
  | lt, o => o = some .lt
  | le, o => o = some .lt || o = some .eq
  | gt, o => o = some .gt
  | ge, o => o = some .gt || o = some .eq

/-- Is `needle` a run of characters of a text? -/
def TextOperator.occursIn (needle : List Char) : List Char → Bool
  | [] => needle.isEmpty
  | c :: cs => needle.isPrefixOf (c :: cs) || occursIn needle cs

/-- Does a text contain the needle, start or end with it? -/
def TextOperator.admits (op : TextOperator) (needle s : String) : Bool :=
  match op with
  | contains => occursIn needle.toList s.toList
  | startsWith => needle.toList.isPrefixOf s.toList
  | endsWith => needle.toList.isSuffixOf s.toList

/-- Does a field pass a test? -/
def Test.holds : Test → Field → Bool
  | isNull, f => f.isNull
  | isNotNull, f => !f.isNull
  | compare op value, .scalar s => op.admits (s.compare? value)
  | compare op _, _ => op = .ne
  | text op needle, .scalar (.text s) => op.admits needle s
  | text _ _, _ => false
  | isIn values, .scalar s => values.any s.equals
  | isIn _, _ => false

/-- The field at the end of a chain. -/
def Chain.value (c : Chain) (r : Record) : Field := r.follow c.last.name (c.before.map (·.name))

/-- Does a record satisfy a condition? -/
def Condition.holds : Condition → Record → Bool
  | const b, _ => b
  | and l r, x => l.holds x && r.holds x
  | or l r, x => l.holds x || r.holds x
  | not c, x => !c.holds x
  | test chain t, x => t.holds (chain.value x)

end RecordQuery
