import RecordQuery.Language.Lexer
import RecordQuery.Language.Expr

/-!
# Writing expressions as query text

`Expr.source` writes an expression with parentheses around every operand of `and`, `or` and `not`. Texts
stand in double quotes with a backslash before each quote and backslash inside, numbers in plain notation.

An expression is `Expr.Printable` when its fields are paths of names, every operator has what it takes, and
no number has a negative scale.
-/

namespace RecordQuery

/-! ## Algorithm -/

/-- Characters that a string literal holds only behind a backslash. -/
def Literal.isEscaped (c : Char) : Bool := c = '"' || c = '\\'

/-- The characters of a string literal between its quotes. -/
def Literal.escape (cs : List Char) : List Char :=
  cs.flatMap fun c => if isEscaped c then ['\\', c] else [c]

/-- A literal as it is written in a query. -/
def Literal.chars : Literal → List Char
  | string s => '"' :: escape s.toList ++ ['"']
  | number d => d.plainText.toList
  | bool b => if b then ['t', 'r', 'u', 'e'] else ['f', 'a', 'l', 's', 'e']
  | null => ['n', 'u', 'l', 'l']

/-- Literals with a comma and a space between them. -/
def Literal.listChars : List Literal → List Char
  | [] => []
  | [l] => l.chars
  | l :: ls => l.chars ++ ',' :: ' ' :: listChars ls

/-- A text in parentheses. -/
def inParens (cs : List Char) : List Char := '(' :: cs ++ [')']

/-- What stands behind an operator. -/
def Operand.chars : Operand → List Char
  | one l => ' ' :: l.chars
  | list ls => ' ' :: inParens (Literal.listChars ls)

/-- The path, the operator and what it takes. -/
def Comparison.chars (c : Comparison) : List Char :=
  c.path.toList ++ ' ' :: c.operator.symbol.toList ++ (c.operand.map Operand.chars).getD []

/-- An expression, the operands of its connectives in parentheses. -/
def Expr.chars : Expr → List Char
  | and l r => inParens l.chars ++ ' ' :: ['A', 'N', 'D'] ++ ' ' :: inParens r.chars
  | or l r => inParens l.chars ++ ' ' :: ['O', 'R'] ++ ' ' :: inParens r.chars
  | not e => ['N', 'O', 'T'] ++ ' ' :: inParens e.chars
  | comparison c => c.chars

/-- The query text of an expression. -/
def Expr.source (e : Expr) : String := String.ofList e.chars

/-! ## Expressions that can be written -/

/-- The words with a meaning of their own, in small letters. -/
def Lexer.keywords : List String :=
  ["and", "or", "not", "true", "false", "null", "contains", "startswith", "endswith", "in", "is"]

/-- Is the text a single word that is no keyword in any ASCII case? -/
def IsName (s : String) : Prop :=
  (∃ c cs, s.toList = c :: cs ∧ Lexer.isWordStart c = true ∧ ∀ d ∈ cs, Lexer.isWordPart d = true) ∧
    ∀ k ∈ Lexer.keywords, Lexer.spells s.toList k = false

/-- One or more names with points between them. -/
def IsPath (s : String) : Prop :=
  ∃ names, names ≠ [] ∧ (∀ n ∈ names, IsName n) ∧ s = ".".intercalate names

/-- Every literal but a number with a negative scale can be written. -/
def Literal.Printable : Literal → Prop
  | number d => 0 ≤ d.scale
  | _ => True

/-- Null tests take nothing, `in` takes some literals, and other operators one. -/
def Operator.Takes : Operator → Option Operand → Prop
  | isNull, o => o = none
  | isNotNull, o => o = none
  | isIn, o => ∃ ls, ls ≠ [] ∧ (∀ l ∈ ls, l.Printable) ∧ o = some (.list ls)
  | _, o => ∃ l : Literal, l.Printable ∧ o = some (.one l)

/-- A comparison that can be written. -/
def Comparison.Printable (c : Comparison) : Prop := IsPath c.path ∧ c.operator.Takes c.operand

namespace Expr

/-- An expression that can be written. -/
def Printable : Expr → Prop
  | and l r => l.Printable ∧ r.Printable
  | or l r => l.Printable ∧ r.Printable
  | not e => e.Printable
  | comparison c => c.Printable

/-- The connectives on the longest way down to a comparison. -/
def height : Expr → Nat
  | and l r => max l.height r.height + 1
  | or l r => max l.height r.height + 1
  | not e => e.height + 1
  | comparison _ => 0

/-- The expression with all positions forgotten. -/
def unplaced : Expr → Expr
  | and l r => and l.unplaced r.unplaced
  | or l r => or l.unplaced r.unplaced
  | not e => not e.unplaced
  | comparison c => comparison { c with position := 0 }

end Expr

end RecordQuery
