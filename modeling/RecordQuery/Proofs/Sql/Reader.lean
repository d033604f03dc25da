import RecordQuery.Filter
import RecordQuery.Proofs.Sql.Formula

/-!
# Reading SQL conditions

`read` takes a WHERE clause and the values of its marks to the formula that they state. The text is cut
into lexemes, the marks take their values from left to right, the lexemes are grouped into items (tests,
connectives and parentheses), and a stack of open parentheses turns the items into a formula. NOT binds
tighter than AND and AND tighter than OR; chains of one connective group to the left.

Names stand between double quotes and texts between single ones; inside of either, its mark stands
doubled. A backslash means nothing.
-/

namespace RecordQuery.Sql

/-! ## Cutting lists into pieces -/

/-- Cuts a list into pieces, step after step. A step takes something off the front of the list, and gives
a piece or passes it over. -/
def cut {α β : Type} (next : List α → Option (Option β × List α)) : List α → Option (List β)
  | [] => some []
  | a :: as =>
    match next (a :: as) with
    | none => none
    | some (piece, rest) =>
      if rest.length < (a :: as).length then (cut next rest).map (piece.toList ++ ·) else none
termination_by l => l.length
decreasing_by assumption

/-! ## Lexemes -/

/-- What the text of a condition is made of. -/
inductive Lexeme where
  | word (w : String)
  | name (s : String)
  | text (s : String)
  | number (n : Nat)
  | mark
  | value (v : Scalar)
  | sign (op : Comparator)
  | left
  | right
  | comma
  | dot
deriving DecidableEq, Repr

/-- The characters up to the closing mark and what comes behind it. A doubled mark is a character. -/
def quoted? (mark : Char) : List Char → Option (List Char × List Char)
  | [] => none
  | [c] => if c = mark then some ([], []) else none
  | c :: d :: cs =>
    if c = mark then
      if d = mark then (quoted? mark cs).map fun p => (mark :: p.1, p.2) else some ([], d :: cs)
    else (quoted? mark (d :: cs)).map fun p => (c :: p.1, p.2)

/-- The first lexeme of a text, none where it starts with a blank, and what comes behind it. -/
def lexeme? : List Char → Option (Option Lexeme × List Char)
  | [] => none
  | ' ' :: cs => some (none, cs)
  | '"' :: cs => (quoted? '"' cs).map fun p => (some (.name (String.ofList p.1)), p.2)
  | '\'' :: cs => (quoted? '\'' cs).map fun p => (some (.text (String.ofList p.1)), p.2)
  | '?' :: cs => some (some .mark, cs)
  | '(' :: cs => some (some .left, cs)
  | ')' :: cs => some (some .right, cs)
  | ',' :: cs => some (some .comma, cs)
  | '.' :: cs => some (some .dot, cs)
  | '=' :: cs => some (some (.sign .eq), cs)
  | '<' :: '>' :: cs => some (some (.sign .ne), cs)
  | '<' :: '=' :: cs => some (some (.sign .le), cs)
  | '<' :: cs => some (some (.sign .lt), cs)
  | '>' :: '=' :: cs => some (some (.sign .ge), cs)
  | '>' :: cs => some (some (.sign .gt), cs)
  | c :: cs =>
    if c.isDigit then
      some (some (.number (Digit.number (c :: cs.takeWhile Char.isDigit))), cs.dropWhile Char.isDigit)
    else if c.isAlpha then
      some (some (.word (String.ofList ((c :: cs.takeWhile Char.isAlphanum).map Char.toUpper))),
        cs.dropWhile Char.isAlphanum)
    else none

/-- The lexemes of a text. -/
def lexemes (cs : List Char) : Option (List Lexeme) := cut lexeme? cs

/-- Puts values in the places of the marks, in order. There are as many values as marks. -/
def bind : List Lexeme → List Scalar → Option (List Lexeme)
  | [], [] => some []
  | [], _ :: _ => none
  | .mark :: _, [] => none
  | .mark :: ls, v :: vs => (bind ls vs).map (.value v :: ·)
  | l :: ls, vs => (bind ls vs).map (l :: ·)

/-! ## Items -/

/-- What a condition is made of once its tests are read. -/
inductive Item where
  | test (f : Formula)
  | and
  | or
  | not
  | left
  | right
deriving DecidableEq, Repr

/-- The names of a column, with points between them. -/
def column? : List Lexeme → Option (List String × List Lexeme)
  | .name s :: .dot :: ls => (column? ls).map fun p => (s :: p.1, p.2)
  | .name s :: ls => some ([s], ls)
  | _ => none

/-- The value that a lexeme writes. -/
def value? : Lexeme → Option Scalar
  | .value v => some v
  | .number n => some (.int n)
  | .text s => some (.text s)
  | _ => none

/-- A column or a value. -/
def operand? : List Lexeme → Option (Operand × List Lexeme)
  | [] => none
  | l :: ls =>
    match value? l with
    | some v => some (.value v, ls)
    | none => (column? (l :: ls)).map fun p => (.column p.1, p.2)

/-- Values with commas between them. -/
def values? : List Lexeme → Option (List Scalar × List Lexeme)
  | l :: .comma :: ls => do
    let v ← value? l
    let (vs, rest) ← values? ls
    some (v :: vs, rest)
  | l :: ls => (value? l).map fun v => ([v], ls)
  | [] => none

/-- What a test says of the operand in front. -/
def testOf (x : Operand) : List Lexeme → Option (Formula × List Lexeme)
  | .sign op :: ls => (operand? ls).map fun p => (.compare op x p.1, p.2)
  | .word "IS" :: .word "NULL" :: ls => some (.isNull x, ls)
  | .word "IS" :: .word "NOT" :: .word "NULL" :: ls => some (.isNotNull x, ls)
  | .word "LIKE" :: ls =>
    match operand? ls with
    | some (y, .word "ESCAPE" :: .text s :: rest) =>
      match s.toList with
      | [c] => some (.like x y c, rest)
      | _ => none
    | _ => none
  | .word "IN" :: .left :: ls =>
    match values? ls with
    | some (vs, .right :: rest) => some (.isIn x vs, rest)
    | _ => none
  | _ => none

/-- The first item of a condition and what comes behind it. -/
def item? : List Lexeme → Option (Option Item × List Lexeme)
  | .word "AND" :: ls => some (some .and, ls)
  | .word "OR" :: ls => some (some .or, ls)
  | .word "NOT" :: ls => some (some .not, ls)
  | .left :: ls => some (some .left, ls)
  | .right :: ls => some (some .right, ls)
  | ls => do
    let (x, behind) ← operand? ls
    let (f, rest) ← testOf x behind
    some (some (.test f), rest)

/-! ## Formulas -/

/-- What stands in front of an operand inside of its parentheses: the left sides of an OR and of an AND,
and a number of NOTs. -/
structure Front where
  ors : Option Formula
  ands : Option Formula
  nots : Nat
deriving DecidableEq, Repr

/-- Nothing stands in front. -/
def Front.empty : Front := ⟨none, none, 0⟩

/-- Puts as many NOTs in front of a formula. -/
def negate : Nat → Formula → Formula
  | 0, f => f
  | n + 1, f => negate n (.not f)

/-- An operand with its NOTs and the left side of its AND. -/
def Front.take (front : Front) (f : Formula) : Formula :=
  match front.ands with
  | none => negate front.nots f
  | some g => .and g (negate front.nots f)

/-- A formula with the left side of its OR. -/
def withOr (ors : Option Formula) (f : Formula) : Formula :=
  match ors with
  | none => f
  | some g => .or g f

/-- How far a condition is read, with what stands in front of each open parenthesis. Either an operand is
wanted, or one has been read, up to the AND that may follow. -/
inductive Reading where
  | wants (front : Front) (outer : List Front)
  | has (ors : Option Formula) (f : Formula) (outer : List Front)
deriving DecidableEq, Repr

namespace Reading

/-- Reads one more item. -/
def step : Reading → Item → Option Reading
  | wants front outer, .test f => some (has front.ors (front.take f) outer)
  | wants front outer, .not => some (wants ⟨front.ors, front.ands, front.nots + 1⟩ outer)
  | wants front outer, .left => some (wants .empty (front :: outer))
  | has ors f outer, .and => some (wants ⟨ors, some f, 0⟩ outer)
  | has ors f outer, .or => some (wants ⟨some (withOr ors f), none, 0⟩ outer)
  | has ors f (front :: outer), .right => some (has front.ors (front.take (withOr ors f)) outer)
  | _, _ => none

/-- The formula, once all is read and all parentheses are closed. -/
def finish : Reading → Option Formula
  | has ors f [] => some (withOr ors f)
  | _ => none

end Reading

/-- The formula of a clause with its values. -/
def read (filter : SqlFilter) : Option Formula := do
  let bound ← bind (← lexemes filter.clause.toList) filter.parameters
  let last ← (← cut item? bound).foldlM Reading.step (.wants .empty [])
  last.finish

/-! ## Lemmas -/

/-- A step of cutting, if it takes something off the list. -/
theorem cut_step {α β : Type} {next : List α → Option (Option β × List α)} {l rest : List α}
    {piece : Option β} (h : next l = some (piece, rest)) (hlt : rest.length < l.length) :
    cut next l = (cut next rest).map (piece.toList ++ ·) := by
  cases l with
  | nil => cases hlt
  | cons a as =>
    rw [cut, h]
    exact if_pos hlt

end RecordQuery.Sql
