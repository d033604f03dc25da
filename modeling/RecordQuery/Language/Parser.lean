import RecordQuery.Language.Fault

/-!
# Reading expressions from tokens

`Expr.ofTokens` reads the tokens before the first end of text by this grammar, where `not` binds tighter
than `and`, `and` tighter than `or`, and both fold to the left:

    disjunction := conjunction (OR conjunction)*
    conjunction := negation (AND negation)*
    negation    := NOT negation | '(' disjunction ')' | comparison
    comparison  := path IS-NULL | path IS-NOT-NULL | path IN '(' literal (',' literal)* ')'
                 | path operator literal
    path        := name ('.' name)*

Each `not`, each opening parenthesis and each further operand of a chain uses up one of the
`Parser.maxDepth` levels of nesting, so the expression is at most so many levels high.
-/

namespace RecordQuery

namespace Parser

/-- The deepest nesting of `not`, parentheses and chained `and` and `or`. -/
def maxDepth : Nat := 256


/-! ## Algorithm -/

/-- The error that something else than `wanted` comes first. The text ends at `finish`. -/
def unexpected (finish : Nat) (wanted : Wanted) : List Token → QueryError
  | [] => .located finish (.unexpected wanted .endOfInput)
  | t :: _ => .located t.position (.unexpected wanted t.sight)

/-- The name that an identifier denotes, its own characters if it carries no other. -/
def fieldName (t : Token) : String :=
  match t.payload with
  | some (.text s) => s
  | _ => t.lexeme

/-- The rest of a path after the segments `path`. -/
def pathTail (finish : Nat) (path : String) : List Token → Except QueryError (String × List Token)
  | [] => .ok (path, [])
  | [t] => if t.kind = .dot then .error (unexpected finish .fieldNameAfterDot []) else .ok (path, [t])
  | t :: name :: rest =>
    if t.kind = .dot then
      if name.kind = .identifier then pathTail finish (path ++ "." ++ fieldName name) rest
      else .error (unexpected finish .fieldNameAfterDot (name :: rest))
    else .ok (path, t :: name :: rest)

/-- A path: names with points between them. -/
def path (finish : Nat) : List Token → Except QueryError (String × List Token)
  | [] => .error (unexpected finish .fieldName [])
  | t :: rest =>
    if t.kind = .identifier then pathTail finish (fieldName t) rest
    else .error (unexpected finish .fieldName (t :: rest))

/-- The operator that a token denotes. -/
def operator? (t : Token) : Option Operator :=
  match t.kind with
  | .equal => some .equal
  | .notEqual => some .notEqual
  | .less => some .less
  | .lessEqual => some .lessEqual
  | .greater => some .greater
  | .greaterEqual => some .greaterEqual
  | .contains => some .contains
  | .startsWith => some .startsWith
  | .endsWith => some .endsWith
  | .isIn => some .isIn
  | .isNull => some .isNull
  | .isNotNull => some .isNotNull
  | _ => none

/-- The literal that a token denotes, when it carries a value of its kind. -/
def literal? (t : Token) : Option Literal :=
  match t.kind, t.payload with
  | .string, some (.text s) => some (.string s)
  | .number, some (.number d) => some (.number d)
  | .boolean, some (.bool b) => some (.bool b)
  | .null, _ => some .null
  | _, _ => none

/-- A literal. -/
def literal (finish : Nat) : List Token → Except QueryError (Literal × List Token)
  | [] => .error (unexpected finish .value [])
  | t :: rest =>
    match literal? t with
    | some l => .ok (l, rest)
    | none => .error (unexpected finish .value (t :: rest))

/-- One token of a given kind. -/
def expect (finish : Nat) (kind : TokenKind) (wanted : Wanted) :
    List Token → Except QueryError (List Token)
  | [] => .error (unexpected finish wanted [])
  | t :: rest => if t.kind = kind then .ok rest else .error (unexpected finish wanted (t :: rest))

/-- The literals of a list after the first, each behind a comma. -/
def listTail (finish : Nat) : List Token → Except QueryError (List Literal × List Token)
  | [] => .ok ([], [])
  | [t] => if t.kind = .comma then .error (unexpected finish .value []) else .ok ([], [t])
  | t :: value :: rest =>
    if t.kind = .comma then
      match literal? value with
      | some l => do
        let (ls, rest) ← listTail finish rest
        return (l :: ls, rest)
      | none => .error (unexpected finish .value (value :: rest))
    else .ok ([], t :: value :: rest)

/-- Does a token of this kind come first? -/
def startsWith (kind : TokenKind) : List Token → Bool
  | [] => false
  | t :: _ => t.kind = kind

/-- A list of literals in parentheses. -/
def list (finish : Nat) (ts : List Token) : Except QueryError (List Literal × List Token) := do
  let ts ← expect finish .leftParen .openParenAfterIn ts
  if startsWith .rightParen ts then throw (unexpected finish .listValue ts)
  let (first, ts) ← literal finish ts
  let (others, ts) ← listTail finish ts
  let ts ← expect finish .rightParen .listEnd ts
  return (first :: others, ts)

/-- What an operator takes on its right. -/
def operand (finish : Nat) (op : Operator) (ts : List Token) :
    Except QueryError (Option Operand × List Token) :=
  match op with
  | .isNull | .isNotNull => .ok (none, ts)
  | .isIn => do
    let (ls, ts) ← list finish ts
    return (some (.list ls), ts)
  | _ => do
    let (l, ts) ← literal finish ts
    return (some (.one l), ts)

/-- The position of the first token. -/
def positionOf (finish : Nat) : List Token → Nat
  | [] => finish
  | t :: _ => t.position

/-- A comparison. -/
def comparison (finish : Nat) (ts : List Token) : Except QueryError (Expr × List Token) := do
  let (field, rest) ← path finish ts
  match rest with
  | [] => throw (unexpected finish (.operatorAfter field) [])
  | t :: after =>
    match operator? t with
    | none => throw (unexpected finish (.operatorAfter field) (t :: after))
    | some op =>
      let (value, rest) ← operand finish op after
      return (.comparison ⟨field, op, value, positionOf finish ts⟩, rest)

/-- The rules that may nest, for some number of levels that are left. -/
structure Level where
  negation : List Token → Except QueryError (Expr × List Token)
  andTail : Expr → List Token → Except QueryError (Expr × List Token)
  conjunction : List Token → Except QueryError (Expr × List Token)
  orTail : Expr → List Token → Except QueryError (Expr × List Token)
  disjunction : List Token → Except QueryError (Expr × List Token)

/-- Goes one level down at the token `t`. -/
def enter (t : Token) : Option Level → Except QueryError Level
  | some inner => .ok inner
  | none => .error (.located t.position (.nestedTooDeeply maxDepth))

/-- A comparison, or an expression in parentheses. -/
def primary (finish : Nat) (inner : Option Level) :
    List Token → Except QueryError (Expr × List Token)
  | [] => comparison finish []
  | t :: rest =>
    if t.kind = .leftParen then do
      let level ← enter t inner
      let (e, ts) ← level.disjunction rest
      let ts ← expect finish .rightParen .closingParen ts
      return (e, ts)
    else comparison finish (t :: rest)

/-- An operand of `and`, perhaps negated. -/
def negation (finish : Nat) (inner : Option Level) :
    List Token → Except QueryError (Expr × List Token)
  | [] => primary finish inner []
  | t :: rest =>
    if t.kind = .not then do
      let level ← enter t inner
      let (e, ts) ← level.negation rest
      return (.not e, ts)
    else primary finish inner (t :: rest)

/-- The further operands of `and` after `left`. -/
def andTail (inner : Option Level) (left : Expr) : List Token → Except QueryError (Expr × List Token)
  | [] => .ok (left, [])
  | t :: rest =>
    if t.kind = .and then do
      let level ← enter t inner
      let (right, ts) ← level.negation rest
      level.andTail (.and left right) ts
    else .ok (left, t :: rest)

/-- An operand of `or`. -/
def conjunction (finish : Nat) (inner : Option Level) (ts : List Token) :
    Except QueryError (Expr × List Token) := do
  let (left, ts) ← negation finish inner ts
  andTail inner left ts

/-- The further operands of `or` after `left`. -/
def orTail (inner : Option Level) (left : Expr) : List Token → Except QueryError (Expr × List Token)
  | [] => .ok (left, [])
  | t :: rest =>
    if t.kind = .or then do
      let level ← enter t inner
      let (right, ts) ← level.conjunction rest
      level.orTail (.or left right) ts
    else .ok (left, t :: rest)

/-- An expression. -/
def disjunction (finish : Nat) (inner : Option Level) (ts : List Token) :
    Except QueryError (Expr × List Token) := do
  let (left, ts) ← conjunction finish inner ts
  orTail inner left ts

/-- The rules above those of `inner`. -/
def Level.above (finish : Nat) (inner : Option Level) : Level where
  negation := Parser.negation finish inner
  andTail := Parser.andTail inner
  conjunction := Parser.conjunction finish inner
  orTail := Parser.orTail inner
  disjunction := Parser.disjunction finish inner

/-- The rules with `depth` levels left, in a text that ends at `finish`. -/
def level (finish : Nat) : Nat → Level
  | 0 => .above finish none
  | depth + 1 => .above finish (some (level finish depth))

/-- The position of the end of the text: that of the first end token, or else behind the last token. -/
def finishOf (tokens : List Token) : Nat :=
  match tokens.find? (·.kind = .eof) with
  | some t => t.position
  | none =>
    match tokens.getLast? with
    | some t => t.position + t.lexeme.length
    | none => 0

end Parser

/-- The expression that the tokens before the first end of text write. -/
def Expr.ofTokens (tokens : List Token) : Except QueryError Expr := do
  let finish := Parser.finishOf tokens
  let (e, rest) ←
    (Parser.level finish Parser.maxDepth).disjunction (tokens.takeWhile (·.kind ≠ .eof))
  if rest ≠ [] then throw (Parser.unexpected finish .endOfInput rest)
  return e

end RecordQuery
