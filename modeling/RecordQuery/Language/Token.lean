import RecordQuery.Number.Decimal.Basic

/-!
# Tokens

A query text is a sequence of tokens. A token keeps the characters it was read from, its position in
the text, counted in characters, and, for names and literals, the value they denote.
-/

namespace RecordQuery

/-- The kinds of tokens. -/
inductive TokenKind where
  | identifier
  | string
  | number
  | boolean
  | null
  | equal
  | notEqual
  | less
  | lessEqual
  | greater
  | greaterEqual
  | contains
  | startsWith
  | endsWith
  | isIn
  | isNull
  | isNotNull
  | and
  | or
  | not
  | leftParen
  | rightParen
  | comma
  | dot
  | eof
deriving DecidableEq, Repr

/-- The value that a token carries. -/
inductive Payload where
  | text (s : String)
  | number (d : Decimal)
  | bool (b : Bool)
deriving DecidableEq, Repr

/-- A token of a query text. -/
structure Token where
  kind : TokenKind
  lexeme : String
  payload : Option Payload
  position : Nat
deriving DecidableEq, Repr

/-- What stands at the place where something else was expected. -/
inductive Sight where
  | text (s : String)
  | endOfInput
deriving DecidableEq, Repr

/-- A text stands in quotes. -/
def Sight.describe : Sight → String
  | text s => "'" ++ s ++ "'"
  | endOfInput => "end of input"

namespace Token

/-- The token that ends a text. -/
def endAt (position : Nat) : Token := ⟨.eof, "", none, position⟩

/-- How a token shows in an error message. -/
def sight (t : Token) : Sight := if t.kind = .eof then .endOfInput else .text t.lexeme

end Token

end RecordQuery
