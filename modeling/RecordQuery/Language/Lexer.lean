import RecordQuery.Text.Blank
import RecordQuery.Text.Letter
import RecordQuery.Text.Numeral
import RecordQuery.Text.Lowercase
import RecordQuery.Language.Fault

/-!
# Cutting a query text into tokens

`tokenize` cuts a text into tokens. Every token is as long as it can be, white space between tokens is
passed over, and the last token is the end of the text. `is null` and `is not null` are single tokens,
whatever the white space between their words.
-/

namespace RecordQuery

namespace Lexer

/-! ## Algorithm -/

/-- The characters that can start a word. -/
def isWordStart (c : Char) : Bool := Text.isLetter c || c = '_'

/-- The characters that can follow in a word. -/
def isWordPart (c : Char) : Bool := Text.isLetter c || Text.isNumeral c || c = '_'

/-- The word at the front of a text, empty when there is none. -/
def word : List Char → List Char
  | [] => []
  | c :: cs => if isWordStart c then c :: cs.takeWhile isWordPart else []

/-- Are the characters those of `keyword`, in any ASCII case? The keyword is in small letters. -/
def spells (cs : List Char) (keyword : String) : Bool := cs.map Char.toLower = keyword.toList

/-- What the front of a text denotes: a token's kind and value, and how many characters belong to the
token after its first. -/
structure Form where
  kind : TokenKind
  payload : Option Payload
  tail : Nat
deriving DecidableEq, Repr

/-- What was found in place of a word. -/
def sightOf (found rest : List Char) : Sight :=
  if found ≠ [] then .text (String.ofList found)
  else
    match rest with
    | [] => .endOfInput
    | c :: _ => .text (String.ofList [c])

/-- The content of a string whose opening quote has been passed, and the number of characters up to
and with the closing quote. A backslash is dropped and the character after it kept. -/
def stringBody? : List Char → Option (List Char × Nat)
  | [] => none
  | '"' :: _ => some ([], 1)
  | ['\\'] => none
  | '\\' :: c :: cs => (stringBody? cs).map fun (body, n) => (c :: body, n + 2)
  | c :: cs => (stringBody? cs).map fun (body, n) => (c :: body, n + 1)

/-- The digits after a point at the front of a text. A point without a digit after it starts no
fraction. -/
def fractionDigits : List Char → List Char
  | '.' :: cs => cs.takeWhile Char.isDigit
  | _ => []

/-- The number whose sign is known and whose digits start the text `cs`: its value, and how many
characters it takes. -/
def number (negative : Bool) (cs : List Char) : Decimal × Nat :=
  let whole := cs.takeWhile Char.isDigit
  let fraction := fractionDigits (cs.dropWhile Char.isDigit)
  let n : Int := Digit.number (whole ++ fraction)
  (⟨if negative then -n else n, fraction.length⟩,
    whole.length + if fraction = [] then 0 else fraction.length + 1)

/-- The token after the word `is`, whose remaining text is `cs`: `null`, or `not` and `null`. The word
starts at `position`. -/
def afterIs (position : Nat) (cs : List Char) : Except QueryError Form :=
  let gap := (cs.takeWhile Text.isBlank).length
  let rest := cs.drop gap
  let first := word rest
  if spells first "null" then .ok ⟨.isNull, none, 1 + gap + first.length⟩
  else if spells first "not" then
    let rest := rest.drop first.length
    let gap' := (rest.takeWhile Text.isBlank).length
    let rest := rest.drop gap'
    let second := word rest
    if spells second "null" then
      .ok ⟨.isNotNull, none, 1 + gap + first.length + gap' + second.length⟩
    else
      .error (.located (position + 2 + gap + first.length + gap')
        (.unexpected .nullAfterIsNot (sightOf second rest)))
  else .error (.located (position + 2 + gap) (.unexpected .nullAfterIs (sightOf first rest)))

/-- The kind of a keyword that is a token by itself. -/
def keyword? (cs : List Char) : Option TokenKind :=
  if spells cs "and" then some .and
  else if spells cs "or" then some .or
  else if spells cs "not" then some .not
  else if spells cs "null" then some .null
  else if spells cs "contains" then some .contains
  else if spells cs "startswith" then some .startsWith
  else if spells cs "endswith" then some .endsWith
  else if spells cs "in" then some .isIn
  else none

/-- The token that starts with the word `w`, which `rest` follows. -/
def wordForm (position : Nat) (w rest : List Char) : Except QueryError Form :=
  let tail := w.length - 1
  match keyword? w with
  | some kind => .ok ⟨kind, none, tail⟩
  | none =>
    if spells w "is" then afterIs position rest
    else if spells w "true" then .ok ⟨.boolean, some (.bool true), tail⟩
    else if spells w "false" then .ok ⟨.boolean, some (.bool false), tail⟩
    else .ok ⟨.identifier, some (.text (String.ofList w)), tail⟩

/-- A comparison sign that a `=` may follow. -/
def sign (alone withEqual : TokenKind) : List Char → Form
  | '=' :: _ => ⟨withEqual, none, 1⟩
  | _ => ⟨alone, none, 0⟩

/-- Does a digit come first? -/
def startsWithDigit : List Char → Bool
  | [] => false
  | c :: _ => c.isDigit

/-- The token at `position` that starts with `c`, which `cs` follows. -/
def form (position : Nat) (c : Char) (cs : List Char) : Except QueryError Form :=
  if c = '(' then .ok ⟨.leftParen, none, 0⟩
  else if c = ')' then .ok ⟨.rightParen, none, 0⟩
  else if c = ',' then .ok ⟨.comma, none, 0⟩
  else if c = '.' then .ok ⟨.dot, none, 0⟩
  else if c = '=' then .ok ⟨.equal, none, 0⟩
  else if c = '!' then
    if cs.head? = some '=' then .ok ⟨.notEqual, none, 1⟩ else .error (.located position .bareExclamation)
  else if c = '<' then .ok (sign .less .lessEqual cs)
  else if c = '>' then .ok (sign .greater .greaterEqual cs)
  else if c = '"' then
    match stringBody? cs with
    | some (body, n) => .ok ⟨.string, some (.text (String.ofList body)), n⟩
    | none => .error (.located position (.unterminatedString position))
  else if c = '-' && startsWithDigit cs then
    let (value, n) := number true cs
    .ok ⟨.number, some (.number value), n⟩
  else if c.isDigit then
    let (value, n) := number false (c :: cs)
    .ok ⟨.number, some (.number value), n - 1⟩
  else if isWordStart c then
    let w := word (c :: cs)
    wordForm position w (cs.drop (w.length - 1))
  else .error (.located position (.unexpectedCharacter c))

/-- The tokens of the text `cs`, whose first character stands at `position`. -/
def tokensFrom (position : Nat) (cs : List Char) : Except QueryError (List Token) :=
  match _h : Text.dropBlanks cs with
  | [] => .ok [Token.endAt (position + cs.length)]
  | c :: rest => do
    let start := position + (cs.takeWhile Text.isBlank).length
    let s ← form start c rest
    let tokens ← tokensFrom (start + 1 + s.tail) (rest.drop s.tail)
    return ⟨s.kind, String.ofList (c :: rest.take s.tail), s.payload, start⟩ :: tokens
termination_by cs.length
decreasing_by
  have hle : (Text.dropBlanks cs).length ≤ cs.length :=
    (List.dropWhile_suffix Text.isBlank).length_le
  simp only [_h, List.length_cons] at hle
  simp only [List.length_drop]
  omega

end Lexer

/-- The tokens of a query text. -/
def tokenize (s : String) : Except QueryError (List Token) := Lexer.tokensFrom 0 s.toList

end RecordQuery
