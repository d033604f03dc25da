import RecordQuery.Yaml.Scalar

/-!
# Tokens of documents

`scan` cuts a document into tokens and makes its layout explicit: deeper indentation opens a block
collection, lesser indentation ends it. Whether a scalar or a bracketed collection is a key shows only
at the colon after it. So its place is remembered, and the tokens that make it a key are inserted there
later. Such a key lies on one line and is at most 1024 characters long.

Anchors, aliases, tags and directives are no part of the format: a text with them is not scanned.
-/

namespace RecordQuery.Yaml

/-- The tokens of a document. -/
inductive Token where
  | documentStart
  | documentEnd
  | blockSequenceStart
  | blockMappingStart
  | blockEnd
  | flowSequenceStart
  | flowSequenceEnd
  | flowMappingStart
  | flowMappingEnd
  | blockEntry
  | flowEntry
  | key
  | value
  | scalar (text : String) (isPlain : Bool)
deriving DecidableEq, Repr

/-- A place where a key may have started: the number of the token there, its position, and whether a key
has to start there. -/
structure KeyPlace where
  token : Nat
  index : Nat
  line : Nat
  column : Nat
  required : Bool

/-- A document that is being scanned: the text that is left and its position, the tokens so far, last
first, a possible key for each open bracket and for the block around them, innermost first, the columns
of the open blocks, innermost first, and whether a key may start here. -/
structure Scan where
  rest : List Char
  index : Nat
  line : Nat
  column : Nat
  tokens : List Token
  count : Nat
  keys : List (Option KeyPlace)
  indents : List Int
  keyAllowed : Bool

namespace Scan

/-! ## Algorithm -/

/-- The beginning of a document. -/
def start (cs : List Char) : Scan := ⟨cs, 0, 0, 0, [], 0, [none], [], true⟩

/-- Is a bracket or brace open? -/
def inFlow (s : Scan) : Bool := 1 < s.keys.length

/-- The column of the innermost block, -1 outside of all. -/
def indent (s : Scan) : Int := s.indents.headD (-1)

/-- Passes over one character. -/
def skip (s : Scan) : Scan :=
  match s.rest with
  | [] => s
  | c :: cs =>
    if isBreak c then { s with rest := cs, index := s.index + 1, line := s.line + 1, column := 0 }
    else { s with rest := cs, index := s.index + 1, column := s.column + 1 }

/-- Passes over several characters. -/
def skipMany (s : Scan) : Nat → Scan
  | 0 => s
  | n + 1 => s.skip.skipMany n

/-- Goes on where only the characters `rest` are left. -/
def skipTo (s : Scan) (rest : List Char) : Scan := s.skipMany (s.rest.length - rest.length)

/-- Passes over white space, comments and line breaks up to the next token. Tabs count as white space
where no key may start. After a line break a key may start, unless a bracket is open. -/
def skipGap (s : Scan) : (fuel : Nat) → Scan
  | 0 => s
  | fuel + 1 =>
    match s.rest with
    | [] => s
    | c :: cs =>
      if c = ' ' || (c = '\t' && (s.inFlow || !s.keyAllowed)) || (c = '\ufeff' && s.column = 0) then
        skipGap s.skip fuel
      else if c = '#' then skipGap (s.skipTo (cs.dropWhile (!isBreak ·))) fuel
      else if isBreak c then
        skipGap { s.skip with keyAllowed := s.keyAllowed || !s.inFlow } fuel
      else s

/-- Appends a token. -/
def emit (s : Scan) (t : Token) : Scan := { s with tokens := t :: s.tokens, count := s.count + 1 }

/-- Inserts a token so that it is the one of number `n`. -/
def insertAt (s : Scan) (n : Nat) (t : Token) : Scan :=
  let later := s.count - n
  { s with tokens := s.tokens.take later ++ t :: s.tokens.drop later, count := s.count + 1 }

/-- Gives up the possible keys that are on an earlier line or too far back. A required key cannot be given
up. -/
def dropStaleKeys (s : Scan) : Option Scan := do
  let keys ← s.keys.mapM fun k =>
    match k with
    | none => some none
    | some place =>
      if place.line < s.line || place.index + 1024 < s.index then
        if place.required then none else some none
      else some (some place)
  return { s with keys := keys }

/-- Gives up the possible key of the innermost level. -/
def dropKey (s : Scan) : Option Scan :=
  match s.keys with
  | some place :: rest => if place.required then none else some { s with keys := none :: rest }
  | _ => some s

/-- Remembers that a key may start here. -/
def rememberKey (s : Scan) : Option Scan :=
  if s.keyAllowed then do
    let s ← s.dropKey
    let required := !s.inFlow && s.indent = s.column
    return { s with keys := some ⟨s.count, s.index, s.line, s.column, required⟩ :: s.keys.drop 1 }
  else some s

/-- Opens a block at a deeper column: its token gets the number `n`. -/
def openBlock (s : Scan) (column n : Nat) (t : Token) : Scan :=
  if !s.inFlow && s.indent < column then
    { s.insertAt n t with indents := column :: s.indents }
  else s

/-- Ends the blocks that are deeper than `column`. -/
def closeBlocks (s : Scan) (column : Int) : List Int → Scan
  | [] => { s with indents := [] }
  | i :: rest =>
    if column < i then closeBlocks (s.emit .blockEnd) column rest
    else { s with indents := i :: rest }

/-- Ends the blocks that are deeper than `column`, unless a bracket is open. -/
def unindent (s : Scan) (column : Int) : Scan :=
  if s.inFlow then s else s.closeBlocks column s.indents

/-- A mark of a document's start or end. -/
def documentMark (s : Scan) (t : Token) : Option Scan := do
  let s ← (s.unindent (-1)).dropKey
  return { (s.skipMany 3).emit t with keyAllowed := false }

/-- An opening bracket or brace. -/
def openFlow (s : Scan) (t : Token) : Option Scan := do
  let s ← s.rememberKey
  return { s.skip.emit t with keys := none :: s.keys, keyAllowed := true }

/-- A closing bracket or brace. -/
def closeFlow (s : Scan) (t : Token) : Option Scan := do
  let s ← s.dropKey
  return { s.skip.emit t with keys := if s.inFlow then s.keys.drop 1 else s.keys, keyAllowed := false }

/-- A comma between brackets. -/
def flowEntry (s : Scan) : Option Scan := do
  let s ← s.dropKey
  return { s.skip.emit .flowEntry with keyAllowed := true }

/-- The dash of a sequence's entry. -/
def blockEntry (s : Scan) : Option Scan := do
  if !s.inFlow && !s.keyAllowed then none
  let s ← (s.openBlock s.column s.count .blockSequenceStart).dropKey
  return { s.skip.emit .blockEntry with keyAllowed := true }

/-- The question mark before a key. -/
def explicitKey (s : Scan) : Option Scan := do
  if !s.inFlow && !s.keyAllowed then none
  let s ← (s.openBlock s.column s.count .blockMappingStart).dropKey
  return { s.skip.emit .key with keyAllowed := !s.inFlow }

/-- The colon before a value. What may have been a key is one now. -/
def value (s : Scan) : Option Scan :=
  match s.keys with
  | some place :: rest =>
    let s := (s.insertAt place.token .key).openBlock place.column place.token .blockMappingStart
    some { s.skip.emit .value with keys := none :: rest, keyAllowed := false }
  | _ => do
    if !s.inFlow && !s.keyAllowed then none
    let s := s.openBlock s.column s.count .blockMappingStart
    return { s.skip.emit .value with keyAllowed := !s.inFlow }

/-- A plain scalar. -/
def plainScalar (s : Scan) : Option Scan := do
  let s ← s.rememberKey
  let (text, broken, rest) ←
    plain s.inFlow (s.indent + 1) s.column false s.rest (s.rest.length + 1)
  return { (s.skipTo rest).emit (.scalar (String.ofList text) true) with keyAllowed := broken }

/-- A quoted scalar. -/
def quotedScalar (s : Scan) (double : Bool) : Option Scan := do
  let s ← s.rememberKey
  let (text, rest) ← quoted double (s.column + 1) (s.rest.drop 1) (s.rest.length + 1)
  return { (s.skipTo rest).emit (.scalar (String.ofList text) false) with keyAllowed := false }

/-- A literal or folded scalar. -/
def blockScalar (s : Scan) (literal : Bool) : Option Scan := do
  let s ← s.dropKey
  let (text, rest) ← block literal s.indent (s.rest.drop 1)
  return { (s.skipTo rest).emit (.scalar (String.ofList text) false) with keyAllowed := true }

/-- The characters that start no plain scalar. -/
def isIndicator (c : Char) : Bool :=
  c ∈ ['-', '?', ':', ',', '[', ']', '{', '}', '#', '&', '*', '!', '|', '>', '\'', '"', '%', '@', '\x60']

/-- Does a plain scalar start with `c`, which `cs` follows? -/
def startsPlain (flow : Bool) (c : Char) (cs : List Char) : Bool :=
  !(isGap c || isIndicator c) || (c = '-' && !(cs.head?.any isSpace)) ||
    (!flow && (c = '?' || c = ':') && !atGap cs)

/-- Scans the token that starts with `c`, which `cs` follows. -/
def token (s : Scan) (c : Char) (cs : List Char) : Option Scan :=
  if s.column = 0 && c = '%' then none
  else if s.column = 0 && atDocumentMark (c :: cs) then
    s.documentMark (if c = '-' then .documentStart else .documentEnd)
  else if c = '[' then s.openFlow .flowSequenceStart
  else if c = '{' then s.openFlow .flowMappingStart
  else if c = ']' then s.closeFlow .flowSequenceEnd
  else if c = '}' then s.closeFlow .flowMappingEnd
  else if c = ',' then s.flowEntry
  else if c = '-' && atGap cs then s.blockEntry
  else if c = '?' && (s.inFlow || atGap cs) then s.explicitKey
  else if c = ':' && (s.inFlow || atGap cs) then s.value
  else if c = '|' && !s.inFlow then s.blockScalar true
  else if c = '>' && !s.inFlow then s.blockScalar false
  else if c = '\'' then s.quotedScalar false
  else if c = '"' then s.quotedScalar true
  else if startsPlain s.inFlow c cs then s.plainScalar
  else none

/-- Scans all tokens. Every token takes a character, so `fuel` need be no more than the text's length. -/
def run (s : Scan) : (fuel : Nat) → Option (List Token)
  | 0 => none
  | fuel + 1 => do
    let s ← (s.skipGap s.rest.length).dropStaleKeys
    let s := s.unindent s.column
    match s.rest with
    | [] =>
      let s ← (s.unindent (-1)).dropKey
      return s.tokens.reverse
    | c :: cs => run (← s.token c cs) fuel

end Scan

/-- The tokens of a document, if it is well formed. -/
def scan (text : String) : Option (List Token) :=
  let cs := withoutMark text.toList
  if cs.all isAllowed then
    let cs := normalizeBreaks cs
    (Scan.start cs).run (cs.length + 1)
  else none

end RecordQuery.Yaml
