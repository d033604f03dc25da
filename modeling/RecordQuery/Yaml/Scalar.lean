import RecordQuery.Yaml.Character

/-!
# Scalars of documents

The scanners for the five styles of scalars: plain, in single quotes, in double quotes, literal and
folded. Each takes the text from the scalar on and gives the scalar's characters and the text after it.
Line breaks inside plain and quoted scalars are folded: a single one becomes a space, and of several
the first is dropped.
-/

namespace RecordQuery.Yaml

/-! ## Gaps -/

/-- White space and line breaks within a scalar, and where the text goes on. -/
structure Gap where
  spaces : List Char
  breaks : List Char
  broken : Bool
  column : Nat
  rest : List Char

/-- Passes over white space and line breaks. Once a line is broken, a tab before column `tabLimit` is an
error. -/
def readGap (tabLimit : Int) (broken : Bool) (column : Nat) : List Char → Option Gap
  | [] => some ⟨[], [], broken, column, []⟩
  | c :: cs =>
    if isBreak c then
      (readGap tabLimit true 0 cs).map fun g => { g with breaks := c :: g.breaks }
    else if isSpace c then
      if broken then
        if c = '\t' && column < tabLimit then none else readGap tabLimit true (column + 1) cs
      else (readGap tabLimit false (column + 1) cs).map fun g => { g with spaces := c :: g.spaces }
    else some ⟨[], [], broken, column, c :: cs⟩

/-- Folds a gap into the characters it stands for. -/
def Gap.folded (g : Gap) : List Char :=
  if g.broken then
    match g.breaks with
    | ['\n'] => [' ']
    | '\n' :: more => more
    | all => all
  else g.spaces

/-! ## Plain scalars -/

/-- The marks that end a plain scalar inside brackets and braces. -/
def isFlowMark (c : Char) : Bool := c = ',' || c = '[' || c = ']' || c = '{' || c = '}'

/-- Reads the characters of a plain scalar up to white space or the mark that ends it. Inside brackets
and braces a colon right before another mark is an error. -/
def plainRun (flow : Bool) : List Char → Option (List Char × List Char)
  | [] => some ([], [])
  | c :: cs =>
    if isGap c then some ([], c :: cs)
    else if c = ':' && flow && cs.head?.any (fun d => isFlowMark d || d = '?') then none
    else if c = ':' && atGap cs then some ([], c :: cs)
    else if flow && isFlowMark c then some ([], c :: cs)
    else (plainRun flow cs).map fun (run, rest) => (c :: run, rest)

/-- Reads a plain scalar from `column` on, whose lines have to start at column `indent` or later. The
result tells whether a line break was passed at its end. -/
def plain (flow : Bool) (indent : Int) (column : Nat) (broken : Bool) (cs : List Char) :
    (fuel : Nat) → Option (List Char × Bool × List Char)
  | 0 => some ([], broken, cs)
  | fuel + 1 =>
    if (column = 0 && atDocumentMark cs) || cs.head? = some '#' then some ([], broken, cs)
    else do
      let (run, rest) ← plainRun flow cs
      if run = [] then return ([], broken, rest)
      if rest = [] || !atGap rest then return (run, false, rest)
      let g ← readGap indent false (column + run.length) rest
      if !flow && g.column < indent then return (run, g.broken, g.rest)
      let (more, broken, rest) ← plain flow indent g.column g.broken g.rest fuel
      return (run ++ (if more = [] then [] else g.folded ++ more), broken, rest)

/-! ## Quoted scalars -/

/-- The character that an escape of one character stands for. -/
def escape? : Char → Option Char
  | '0' => some '\x00'
  | 'a' => some '\x07'
  | 'b' => some '\x08'
  | 't' | '\t' => some '\t'
  | 'n' => some '\n'
  | 'v' => some '\x0b'
  | 'f' => some '\x0c'
  | 'r' => some '\r'
  | 'e' => some '\x1b'
  | ' ' => some ' '
  | '"' => some '"'
  | '/' => some '/'
  | '\\' => some '\\'
  | 'N' => some '\u0085'
  | '_' => some '\u00a0'
  | 'L' => some '\u2028'
  | 'P' => some '\u2029'
  | _ => none

/-- How many hexadecimal digits follow the mark of an escape. -/
def escapeWidth? : Char → Option Nat
  | 'x' => some 2
  | 'u' => some 4
  | 'U' => some 8
  | _ => none

/-- The value of a hexadecimal digit. -/
def hexDigit? (c : Char) : Option Nat :=
  if '0' ≤ c && c ≤ '9' then some (c.toNat - '0'.toNat)
  else if 'a' ≤ c && c ≤ 'f' then some (c.toNat - 'a'.toNat + 10)
  else if 'A' ≤ c && c ≤ 'F' then some (c.toNat - 'A'.toNat + 10)
  else none

/-- The number that digits of a base write. -/
def ofDigits? (base : Nat) (cs : List Char) : Option Nat :=
  cs.foldlM (fun n c => (hexDigit? c).bind fun d => if d < base then some (base * n + d) else none) 0

/-- The character of a code point. -/
def codePoint? (n : Nat) : Option Char :=
  if n < 0xd800 || (0xdfff < n && n < 0x110000) then some (Char.ofNat n) else none

/-- Reads a quoted scalar up to white space or its closing quote. The result tells whether an escaped
line break ended it. -/
def quotedRun (double : Bool) : List Char → (fuel : Nat) → Option (List Char × Bool × List Char)
  | cs, 0 => some ([], false, cs)
  | [], _ => some ([], false, [])
  | c :: cs, fuel + 1 =>
    if isGap c then some ([], false, c :: cs)
    else if !double then
      match c, cs with
      | '\'', '\'' :: cs => (quotedRun double cs fuel).map fun (run, more) => ('\'' :: run, more)
      | '\'', cs => some ([], false, '\'' :: cs)
      | c, cs => (quotedRun double cs fuel).map fun (run, more) => (c :: run, more)
    else
      match c, cs with
      | '"', cs => some ([], false, '"' :: cs)
      | '\\', [] => none
      | '\\', d :: cs =>
        if isBreak d then some ([], true, cs)
        else
          match escape? d, escapeWidth? d with
          | some e, _ => (quotedRun double cs fuel).map fun (run, more) => (e :: run, more)
          | none, none => none
          | none, some width =>
            let digits := cs.take width
            if digits.length < width then none
            else do
              let e ← codePoint? (← ofDigits? 16 digits)
              let (run, more) ← quotedRun double (cs.drop width) fuel
              return (e :: run, more)
      | c, cs => (quotedRun double cs fuel).map fun (run, more) => (c :: run, more)

/-- Reads a quoted scalar whose opening quote has been passed. -/
def quoted (double : Bool) (column : Nat) (cs : List Char) :
    (fuel : Nat) → Option (List Char × List Char)
  | 0 => none
  | fuel + 1 =>
    if cs = [] || (column = 0 && atDocumentMark cs) then none
    else do
      let (run, escaped, rest) ← quotedRun double cs cs.length
      match rest with
      | [] => none
      | c :: after =>
        if c = (if double then '"' else '\'') then return (run, after)
        let g ← readGap (-1) escaped (if escaped then 0 else column + 1) (c :: after)
        let (more, rest) ← quoted double g.column g.rest fuel
        return (run ++ (if escaped then g.breaks else g.folded) ++ more, rest)

/-! ## Block scalars -/

/-- What becomes of the line breaks at the end of a block scalar. -/
inductive Chomping where
  | strip
  | clip
  | keep
deriving DecidableEq

/-- The header of a block scalar: how its end is chomped, and its extra indentation if that is given. -/
structure BlockHeader where
  chomping : Chomping
  indentation : Nat

/-- Reads a sign of chomping. -/
def readChomping : List Char → Chomping × List Char
  | '+' :: cs => (.keep, cs)
  | '-' :: cs => (.strip, cs)
  | cs => (.clip, cs)

/-- Reads a digit of indentation, which is not zero. -/
def readIndentation : List Char → Option (Nat × List Char)
  | [] => some (0, [])
  | c :: cs =>
    if c = '0' then none
    else if c.isDigit then some (c.toNat - '0'.toNat, cs)
    else some (0, c :: cs)

/-- Reads a header up to the end of its line: a sign and a digit in either order, then perhaps a
comment. -/
def readBlockHeader (cs : List Char) : Option (BlockHeader × List Char) := do
  let (early, cs) := readChomping cs
  let (indentation, cs) ← readIndentation cs
  let (late, cs) := if early = .clip then readChomping cs else (early, cs)
  let rest := cs.dropWhile isSpace
  let rest := if rest.head? = some '#' then rest.dropWhile (!isBreak ·) else rest
  match rest with
  | [] => return (⟨late, indentation⟩, [])
  | c :: cs => if isBreak c then return (⟨late, indentation⟩, cs) else none

/-- Passes over empty lines and the indentation of the next line. An indentation of zero is not known yet
and grows with the spaces. The result has the breaks, the column, and the greatest column seen. -/
def readBlockBreaks (indent column most : Nat) :
    List Char → Option (List Char × Nat × Nat × List Char)
  | [] => some ([], column, most, [])
  | c :: cs =>
    if c = ' ' && (indent = 0 || column < indent) then
      readBlockBreaks indent (column + 1) (max most (column + 1)) cs
    else if c = '\t' && (indent = 0 || column < indent) then none
    else if isBreak c then
      (readBlockBreaks indent 0 most cs).map fun (breaks, more) => (c :: breaks, more)
    else some ([], column, most, c :: cs)

/-- A block scalar that is being read: the break after the last line, whether that line starts with white
space, and the breaks of empty lines after it. -/
structure BlockState where
  lineBreak : List Char
  spaced : Bool
  breaks : List Char
  column : Nat

/-- Reads the lines of a block scalar at column `indent`. -/
def blockLines (literal : Bool) (chomping : Chomping) (indent : Nat) (s : BlockState)
    (cs : List Char) : (fuel : Nat) → Option (List Char × List Char)
  | 0 => none
  | fuel + 1 =>
    if s.column = indent && cs ≠ [] then do
      let spaced := cs.head?.any isSpace
      let folds := !literal && s.lineBreak = ['\n'] && !s.spaced && !spaced
      let lead := if folds then if s.breaks = [] then [' '] else [] else s.lineBreak
      let line := cs.takeWhile (!isBreak ·)
      let rest := cs.dropWhile (!isBreak ·)
      let (breaks, column, _, after) ← readBlockBreaks indent 0 0 (rest.drop 1)
      let (more, rest) ← blockLines literal chomping indent ⟨rest.take 1, spaced, breaks, column⟩ after fuel
      return (lead ++ s.breaks ++ line ++ more, rest)
    else
      let kept := (if chomping = .strip then [] else s.lineBreak) ++
        if chomping = .keep then s.breaks else []
      some (kept, cs)

/-- Reads a block scalar whose mark has been passed, inside a block indented by `parent`. -/
def block (literal : Bool) (parent : Int) (cs : List Char) : Option (List Char × List Char) := do
  let (header, cs) ← readBlockHeader cs
  let given := if header.indentation = 0 then 0 else ((max parent 0) + header.indentation).toNat
  let (breaks, column, most, rest) ← readBlockBreaks given 0 0 cs
  let indent := if given = 0 then max most (max (parent + 1).toNat 1) else given
  blockLines literal header.chomping indent ⟨[], false, breaks, column⟩ rest (rest.length + 1)

end RecordQuery.Yaml
