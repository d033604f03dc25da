/-!
# Patterns of paths

A `Glob` is a pattern for the bytes of a path: `?` stands for a byte and `*` for a run of bytes without a
slash, `**` between slashes for any directories, `[a-z]` for a byte of a set, `[!a-z]` for a byte outside it,
`{a,b}` for a choice; a backslash takes the next character as it is. A bracket that is never closed stands
for itself.
-/

namespace RecordQuery

/-- A part of a pattern. -/
inductive GlobPart where
  | byte (b : UInt8)
  | anyByte
  | anyRun
  | set (negated : Bool) (ranges : List (UInt8 × UInt8))
  | anyAbove
  | anyBetween
  | anyBelow
  | choice (branches : List (List GlobPart))

/-- A pattern, as the list of its parts. -/
abbrev Glob := List GlobPart

namespace GlobPart

/-! ## Matching -/

/-- The byte between the names of a path. -/
def slash : UInt8 := 0x2f

/-- What is left behind each byte, and the whole. -/
def suffixes : List UInt8 → List (List UInt8)
  | [] => [[]]
  | b :: bs => (b :: bs) :: suffixes bs

/-- What is left behind each slash. -/
def behindSlashes : List UInt8 → List (List UInt8)
  | [] => []
  | b :: bs => if b = slash then bs :: behindSlashes bs else behindSlashes bs

/-- What is left behind each run without a slash. -/
def behindRuns : List UInt8 → List (List UInt8)
  | [] => [[]]
  | b :: bs => (b :: bs) :: if b = slash then [] else behindRuns bs

/-- Is a byte in one of the ranges? -/
def inRanges (b : UInt8) (ranges : List (UInt8 × UInt8)) : Bool :=
  ranges.any fun r => r.1 ≤ b && b ≤ r.2

mutual

/-- What may be left of a path behind a part. -/
def rests : GlobPart → List UInt8 → List (List UInt8)
  | byte b, bs => if bs.head? = some b then [bs.tail] else []
  | anyByte, bs =>
    match bs with
    | c :: rest => if c = slash then [] else [rest]
    | [] => []
  | anyRun, bs => behindRuns bs
  | set negated ranges, bs =>
    match bs with
    | c :: rest => if inRanges c ranges = negated then [] else [rest]
    | [] => []
  | anyAbove, bs => bs :: behindSlashes bs
  | anyBetween, bs =>
    match bs with
    | c :: rest => if c = slash then rest :: behindSlashes rest else []
    | [] => []
  | anyBelow, bs =>
    match bs with
    | c :: rest => if c = slash then suffixes rest else []
    | [] => []
  | choice branches, bs => if branches.isEmpty then [bs] else choiceRests branches bs

/-- What may be left behind one of several patterns. -/
def choiceRests : List (List GlobPart) → List UInt8 → List (List UInt8)
  | [], _ => []
  | branch :: branches, bs => seqRests branch [bs] ++ choiceRests branches bs

/-- What may be left of one of several paths behind a pattern. -/
def seqRests : List GlobPart → List (List UInt8) → List (List UInt8)
  | [], states => states
  | part :: parts, states => seqRests parts (states.flatMap (rests part)).eraseDups

end

end GlobPart

namespace Glob

/-- Does the pattern stand for the whole path? The pattern `**` alone stands for every path. -/
def isMatch : Glob → List UInt8 → Bool
  | [.anyAbove], _ => true
  | parts, path => [] ∈ GlobPart.seqRests parts [path]

/-! ## Reading sets -/

/-- Why a bracket does not start a set. -/
inductive SetFault where
  | unclosed
  | reversed
deriving DecidableEq, Repr

/-- Reads the ranges of a set up to its closing bracket; `ranges` holds those before, last first. A closing
bracket or a hyphen that comes `first` stands for itself, and so does a hyphen before the closing bracket.
After another hyphen the last range is `pending`: the next character ends it. -/
def readRanges (first pending : Bool) (ranges : List (Char × Char)) :
    List Char → Except SetFault (List (Char × Char) × List Char)
  | [] => .error .unclosed
  | c :: cs =>
    if c = ']' && !first then .ok (if pending then ('-', '-') :: ranges else ranges, cs)
    else if c = '-' && !first && !pending then readRanges false true ranges cs
    else
      match pending, ranges with
      | true, (low, _) :: before =>
        if c < low then .error .reversed else readRanges false false ((low, c) :: before) cs
      | _, _ => readRanges false false ((c, c) :: ranges) cs

/-- Passes over the mark that negates a set. -/
def readNegation : List Char → Bool × List Char
  | '!' :: cs => (true, cs)
  | '^' :: cs => (true, cs)
  | cs => (false, cs)

/-- The bytes of a range of characters. Of characters with several bytes the range runs from the last byte
of the lower to the first byte of the upper one, and the other bytes stand for themselves. -/
def byteRanges (low high : Char) : List (UInt8 × UInt8) :=
  let lows := String.utf8EncodeChar low
  let highs := String.utf8EncodeChar high
  let alone (bytes : List UInt8) := bytes.map fun b => (b, b)
  match lows.getLast?, highs with
  | some last, first :: rest =>
    if low = high then alone lows else alone lows.dropLast ++ (last, first) :: alone rest
  | _, _ => []

/-! ## Lemmas -/

theorem length_le_of_readRanges {first pending : Bool} {ranges result : List (Char × Char)}
    {cs rest : List Char} (h : readRanges first pending ranges cs = .ok (result, rest)) :
    rest.length ≤ cs.length := by
  induction cs generalizing first pending ranges with
  | nil => simp [readRanges] at h
  | cons c cs ih =>
    simp only [readRanges] at h
    split at h
    · simp only [Except.ok.injEq, Prod.mk.injEq] at h
      simp [← h.2]
    · split at h
      · exact Nat.le_succ_of_le (ih h)
      · split at h
        · split at h
          · simp at h
          · exact Nat.le_succ_of_le (ih h)
        · exact Nat.le_succ_of_le (ih h)

theorem length_readNegation (cs : List Char) : (readNegation cs).2.length ≤ cs.length := by
  unfold readNegation
  split <;> simp

/-! ## Reading patterns -/

/-- A choice that is being read: the branches before the present one, last first, and the parts before
the choice, last first. -/
structure OpenChoice where
  branches : List Glob
  before : List GlobPart

/-- Does a branch stand for nothing, as one does that is left empty? -/
def isSilent (branch : Glob) : Bool :=
  branch.all fun
    | .choice [] => true
    | _ => false

/-- The parts before a choice and the choice, last first. Branches that are left empty do not count. -/
def closeChoice (c : OpenChoice) (parts : List GlobPart) : List GlobPart :=
  .choice ((parts.reverse :: c.branches).reverse.filter (!isSilent ·)) :: c.before

/-- Puts a part for directories in the place of the slash before two stars. -/
def replaceSlash (part : GlobPart) : List GlobPart → List GlobPart
  | .anyAbove :: before => .anyAbove :: before
  | .anyBelow :: before => .anyBelow :: before
  | _ :: before => part :: before
  | [] => [part]

/-- The parts of a character, last first. -/
def charParts (c : Char) : List GlobPart := (String.utf8EncodeChar c).reverse.map .byte

/-- Two stars between slashes, or at the start or end of a branch: the parts with them, last first, the
character that they end with, and the text behind it. None if they are no more than two runs. -/
def readStars? (previous : Option Char) (inChoice : Bool) (parts : List GlobPart) (cs : List Char) :
    Option (List GlobPart × Char × List Char) :=
  if parts.isEmpty then
    match cs with
    | [] => some ([.anyAbove], '*', [])
    | '/' :: rest => some ([.anyAbove], '/', rest)
    | _ => none
  else if previous = some '/' || (inChoice && (previous = some ',' || previous = some '\x7b')) then
    match cs with
    | [] => some (replaceSlash .anyBelow parts, '*', [])
    | '/' :: rest => some (replaceSlash .anyBetween parts, '/', rest)
    | c :: rest =>
      if inChoice && (c = ',' || c = '\x7d') then some (replaceSlash .anyBelow parts, '*', c :: rest)
      else none
  else none

theorem length_le_of_readStars? {previous : Option Char} {inChoice : Bool}
    {parts result : List GlobPart} {last : Char} {cs rest : List Char}
    (h : readStars? previous inChoice parts cs = some (result, last, rest)) :
    rest.length ≤ cs.length := by
  unfold readStars? at h
  split at h
  · split at h <;> simp_all
  · split at h
    · split at h
      · simp_all
      · simp only [Option.some.injEq, Prod.mk.injEq] at h
        simp [← h.2.2]
      · split at h
        · simp only [Option.some.injEq, Prod.mk.injEq] at h
          simp [← h.2.2]
        · simp at h
    · simp at h

/-- Reads a pattern behind the character `previous`, within the choices `outer`, the innermost first;
`parts` holds the parts of the present branch so far, last first. -/
def readFrom (previous : Option Char) (outer : List OpenChoice) (parts : List GlobPart)
    (cs : List Char) : Option Glob :=
  match cs with
  | [] => if outer.isEmpty then some parts.reverse else none
  | '?' :: rest => readFrom (some '?') outer (.anyByte :: parts) rest
  | '*' :: '*' :: rest =>
    match h : readStars? previous (!outer.isEmpty) parts rest with
    | some (parts, last, left) =>
      have := length_le_of_readStars? h
      readFrom (some last) outer parts left
    | none => readFrom (some '*') outer (.anyRun :: .anyRun :: parts) rest
  | '*' :: rest => readFrom (some '*') outer (.anyRun :: parts) rest
  | '[' :: rest =>
    match h : readRanges true false [] (readNegation rest).2 with
    | .ok (ranges, left) =>
      have := length_le_of_readRanges h
      have := length_readNegation rest
      let set := .set (readNegation rest).1 (ranges.flatMap fun r => byteRanges r.1 r.2)
      readFrom (some ']') outer (set :: parts) left
    | .error .reversed => none
    | .error .unclosed => readFrom (some '[') outer (charParts '[' ++ parts) rest
  | '\x7b' :: rest => readFrom (some '\x7b') (⟨[], parts⟩ :: outer) [] rest
  | '\x7d' :: rest =>
    match outer with
    | [] => none
    | c :: outer => readFrom (some '\x7d') outer (closeChoice c parts) rest
  | ',' :: rest =>
    match outer with
    | [] => readFrom (some ',') [] (charParts ',' ++ parts) rest
    | c :: outer => readFrom (some ',') (⟨parts.reverse :: c.branches, c.before⟩ :: outer) [] rest
  | '\\' :: c :: rest => readFrom (some c) outer (charParts c ++ parts) rest
  | ['\\'] => none
  | c :: rest => readFrom (some c) outer (charParts c ++ parts) rest
termination_by cs.length
decreasing_by all_goals simp_all <;> omega

/-- The pattern that a text writes. -/
def read? (text : String) : Option Glob := readFrom none [] [] text.toList

end Glob

end RecordQuery
