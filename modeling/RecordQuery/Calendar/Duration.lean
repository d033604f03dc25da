import RecordQuery.Text.Blank
import RecordQuery.Text.Split
import RecordQuery.Number.Integer

/-!
# Durations

A `Duration` is a whole number of nanoseconds of either sign, at most 2^63 - 1 milliseconds long. Its
text is `[-][d.]hh:mm:ss[.f]`: days are written when there are any, and a fraction has nine digits
when it is written. When read, a fraction has one to nine digits and the other numbers any width.
-/

namespace RecordQuery

/-- The greatest length of a duration, in nanoseconds. -/
def Duration.limit : Nat := (2 ^ 63 - 1) * 1000000

/-- A span of time. -/
structure Duration where
  nanoseconds : Int
  natAbs_le : nanoseconds.natAbs ≤ Duration.limit
deriving DecidableEq, Repr

namespace Duration

/-! ## Algorithm -/

/-- The duration of so many nanoseconds, if it is not too long. -/
def of? (n : Int) : Option Duration :=
  if h : n.natAbs ≤ limit then some ⟨n, h⟩ else none

/-- Shorter durations come first, negative ones before all others. -/
def compare (a b : Duration) : Ordering := Ord.compare a.nanoseconds b.nanoseconds

/-- The clock text of so many seconds below a day. -/
def clockChars (seconds : Nat) : List Char :=
  Digit.padded 2 (seconds / 3600) ++ ':' :: (Digit.padded 2 (seconds % 3600 / 60) ++
    ':' :: Digit.padded 2 (seconds % 60))

/-- The characters of a length of `n` nanoseconds. -/
def lengthChars (n : Nat) : List Char :=
  let seconds := n / 1000000000
  let days := seconds / 86400
  let fraction := n % 1000000000
  (if days = 0 then [] else Digit.digits days ++ ['.']) ++ clockChars (seconds % 86400) ++
    (if fraction = 0 then [] else '.' :: Digit.padded 9 fraction)

/-- The text of a duration. -/
def text (d : Duration) : String :=
  String.ofList ((if d.nanoseconds < 0 then ['-'] else []) ++ lengthChars d.nanoseconds.natAbs)

/-- Reads digits that make up the whole text. -/
def readDigits? (cs : List Char) : Option Nat :=
  if cs ≠ [] ∧ cs.all Char.isDigit then some (Digit.number cs) else none

/-- Reads the seconds and their fraction, in nanoseconds. -/
def readSeconds? (cs : List Char) : Option Nat :=
  let (whole, fraction) := (Text.cut? '.' cs).elim (cs, none) fun (w, f) => (w, some f)
  do
    let s ← readDigits? whole
    if s > 59 then none
    match fraction with
    | none => some (s * 1000000000)
    | some f =>
      let n ← readDigits? f
      if f.length > 9 then none
      some (s * 1000000000 + n * 10 ^ (9 - f.length))

/-- Reads `hh:mm:ss[.f]`, in nanoseconds. -/
def readClock? (cs : List Char) : Option Nat := do
  let (hours, rest) ← Text.cut? ':' cs
  let (minutes, seconds) ← Text.cut? ':' rest
  let h ← readDigits? hours
  let m ← readDigits? minutes
  if h > 23 ∨ m > 59 then none
  let s ← readSeconds? seconds
  some ((h * 3600 + m * 60) * 1000000000 + s)

/-- Reads `[d.]hh:mm:ss[.f]`, in nanoseconds. A point before the first colon ends the days. -/
def readLength? (cs : List Char) : Option Nat :=
  match Text.cut? '.' cs with
  | some (days, clock) =>
    if ':' ∈ days then readClock? cs
    else do
      let d ← readDigits? days
      let n ← readClock? clock
      some (d * 86400 * 1000000000 + n)
  | none => readClock? cs

/-- Reads a signed duration. -/
def readChars? : List Char → Option Duration
  | '-' :: cs => do of? (-(← readLength? cs))
  | cs => do of? (← readLength? cs)

/-- Reads a duration with white space around it. -/
def read? (s : String) : Option Duration := readChars? (Text.trimChars s.toList)

end Duration

end RecordQuery
