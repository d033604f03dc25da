/-!
# Characters of documents

The classes of characters that the layout of a document hangs on, and the form in which a text is
scanned: without a byte-order mark at its start and with all common line breaks as a line feed.
-/

namespace RecordQuery.Yaml

/-! ## Algorithm -/

/-- The characters that a document may hold. -/
def isAllowed (c : Char) : Bool :=
  c = '\t' || c = '\n' || c = '\r' || (' ' ≤ c && c ≤ '~') || c = '\u0085' ||
    ('\u00a0' ≤ c && c ≤ '\ufffd') || 0x10000 ≤ c.toNat

/-- Line breaks that are left once common ones are line feeds. -/
def isBreak (c : Char) : Bool := c = '\n' || c = '\u2028' || c = '\u2029'

/-- White space within a line. -/
def isSpace (c : Char) : Bool := c = ' ' || c = '\t'

/-- White space and line breaks. -/
def isGap (c : Char) : Bool := isSpace c || isBreak c

/-- Does white space or the end come first? -/
def atGap : List Char → Bool
  | [] => true
  | c :: _ => isGap c

/-- Does the mark of a document's start or end come first? It counts at the start of a line only. -/
def atDocumentMark : List Char → Bool
  | '-' :: '-' :: '-' :: rest => atGap rest
  | '.' :: '.' :: '.' :: rest => atGap rest
  | _ => false

/-- Writes every common line break as a line feed. -/
def normalizeBreaks : List Char → List Char
  | [] => []
  | '\r' :: '\n' :: cs => '\n' :: normalizeBreaks cs
  | '\r' :: cs => '\n' :: normalizeBreaks cs
  | '\u0085' :: cs => '\n' :: normalizeBreaks cs
  | c :: cs => c :: normalizeBreaks cs

/-- The characters of a text without a byte-order mark in front. -/
def withoutMark : List Char → List Char
  | '\ufeff' :: cs => cs
  | cs => cs

end RecordQuery.Yaml
