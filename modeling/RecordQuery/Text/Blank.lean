/-!
# White space

`isBlank` is the class of white-space characters; `trim` takes them off both ends of a text.

    c.isWhitespace → isBlank c            (isBlank_of_isWhitespace)
-/

namespace RecordQuery.Text

/-! ## Algorithm -/

/-- The characters that count as white space: the controls from tab to carriage return, the space,
and the further separators of the Unicode property `White_Space`. -/
def isBlank (c : Char) : Bool :=
  c = ' ' || ('\t' ≤ c && c ≤ '\r') || c = '\u0085' || c = '\u00a0' || c = '\u1680' ||
    ('\u2000' ≤ c && c ≤ '\u200a') || c = '\u2028' || c = '\u2029' || c = '\u202f' ||
    c = '\u205f' || c = '\u3000'

/-- The characters after the leading white space. -/
def dropBlanks (cs : List Char) : List Char := cs.dropWhile isBlank

/-- The characters between the white space at both ends. -/
def trimChars (cs : List Char) : List Char := (dropBlanks (dropBlanks cs).reverse).reverse

/-- A text without the white space at both ends. -/
def trim (s : String) : String := String.ofList (trimChars s.toList)

/-- White space only. -/
def isAllBlank (s : String) : Bool := s.toList.all isBlank

/-! ## Lemmas -/

theorem isBlank_of_isWhitespace (c : Char) (h : c.isWhitespace) : isBlank c := by
  simp only [Char.isWhitespace, Bool.or_eq_true, decide_eq_true_eq] at h
  rcases h with ((h | h) | h) | h <;> subst h <;> decide

end RecordQuery.Text
