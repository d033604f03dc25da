import RecordQuery.Language.Lexer

/-!
# Classes of characters

The characters that start words are neither white space nor digits nor any of the signs of the language,
so the first character of a token tells what kind of token it is.
-/

namespace RecordQuery

namespace Text

/-! ## Letters of ASCII -/

theorem toLower_of_le {c : Char} (h : 128 ≤ c.toNat) : c.toLower = c := by
  unfold Char.toLower
  split
  · next hupper =>
    have hle : c.toNat ≤ 90 := hupper.2
    omega
  · rfl

/-- What is true of ASCII and of the characters that have no other small form is true of all. -/
theorem forall_of_ascii {p : Char → Prop} (hascii : ∀ n < 128, p (Char.ofNat n))
    (hself : ∀ c : Char, c.toLower = c → p c) (c : Char) : p c := by
  by_cases h : c.toNat < 128
  · have hc := hascii c.toNat h
    rwa [Char.ofNat_toNat] at hc
  · exact hself c (toLower_of_le (Nat.le_of_not_lt h))

/-! ## White space -/

/-- The code points of white space. -/
def blankCodes : List Nat :=
  [0x9, 0xa, 0xb, 0xc, 0xd, 0x20, 0x85, 0xa0, 0x1680, 0x2000, 0x2001, 0x2002, 0x2003, 0x2004, 0x2005,
   0x2006, 0x2007, 0x2008, 0x2009, 0x200a, 0x2028, 0x2029, 0x202f, 0x205f, 0x3000]

theorem toNat_mem_blankCodes {c : Char} (h : isBlank c = true) : c.toNat ∈ blankCodes := by
  have between {a b : Char} (h : a ≤ c ∧ c ≤ b) : a.toNat ≤ c.toNat ∧ c.toNat ≤ b.toNat := h
  simp only [isBlank, Bool.or_eq_true, Bool.and_eq_true, decide_eq_true_eq] at h
  rcases h with (((((((((h | h) | h) | h) | h) | h) | h) | h) | h) | h) | h
  · rw [h]; decide
  · have hle := between h
    simp only [blankCodes, List.mem_cons]
    change 9 ≤ c.toNat ∧ c.toNat ≤ 13 at hle
    omega
  · rw [h]; decide
  · rw [h]; decide
  · rw [h]; decide
  · have hle := between h
    simp only [blankCodes, List.mem_cons]
    change 0x2000 ≤ c.toNat ∧ c.toNat ≤ 0x200a at hle
    omega
  · rw [h]; decide
  · rw [h]; decide
  · rw [h]; decide
  · rw [h]; decide
  · rw [h]; decide

theorem isLetter_blankCodes : ∀ n ∈ blankCodes, isLetter (Char.ofNat n) = false := by
  decide +kernel

theorem isLetter_of_isBlank {c : Char} (h : isBlank c = true) : isLetter c = false := by
  rw [← Char.ofNat_toNat c]
  exact isLetter_blankCodes _ (toNat_mem_blankCodes h)

theorem isNumeral_of_isBlank {c : Char} (h : isBlank c = true) : isNumeral c = false := by
  have hcodes : ∀ n ∈ blankCodes, isNumeral (Char.ofNat n) = false := by decide +kernel
  rw [← Char.ofNat_toNat c]
  exact hcodes _ (toNat_mem_blankCodes h)

theorem isDigit_of_isBlank {c : Char} (h : isBlank c = true) : c.isDigit = false := by
  have hcodes : ∀ n ∈ blankCodes, (Char.ofNat n).isDigit = false := by decide
  rw [← Char.ofNat_toNat c]
  exact hcodes _ (toNat_mem_blankCodes h)

/-! ## Texts without white space -/

theorem dropBlanks_of_not_isBlank {cs : List Char} (h : ∀ c ∈ cs, isBlank c = false) :
    dropBlanks cs = cs := by
  cases cs with
  | nil => rfl
  | cons c cs =>
    have hc : isBlank c = false := h c List.mem_cons_self
    exact List.dropWhile_cons_of_neg (by simp [hc])

/-- A text without white space has none at its ends. -/
theorem trimChars_of_not_isBlank {cs : List Char} (h : ∀ c ∈ cs, isBlank c = false) :
    trimChars cs = cs := by
  have hreverse : ∀ c ∈ cs.reverse, isBlank c = false := by
    intro c hc
    exact h c (List.mem_reverse.1 hc)
  unfold trimChars
  rw [dropBlanks_of_not_isBlank h, dropBlanks_of_not_isBlank hreverse, List.reverse_reverse]

end Text

namespace Lexer

theorem isBlank_of_isWordStart {c : Char} (h : isWordStart c = true) : Text.isBlank c = false := by
  cases hb : Text.isBlank c with
  | false => rfl
  | true =>
    simp only [isWordStart, Text.isLetter_of_isBlank hb, Bool.false_or, decide_eq_true_eq] at h
    rw [h] at hb
    exact absurd hb (by decide)

theorem isWordPart_of_isBlank {c : Char} (h : Text.isBlank c = true) : isWordPart c = false := by
  have hne : c ≠ '_' := by
    rintro rfl
    exact absurd h (by decide)
  simp [isWordPart, Text.isLetter_of_isBlank h, Text.isNumeral_of_isBlank h, hne]

theorem isBlank_of_isDigit {c : Char} (h : c.isDigit = true) : Text.isBlank c = false := by
  cases hb : Text.isBlank c with
  | false => rfl
  | true =>
    rw [Text.isDigit_of_isBlank hb] at h
    cases h

theorem isWordStart_of_isDigit {c : Char} (h : c.isDigit = true) : isWordStart c = false := by
  have hcodes : ∀ n, n < 58 → 48 ≤ n → isWordStart (Char.ofNat n) = false := by decide
  rw [Char.isDigit_iff_toNat] at h
  rw [← Char.ofNat_toNat c]
  exact hcodes _ (Nat.lt_succ_of_le h.2) h.1

theorem isWordPart_of_isDigit {c : Char} (h : c.isDigit = true) : isWordPart c = true := by
  have hcodes : ∀ n, n < 58 → 48 ≤ n → isWordPart (Char.ofNat n) = true := by decide
  rw [Char.isDigit_iff_toNat] at h
  rw [← Char.ofNat_toNat c]
  exact hcodes _ (Nat.lt_succ_of_le h.2) h.1

theorem isDigit_of_isWordStart {c : Char} (h : isWordStart c = true) : c.isDigit = false := by
  cases hd : c.isDigit with
  | false => rfl
  | true =>
    rw [isWordStart_of_isDigit hd] at h
    cases h

/-- A character of which a class says yes is none of which it says no. -/
theorem ne_of_class {p : Char → Bool} {c d : Char} (hc : p c = true) (hd : p d = false) : c ≠ d := by
  rintro rfl
  rw [hc] at hd
  cases hd

end Lexer

end RecordQuery
