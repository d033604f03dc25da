import RecordQuery.Proofs.Outcome
import RecordQuery.Proofs.Characters
import RecordQuery.Proofs.Printing

/-!
# Texts of known tokens

`ReadAs follow cs contents` says that the text `cs` is cut into tokens of the given contents, wherever it
stands and whatever text comes behind it, as long as that satisfies `follow`. Such texts can be put side by
side (`ReadAs.append`), so the tokens of a long text are found from those of its parts.
-/

namespace RecordQuery

/-- The kind of a token and the value that it carries, without its place and its characters. -/
def Token.content (t : Token) : TokenKind × Option Payload := (t.kind, t.payload)

namespace Lexer

/-- The text `cs` is cut into tokens of the given contents in front of every text that satisfies
`follow`. -/
def ReadAs (follow : List Char → Prop) (cs : List Char) (contents : List (TokenKind × Option Payload)) :
    Prop :=
  ∀ p rest, follow rest → ∃ ts : List Token, ts.map Token.content = contents ∧
    tokensFrom p (cs ++ rest) = (tokensFrom (p + cs.length) rest).map (ts ++ ·)

/-- The text does not go on with a character of the class. -/
def NotNext (p : Char → Bool) (rest : List Char) : Prop := rest.head?.any p = false

/-- A word may end in front of the text. -/
def WordEnds (rest : List Char) : Prop := NotNext isWordPart rest

/-- Every token may end in front of the text. -/
def Ends (rest : List Char) : Prop := NotNext (fun c => isWordPart c || c = '.' || c = '=') rest

/-! ## Lemmas -/

theorem notNext_cons {p : Char → Bool} {c : Char} {rest : List Char} (h : p c = false) :
    NotNext p (c :: rest) := h

theorem NotNext.mono {p q : Char → Bool} {rest : List Char} (h : NotNext p rest)
    (hpq : ∀ c, q c = true → p c = true) : NotNext q rest := by
  cases rest with
  | nil => rfl
  | cons c rest =>
    have hp : p c = false := h
    show q c = false
    cases hq : q c with
    | false => rfl
    | true => rw [hpq c hq] at hp; cases hp

theorem Ends.wordEnds {rest : List Char} (h : Ends rest) : WordEnds rest :=
  h.mono fun c hc => by simp [hc]

theorem Ends.notNext_isDigit {rest : List Char} (h : Ends rest) : NotNext Char.isDigit rest :=
  h.mono fun c hc => by simp [isWordPart_of_isDigit hc]

theorem Ends.head_ne {c : Char} {rest : List Char} (h : Ends (c :: rest)) : c ≠ '.' ∧ c ≠ '=' := by
  have hc : (isWordPart c || decide (c = '.') || decide (c = '=')) = false := h
  simp only [Bool.or_eq_false_iff, decide_eq_false_iff_not] at hc
  exact ⟨hc.1.2, hc.2⟩

theorem tokensFrom_nil (p : Nat) : tokensFrom p [] = .ok [Token.endAt p] := by
  rw [tokensFrom]
  rfl

/-- White space only moves what is behind it. -/
theorem tokensFrom_blank {c : Char} (h : Text.isBlank c = true) (p : Nat) (cs : List Char) :
    tokensFrom p (c :: cs) = tokensFrom (p + 1) cs := by
  have hdrop : Text.dropBlanks (c :: cs) = Text.dropBlanks cs := List.dropWhile_cons_of_pos h
  have htake : ((c :: cs).takeWhile Text.isBlank).length = (cs.takeWhile Text.isBlank).length + 1 := by
    rw [List.takeWhile_cons_of_pos h, List.length_cons]
  rw [tokensFrom, tokensFrom]
  split
  · next heq =>
    rw [hdrop] at heq
    split
    · rw [List.length_cons, Nat.add_right_comm]
      rfl
    · next heq' => rw [heq] at heq'; cases heq'
  · next c' rest heq =>
    rw [hdrop] at heq
    split
    · next heq' => rw [heq] at heq'; cases heq'
    · next c'' rest' heq' =>
      rw [heq] at heq'
      cases heq'
      rw [htake, ← Nat.add_assoc, Nat.add_right_comm p _ 1]

/-- A token that starts a text is cut off it. -/
theorem tokensFrom_token {c : Char} {cs rest : List Char} {p : Nat} {kind : TokenKind}
    {payload : Option Payload} (hc : Text.isBlank c = false)
    (h : form p c (cs ++ rest) = .ok ⟨kind, payload, cs.length⟩) :
    tokensFrom p (c :: cs ++ rest) =
      (tokensFrom (p + 1 + cs.length) rest).map (⟨kind, String.ofList (c :: cs), payload, p⟩ :: ·) := by
  have hdrop : Text.dropBlanks (c :: cs ++ rest) = c :: (cs ++ rest) :=
    List.dropWhile_cons_of_neg (by simp [hc])
  have htake : (c :: cs ++ rest).takeWhile Text.isBlank = [] :=
    List.takeWhile_cons_of_neg (by simp [hc])
  rw [tokensFrom]
  split
  · next heq => rw [hdrop] at heq; cases heq
  · next c' rest' heq =>
    rw [hdrop] at heq
    cases heq
    simp only [htake, List.length_nil, Nat.add_zero, h, ok_bind, List.drop_left, List.take_left]
    cases tokensFrom (p + 1 + cs.length) rest <;> rfl

namespace ReadAs

theorem append {f g : List Char → Prop} {a b : List Char} {ms ns : List (TokenKind × Option Payload)}
    (ha : ReadAs f a ms) (hb : ReadAs g b ns) (h : ∀ rest, g rest → f (b ++ rest)) :
    ReadAs g (a ++ b) (ms ++ ns) := by
  intro p rest hrest
  obtain ⟨ts, hts, heq⟩ := ha p (b ++ rest) (h rest hrest)
  obtain ⟨us, hus, heq'⟩ := hb (p + a.length) rest hrest
  refine ⟨ts ++ us, by rw [List.map_append, hts, hus], ?_⟩
  rw [List.append_assoc, heq, heq', List.length_append, ← Nat.add_assoc]
  cases tokensFrom (p + a.length + b.length) rest with
  | ok vs => exact congrArg Except.ok (List.append_assoc ts us vs).symm
  | error e => rfl

theorem weaken {f g : List Char → Prop} {a : List Char} {ms : List (TokenKind × Option Payload)}
    (ha : ReadAs f a ms) (h : ∀ rest, g rest → f rest) : ReadAs g a ms :=
  fun p rest hrest => ha p rest (h rest hrest)

/-- White space in front of a text is passed over. -/
theorem blank {f : List Char → Prop} {c : Char} {a : List Char}
    {ms : List (TokenKind × Option Payload)} (hc : Text.isBlank c = true) (ha : ReadAs f a ms) :
    ReadAs f (c :: a) ms := by
  intro p rest hrest
  obtain ⟨ts, hts, heq⟩ := ha (p + 1) rest hrest
  refine ⟨ts, hts, ?_⟩
  rw [List.cons_append, tokensFrom_blank hc, heq, List.length_cons, Nat.add_assoc,
    Nat.add_comm 1 a.length]

/-- A text that is a token. -/
theorem token {f : List Char → Prop} {c : Char} {cs : List Char} {kind : TokenKind}
    {payload : Option Payload} (hc : Text.isBlank c = false)
    (h : ∀ p rest, f rest → form p c (cs ++ rest) = .ok ⟨kind, payload, cs.length⟩) :
    ReadAs f (c :: cs) [(kind, payload)] := by
  intro p rest hrest
  refine ⟨[⟨kind, String.ofList (c :: cs), payload, p⟩], rfl, ?_⟩
  rw [tokensFrom_token hc (h p rest hrest), List.length_cons, Nat.add_assoc, Nat.add_comm 1 cs.length]
  rfl

end ReadAs

/-! ## Runs of characters -/

theorem takeWhile_append_notNext {p : Char → Bool} {cs rest : List Char} (hcs : ∀ c ∈ cs, p c = true)
    (hrest : NotNext p rest) : (cs ++ rest).takeWhile p = cs := by
  rw [List.takeWhile_append_of_pos hcs]
  cases rest with
  | nil => rw [List.takeWhile_nil, List.append_nil]
  | cons c rest =>
    have hc : p c = false := hrest
    rw [List.takeWhile_cons_of_neg (by simp [hc]), List.append_nil]

theorem dropWhile_append_notNext {p : Char → Bool} {cs rest : List Char} (hcs : ∀ c ∈ cs, p c = true)
    (hrest : NotNext p rest) : (cs ++ rest).dropWhile p = rest := by
  rw [List.dropWhile_append_of_pos hcs]
  cases rest with
  | nil => rfl
  | cons c rest =>
    have hc : p c = false := hrest
    rw [List.dropWhile_cons_of_neg (by simp [hc])]

theorem notNext_dropWhile (p : Char → Bool) (cs : List Char) : NotNext p (cs.dropWhile p) := by
  induction cs with
  | nil => rfl
  | cons c cs ih =>
    cases hc : p c with
    | true => rwa [List.dropWhile_cons_of_pos hc]
    | false => rwa [List.dropWhile_cons_of_neg (by simp [hc])]

end Lexer

end RecordQuery
