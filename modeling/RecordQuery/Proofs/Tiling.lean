import RecordQuery.Proofs.Spelling

/-!
# Tokens tile their text

`Cut p cs ts` says that the text `cs`, which starts at position `p`, is white space and the tokens `ts`, each
of them spelled and none of them longer than it has to be. That is what the tokens of a text are, up to the
end token:

    tokensFrom p cs = .ok ts ↔ ∃ body, ts = body ++ [endAt (p + cs.length)] ∧ Cut p cs body
                                                                             (tokensFrom_eq_ok_iff)

It follows that no character is lost, that no two tokens overlap, and that every token is as long as it can
be (`tokenize_tiles`).
-/

namespace RecordQuery

namespace Lexer

/-- The text is cut into white space and the tokens; its first character stands at the position. -/
inductive Cut : Nat → List Char → List Token → Prop
  | finish {p : Nat} : Cut p [] []
  | blank {p : Nat} {c : Char} {cs : List Char} {ts : List Token} :
      Text.isBlank c = true → Cut (p + 1) cs ts → Cut p (c :: cs) ts
  | token {p : Nat} {kind : TokenKind} {payload : Option Payload} {cs rest : List Char}
      {ts : List Token} :
      Denotes cs kind payload → Stops kind cs rest → Cut (p + cs.length) rest ts →
      Cut p (cs ++ rest) (⟨kind, String.ofList cs, payload, p⟩ :: ts)

/-! ## Cutting a text -/

/-- What a text is cut into is what the lexer reads. -/
theorem Cut.tokensFrom_eq {p : Nat} {cs : List Char} {ts : List Token} (h : Cut p cs ts) :
    tokensFrom p cs = .ok (ts ++ [Token.endAt (p + cs.length)]) := by
  induction h with
  | finish => exact tokensFrom_nil _
  | @blank p c cs ts hc _ ih =>
    rw [tokensFrom_blank hc, ih, List.length_cons, Nat.add_assoc, Nat.add_comm 1 cs.length]
  | @token p kind payload cs rest ts hd hstops _ ih =>
    obtain ⟨c, tail, rfl, hc⟩ := hd.head
    have hform : form p c (tail ++ rest) = .ok ⟨kind, payload, tail.length⟩ :=
      form_eq_ok_iff.2 ⟨tail, rest, rfl, rfl, hd, hstops⟩
    have hplace : p + 1 + tail.length = p + (c :: tail).length := by
      rw [List.length_cons]
      omega
    rw [tokensFrom_token hc hform, hplace, ih, List.length_append, Nat.add_assoc]
    rfl

theorem tokensFrom_error {p : Nat} {c : Char} {cs : List Char} {e : QueryError}
    (hc : Text.isBlank c = false) (hform : form p c cs = .error e) : tokensFrom p (c :: cs) = .error e := by
  have hdrop : Text.dropBlanks (c :: cs) = c :: cs := List.dropWhile_cons_of_neg (by simp [hc])
  have htake : (c :: cs).takeWhile Text.isBlank = [] := List.takeWhile_cons_of_neg (by simp [hc])
  rw [tokensFrom]
  split
  · next heq =>
    rw [hdrop] at heq
    cases heq
  · next heq =>
    rw [hdrop] at heq
    cases heq
    simp only [htake, List.length_nil, Nat.add_zero, hform]
    rfl

/-- Behind a token the lexer goes on with the text that the token has left. -/
theorem tokensFrom_form {p : Nat} {c : Char} {cs : List Char} {f : Form} (hc : Text.isBlank c = false)
    (hform : form p c cs = .ok f) : ∃ tail rest, cs = tail ++ rest ∧
      Denotes (c :: tail) f.kind f.payload ∧ Stops f.kind (c :: tail) rest ∧
      tokensFrom p (c :: cs) = (tokensFrom (p + (c :: tail).length) rest).map
        (⟨f.kind, String.ofList (c :: tail), f.payload, p⟩ :: ·) := by
  obtain ⟨tail, rest, rfl, hlength, hd, hstops⟩ := form_eq_ok_iff.1 hform
  have hform' : form p c (tail ++ rest) = .ok ⟨f.kind, f.payload, tail.length⟩ := by
    rw [hform, ← hlength]
  have hplace : p + 1 + tail.length = p + (c :: tail).length := by
    rw [List.length_cons]
    omega
  refine ⟨tail, rest, rfl, hd, hstops, ?_⟩
  rw [← List.cons_append, tokensFrom_token hc hform', hplace]

/-- What the lexer reads, the text is cut into. -/
theorem exists_cut {p : Nat} {cs : List Char} {ts : List Token} (h : tokensFrom p cs = .ok ts) :
    ∃ body, ts = body ++ [Token.endAt (p + cs.length)] ∧ Cut p cs body := by
  -- the lexer goes on behind a character of white space or behind a token, with less text either way
  induction hn : cs.length using Nat.strongRecOn generalizing p cs ts with
  | _ n ih =>
    subst hn
    cases cs with
    | nil =>
      rw [tokensFrom_nil] at h
      cases h
      exact ⟨[], rfl, .finish⟩
    | cons c cs =>
      cases hc : Text.isBlank c with
      | true =>
        rw [tokensFrom_blank hc] at h
        obtain ⟨body, rfl, hcut⟩ := ih cs.length (by simp) h rfl
        refine ⟨body, ?_, .blank hc hcut⟩
        rw [List.length_cons, Nat.add_assoc, Nat.add_comm 1 cs.length]
      | false =>
        cases hform : form p c cs with
        | error e =>
          rw [tokensFrom_error hc hform] at h
          cases h
        | ok f =>
          obtain ⟨tail, rest, rfl, hd, hstops, htokens⟩ := tokensFrom_form hc hform
          rw [htokens] at h
          obtain ⟨us, hus, rfl⟩ := map_eq_ok_iff.1 h
          have hless : rest.length < (c :: (tail ++ rest)).length := by
            simp only [List.length_cons, List.length_append]
            omega
          obtain ⟨body, rfl, hcut⟩ := ih rest.length hless hus rfl
          refine ⟨_, ?_, Cut.token hd hstops hcut⟩
          rw [← List.cons_append (a := c), List.length_append, Nat.add_assoc]
          rfl

/-- The tokens of a text are those that it is cut into, and its end. -/
theorem tokensFrom_eq_ok_iff {p : Nat} {cs : List Char} {ts : List Token} :
    tokensFrom p cs = .ok ts ↔ ∃ body, ts = body ++ [Token.endAt (p + cs.length)] ∧ Cut p cs body := by
  constructor
  · exact exists_cut
  · rintro ⟨body, rfl, hcut⟩
    exact hcut.tokensFrom_eq

/-! ## Places -/

/-- A token lies in the text where its position says, and takes in all that it can. -/
structure Placed (text : List Char) (t : Token) : Prop where
  present : t.lexeme.toList <+: text.drop t.position
  spelled : Denotes t.lexeme.toList t.kind t.payload
  maximal : Stops t.kind t.lexeme.toList (text.drop (t.position + t.lexeme.length))

/-- The position belongs to the token. -/
def Covers (t : Token) (i : Nat) : Prop := t.position ≤ i ∧ i < t.position + t.lexeme.length

/-- The token lies in front of the other. -/
def Before (t u : Token) : Prop :=
  t.position < u.position ∧ t.position + t.lexeme.length ≤ u.position

namespace Cut

theorem placed {p : Nat} {cs : List Char} {ts : List Token} (h : Cut p cs ts) (front : List Char)
    (hfront : front.length = p) : ∀ t ∈ ts, Placed (front ++ cs) t := by
  induction h generalizing front with
  | finish => exact fun t ht => absurd ht (List.not_mem_nil)
  | @blank p c cs ts _ _ ih =>
    intro t ht
    have hmore : (front ++ [c]).length = p + 1 := by rw [List.length_append, hfront]; rfl
    have hplaced := ih _ hmore t ht
    rwa [List.append_assoc] at hplaced
  | @token p kind payload cs rest ts hd hstops _ ih =>
    intro t ht
    rcases List.mem_cons.1 ht with rfl | ht
    · have hat : (front ++ (cs ++ rest)).drop p = cs ++ rest := List.drop_left' hfront
      have hbehind : (front ++ (cs ++ rest)).drop (p + cs.length) = rest := by
        rw [← List.drop_drop, hat, List.drop_left]
      refine ⟨?_, ?_, ?_⟩
      · rw [hat, String.toList_ofList]
        exact List.prefix_append cs rest
      · rwa [String.toList_ofList]
      · rwa [String.toList_ofList, String.length_ofList, hbehind]
    · have hmore : (front ++ cs).length = p + cs.length := by rw [List.length_append, hfront]
      have hplaced := ih _ hmore t ht
      rwa [List.append_assoc] at hplaced

theorem le_position {p : Nat} {cs : List Char} {ts : List Token} (h : Cut p cs ts) :
    ∀ t ∈ ts, p ≤ t.position := by
  induction h with
  | finish => exact fun t ht => absurd ht (List.not_mem_nil)
  | blank _ _ ih => exact fun t ht => Nat.le_of_succ_le (ih t ht)
  | token _ _ _ ih =>
    intro t ht
    rcases List.mem_cons.1 ht with rfl | ht
    · exact Nat.le_refl _
    · have hle := ih t ht
      omega

theorem apart {p : Nat} {cs : List Char} {ts : List Token} (h : Cut p cs ts) :
    (ts ++ [Token.endAt (p + cs.length)]).Pairwise Before := by
  induction h with
  | finish => exact List.pairwise_singleton _ _
  | @blank p c cs ts _ _ ih =>
    rwa [List.length_cons, Nat.add_comm cs.length 1, ← Nat.add_assoc]
  | @token p kind payload cs rest ts hd _ hcut ih =>
    obtain ⟨c, tail, rfl, -⟩ := hd.head
    have hend : p + (c :: tail ++ rest).length = p + (c :: tail).length + rest.length := by
      rw [List.length_append, Nat.add_assoc]
    rw [List.cons_append, hend, List.pairwise_cons]
    refine ⟨fun u hu => ?_, ih⟩
    have hle : p + (c :: tail).length ≤ u.position := by
      rcases List.mem_append.1 hu with hu | hu
      · exact hcut.le_position u hu
      · rw [List.mem_singleton.1 hu]
        exact Nat.le_add_right _ _
    rw [Before, String.length_ofList]
    refine ⟨?_, hle⟩
    show p < u.position
    rw [List.length_cons] at hle
    omega

theorem covered {p : Nat} {cs : List Char} {ts : List Token} (h : Cut p cs ts) {i : Nat} {c : Char}
    (hi : cs[i]? = some c) : Text.isBlank c = true ∨ ∃ t ∈ ts, Covers t (p + i) := by
  induction h generalizing i with
  | finish => cases hi
  | @blank p d cs ts hd _ ih =>
    cases i with
    | zero =>
      cases hi
      exact .inl hd
    | succ i =>
      have hplace : p + (i + 1) = p + 1 + i := by omega
      rw [hplace]
      exact ih hi
  | @token p kind payload cs rest ts _ _ _ ih =>
    by_cases hinside : i < cs.length
    · refine .inr ⟨_, List.mem_cons_self, ?_⟩
      rw [Covers, String.length_ofList]
      show p ≤ p + i ∧ p + i < p + cs.length
      omega
    · have hle : cs.length ≤ i := Nat.le_of_not_lt hinside
      rw [List.getElem?_append_right hle] at hi
      have hplace : p + cs.length + (i - cs.length) = p + i := by omega
      rcases ih hi with hc | ⟨t, ht, hcovers⟩
      · exact .inl hc
      · exact .inr ⟨t, List.mem_cons_of_mem _ ht, hplace ▸ hcovers⟩

end Cut

/-! ## What a spelling determines -/

/-- The characters of a token determine its kind and its value. -/
theorem Denotes.unique {cs : List Char} {k l : TokenKind} {m n : Option Payload}
    (h : Denotes cs k m) (h' : Denotes cs l n) : k = l ∧ m = n := by
  obtain ⟨c, tail, rfl, -⟩ := h.head
  have hends : Ends [] := rfl
  have hform : form 0 c tail = .ok ⟨k, m, tail.length⟩ :=
    form_eq_ok_iff.2 ⟨tail, [], by simp, rfl, h, hends.stops k _⟩
  have hform' : form 0 c tail = .ok ⟨l, n, tail.length⟩ :=
    form_eq_ok_iff.2 ⟨tail, [], by simp, rfl, h', hends.stops l _⟩
  rw [hform] at hform'
  cases hform'
  exact ⟨rfl, rfl⟩

theorem Denotes.ne_eof {cs : List Char} {kind : TokenKind} {payload : Option Payload}
    (h : Denotes cs kind payload) : kind ≠ .eof := by
  cases h with
  | sign h =>
    have hall : ∀ s ∈ signs, s.2 ≠ .eof := by decide
    exact hall _ h
  | keyword h =>
    have hall : ∀ k ∈ keywordKinds, k.2 ≠ .eof := by decide
    exact hall _ h
  | _ => decide

end Lexer

open Lexer

/-- The tokens in front of the end lie in the text one behind the other, and nothing but white space lies
between them. -/
structure Tiles (text : List Char) (ts : List Token) : Prop where
  /-- Only the end of the text is an end. -/
  inner : ∀ t ∈ ts, t.kind ≠ .eof
  /-- Tokens are not empty. -/
  nonempty : ∀ t ∈ ts, t.lexeme ≠ ""
  /-- Tokens are spelled by the text at their positions, and take in nothing that follows. -/
  placed : ∀ t ∈ ts, Placed text t
  /-- The characters of a token determine its kind and its value. -/
  determined : ∀ t ∈ ts, ∀ kind payload, Denotes t.lexeme.toList kind payload →
    kind = t.kind ∧ payload = t.payload
  /-- Tokens follow each other without overlap, and the end follows them. -/
  apart : (ts ++ [Token.endAt text.length]).Pairwise Before
  /-- What belongs to no token is white space. -/
  blank : ∀ i c, text[i]? = some c → (∀ t ∈ ts, ¬ Covers t i) → Text.isBlank c = true

/-! ## Top theorem (proved from the lemmas above) -/

/-- The tokens of a text are its end and, in front of it, tokens that tile the text. -/
theorem tokenize_tiles {s : String} {ts : List Token} (h : tokenize s = .ok ts) :
    ∃ body, ts = body ++ [Token.endAt s.length] ∧ Tiles s.toList body := by
  obtain ⟨body, rfl, hcut⟩ := tokensFrom_eq_ok_iff.1 h
  have hlength : 0 + s.toList.length = s.length := by rw [Nat.zero_add, String.length_toList]
  have hplaced : ∀ t ∈ body, Placed s.toList t := hcut.placed [] rfl
  refine ⟨body, by rw [hlength], ?_⟩
  constructor
  case inner => exact fun t ht => (hplaced t ht).spelled.ne_eof
  case nonempty =>
    intro t ht hempty
    obtain ⟨c, tail, heq, -⟩ := (hplaced t ht).spelled.head
    rw [hempty] at heq
    cases heq
  case placed => exact hplaced
  case determined => exact fun t ht kind payload hd => hd.unique (hplaced t ht).spelled
  case apart =>
    have hapart := hcut.apart
    rwa [Nat.zero_add] at hapart
  case blank =>
    intro i c hi hno
    rcases hcut.covered hi with hc | ⟨t, ht, hcovers⟩
    · exact hc
    · rw [Nat.zero_add] at hcovers
      exact absurd hcovers (hno t ht)

/-- A word of another alphabet, a null test over two lines, a number in front of a point that is none of its
own, and an escaped quote. -/
theorem tokenize_tiles_null_test :
    let body : List Token :=
      [⟨.identifier, "né", some (.text "né"), 1⟩, ⟨.isNotNull, "IS\n Not NULL", none, 4⟩, ⟨.or, "or", none, 17⟩,
        ⟨.number, "-1.50", some (.number ⟨-150, 2⟩), 20⟩, ⟨.dot, ".", none, 25⟩,
        ⟨.lessEqual, "<=", none, 27⟩, ⟨.string, "\"x\\\"\"", some (.text "x\""), 29⟩]
    tokenize " né IS\n Not NULL or -1.50. <=\"x\\\"\"" = .ok (body ++ [Token.endAt 34]) ∧
      Tiles " né IS\n Not NULL or -1.50. <=\"x\\\"\"".toList body := by
  intro body
  have h : tokenize " né IS\n Not NULL or -1.50. <=\"x\\\"\"" = .ok (body ++ [Token.endAt 34]) := by
    apply toOption_eq_some_iff.1
    decide +kernel
  obtain ⟨body', heq, htiles⟩ := tokenize_tiles h
  have hbody : body = body' := (List.append_inj' heq rfl).1
  exact ⟨h, hbody ▸ htiles⟩

end RecordQuery
