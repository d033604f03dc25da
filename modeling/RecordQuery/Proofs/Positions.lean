import RecordQuery.Proofs.Tiling
import RecordQuery.Proofs.ParserComplete

/-!
# Where the errors of queries point

The lexer and the parser give every error a position: the end of the text, or that of a character which is
no white space (`IsPlace`). The lexer has passed over the white space in front of what it finds fault with,
and the parser points at a token or at the end of the text (`Parser.Blames`).

    tokenize query = .error e  →  e.PointsInto query.toList                     (pointsInto_of_tokenize)
    tokenize query = .ok ts  →  Expr.ofTokens ts = .error e  →
      e.PointsInto query.toList                                                 (pointsInto_of_ofTokens)
-/

namespace RecordQuery

/-- The end of a text, or a character that is no white space. -/
def IsPlace (text : List Char) (p : Nat) : Prop :=
  p = text.length ∨ ∃ c, text[p]? = some c ∧ Text.isBlank c = false

/-- The error has a position, and points at the end of the text or at a character that is no white space. -/
def QueryError.PointsInto (text : List Char) (e : QueryError) : Prop :=
  ∃ p, e.position = some p ∧ IsPlace text p

theorem IsPlace.le {text : List Char} {p : Nat} (h : IsPlace text p) : p ≤ text.length := by
  rcases h with rfl | ⟨c, hc, -⟩
  · exact Nat.le_refl _
  · exact Nat.le_of_lt (List.getElem?_eq_some_iff.1 hc).1

namespace Lexer

/-! ## Errors of the lexer -/

/-- A place is in front of every text that does not start with white space. -/
theorem isPlace_append {rest : List Char} (h : NotNext Text.isBlank rest) (front : List Char) :
    IsPlace (front ++ rest) front.length := by
  cases rest with
  | nil => exact .inl (by simp)
  | cons c rest => exact .inr ⟨c, by simp, h⟩

variable {front : List Char} {p : Nat} {e : QueryError}

/-- Behind `is`, an error points behind the white space that follows `is` or `not`. -/
theorem pointsInto_of_afterIs {cs : List Char} (hfront : front.length = p + 2)
    (h : afterIs p cs = .error e) : e.PointsInto (front ++ cs) := by
  unfold afterIs at h
  obtain ⟨gap, rest, rfl, hgap, -, hrest⟩ := blank_split cs
  simp only [hgap, List.drop_left] at h
  obtain ⟨rest', hsplit, -⟩ := word_split rest
  generalize word rest = first at *
  split at h
  · cases h
  · split at h
    · subst hsplit
      obtain ⟨gap', rest, rfl, hgap', -, hrest'⟩ := blank_split rest'
      simp only [hgap', List.drop_left] at h
      split at h
      · cases h
      · cases h
        have hplace := isPlace_append hrest' (front ++ (gap ++ (first ++ gap')))
        simp only [List.append_assoc, List.length_append, hfront] at hplace
        refine ⟨_, rfl, ?_⟩
        simpa only [Nat.add_assoc] using hplace
    · cases h
      have hplace := isPlace_append hrest (front ++ gap)
      rw [List.length_append, hfront, List.append_assoc] at hplace
      exact ⟨_, rfl, hplace⟩

theorem pointsInto_of_wordForm {w rest : List Char} (hfront : front.length = p)
    (h : wordForm p w rest = .error e) : e.PointsInto (front ++ (w ++ rest)) := by
  unfold wordForm at h
  dsimp only at h
  split at h
  · cases h
  · split at h
    · next his =>
      have hlength : (front ++ w).length = p + 2 := by
        rw [List.length_append, hfront, length_of_spells his]
        rfl
      have hpoints := pointsInto_of_afterIs hlength h
      rwa [List.append_assoc] at hpoints
    · split at h
      · cases h
      · split at h <;> cases h

theorem eq_error_of_ite {P : Prop} [Decidable P] {f : Form} {x : Except QueryError Form}
    (h : (if P then .ok f else x) = .error e) : x = .error e := by
  by_cases hP : P
  · rw [if_pos hP] at h
    cases h
  · rwa [if_neg hP] at h

/-- The fault is in the first character, unless this starts a word. -/
theorem form_error_cases {c : Char} {cs : List Char} (h : form p c cs = .error e) :
    (∃ fault, e = .located p fault) ∨
      isWordStart c = true ∧
        wordForm p (word (c :: cs)) (cs.drop ((word (c :: cs)).length - 1)) = .error e := by
  unfold form at h
  -- five signs of one character are tokens in any text
  replace h := eq_error_of_ite (eq_error_of_ite (eq_error_of_ite (eq_error_of_ite (eq_error_of_ite h))))
  by_cases hmark : c = '!'
  · rw [if_pos hmark] at h
    exact .inl ⟨_, (Except.error.inj (eq_error_of_ite h)).symm⟩
  rw [if_neg hmark] at h
  replace h := eq_error_of_ite (eq_error_of_ite h)
  by_cases hquote : c = '"'
  · rw [if_pos hquote] at h
    cases hbody : stringBody? cs with
    | none =>
      rw [hbody] at h
      exact .inl ⟨_, (Except.error.inj h).symm⟩
    | some body =>
      rw [hbody] at h
      cases h
  rw [if_neg hquote] at h
  replace h := eq_error_of_ite (eq_error_of_ite h)
  by_cases hstart : isWordStart c = true
  · rw [if_pos hstart] at h
    exact .inr ⟨hstart, h⟩
  · rw [if_neg hstart] at h
    exact .inl ⟨_, (Except.error.inj h).symm⟩

theorem pointsInto_of_form {c : Char} {cs : List Char} (hc : Text.isBlank c = false)
    (hfront : front.length = p) (h : form p c cs = .error e) : e.PointsInto (front ++ c :: cs) := by
  rcases form_error_cases h with ⟨fault, rfl⟩ | ⟨hstart, hword⟩
  · exact ⟨p, rfl, hfront ▸ isPlace_append (notNext_cons hc) front⟩
  · obtain ⟨tail, rest, rfl, heq, -, -⟩ := word_cons_split hstart cs
    rw [heq, List.length_cons, Nat.add_sub_cancel, List.drop_left] at hword
    exact pointsInto_of_wordForm hfront hword

/-- An error of the lexer points into the text: what it has read in front only moves the position. -/
theorem pointsInto_of_tokensFrom {cs : List Char} (hfront : front.length = p)
    (h : tokensFrom p cs = .error e) : e.PointsInto (front ++ cs) := by
  -- `front` is the text that has been read, so that its length is the position
  induction hn : cs.length using Nat.strongRecOn generalizing front p cs with
  | _ n ih =>
    subst hn
    cases cs with
    | nil =>
      rw [tokensFrom_nil] at h
      cases h
    | cons c cs =>
      cases hc : Text.isBlank c with
      | true =>
        rw [tokensFrom_blank hc] at h
        have hmore : (front ++ [c]).length = p + 1 := by rw [List.length_append, hfront]; rfl
        have hpoints := ih cs.length (by simp) hmore h rfl
        rwa [List.append_assoc] at hpoints
      | false =>
        cases hform : form p c cs with
        | error e' =>
          rw [tokensFrom_error hc hform] at h
          cases h
          exact pointsInto_of_form hc hfront hform
        | ok f =>
          obtain ⟨tail, rest, rfl, -, -, htokens⟩ := tokensFrom_form hc hform
          rw [htokens, map_eq_error_iff] at h
          have hless : rest.length < (c :: (tail ++ rest)).length := by
            simp only [List.length_cons, List.length_append]
            omega
          have hmore : (front ++ c :: tail).length = p + (c :: tail).length := by
            rw [List.length_append, hfront]
          have hpoints := ih rest.length hless hmore h rfl
          rwa [List.append_assoc] at hpoints

end Lexer

namespace Parser

/-! ## Errors of the parser -/

/-- The error points at the end of the text or at one of the tokens. -/
def Blames (finish : Nat) (ts : List Token) (e : QueryError) : Prop :=
  e.position = some finish ∨ ∃ t ∈ ts, e.position = some t.position

variable {finish : Nat} {ts us : List Token} {e : QueryError}

/-- What is to blame in the tokens that are left is to blame in all of them. -/
theorem Blames.append (h : Blames finish us e) (ts : List Token) : Blames finish (ts ++ us) e :=
  h.imp_right fun ⟨t, ht, he⟩ => ⟨t, List.mem_append_right ts ht, he⟩

theorem Blames.cons (h : Blames finish us e) (t : Token) : Blames finish (t :: us) e := h.append [t]

theorem blames_unexpected (finish : Nat) (wanted : Wanted) (ts : List Token) :
    Blames finish ts (unexpected finish wanted ts) := by
  cases ts with
  | nil => exact .inl rfl
  | cons t ts => exact .inr ⟨t, List.mem_cons_self, rfl⟩

theorem expect_blames {kind : TokenKind} {wanted : Wanted} (h : expect finish kind wanted ts = .error e) :
    Blames finish ts e := by
  cases ts with
  | nil =>
    cases h
    exact blames_unexpected finish wanted []
  | cons t ts =>
    rw [expect] at h
    split at h
    · cases h
    · cases h
      exact blames_unexpected finish wanted (t :: ts)

theorem literal_blames (h : literal finish ts = .error e) : Blames finish ts e := by
  cases ts with
  | nil =>
    cases h
    exact blames_unexpected finish .value []
  | cons t ts =>
    rw [literal] at h
    split at h
    · cases h
    · cases h
      exact blames_unexpected finish .value (t :: ts)

theorem pathTail_blames {p : String} (h : pathTail finish p ts = .error e) : Blames finish ts e := by
  fun_induction pathTail finish p ts with
  | case1 => cases h
  | case2 p dot =>
    cases h
    exact (blames_unexpected finish .fieldNameAfterDot []).cons dot
  | case3 => cases h
  | case4 p dot t ts _ _ ih => exact ((ih h).cons t).cons dot
  | case5 p dot t ts =>
    cases h
    exact (blames_unexpected finish .fieldNameAfterDot (t :: ts)).cons dot
  | case6 => cases h

theorem path_blames (h : path finish ts = .error e) : Blames finish ts e := by
  cases ts with
  | nil =>
    cases h
    exact blames_unexpected finish .fieldName []
  | cons t ts =>
    rw [path] at h
    split at h
    · exact (pathTail_blames h).cons t
    · cases h
      exact blames_unexpected finish .fieldName (t :: ts)

theorem listTail_blames (h : listTail finish ts = .error e) : Blames finish ts e := by
  fun_induction listTail finish ts with
  | case1 => cases h
  | case2 comma =>
    cases h
    exact (blames_unexpected finish .value []).cons comma
  | case3 => cases h
  | case4 comma value ts _ l _ ih =>
    rcases bind_eq_error_iff.1 h with hfail | ⟨_, _, hok⟩
    · exact ((ih hfail).cons value).cons comma
    · cases hok
  | case5 comma value ts =>
    cases h
    exact (blames_unexpected finish .value (value :: ts)).cons comma
  | case6 => cases h

theorem list_blames (h : list finish ts = .error e) : Blames finish ts e := by
  rcases bind_eq_error_iff.1 h with hfail | ⟨ts₁, hleft, h₁⟩
  · exact expect_blames hfail
  obtain ⟨left, -, rfl⟩ := expect_eq_ok_iff.1 hleft
  refine Blames.cons ?_ left
  split at h₁
  · cases h₁
    exact blames_unexpected finish .listValue ts₁
  rcases bind_eq_error_iff.1 h₁ with hfail | ⟨⟨l, ts₂⟩, hfirst, h₂⟩
  · exact literal_blames hfail
  obtain ⟨t, ht, rfl⟩ := literal_eq_ok_iff.1 hfirst
  refine Blames.cons ?_ t
  rcases bind_eq_error_iff.1 h₂ with hfail | ⟨⟨ls, ts₃⟩, hothers, h₃⟩
  · exact listTail_blames hfail
  obtain ⟨us, rfl, -⟩ := listTail_sound hothers t l ht
  refine Blames.append ?_ us
  rcases bind_eq_error_iff.1 h₃ with hfail | ⟨_, _, h₄⟩
  · exact expect_blames hfail
  · cases h₄

theorem operand_blames {op : Operator} (h : operand finish op ts = .error e) : Blames finish ts e := by
  unfold operand at h
  split at h
  · cases h
  · cases h
  · rcases bind_eq_error_iff.1 h with hfail | ⟨_, _, hok⟩
    · exact list_blames hfail
    · cases hok
  · rcases bind_eq_error_iff.1 h with hfail | ⟨_, _, hok⟩
    · exact literal_blames hfail
    · cases hok

theorem comparison_blames (h : comparison finish ts = .error e) : Blames finish ts e := by
  rcases bind_eq_error_iff.1 h with hfail | ⟨⟨p, ts₁⟩, hpath, h₁⟩
  · exact path_blames hfail
  obtain ⟨first, us, names, rfl, -, -⟩ := path_sound hpath
  refine Blames.append ?_ (first :: us)
  cases ts₁ with
  | nil =>
    cases h₁
    exact blames_unexpected finish (.operatorAfter p) []
  | cons sign ts₂ =>
    dsimp only at h₁
    split at h₁
    · cases h₁
      exact blames_unexpected finish (.operatorAfter p) (sign :: ts₂)
    · rcases bind_eq_error_iff.1 h₁ with hfail | ⟨_, _, hok⟩
      · exact (operand_blames hfail).cons sign
      · cases hok

/-- All rules of a level blame the tokens that they are given, or the end. -/
structure Level.Blaming (finish : Nat) (level : Level) : Prop where
  negation : ∀ {ts e}, level.negation ts = .error e → Blames finish ts e
  conjunction : ∀ {ts e}, level.conjunction ts = .error e → Blames finish ts e
  disjunction : ∀ {ts e}, level.disjunction ts = .error e → Blames finish ts e
  andTail : ∀ {left ts e}, level.andTail left ts = .error e → Blames finish ts e
  orTail : ∀ {left ts e}, level.orTail left ts = .error e → Blames finish ts e

/-- The token that enters a level is to blame if there is none inside. -/
theorem enter_blames {t : Token} {inner : Option Level} (h : enter t inner = .error e) (ts : List Token) :
    Blames finish (t :: ts) e := by
  cases inner with
  | none =>
    cases h
    exact .inr ⟨t, List.mem_cons_self, rfl⟩
  | some level => cases h

section Levels

variable {inner : Option Level} {d : Nat} (hin : InnerSound inner d)
  (hblaming : ∀ level, inner = some level → level.Blaming finish)

include hin hblaming

theorem primary_blames (h : primary finish inner ts = .error e) : Blames finish ts e := by
  cases ts with
  | nil => exact comparison_blames h
  | cons t ts =>
    rw [primary] at h
    split at h
    · rcases bind_eq_error_iff.1 h with hfail | ⟨level, henter, h₁⟩
      · exact enter_blames hfail ts
      rw [enter_eq_ok_iff] at henter
      refine Blames.cons ?_ t
      rcases bind_eq_error_iff.1 h₁ with hfail | ⟨⟨e', ts'⟩, hread, h₂⟩
      · exact (hblaming level henter).disjunction hfail
      obtain ⟨_, -, hsound⟩ := hin level henter
      obtain ⟨us, _, rfl, -, -⟩ := hsound.disjunction hread
      refine Blames.append ?_ us
      rcases bind_eq_error_iff.1 h₂ with hfail | ⟨_, _, hok⟩
      · exact expect_blames hfail
      · cases hok
    · exact comparison_blames h

theorem negation_blames (h : negation finish inner ts = .error e) : Blames finish ts e := by
  cases ts with
  | nil => exact primary_blames hin hblaming h
  | cons t ts =>
    rw [negation] at h
    split at h
    · rcases bind_eq_error_iff.1 h with hfail | ⟨level, henter, h₁⟩
      · exact enter_blames hfail ts
      rw [enter_eq_ok_iff] at henter
      rcases bind_eq_error_iff.1 h₁ with hfail | ⟨_, _, hok⟩
      · exact ((hblaming level henter).negation hfail).cons t
      · cases hok
    · exact primary_blames hin hblaming h

theorem andTail_blames {left : Expr} (h : andTail inner left ts = .error e) : Blames finish ts e := by
  cases ts with
  | nil => cases h
  | cons t ts =>
    rw [andTail] at h
    split at h
    · rcases bind_eq_error_iff.1 h with hfail | ⟨level, henter, h₁⟩
      · exact enter_blames hfail ts
      rw [enter_eq_ok_iff] at henter
      refine Blames.cons ?_ t
      rcases bind_eq_error_iff.1 h₁ with hfail | ⟨⟨right, ts'⟩, hread, htail⟩
      · exact (hblaming level henter).negation hfail
      obtain ⟨_, -, hsound⟩ := hin level henter
      obtain ⟨us, _, rfl, -, -⟩ := hsound.negation hread
      exact ((hblaming level henter).andTail htail).append us
    · cases h

theorem conjunction_blames (h : conjunction finish inner ts = .error e) : Blames finish ts e := by
  rcases bind_eq_error_iff.1 h with hfail | ⟨⟨left, ts'⟩, hread, htail⟩
  · exact negation_blames hin hblaming hfail
  obtain ⟨us, _, rfl, -, -⟩ := negation_sound hin hread
  exact (andTail_blames hin hblaming htail).append us

theorem orTail_blames {left : Expr} (h : orTail inner left ts = .error e) : Blames finish ts e := by
  cases ts with
  | nil => cases h
  | cons t ts =>
    rw [orTail] at h
    split at h
    · rcases bind_eq_error_iff.1 h with hfail | ⟨level, henter, h₁⟩
      · exact enter_blames hfail ts
      rw [enter_eq_ok_iff] at henter
      refine Blames.cons ?_ t
      rcases bind_eq_error_iff.1 h₁ with hfail | ⟨⟨right, ts'⟩, hread, htail⟩
      · exact (hblaming level henter).conjunction hfail
      obtain ⟨_, -, hsound⟩ := hin level henter
      obtain ⟨us, _, rfl, -, -⟩ := hsound.conjunction hread
      exact ((hblaming level henter).orTail htail).append us
    · cases h

theorem disjunction_blames (h : disjunction finish inner ts = .error e) : Blames finish ts e := by
  rcases bind_eq_error_iff.1 h with hfail | ⟨⟨left, ts'⟩, hread, htail⟩
  · exact conjunction_blames hin hblaming hfail
  obtain ⟨us, _, rfl, -, -⟩ := conjunction_sound hin hread
  exact (orTail_blames hin hblaming htail).append us

theorem above_blaming : (Level.above finish inner).Blaming finish where
  negation := negation_blames hin hblaming
  conjunction := conjunction_blames hin hblaming
  disjunction := disjunction_blames hin hblaming
  andTail := andTail_blames hin hblaming
  orTail := orTail_blames hin hblaming

end Levels

theorem level_blaming (finish d : Nat) : (level finish d).Blaming finish := by
  induction d with
  | zero =>
    refine above_blaming (d := 0) (fun _ h => ?_) fun _ h => ?_
    · cases h
    · cases h
  | succ d ih =>
    refine above_blaming (d := d + 1) (fun inner h => ?_) fun inner h => ?_
    · cases h
      exact ⟨d, rfl, level_sound finish d⟩
    · cases h
      exact ih

theorem ofTokens_blames (h : Expr.ofTokens ts = .error e) :
    Blames (finishOf ts) (ts.takeWhile (·.kind ≠ .eof)) e := by
  unfold Expr.ofTokens at h
  rcases bind_eq_error_iff.1 h with hfail | ⟨⟨tree, rest⟩, hread, hrest⟩
  · exact (level_blaming _ _).disjunction hfail
  obtain ⟨us, _, hts, -, -⟩ := (level_sound _ _).disjunction hread
  rw [hts]
  refine Blames.append ?_ us
  dsimp only at hrest
  split at hrest
  · cases hrest
    exact blames_unexpected _ .endOfInput rest
  · cases hrest

theorem finishOf_append_end {body : List Token} (hbody : ∀ t ∈ body, t.kind ≠ .eof) (p : Nat) :
    finishOf (body ++ [Token.endAt p]) = p := by
  have hnone : body.find? (·.kind = .eof) = none := by simpa using hbody
  unfold finishOf
  rw [List.find?_append, hnone]
  rfl

end Parser

/-! ## Places in the text -/

open Lexer

/-- A token starts with a character that is no white space. -/
theorem Lexer.Placed.isPlace {text : List Char} {t : Token} (h : Placed text t) :
    IsPlace text t.position := by
  obtain ⟨c, tail, hlexeme, hc⟩ := h.spelled.head
  obtain ⟨rest, hrest⟩ := h.present
  rw [hlexeme] at hrest
  refine .inr ⟨c, ?_, hc⟩
  rw [← List.head?_drop, ← hrest]
  rfl

/-- The tokens in front of the end lie in the text, in their order, and the end is that of the text. -/
theorem placed_of_tokenize {query : String} {ts : List Token} (h : tokenize query = .ok ts) :
    Parser.finishOf ts = query.toList.length ∧
      (∀ t ∈ ts.takeWhile (·.kind ≠ .eof), Placed query.toList t) ∧
      (ts.takeWhile (·.kind ≠ .eof)).Pairwise Before := by
  obtain ⟨body, rfl, hcut⟩ := tokensFrom_eq_ok_iff.1 h
  have hplaced : ∀ t ∈ body, Placed query.toList t := hcut.placed [] rfl
  have hinner : ∀ t ∈ body, t.kind ≠ .eof := fun t ht => (hplaced t ht).spelled.ne_eof
  rw [Parser.finishOf_append_end hinner, takeWhile_append_eof hinner rfl, Nat.zero_add]
  exact ⟨rfl, hplaced, (List.pairwise_append.1 hcut.apart).1⟩

theorem pointsInto_of_tokenize {query : String} {e : QueryError} (h : tokenize query = .error e) :
    e.PointsInto query.toList :=
  @pointsInto_of_tokensFrom [] 0 e query.toList rfl h

/-- An error of the parser points at a token of the text, or at its end. -/
theorem pointsInto_of_ofTokens {query : String} {ts : List Token} {e : QueryError}
    (hts : tokenize query = .ok ts) (h : Expr.ofTokens ts = .error e) : e.PointsInto query.toList := by
  obtain ⟨hfinish, hplaced, -⟩ := placed_of_tokenize hts
  rcases Parser.ofTokens_blames h with he | ⟨t, ht, he⟩
  · exact ⟨_, he, .inl hfinish⟩
  · exact ⟨_, he, (hplaced t ht).isPlace⟩

end RecordQuery
