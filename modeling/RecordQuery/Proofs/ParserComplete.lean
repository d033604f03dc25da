import RecordQuery.Proofs.ParserSound

/-!
# What is derived is read

A derivation with a weight of at most `d` is followed by the rules of the parser at level `d`, whatever
tokens come after it. Together with `ParserSound` this gives the language of the parser:

    Expr.ofTokens ts = .ok e ↔
      ∃ w, Query (ts before its first end) e w ∧ w ≤ Parser.maxDepth    (ofTokens_eq_ok_iff)

`ofTokens_reads_exactly_queries` adds that the tokens allow one expression only, and that nothing behind
the first end of text matters.
-/

namespace RecordQuery

open Grammar

namespace Parser

variable {finish : Nat}

/-! ## Comparisons -/

theorem startsWith_cons {kind : TokenKind} {t : Token} {ts : List Token} :
    startsWith kind (t :: ts) = false ↔ t.kind ≠ kind := by
  simp [startsWith]

theorem pathTail_stop {p : String} {ts : List Token} (h : startsWith .dot ts = false) :
    pathTail finish p ts = .ok (p, ts) := by
  match ts with
  | [] => rfl
  | [t] => rw [pathTail, if_neg (startsWith_cons.1 h)]
  | t :: t' :: ts => rw [pathTail, if_neg (startsWith_cons.1 h)]

theorem pathTail_complete {t : Token} {us rest : List Token} {names : List String}
    (h : Path (t :: us) names) (hrest : startsWith .dot rest = false) (p : String) :
    pathTail finish (p ++ fieldName t) (us ++ rest) = .ok (p ++ ".".intercalate names, rest) := by
  generalize hts : t :: us = ts at h
  induction h generalizing t us p with
  | one =>
    cases hts
    rw [List.nil_append, pathTail_stop hrest, String.intercalate_singleton]
  | more ht hdot hpath ih =>
    cases hts
    obtain ⟨t', us', rfl, ht'⟩ := hpath.head
    rw [List.cons_append, List.cons_append, pathTail, if_pos hdot, if_pos ht', ih _ rfl,
      String.intercalate_cons_of_ne_nil (path_names_ne_nil hpath)]
    simp only [String.append_assoc]

theorem path_complete {ts rest : List Token} {names : List String} (h : Path ts names)
    (hrest : startsWith .dot rest = false) :
    path finish (ts ++ rest) = .ok (".".intercalate names, rest) := by
  obtain ⟨t, us, rfl, ht⟩ := h.head
  have htail : pathTail finish ("" ++ fieldName t) (us ++ rest) =
      .ok ("" ++ ".".intercalate names, rest) :=
    pathTail_complete h hrest ""
  rw [List.cons_append, path, if_pos ht]
  simpa using htail

theorem listTail_stop {ts : List Token} (h : startsWith .comma ts = false) :
    listTail finish ts = .ok ([], ts) := by
  match ts with
  | [] => rfl
  | [t] => rw [listTail, if_neg (startsWith_cons.1 h)]
  | t :: t' :: ts => rw [listTail, if_neg (startsWith_cons.1 h)]

theorem listTail_complete {t : Token} {us rest : List Token} {l : Literal} {ls : List Literal}
    (h : Literals (t :: us) (l :: ls)) (hrest : startsWith .comma rest = false) :
    listTail finish (us ++ rest) = .ok (ls, rest) := by
  generalize hts : t :: us = ts at h
  generalize hls : l :: ls = ls' at h
  induction h generalizing t us l ls with
  | one =>
    cases hts
    cases hls
    exact listTail_stop hrest
  | more _ hcomma hmore ih =>
    cases hts
    cases hls
    match hmore with
    | .one hl =>
      have := ih rfl rfl
      rw [List.nil_append] at this
      rw [List.cons_append, List.cons_append, List.nil_append, listTail, if_pos hcomma,
        (literal?_eq_some_iff _ _).2 hl, this]
      rfl
    | .more hl hcomma' hmore' =>
      have := ih rfl rfl
      rw [List.cons_append, List.cons_append, listTail, if_pos hcomma,
        (literal?_eq_some_iff _ _).2 hl, this]
      rfl

theorem literals_head {ts : List Token} {ls : List Literal} (h : Literals ts ls) :
    ∃ t us l ls', ts = t :: us ∧ ls = l :: ls' ∧ IsLiteral t l := by
  cases h with
  | one hl => exact ⟨_, _, _, _, rfl, rfl, hl⟩
  | more hl _ _ => exact ⟨_, _, _, _, rfl, rfl, hl⟩

theorem list_complete {left right : Token} {ts rest : List Token} {ls : List Literal}
    (hleft : left.kind = .leftParen) (h : Literals ts ls) (hright : right.kind = .rightParen) :
    list finish (left :: ts ++ [right] ++ rest) = .ok (ls, rest) := by
  obtain ⟨t, us, l, ls', rfl, rfl, hl⟩ := literals_head h
  have hopen : expect finish .leftParen .openParenAfterIn (left :: (t :: us) ++ [right] ++ rest) =
      .ok (t :: us ++ right :: rest) := expect_eq_ok_iff.2 ⟨left, hleft, by simp⟩
  have hfirst : literal finish (t :: (us ++ right :: rest)) = .ok (l, us ++ right :: rest) :=
    literal_eq_ok_iff.2 ⟨t, hl, rfl⟩
  have hothers : listTail finish (us ++ right :: rest) = .ok (ls', right :: rest) :=
    listTail_complete h (startsWith_cons.2 (by rw [hright]; decide))
  have hclose : expect finish .rightParen .listEnd (right :: rest) = .ok rest :=
    expect_eq_ok_iff.2 ⟨right, hright, rfl⟩
  have hnotEmpty : startsWith .rightParen (t :: (us ++ right :: rest)) = false :=
    startsWith_cons.2 (hl.kind_ne (by decide))
  unfold list
  rw [hopen]
  simp only [ok_bind, List.cons_append, hnotEmpty, hfirst, hothers, hclose]
  rfl

theorem operand_complete {op : Operator} {ts : List Token} {v : Option Operand}
    (h : Operands op ts v) (rest : List Token) : operand finish op (ts ++ rest) = .ok (v, rest) := by
  cases h with
  | isNull => rfl
  | isNotNull => rfl
  | list hleft hlist hright =>
    rw [operand, list_complete hleft hlist hright]
    rfl
  | @one op t l h₁ h₂ h₃ hl =>
    have hone : literal finish ([t] ++ rest) = .ok (l, rest) := literal_eq_ok_iff.2 ⟨t, hl, rfl⟩
    unfold operand
    split
    · exact absurd rfl h₁
    · exact absurd rfl h₂
    · exact absurd rfl h₃
    · rw [hone]
      rfl

theorem comparison_complete {ts : List Token} {c : Comparison} (h : Compares ts c)
    (rest : List Token) : comparison finish (ts ++ rest) = .ok (.comparison c, rest) := by
  obtain @⟨first, sign, more, ts, names, op, operand, hpath, hsign, hoperand⟩ := h
  have hstop : startsWith .dot (sign :: ts ++ rest) = false :=
    startsWith_cons.2 (by rw [hsign]; cases op <;> decide)
  have hp : path finish (first :: more ++ (sign :: ts ++ rest)) =
      .ok (".".intercalate names, sign :: ts ++ rest) := path_complete hpath hstop
  rw [List.append_assoc]
  unfold comparison
  rw [hp]
  simp only [ok_bind, List.cons_append, (operator?_eq_some_iff _ _).2 hsign,
    operand_complete hoperand]
  rfl

/-! ## Expressions -/

/-- The levels inside level `d`. -/
def below (finish : Nat) : Nat → Option Level
  | 0 => none
  | d + 1 => some (level finish d)

theorem level_eq (finish d : Nat) : level finish d = .above finish (below finish d) := by
  cases d <;> rfl

theorem below_of_pos {d : Nat} (h : 0 < d) :
    below finish d = some (.above finish (below finish (d - 1))) := by
  cases d with
  | zero => omega
  | succ d => exact congrArg some (level_eq finish d)

/-- What the parser does at level `d` with tokens that a rule derives, and then with those behind them:
after a chain of `k` operators it is `k` levels further down. -/
def Follows (finish : Nat) (us : List Token) (e : Expr) (w : Nat) : Rule → Prop
  | .primary => ∀ d rest, w ≤ d → primary finish (below finish d) (us ++ rest) = .ok (e, rest)
  | .negation => ∀ d rest, w ≤ d → negation finish (below finish d) (us ++ rest) = .ok (e, rest)
  | .conjunction k => ∀ d rest, w ≤ d →
    conjunction finish (below finish d) (us ++ rest) = andTail (below finish (d - k)) e rest
  | .disjunction k => ∀ d rest, w ≤ d → startsWith .and rest = false →
    disjunction finish (below finish d) (us ++ rest) = orTail (below finish (d - k)) e rest

theorem andTail_stop {inner : Option Level} {left : Expr} {ts : List Token}
    (h : startsWith .and ts = false) : andTail inner left ts = .ok (left, ts) := by
  cases ts with
  | nil => rfl
  | cons t ts => rw [andTail, if_neg (startsWith_cons.1 h)]

theorem orTail_stop {inner : Option Level} {left : Expr} {ts : List Token}
    (h : startsWith .or ts = false) : orTail inner left ts = .ok (left, ts) := by
  cases ts with
  | nil => rfl
  | cons t ts => rw [orTail, if_neg (startsWith_cons.1 h)]

theorem primary_of_compares {ts : List Token} {c : Comparison} (h : Compares ts c)
    (inner : Option Level) (rest : List Token) :
    primary finish inner (ts ++ rest) = .ok (.comparison c, rest) := by
  have hc : comparison finish (ts ++ rest) = .ok (.comparison c, rest) := comparison_complete h rest
  obtain @⟨first, sign, more, ts, names, op, operand, hpath, hsign, hoperand⟩ := h
  obtain ⟨t, us, he, hk⟩ := hpath.head
  cases he
  simp only [List.cons_append] at hc ⊢
  rw [primary, if_neg (by rw [hk]; decide), hc]

theorem follows {rule : Rule} {ts : List Token} {e : Expr} {w : Nat} (h : Derives rule ts e w) :
    Follows finish ts e w rule := by
  induction h with
  | comparison hc =>
    intro d rest _
    exact primary_of_compares hc _ rest
  | @parens left right ts e k w hl _ hr ih =>
    intro d rest hw
    have hinner := ih (d - 1) (right :: rest) (by omega) (startsWith_cons.2 (by rw [hr]; decide))
    rw [orTail_stop (startsWith_cons.2 (by rw [hr]; decide))] at hinner
    have hclose : expect finish .rightParen .closingParen (right :: rest) = .ok rest :=
      expect_eq_ok_iff.2 ⟨right, hr, rfl⟩
    rw [List.append_assoc, List.cons_append, primary, if_pos hl, below_of_pos (by omega)]
    simp only [enter, ok_bind, Level.above, List.singleton_append, hinner, hclose, pure_eq_ok]
  | @plain ts e w hp ih =>
    intro d rest hw
    have := ih d rest hw
    obtain ⟨t, us, rfl, hk⟩ := hp.primary_head
    rw [List.cons_append] at this ⊢
    rw [negation, if_neg hk, this]
  | not hk _ ih =>
    intro d rest hw
    rw [List.cons_append, negation, if_pos hk, below_of_pos (by omega)]
    simp only [enter, ok_bind, Level.above, ih (d - 1) rest (by omega), pure_eq_ok]
  | oneOperand _ ih =>
    intro d rest hw
    rw [conjunction, ih d rest hw]
    rfl
  | @and t ts us l r k v w _ hk _ ihl ihr =>
    intro d rest hw
    have hr := ihr (d - k - 1) rest (by omega)
    rw [List.append_assoc, ihl d _ (by omega), List.cons_append, andTail, if_pos hk,
      below_of_pos (by omega)]
    simp only [enter, ok_bind, Level.above, hr]
    rw [Nat.sub_sub]
  | oneConjunction _ ih =>
    intro d rest hw hrest
    rw [disjunction, ih d rest hw, andTail_stop hrest]
    rfl
  | @or t ts us l r j k v w _ hk _ ihl ihr =>
    intro d rest hw hrest
    have hr := ihr (d - k - 1) rest (by omega)
    rw [andTail_stop hrest] at hr
    rw [List.append_assoc, List.cons_append,
      ihl d _ (by omega) (startsWith_cons.2 (by rw [hk]; decide)), orTail, if_pos hk,
      below_of_pos (by omega)]
    simp only [enter, ok_bind, Level.above, hr]
    rw [Nat.sub_sub]

/-- A query is read whole at every level that its weight allows. -/
theorem disjunction_complete {ts : List Token} {e : Expr} {w d : Nat} (h : Query ts e w)
    (hw : w ≤ d) : (level finish d).disjunction ts = .ok (e, []) := by
  obtain ⟨k, hd⟩ := h
  have hread : disjunction finish (below finish d) (ts ++ []) = orTail (below finish (d - k)) e [] :=
    follows hd d [] hw rfl
  rw [List.append_nil] at hread
  rw [level_eq]
  exact hread

end Parser

/-- Tokens are a query for one expression at most. -/
theorem Grammar.Query.expr_unique {ts : List Token} {e e' : Expr} {w w' : Nat} (h : Query ts e w)
    (h' : Query ts e' w') : e = e' := by
  have hread : (Parser.level 0 (max w w')).disjunction ts = .ok (e, []) :=
    Parser.disjunction_complete h (Nat.le_max_left w w')
  rw [Parser.disjunction_complete h' (Nat.le_max_right w w')] at hread
  cases hread
  rfl

/-- The parser reads the queries that are not nested too deeply. -/
theorem ofTokens_eq_ok_iff (ts : List Token) (e : Expr) :
    Expr.ofTokens ts = .ok e ↔
      ∃ w, Query (ts.takeWhile (·.kind ≠ .eof)) e w ∧ w ≤ Parser.maxDepth := by
  unfold Expr.ofTokens
  constructor
  · intro h
    obtain ⟨⟨e', rest⟩, hread, h₁⟩ := bind_eq_ok_iff.1 h
    obtain ⟨us, w, hts, ⟨k, hd⟩, hw⟩ := (Parser.level_sound _ _).disjunction hread
    cases rest with
    | nil =>
      cases h₁
      rw [List.append_nil] at hts
      exact ⟨w, ⟨k, hts ▸ hd⟩, hw⟩
    | cons t rest => cases h₁
  · rintro ⟨w, hq, hw⟩
    simp only [Parser.disjunction_complete hq hw, ok_bind]
    rfl

/-- All tokens in front of the first end of text are read. -/
theorem takeWhile_append_eof {body : List Token} {stop : Token} (hbody : ∀ t ∈ body, t.kind ≠ .eof)
    (hstop : stop.kind = .eof) : (body ++ [stop]).takeWhile (·.kind ≠ .eof) = body := by
  rw [List.takeWhile_append_of_pos fun t ht => by simpa using hbody t ht,
    List.takeWhile_cons_of_neg (by simp [hstop]), List.append_nil]

/-- Tokens behind an end of text are not looked at, nor is it known in an error that they are there. -/
theorem ofTokens_append_eof (front : List Token) {stop : Token} (hstop : stop.kind = .eof)
    (behind behind' : List Token) :
    Expr.ofTokens (front ++ stop :: behind) = Expr.ofTokens (front ++ stop :: behind') := by
  have hfinish (us : List Token) : Parser.finishOf (front ++ stop :: us) =
      ((front.find? (·.kind = .eof)).getD stop).position := by
    unfold Parser.finishOf
    rw [List.find?_append, List.find?_cons_of_pos (by simp [hstop])]
    cases front.find? (·.kind = .eof) <;> rfl
  have hbefore (us : List Token) : (front ++ stop :: us).takeWhile (·.kind ≠ .eof) =
      front.takeWhile (·.kind ≠ .eof) := by
    rw [List.takeWhile_append, List.takeWhile_cons_of_neg (by simp [hstop])]
    split
    · next hall => rw [List.append_nil, (List.takeWhile_prefix _).eq_of_length hall]
    · rfl
  unfold Expr.ofTokens
  rw [hfinish, hfinish, hbefore, hbefore]

/-! ## Top theorem (proved from the lemmas above) -/

/-- Tokens read as an expression exactly when those before the first end of text derive it within the
nesting limit; they derive no other expression, and the tokens behind that end change nothing. -/
theorem ofTokens_reads_exactly_queries (ts : List Token) :
    (∀ e, Expr.ofTokens ts = .ok e ↔
      ∃ w, Query (ts.takeWhile (·.kind ≠ .eof)) e w ∧ w ≤ Parser.maxDepth) ∧
    (∀ e e' w w', Query (ts.takeWhile (·.kind ≠ .eof)) e w →
      Query (ts.takeWhile (·.kind ≠ .eof)) e' w' → e = e') ∧
    (∀ front stop behind behind', ts = front ++ stop :: behind → stop.kind = .eof →
      Expr.ofTokens ts = Expr.ofTokens (front ++ stop :: behind')) := by
  refine ⟨ofTokens_eq_ok_iff ts, fun _ _ _ _ h h' => h.expr_unique h', ?_⟩
  rintro front stop behind behind' rfl hstop
  exact ofTokens_append_eof front hstop behind behind'

/-- `NOT Age IS NULL`, with a token behind the end of the text. -/
theorem ofTokens_reads_negated_null_test :
    Expr.ofTokens [⟨.not, "NOT", none, 0⟩, ⟨.identifier, "Age", none, 4⟩, ⟨.isNull, "IS NULL", none, 8⟩,
      Token.endAt 15, ⟨.comma, ",", none, 16⟩] =
    .ok (.not (.comparison ⟨"Age", .isNull, none, 4⟩)) := by
  refine ((ofTokens_reads_exactly_queries _).1 _).2 ⟨1, ⟨0, ?_⟩, by decide⟩
  have hpath : Path [⟨.identifier, "Age", none, 4⟩] ["Age"] := .one rfl
  have hsign : (Token.mk .isNull "IS NULL" none 8).kind = Operator.kind .isNull := rfl
  exact .oneConjunction (.oneOperand (.not rfl (.plain (.comparison (.mk hpath hsign .isNull)))))

end RecordQuery
