import RecordQuery.Filter
import RecordQuery.Proofs.Positions
import RecordQuery.Proofs.FirstMatch

/-!
# The comparison that is to blame

An expression is lowered comparison by comparison, from the left to the right of the text. So the error is
that of the first comparison that cannot be lowered, and it points at the path of this comparison:

    Condition.ofExpr schema root aliases e = .error err  ↔
      the first of e.comparisons that fails alone fails with err               (ofExpr_eq_error_iff)

`Grammar.Lists ts cs` says that the tokens, read from left to right, are those of the comparisons with nothing
but connectives and parentheses between them, and `Expr.comparisons` are listed in this sense by the tokens
that the expression was read from (`Grammar.Derives.lists`).
-/

namespace RecordQuery

/-- The comparisons of an expression, from left to right. -/
def Expr.comparisons : Expr → List Comparison
  | .and l r => l.comparisons ++ r.comparisons
  | .or l r => l.comparisons ++ r.comparisons
  | .not e => e.comparisons
  | .comparison c => [c]

namespace Grammar

/-- The tokens are those of the comparisons, in this order, and connectives and parentheses between them. -/
inductive Lists : List Token → List Comparison → Prop
  | nil : Lists [] []
  | connective {t : Token} {ts : List Token} {cs : List Comparison} :
      t.kind ∈ [.and, .or, .not, .leftParen, .rightParen] → Lists ts cs → Lists (t :: ts) cs
  | comparison {us ts : List Token} {c : Comparison} {cs : List Comparison} :
      Compares us c → Lists ts cs → Lists (us ++ ts) (c :: cs)

end Grammar

/-- The comparison stands where the first token of its path is written in the text. -/
def Comparison.StandsIn (text : List Char) (ts : List Token) (c : Comparison) : Prop :=
  ∃ first more names, first :: more <:+: ts ∧ Grammar.Path (first :: more) names ∧
    c.path = ".".intercalate names ∧ c.position = first.position ∧
    first.lexeme.toList <+: text.drop c.position

/-! ## Lowering -/

section Lowering

variable (schema : Schema) (root : Shape) (aliases : Aliases)

/-- The comparison cannot be lowered, whatever stands around it. -/
def Comparison.Fails (c : Comparison) : Prop :=
  ∃ fault, Typing.ofComparison schema root aliases c = .error fault

variable {schema root aliases}

theorem not_fails_iff {c : Comparison} :
    ¬ c.Fails schema root aliases ↔ ∃ d, Typing.ofComparison schema root aliases c = .ok d := by
  unfold Comparison.Fails
  cases Typing.ofComparison schema root aliases c with
  | ok d => simp
  | error fault => simp

/-- An expression is lowered if each of its comparisons is. -/
theorem exists_ofExpr_iff {e : Expr} : (∃ d, Condition.ofExpr schema root aliases e = .ok d) ↔
    ∀ c ∈ e.comparisons, ¬ c.Fails schema root aliases := by
  induction e with
  | and l r ihl ihr =>
    rw [Condition.ofExpr, exists_pair_eq_ok_iff, ihl, ihr, Expr.comparisons, List.forall_mem_append]
  | or l r ihl ihr =>
    rw [Condition.ofExpr, exists_pair_eq_ok_iff, ihl, ihr, Expr.comparisons, List.forall_mem_append]
  | not e ih =>
    rw [Expr.comparisons, ← ih, Condition.ofExpr]
    constructor
    · rintro ⟨_, h⟩
      obtain ⟨d, hd, -⟩ := bind_eq_ok_iff.1 h
      exact ⟨d, hd⟩
    · rintro ⟨d, hd⟩
      exact ⟨.not d, bind_eq_ok_iff.2 ⟨d, hd, rfl⟩⟩
  | comparison c =>
    rw [Expr.comparisons, List.forall_mem_singleton, not_fails_iff, Condition.ofExpr]
    simp only [mapError_eq_ok_iff]

theorem ofExpr_comparison_eq_error_iff {c : Comparison} {err : QueryError} :
    Condition.ofExpr schema root aliases (.comparison c) = .error err ↔
      Typing.ofComparison schema root aliases c = .error err.fault ∧ err.position = some c.position := by
  rw [Condition.ofExpr, mapError_eq_error_iff]
  constructor
  · rintro ⟨fault, hfault, rfl⟩
    exact ⟨hfault, rfl⟩
  · rintro ⟨hfault, hposition⟩
    obtain ⟨fault, position⟩ := err
    exact ⟨fault, hfault, congrArg (QueryError.mk fault) hposition.symm⟩

/-- The error of an expression is that of the first of its comparisons that fails. -/
theorem ofExpr_eq_error_iff {e : Expr} {err : QueryError} :
    Condition.ofExpr schema root aliases e = .error err ↔
      ∃ c, FirstOf (Comparison.Fails schema root aliases) e.comparisons c ∧
        Condition.ofExpr schema root aliases (.comparison c) = .error err := by
  induction e with
  | and l r ihl ihr =>
    rw [Condition.ofExpr, pair_eq_error_iff, ihl, ihr, exists_ofExpr_iff, Expr.comparisons,
      exists_firstOf_append_iff]
  | or l r ihl ihr =>
    rw [Condition.ofExpr, pair_eq_error_iff, ihl, ihr, exists_ofExpr_iff, Expr.comparisons,
      exists_firstOf_append_iff]
  | not e ih =>
    rw [Condition.ofExpr, bind_eq_error_iff, ih, Expr.comparisons]
    simp
  | comparison c =>
    rw [Expr.comparisons]
    constructor
    · intro h
      have hfails : c.Fails schema root aliases := ⟨_, (ofExpr_comparison_eq_error_iff.1 h).1⟩
      exact ⟨c, firstOf_singleton_iff.2 ⟨hfails, rfl⟩, h⟩
    · rintro ⟨c', hfirst, h⟩
      rwa [(firstOf_singleton_iff.1 hfirst).2] at h

end Lowering

/-! ## Source order -/

namespace Grammar

theorem Lists.append {ts us : List Token} {cs ds : List Comparison} (h : Lists ts cs)
    (h' : Lists us ds) : Lists (ts ++ us) (cs ++ ds) := by
  induction h with
  | nil => exact h'
  | connective hk _ ih => exact .connective hk ih
  | comparison hc _ ih =>
    rw [List.append_assoc]
    exact .comparison hc ih

/-- What a rule derives lists the comparisons of the expression. -/
theorem Derives.lists {rule : Rule} {ts : List Token} {e : Expr} {w : Nat} (h : Derives rule ts e w) :
    Lists ts e.comparisons := by
  have between {t : Token} {ts us : List Token} {cs ds : List Comparison} (hts : Lists ts cs)
      (hk : t.kind ∈ [.and, .or, .not, .leftParen, .rightParen]) (hus : Lists us ds) :
      Lists (ts ++ t :: us) (cs ++ ds) := hts.append (.connective hk hus)
  induction h with
  | comparison hc =>
    have hlists := Lists.comparison hc .nil
    rwa [List.append_nil] at hlists
  | @parens left right ts e k w hl _ hr ih =>
    have hclosed : Lists (ts ++ [right]) (e.comparisons ++ []) := between ih (by simp [hr]) .nil
    rw [List.append_nil] at hclosed
    exact .connective (by simp [hl]) hclosed
  | plain _ ih => exact ih
  | not hk _ ih => exact .connective (by simp [hk]) ih
  | oneOperand _ ih => exact ih
  | and _ hk _ ihl ihr => exact between ihl (by simp [hk]) ihr
  | oneConjunction _ ih => exact ih
  | or _ hk _ ihl ihr => exact between ihl (by simp [hk]) ihr

theorem Compares.path {ts : List Token} {c : Comparison} (h : Compares ts c) :
    ∃ first more rest names, ts = first :: more ++ rest ∧ Path (first :: more) names ∧
      c.path = ".".intercalate names ∧ c.position = first.position := by
  obtain ⟨hpath, -, -⟩ := h
  exact ⟨_, _, _, _, rfl, hpath, rfl, rfl⟩

/-- The positions of the comparisons are those of some of the tokens, in their order. -/
theorem Lists.positions_sublist {ts : List Token} {cs : List Comparison} (h : Lists ts cs) :
    (cs.map (·.position)).Sublist (ts.map (·.position)) := by
  induction h with
  | nil => exact .slnil
  | connective _ _ ih => exact .cons _ ih
  | comparison hc _ ih =>
    obtain ⟨first, more, rest, names, rfl, -, -, hposition⟩ := hc.path
    rw [List.map_cons, List.map_append, List.cons_append, List.map_cons, List.cons_append, hposition]
    exact .cons_cons _ (ih.trans (List.sublist_append_right _ _))

/-- The path of a comparison that is listed is among the tokens. -/
theorem Lists.path {ts : List Token} {cs : List Comparison} (h : Lists ts cs) :
    ∀ c ∈ cs, ∃ first more names, first :: more <:+: ts ∧ Path (first :: more) names ∧
      c.path = ".".intercalate names ∧ c.position = first.position := by
  induction h with
  | nil => exact fun c hc => absurd hc List.not_mem_nil
  | connective _ _ ih =>
    intro c hc
    obtain ⟨first, more, names, hwithin, hpath⟩ := ih c hc
    exact ⟨first, more, names, hwithin.trans (List.suffix_cons _ _).isInfix, hpath⟩
  | @comparison us ts d ds hd _ ih =>
    intro c hc
    rcases List.mem_cons.1 hc with rfl | hc
    · obtain ⟨first, more, rest, names, rfl, hpath⟩ := hd.path
      refine ⟨first, more, names, ?_, hpath⟩
      rw [List.append_assoc]
      exact (List.prefix_append _ _).isInfix
    · obtain ⟨first, more, names, hwithin, hpath⟩ := ih c hc
      exact ⟨first, more, names, hwithin.trans (List.suffix_append us ts).isInfix, hpath⟩

end Grammar

/-! ## Queries -/

/-- The expression that was read from the tokens of a text is lowered in the order of the text. -/
structure Expr.LowersInOrder (schema : Schema) (root : Shape) (aliases : Aliases) (query : String)
    (ts : List Token) (e : Expr) : Prop where
  /-- The comparisons are those that the tokens write, from left to right. -/
  lists : Grammar.Lists ts e.comparisons
  ordered : (e.comparisons.map (·.position)).Pairwise (· < ·)
  /-- Every comparison stands at the first character of its path. -/
  stands : ∀ c ∈ e.comparisons, c.StandsIn query.toList ts
  /-- The error is that of the first comparison that fails by itself, and points at it. -/
  fails : ∀ err, Condition.ofQuery schema root aliases query = .error err ↔
    ∃ c, FirstOf (Comparison.Fails schema root aliases) e.comparisons c ∧
      Typing.ofComparison schema root aliases c = .error err.fault ∧ err.position = some c.position
  lowers : (∃ d, Condition.ofQuery schema root aliases query = .ok d) ↔
    ∀ c ∈ e.comparisons, ∃ d, Typing.ofComparison schema root aliases c = .ok d

section Queries

open Lexer

variable {schema : Schema} {root : Shape} {aliases : Aliases} {query : String} {ts : List Token} {e : Expr}

theorem lowersInOrder_of_read (hts : tokenize query = .ok ts) (he : Expr.ofTokens ts = .ok e) :
    e.LowersInOrder schema root aliases query (ts.takeWhile (·.kind ≠ .eof)) := by
  have hquery : Condition.ofQuery schema root aliases query = Condition.ofExpr schema root aliases e := by
    unfold Condition.ofQuery
    rw [hts, ok_bind, he, ok_bind]
  obtain ⟨w, ⟨k, hderives⟩, -⟩ := (ofTokens_eq_ok_iff ts e).1 he
  obtain ⟨-, hplaced, hapart⟩ := placed_of_tokenize hts
  generalize ts.takeWhile (·.kind ≠ .eof) = body at *
  have hlists := hderives.lists
  constructor
  case lists => exact hlists
  case ordered =>
    have hpositions : (body.map (·.position)).Pairwise (· < ·) :=
      List.pairwise_map.2 (hapart.imp fun hbefore => hbefore.1)
    exact hpositions.sublist hlists.positions_sublist
  case stands =>
    intro c hc
    obtain ⟨first, more, names, hwithin, hpath, hname, hposition⟩ := hlists.path c hc
    have hfirst : first ∈ body := hwithin.subset List.mem_cons_self
    refine ⟨first, more, names, hwithin, hpath, hname, hposition, ?_⟩
    rw [hposition]
    exact (hplaced first hfirst).present
  case fails =>
    intro err
    rw [hquery, ofExpr_eq_error_iff]
    simp only [ofExpr_comparison_eq_error_iff]
  case lowers =>
    rw [hquery, exists_ofExpr_iff]
    simp only [not_fails_iff]

/-- Wherever a query fails, its error points into the text. -/
theorem pointsInto_of_ofQuery {err : QueryError}
    (h : Condition.ofQuery schema root aliases query = .error err) : err.PointsInto query.toList := by
  rcases bind_eq_error_iff.1 h with hfail | ⟨ts, hts, hread⟩
  · exact pointsInto_of_tokenize hfail
  rcases bind_eq_error_iff.1 hread with hfail | ⟨e, he, -⟩
  · exact pointsInto_of_ofTokens hts hfail
  have hlowers : e.LowersInOrder schema root aliases query (ts.takeWhile (·.kind ≠ .eof)) :=
    lowersInOrder_of_read hts he
  obtain ⟨c, hfirst, -, hposition⟩ := (hlowers.fails err).1 h
  obtain ⟨first, more, names, hwithin, -, -, hplace, -⟩ := hlowers.stands c hfirst.mem
  refine ⟨c.position, hposition, ?_⟩
  obtain ⟨-, hplaced, -⟩ := placed_of_tokenize hts
  rw [hplace]
  exact (hplaced first (hwithin.subset List.mem_cons_self)).isPlace

end Queries

/-! ## Top theorem (proved from the lemmas above) -/

/-- Every error of a query has a position, that of a character which is no white space or the end of the
text. A query that can be read is lowered in the order of its text: its error is that of the first
comparison that cannot be lowered by itself, and points at the path of this comparison. -/
theorem ofQuery_blames_first (schema : Schema) (root : Shape) (aliases : Aliases) (query : String) :
    (∀ err, Condition.ofQuery schema root aliases query = .error err →
      ∃ p, err.position = some p ∧ p ≤ query.length ∧ IsPlace query.toList p) ∧
    ∀ ts e, tokenize query = .ok ts → Expr.ofTokens ts = .ok e →
      e.LowersInOrder schema root aliases query (ts.takeWhile (·.kind ≠ .eof)) := by
  constructor
  · intro err h
    obtain ⟨p, hp, hplace⟩ := pointsInto_of_ofQuery h
    refine ⟨p, hp, ?_, hplace⟩
    rw [← String.length_toList]
    exact hplace.le
  · intro ts e hts he
    exact lowersInOrder_of_read hts he

/-- The middle one of three comparisons is the first that fails. -/
theorem ofQuery_blames_middle :
    let task : Shape := ⟨"Task", [⟨"Age", .int32, false⟩, ⟨"Name", .string, false⟩], []⟩
    let query := "age > 1 or not ( Name < \"x\" and Nam = 2)"
    let e : Expr := .or (.comparison ⟨"age", .greater, some (.one (.number ⟨1, 0⟩)), 0⟩)
      (.not (.and (.comparison ⟨"Name", .less, some (.one (.string "x")), 17⟩)
        (.comparison ⟨"Nam", .equal, some (.one (.number ⟨2, 0⟩)), 32⟩)))
    let err : QueryError := .located 17 (.unsupportedOperator .less "Name" .string)
    Condition.ofQuery ⟨[task], none⟩ task .empty query = .error err ∧
      (∃ p, err.position = some p ∧ p ≤ query.length ∧ IsPlace query.toList p) ∧
      ∃ ts, tokenize query = .ok ts ∧ Expr.ofTokens ts = .ok e ∧
        e.LowersInOrder ⟨[task], none⟩ task .empty query (ts.takeWhile (·.kind ≠ .eof)) := by
  intro task query e err
  have herr : Condition.ofQuery ⟨[task], none⟩ task .empty query = .error err := by
    apply error?_eq_some_iff.1
    decide +kernel
  have hread : (tokenize query >>= Expr.ofTokens) = .ok e := by
    apply toOption_eq_some_iff.1
    decide +kernel
  obtain ⟨ts, hts, he⟩ := bind_eq_ok_iff.1 hread
  obtain ⟨hpoints, hlowers⟩ := ofQuery_blames_first ⟨[task], none⟩ task .empty query
  exact ⟨herr, hpoints err herr, ts, hts, he, hlowers ts e hts he⟩

end RecordQuery
