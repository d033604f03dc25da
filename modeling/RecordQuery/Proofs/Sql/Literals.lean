import RecordQuery.Condition.Clause
import RecordQuery.Filter
import RecordQuery.Proofs.Typing

/-!
# Literals and the clause

The literals of a query stay out of the text of its clause. Expressions that differ in their literals
alone, null aside, have conditions that differ in their values alone, and such conditions have one clause:

    e.Resembles e'  →  Condition.ofExpr schema root aliases e = .ok d  →
      Condition.ofExpr schema root aliases e' = .ok d'  →  d.Resembles d'    (resembles_of_ofExpr)
    d.Resembles d'  →  d'.clause = d.clause                                  (Condition.Resembles.clause_eq)

What a literal does come to is a parameter, and which one depends on nothing but the literal and the
chain and operator that it stands with:

    Condition.ofExpr schema root aliases e = .ok d  →
      d.parameters.map some = (e.bindings schema root aliases).map Sql.Binding.value?
                                                                             (parameters_eq_bindings)
-/

namespace RecordQuery

/-! ## Expressions with other literals -/

/-- The operand has other literals, and null where the first has null. A list may have any literals, as
many as the first. -/
inductive Operand.Resembles : Operand → Operand → Prop
  | one {l l' : Literal} : (l = .null ↔ l' = .null) → Resembles (.one l) (.one l')
  | list {ls ls' : List Literal} : ls.length = ls'.length → Resembles (.list ls) (.list ls')

/-- The comparison has the path and the operator of the first, and an operand if the first has one, which
differs in its literals alone. -/
structure Comparison.Resembles (c c' : Comparison) : Prop where
  path : c.path = c'.path
  operator : c.operator = c'.operator
  operand : Option.Rel Operand.Resembles c.operand c'.operand

/-- The expression differs from the first in its literals alone. -/
inductive Expr.Resembles : Expr → Expr → Prop
  | and {l l' r r' : Expr} : Resembles l l' → Resembles r r' → Resembles (.and l r) (.and l' r')
  | or {l l' r r' : Expr} : Resembles l l' → Resembles r r' → Resembles (.or l r) (.or l' r')
  | not {e e' : Expr} : Resembles e e' → Resembles (.not e) (.not e')
  | comparison {c c' : Comparison} : c.Resembles c' → Resembles (.comparison c) (.comparison c')

/-! ## Conditions with other values -/

/-- The test has other values, as many as the first. -/
inductive Test.Resembles : Test → Test → Prop
  | isNull : Resembles .isNull .isNull
  | isNotNull : Resembles .isNotNull .isNotNull
  | compare (op : Comparator) (v v' : Scalar) : Resembles (.compare op v) (.compare op v')
  | text (op : TextOperator) (needle needle' : String) : Resembles (.text op needle) (.text op needle')
  | isIn {vs vs' : List Scalar} : vs.length = vs'.length → Resembles (.isIn vs) (.isIn vs')

/-- The condition has the constants, connectives and chains of the first, and tests that differ in their
values alone. -/
inductive Condition.Resembles : Condition → Condition → Prop
  | const (b : Bool) : Resembles (.const b) (.const b)
  | and {l l' r r' : Condition} : Resembles l l' → Resembles r r' → Resembles (.and l r) (.and l' r')
  | or {l l' r r' : Condition} : Resembles l l' → Resembles r r' → Resembles (.or l r) (.or l' r')
  | not {d d' : Condition} : Resembles d d' → Resembles (.not d) (.not d')
  | test (chain : Chain) {t t' : Test} : t.Resembles t' → Resembles (.test chain t) (.test chain t')

/-! ## Literals and parameters -/

/-- A place of a clause that takes a value: the chain that is tested, and the operator. -/
structure Sql.Site where
  chain : Chain
  operator : Operator
deriving DecidableEq, Repr

/-- What a literal is as a parameter: a pattern for the tests of a text, for all others a value of the
type. Null is no parameter. -/
def Sql.Site.value? (site : Sql.Site) (l : Literal) : Option Scalar :=
  match site.operator.textOperator? with
  | some op =>
    match l with
    | .string needle => some (.text (op.pattern needle))
    | _ => none
  | none => (l.coerce site.chain.type false site.chain.path).toOption.join

/-- A literal and the place that it is meant for. -/
structure Sql.Binding where
  site : Sql.Site
  literal : Literal
deriving DecidableEq, Repr

/-- The parameter that a literal comes to. -/
def Sql.Binding.value? (b : Sql.Binding) : Option Scalar := b.site.value? b.literal

/-- The literals of an operand that call for a parameter. Null calls for none. -/
def Operand.bound : Operand → List Literal
  | one .null => []
  | one l => [l]
  | list ls => ls

/-- The literals of a comparison that call for a parameter. Null tests have none, whatever their operand. -/
def Comparison.bound (c : Comparison) : List Literal :=
  if c.operator = .isNull ∨ c.operator = .isNotNull then [] else c.operand.elim [] Operand.bound

/-- The literals of an expression that call for a parameter, from left to right, with their places. -/
def Expr.bindings (schema : Schema) (root : Shape) (aliases : Aliases) : Expr → List Sql.Binding
  | .and l r | .or l r => l.bindings schema root aliases ++ r.bindings schema root aliases
  | .not e => e.bindings schema root aliases
  | .comparison c =>
    match schema.resolve root aliases c.path with
    | .ok chain => c.bound.map (⟨⟨chain, c.operator⟩, ·⟩)
    | .error _ => []

/-! ## Lemmas -/

theorem Operand.bound_one {l : Literal} (h : l ≠ .null) : (Operand.one l).bound = [l] := by
  cases l with
  | null => exact absurd rfl h
  | _ => rfl

theorem Operand.Resembles.length_bound_eq {o o' : Operand} (h : o.Resembles o') :
    o'.bound.length = o.bound.length := by
  cases h with
  | @one l l' hnull =>
    by_cases hl : l = .null
    · rw [hl, hnull.1 hl]
    · rw [bound_one hl, bound_one ((not_congr hnull).1 hl)]
      rfl
  | list hlength => exact hlength.symm

namespace Comparison

variable {c c' : Comparison}

theorem bound_of_null_test (h : c.operator = .isNull ∨ c.operator = .isNotNull) : c.bound = [] :=
  if_pos h

theorem bound_of_operand (hnull : c.operator ≠ .isNull) (hnotNull : c.operator ≠ .isNotNull) {o : Operand}
    (ho : c.operand = some o) : c.bound = o.bound := by
  unfold bound
  rw [if_neg (not_or.2 ⟨hnull, hnotNull⟩), ho]
  rfl

theorem Resembles.length_bound_eq (h : c.Resembles c') : c'.bound.length = c.bound.length := by
  have hoperand := h.operand
  unfold bound
  rw [h.operator]
  split
  · rfl
  · generalize c.operand = o, c'.operand = o' at hoperand ⊢
    cases hoperand with
    | none => rfl
    | some ho => exact ho.length_bound_eq

end Comparison

theorem Test.Resembles.clause_eq {t t' : Test} (h : t.Resembles t') (column : String) (mayBeNull : Bool) :
    t'.clause column mayBeNull = t.clause column mayBeNull := by
  cases h with
  | isNull => rfl
  | isNotNull => rfl
  | compare op _ _ => cases op <;> rfl
  | text _ _ _ => rfl
  | isIn hlength => simp only [Test.clause, List.map_const', hlength]

theorem Test.Resembles.length_parameters_eq {t t' : Test} (h : t.Resembles t') :
    t'.parameters.length = t.parameters.length := by
  cases h with
  | isIn hlength => exact hlength.symm
  | _ => rfl

theorem Test.Resembles.refl (t : Test) : t.Resembles t := by
  cases t with
  | isNull => exact .isNull
  | isNotNull => exact .isNotNull
  | compare op v => exact .compare op v v
  | text op needle => exact .text op needle needle
  | isIn vs => exact .isIn rfl

namespace Condition

variable {d d' : Condition}

/-- Conditions that differ in their values alone have one clause. -/
theorem Resembles.clause_eq (h : d.Resembles d') : d'.clause = d.clause := by
  induction h with
  | const b => rfl
  | and _ _ ihl ihr => rw [clause, clause, ihl, ihr]
  | or _ _ ihl ihr => rw [clause, clause, ihl, ihr]
  | not _ ih => rw [clause, clause, ih]
  | test chain ht => exact ht.clause_eq _ _

theorem Resembles.length_parameters_eq (h : d.Resembles d') :
    d'.parameters.length = d.parameters.length := by
  induction h with
  | const b => rfl
  | and _ _ ihl ihr => simp only [parameters, List.length_append, ihl, ihr]
  | or _ _ ihl ihr => simp only [parameters, List.length_append, ihl, ihr]
  | not _ ih => exact ih
  | test chain ht => exact ht.length_parameters_eq

theorem Resembles.refl (d : Condition) : d.Resembles d := by
  induction d with
  | const b => exact .const b
  | and l r ihl ihr => exact .and ihl ihr
  | or l r ihl ihr => exact .or ihl ihr
  | not d ih => exact .not ih
  | test chain t => exact .test chain (.refl t)

end Condition

namespace Typing

variable {chain : Chain} {c c' : Comparison} {d d' : Condition}

/-! ## Comparisons -/

/-- Of two single literals in the same place both are null or none is. -/
theorem resembles_one (hc : c.Resembles c') {l l' : Literal} (hl : c.operand = some (.one l))
    (hl' : c'.operand = some (.one l')) : l = .null ↔ l' = .null := by
  have hoperand := hc.operand
  rw [hl, hl'] at hoperand
  obtain ⟨⟨hnull⟩⟩ := hoperand
  exact hnull

/-- Comparisons that differ in their literals alone state conditions that differ in their values alone. -/
theorem resembles_of_states (hc : c.Resembles c') (h : States chain c d) (h' : States chain c' d') :
    d.Resembles d' := by
  cases h with
  | isNull hop =>
    rw [(states_isNull_iff (hc.operator.symm.trans hop)).1 h']
    exact .refl _
  | isNotNull hop =>
    rw [(states_isNotNull_iff (hc.operator.symm.trans hop)).1 h']
    exact .refl _
  | @null op hop _ hl _ =>
    -- the other literal is null as well, and so has no value to compare with
    rw [hc.operator] at hop
    obtain ⟨_, l', hl', ⟨_, _, rfl⟩ | ⟨_, v', hv', _⟩⟩ := (states_comparator_iff hop).1 h'
    · exact .refl _
    · exact absurd ((resembles_one hc hl hl').1 rfl) (ne_null_of_coerce hv')
  | @value op l v _ hop _ hl hv =>
    rw [hc.operator] at hop
    obtain ⟨_, l', hl', ⟨hnull, _, _⟩ | ⟨_, v', _, rfl⟩⟩ := (states_comparator_iff hop).1 h'
    · exact absurd ((resembles_one hc hl hl').2 hnull) (ne_null_of_coerce hv)
    · exact .test chain (.compare op v v')
  | @text op needle _ hop _ =>
    rw [hc.operator] at hop
    obtain ⟨_, needle', _, rfl⟩ := (states_text_iff hop).1 h'
    exact .test chain (.text op needle needle')
  | @list ls vs _ _ hop hls hvs =>
    have hoperand := hc.operand
    rw [hc.operator] at hop
    rw [hls] at hoperand
    cases hoperand' : c'.operand with
    | none => rw [hoperand'] at hoperand; cases hoperand
    | some o =>
      rw [hoperand'] at hoperand
      obtain _ | ⟨hlength⟩ := Option.rel_some_some.1 hoperand
      obtain ⟨_, _, vs', hvs', rfl⟩ := (states_isIn_iff hop hoperand').1 h'
      refine .test chain (.isIn ?_)
      rw [← length_eq_of_values hvs, hlength, length_eq_of_values hvs']

/-- A literal with a value comes to it where no part of a text is tested. -/
theorem value?_of_coerce {op : Operator} {l : Literal} {v : Scalar} {nullable : Bool}
    (hop : op.textOperator? = none) (hv : l.coerce chain.type nullable chain.path = .ok (some v)) :
    Sql.Site.value? ⟨chain, op⟩ l = some v := by
  unfold Sql.Site.value?
  rw [hop]
  dsimp only
  rw [coerce_eq_some_of_nullable hv]
  rfl

theorem parameters_nullTest (chain : Chain) (isNull : Bool) : (nullTest chain isNull).parameters = [] := by
  unfold nullTest
  cases chain.isNullable with
  | false => rfl
  | true => cases isNull <;> rfl

/-- The parameters of a comparison are what its literals come to. -/
theorem parameters_eq_bound (h : States chain c d) :
    d.parameters.map some = c.bound.map (Sql.Site.value? ⟨chain, c.operator⟩) := by
  cases h with
  | isNull hop =>
    rw [Comparison.bound_of_null_test (.inl hop), parameters_nullTest]
    rfl
  | isNotNull hop =>
    rw [Comparison.bound_of_null_test (.inr hop), parameters_nullTest]
    rfl
  | @null op hop _ hl _ =>
    obtain ⟨hnull, hnotNull⟩ := ne_isNull_of_comparator hop
    rw [Comparison.bound_of_operand hnull hnotNull hl]
    cases op <;> rfl
  | @value op l v _ hop _ hl hv =>
    obtain ⟨hnull, hnotNull⟩ := ne_isNull_of_comparator hop
    rw [Comparison.bound_of_operand hnull hnotNull hl, Operand.bound_one (ne_null_of_coerce hv),
      List.map_singleton, value?_of_coerce (eq_none_of_comparator hop).1 hv]
    rfl
  | @text op needle _ hop hl =>
    have hvalue : Sql.Site.value? ⟨chain, c.operator⟩ (.string needle) =
        some (.text (op.pattern needle)) := by
      unfold Sql.Site.value?
      rw [hop]
    obtain ⟨hnull, hnotNull⟩ := ne_isNull_of_textOperator hop
    rw [Comparison.bound_of_operand hnull hnotNull hl, Operand.bound_one Literal.noConfusion,
      List.map_singleton, hvalue]
    rfl
  | @list ls vs _ _ hop hls hvs =>
    rw [Comparison.bound_of_operand (by rw [hop]; decide) (by rw [hop]; decide) hls, hop]
    have hvalues := congrArg (List.map fun o : Except Fault (Option Scalar) => o.toOption.join) hvs
    rw [List.map_map, List.map_map] at hvalues
    exact hvalues.symm

/-! ## Expressions -/

variable {schema : Schema} {root : Shape} {aliases : Aliases} {e e' : Expr}

/-- Expressions that differ in their literals alone have conditions that differ in their values alone. -/
theorem resembles_of_translates (he : e.Resembles e') (h : Translates schema root aliases e d)
    (h' : Translates schema root aliases e' d') : d.Resembles d' := by
  induction he generalizing d d' with
  | and _ _ ihl ihr =>
    cases h with | and hl hr =>
    cases h' with | and hl' hr' =>
    exact .and (ihl hl hl') (ihr hr hr')
  | or _ _ ihl ihr =>
    cases h with | or hl hr =>
    cases h' with | or hl' hr' =>
    exact .or (ihl hl hl') (ihr hr hr')
  | not _ ih =>
    cases h with | not h =>
    cases h' with | not h' =>
    exact .not (ih h h')
  | comparison hc =>
    cases h with | comparison hpath hd =>
    cases h' with | comparison hpath' hd' =>
    rw [← hc.path] at hpath'
    cases hpath.symm.trans hpath'
    exact resembles_of_states hc hd hd'

/-- The parameters of a condition are what the literals of its expression come to, in their order. -/
theorem parameters_eq_bindings (h : Translates schema root aliases e d) :
    d.parameters.map some = (e.bindings schema root aliases).map Sql.Binding.value? := by
  induction h with
  | and _ _ ihl ihr => simp only [Condition.parameters, Expr.bindings, List.map_append, ihl, ihr]
  | or _ _ ihl ihr => simp only [Condition.parameters, Expr.bindings, List.map_append, ihl, ihr]
  | not _ ih => exact ih
  | comparison hpath hd =>
    rw [Expr.bindings, hpath, parameters_eq_bound hd, List.map_map]
    rfl

end Typing

/-- The literals of expressions that differ in their literals alone stand at the same places. -/
theorem sites_eq_of_resembles (schema : Schema) (root : Shape) (aliases : Aliases) {e e' : Expr}
    (h : e.Resembles e') : (e'.bindings schema root aliases).map (·.site) =
      (e.bindings schema root aliases).map (·.site) := by
  induction h with
  | and _ _ ihl ihr => simp only [Expr.bindings, List.map_append, ihl, ihr]
  | or _ _ ihl ihr => simp only [Expr.bindings, List.map_append, ihl, ihr]
  | not _ ih => exact ih
  | @comparison c c' hc =>
    rw [Expr.bindings, Expr.bindings, ← hc.path]
    cases schema.resolve root aliases c.path with
    | error _ => rfl
    | ok chain =>
      simp only [List.map_map, Function.comp_def, List.map_const', hc.length_bound_eq, hc.operator]

/-! ## Top theorem (proved from the lemmas above) -/

/-- No literal has a say in the text of a clause. Two accepted expressions that differ in their literals
alone, null aside, have the same clause and as many parameters, the literals of the one stand at the places
of those of the other, and the parameters of each are what its literals come to at these places. -/
theorem clause_of_resembling {schema : Schema} {root : Shape} {aliases : Aliases} {e e' : Expr}
    {d d' : Condition} (he : e.Resembles e') (h : Condition.ofExpr schema root aliases e = .ok d)
    (h' : Condition.ofExpr schema root aliases e' = .ok d') :
    let q := SqlFilter.ofCondition d
    let q' := SqlFilter.ofCondition d'
    let bs := e.bindings schema root aliases
    let bs' := e'.bindings schema root aliases
    q'.clause = q.clause ∧ q'.parameters.length = q.parameters.length ∧
      bs'.map (·.site) = bs.map (·.site) ∧
      q.parameters.map some = bs.map Sql.Binding.value? ∧
      q'.parameters.map some = bs'.map Sql.Binding.value? := by
  intro q q' bs bs'
  have htrans := Typing.ofExpr_eq_ok_iff.1 h
  have htrans' := Typing.ofExpr_eq_ok_iff.1 h'
  have hd : d.Resembles d' := Typing.resembles_of_translates he htrans htrans'
  exact ⟨hd.clause_eq, hd.length_parameters_eq, sites_eq_of_resembles schema root aliases he,
    Typing.parameters_eq_bindings htrans, Typing.parameters_eq_bindings htrans'⟩

/-- Quotes, marks and wildcards of a literal and the kinds of literals in a list are nothing to the clause. -/
theorem clause_of_resembling_quoted :
    let task : Shape := ⟨"Task", [⟨"Title", .string, true⟩, ⟨"Effort", .int32, true⟩], []⟩
    let query (title : String) (first : Literal) : Expr :=
      .and (.comparison ⟨"title", .contains, some (.one (.string title)), 0⟩)
        (.comparison ⟨"effort", .isIn, some (.list [first, .number ⟨2, 0⟩]), 4⟩)
    ∃ d d', Condition.ofExpr ⟨[task], none⟩ task .empty (query "a" (.number ⟨1, 0⟩)) = .ok d ∧
      Condition.ofExpr ⟨[task], none⟩ task .empty (query "' OR ?=?%" (.string "7")) = .ok d' ∧
      d'.clause = d.clause ∧ d.parameters = [.text "%a%", .int 1, .int 2] ∧
      d'.parameters = [.text "%' OR ?=?\\%%", .int 7, .int 2] := by
  intro task query
  let d (title : String) (n : Int) : Condition :=
    .and (.test ⟨[], ⟨"Title", .string, true⟩⟩ (.text .contains title))
      (.test ⟨[], ⟨"Effort", .int32, true⟩⟩ (.isIn [.int n, .int 2]))
  have h : Condition.ofExpr ⟨[task], none⟩ task .empty (query "a" (.number ⟨1, 0⟩)) = .ok (d "a" 1) :=
    toOption_eq_some_iff.1 (by decide +kernel)
  have h' : Condition.ofExpr ⟨[task], none⟩ task .empty (query "' OR ?=?%" (.string "7")) =
      .ok (d "' OR ?=?%" 7) := toOption_eq_some_iff.1 (by decide +kernel)
  have he : (query "a" (.number ⟨1, 0⟩)).Resembles (query "' OR ?=?%" (.string "7")) :=
    .and (.comparison ⟨rfl, rfl, .some (.one (by simp))⟩) (.comparison ⟨rfl, rfl, .some (.list rfl)⟩)
  obtain ⟨hclause, _⟩ := clause_of_resembling he h h'
  exact ⟨_, _, h, h', hclause, by decide +kernel, by decide +kernel⟩

end RecordQuery
