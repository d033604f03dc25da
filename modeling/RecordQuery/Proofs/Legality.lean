import RecordQuery.Proofs.Accepted
import RecordQuery.Proofs.Kinds
import RecordQuery.Proofs.Names

/-!
# Legal comparisons

`Comparison.Legal` lists the comparisons that a field allows: by its type, by the operator, and by what
stands on its right. An expression becomes a condition exactly when all its paths resolve and all its
comparisons are legal, however it was made, and the condition is then well typed: null tests are of fields
that can be null, values are of the kind of their field's type, and only types with an order are ordered.

The checker takes for granted that an operator which is left at the end is a comparator.
`Typing.cascade?` goes through its cases one by one and has no answer where that is not so, which never
comes up.

    (∃ d, Condition.ofExpr schema root aliases e = .ok d)  ↔
      e.Comparisons fun c => ∃ chain, schema.resolve root aliases c.path = .ok chain ∧ c.Legal chain
      (ofExpr_ok_iff_legal)
-/

namespace RecordQuery

/-! ## Legal comparisons and well-typed tests -/

/-- The literal can be read as a value of the type of the chain. -/
def Literal.IsValueOf (l : Literal) (chain : Chain) : Prop :=
  ∃ v, l.coerce chain.type chain.isNullable chain.path = .ok (some v)

/-- The field at the end of the chain allows the comparison. -/
inductive Comparison.Legal (chain : Chain) (c : Comparison) : Prop
  | nullTest : c.operator = .isNull ∨ c.operator = .isNotNull → Legal chain c
  | reference :
      chain.type.isRecord = true → c.operator = .equal ∨ c.operator = .notEqual →
      c.operand = some (.one .null) → Legal chain c
  | textEquality {l : Literal} :
      chain.type = .string → c.operator = .equal ∨ c.operator = .notEqual →
      c.operand = some (.one l) → Legal chain c
  | textPart {s : String} :
      chain.type = .string → c.operator.isText = true → c.operand = some (.one (.string s)) →
      Legal chain c
  | membership {ls : List Literal} :
      chain.type.isRecord = false → chain.type ≠ .string → c.operator = .isIn →
      c.operand = some (.list ls) → (∀ l ∈ ls, l ≠ .null ∧ l.IsValueOf chain) → Legal chain c
  | value {l : Literal} :
      chain.type.isRecord = false → chain.type ≠ .string →
      c.operator = .equal ∨ c.operator = .notEqual ∨
        c.operator.isOrdering = true ∧ chain.type.isOrdered = true →
      c.operand = some (.one l) → (l = .null ∧ chain.isNullable = true ∨ l.IsValueOf chain) →
      Legal chain c

/-- Does the comparator ask for an order? -/
def Comparator.isOrdering (op : Comparator) : Bool := op ≠ .eq && op ≠ .ne

/-- The test suits the value at the end of the chain. -/
def Test.WellTyped (chain : Chain) : Test → Prop
  | isNull | isNotNull => chain.isNullable = true
  | compare op v => v.suits chain.type = true ∧ (op.isOrdering = true → chain.type.isOrdered = true)
  | text _ _ => chain.type = .string
  | isIn vs => chain.type.isRecord = false ∧ chain.type ≠ .string ∧ ∀ v ∈ vs, v.suits chain.type = true

/-- A value at the end of the chain can be null unless its type is a value type. -/
def Chain.WellFormed (chain : Chain) : Prop :=
  chain.type.isValueType = false → chain.isNullable = true

/-- The cases of the checker one by one, each of what the ones before have left. The last one wants a
comparator and has no answer without one. -/
def Typing.cascade? (chain : Chain) (c : Comparison) : Option (Except Fault Condition) :=
  let unsupported := Except.error (Fault.unsupportedOperator c.operator chain.path chain.type)
  if c.operator = .isNull then some (.ok (nullTest chain true))
  else if c.operator = .isNotNull then some (.ok (nullTest chain false))
  else if chain.type.isRecord then some (onRecord chain c)
  else if chain.type = .string ∧ c.operator ≠ .equal ∧ c.operator ≠ .notEqual ∧ ¬ c.operator.isText then
    some unsupported
  else if chain.type ≠ .string ∧ c.operator.isText then
    some (.error (.textOperatorOnType c.operator chain.path chain.type))
  else
    match c.operator.textOperator? with
    | some op => some (textTest chain c op)
    | none =>
      if c.operator = .isIn then some (membership chain c)
      else if c.operator.isOrdering ∧ ¬ chain.type.isOrdered then some unsupported
      else c.operator.comparator?.map (comparison chain c)

/-! ## Resolved chains -/

theorem leads_wellFormed {schema : Schema} {shape : Shape} {chain : Chain}
    (h : schema.Leads shape chain) : chain.WellFormed := by
  induction h with
  | @last _ p _ =>
    intro htype
    show (p.optional || !p.type.isValueType) = true
    rw [show p.type.isValueType = false from htype, Bool.not_false, Bool.or_true]
  | @cons _ _ _ _ tail _ _ _ _ ih =>
    have hinner : tail.WellFormed := ih
    exact hinner

theorem resolve_wellFormed {schema : Schema} {root : Shape} {aliases : Aliases} {path : String}
    {chain : Chain} (h : schema.resolve root aliases path = .ok chain) : chain.WellFormed :=
  leads_wellFormed (leads_of_resolve h)

namespace Typing

variable {chain : Chain} {c : Comparison} {d : Condition}

/-! ## The cases of the checker -/

/-- The case without an answer does not come up, and the others are those of the checker. -/
theorem cascade?_eq (chain : Chain) (c : Comparison) : cascade? chain c = some (ofChain chain c) := by
  obtain ⟨before, ⟨name, type, nullable⟩⟩ := chain
  obtain ⟨path, op, operand, position⟩ := c
  cases op <;> cases type <;> rfl

/-- A comparator asks for equality or for an order. -/
theorem equality_or_ordering {op : Operator} {k : Comparator} (h : op.comparator? = some k) :
    op = .equal ∨ op = .notEqual ∨ op.isOrdering = true := by
  cases op <;> first | exact .inl rfl | exact .inr (.inl rfl) | exact .inr (.inr rfl) | cases h

theorem equality_of_unordered {op : Operator} {k : Comparator} {type : FieldType}
    (h : op.comparator? = some k) (hord : OrderSuits type op) (htype : type.isOrdered = false) :
    op = .equal ∨ op = .notEqual := by
  rcases equality_or_ordering h with hop | hop | hop
  · exact .inl hop
  · exact .inr hop
  · rw [hord hop] at htype
    cases htype

theorem isOrdered_of_isRecord {type : FieldType} (h : type.isRecord = true) : type.isOrdered = false := by
  cases type <;> first | rfl | cases h

/-- What the checker takes is legal. -/
theorem legal_of_states (h : States chain c d) : c.Legal chain := by
  cases h with
  | isNull hop => exact .nullTest (.inl hop)
  | isNotNull hop => exact .nullTest (.inr hop)
  | null hop hord hl hn =>
    cases hrec : chain.type.isRecord with
    | true => exact .reference hrec (equality_of_unordered hop hord (isOrdered_of_isRecord hrec)) hl
    | false =>
      by_cases htype : chain.type = .string
      · exact .textEquality htype (equality_of_unordered hop hord (by rw [htype]; rfl)) hl
      · refine .value hrec htype ?_ hl (.inl ⟨rfl, hn hrec⟩)
        exact (equality_or_ordering hop).imp_right (Or.imp_right fun ho => ⟨ho, hord ho⟩)
  | value hrec hop hord hl hv =>
    by_cases htype : chain.type = .string
    · exact .textEquality htype (equality_of_unordered hop hord (by rw [htype]; rfl)) hl
    · refine .value hrec htype ?_ hl (.inr ⟨_, hv⟩)
      exact (equality_or_ordering hop).imp_right (Or.imp_right fun ho => ⟨ho, hord ho⟩)
  | text htype hop hl =>
    refine .textPart htype ?_ hl
    cases hc : c.operator <;> rw [hc] at hop <;> first | rfl | cases hop
  | @list ls vs hrec htype hop hls hvs =>
    refine .membership hrec htype hop hls fun l hl => ?_
    obtain ⟨v, _, hv⟩ := exists_value_of_mem hvs chain.isNullable hl
    exact ⟨ne_null_of_coerce hv, v, hv⟩

/-- A text field takes the text of any literal but null. -/
theorem isValueOf_string {l : Literal} (htype : chain.type = .string) (hl : l ≠ .null) :
    l.IsValueOf chain := by
  unfold Literal.IsValueOf
  rw [htype]
  cases l with
  | null => exact absurd rfl hl
  | _ => exact ⟨_, rfl⟩

/-- Literals that are values one by one are values as a list. -/
theorem exists_values {ls : List Literal} (h : ∀ l ∈ ls, l.IsValueOf chain) :
    ∃ vs : List Scalar,
      ls.map (·.coerce chain.type false chain.path) = vs.map (fun v => .ok (some v)) := by
  induction ls with
  | nil => exact ⟨[], rfl⟩
  | cons l ls ih =>
    obtain ⟨v, hv⟩ := h l List.mem_cons_self
    obtain ⟨vs, hvs⟩ := ih fun m hm => h m (List.mem_cons_of_mem l hm)
    exact ⟨v :: vs, by rw [List.map_cons, List.map_cons, hvs, coerce_eq_some_of_nullable hv]⟩

/-- A comparator whose operand is null or a value of the type states a condition. -/
theorem exists_states_of_comparator {k : Comparator} {l : Literal} (hrec : chain.type.isRecord = false)
    (hop : c.operator.comparator? = some k) (hord : OrderSuits chain.type c.operator)
    (hl : c.operand = some (.one l))
    (hv : l = .null ∧ chain.isNullable = true ∨ l.IsValueOf chain) : ∃ d, States chain c d := by
  rcases hv with ⟨rfl, hn⟩ | ⟨v, hv⟩
  · exact ⟨_, .null hop hord hl fun _ => hn⟩
  · exact ⟨_, .value hrec hop hord hl hv⟩

theorem exists_comparator {op : Operator} (h : op = .equal ∨ op = .notEqual ∨ op.isOrdering = true) :
    ∃ k, op.comparator? = some k := by
  rcases h with rfl | rfl | h
  · exact ⟨.eq, rfl⟩
  · exact ⟨.ne, rfl⟩
  · cases op <;> first | exact ⟨_, rfl⟩ | cases h

theorem orderSuits_of_equality {op : Operator} (h : op = .equal ∨ op = .notEqual) (type : FieldType) :
    OrderSuits type op := by
  rcases h with rfl | rfl <;> exact orderSuits_of_not_isOrdering rfl type

theorem exists_states_of_legal (hchain : chain.WellFormed) (h : c.Legal chain) :
    ∃ d, States chain c d := by
  cases h with
  | nullTest hop =>
    rcases hop with hop | hop
    · exact ⟨_, .isNull hop⟩
    · exact ⟨_, .isNotNull hop⟩
  | reference hrec hop hl =>
    obtain ⟨k, hk⟩ := exists_comparator (hop.imp_right .inl)
    exact ⟨_, .null hk (orderSuits_of_equality hop _) hl fun h => by rw [hrec] at h; cases h⟩
  | @textEquality l htype hop hl =>
    obtain ⟨k, hk⟩ := exists_comparator (hop.imp_right .inl)
    refine exists_states_of_comparator (by rw [htype]; rfl) hk (orderSuits_of_equality hop _) hl ?_
    by_cases hnull : l = .null
    · exact .inl ⟨hnull, hchain (by rw [htype]; rfl)⟩
    · exact .inr (isValueOf_string htype hnull)
  | textPart htype hop hl =>
    have hk : ∃ k, c.operator.textOperator? = some k := by
      cases hc : c.operator <;> rw [hc] at hop <;> first | exact ⟨_, rfl⟩ | cases hop
    obtain ⟨k, hk⟩ := hk
    exact ⟨_, .text htype hk hl⟩
  | membership hrec htype hop hls hvalues =>
    obtain ⟨vs, hvs⟩ := exists_values fun l hl => (hvalues l hl).2
    exact ⟨_, .list hrec htype hop hls hvs⟩
  | value hrec htype hop hl hv =>
    obtain ⟨k, hk⟩ := exists_comparator (hop.imp_right (Or.imp_right And.left))
    refine exists_states_of_comparator hrec hk ?_ hl hv
    intro hord
    rcases hop with hop | hop | hop
    · rw [hop] at hord; cases hord
    · rw [hop] at hord; cases hord
    · exact hop.2

/-! ## Types of the tests -/

theorem againstNull_wellTyped (h : chain.isNullable = true) (op : Comparator) :
    (againstNull chain op).Tests fun chain' t => chain' = chain ∧ t.WellTyped chain := by
  cases op with
  | eq => exact ⟨rfl, h⟩
  | ne => exact ⟨rfl, h⟩
  | _ => trivial

theorem nullTest_wellTyped (chain : Chain) (isNull : Bool) :
    (nullTest chain isNull).Tests fun chain' t => chain' = chain ∧ t.WellTyped chain := by
  unfold nullTest
  split
  · next h => cases isNull <;> exact ⟨rfl, h⟩
  · trivial

theorem isOrdering_of_comparator {op : Operator} {k : Comparator} (h : op.comparator? = some k) :
    k.isOrdering = op.isOrdering := by
  cases op <;> cases h <;> rfl

/-- The condition of a comparison tests its own chain, and suits it. -/
theorem states_wellTyped (hchain : chain.WellFormed) (h : States chain c d) :
    d.Tests fun chain' t => chain' = chain ∧ t.WellTyped chain := by
  cases h with
  | isNull _ => exact nullTest_wellTyped chain true
  | isNotNull _ => exact nullTest_wellTyped chain false
  | null _ _ _ hn =>
    apply againstNull_wellTyped
    cases hrec : chain.type.isRecord with
    | false => exact hn hrec
    | true =>
      apply hchain
      cases ht : chain.type <;> rw [ht] at hrec <;> first | rfl | cases hrec
  | value _ hop hord _ hv =>
    refine ⟨rfl, coerce_suits hv, fun h => hord ?_⟩
    rw [← isOrdering_of_comparator hop]
    exact h
  | text htype _ _ => exact ⟨rfl, htype⟩
  | @list ls vs hrec htype _ _ hvs =>
    refine ⟨rfl, hrec, htype, fun v hv => ?_⟩
    obtain ⟨l, _, hl⟩ := exists_literal_of_mem hvs false hv
    exact coerce_suits hl

/-! ## Expressions -/

variable {schema : Schema} {root : Shape} {aliases : Aliases} {e : Expr}

theorem exists_translates_iff : (∃ d, Translates schema root aliases e d) ↔
    e.Comparisons fun c => ∃ chain, schema.resolve root aliases c.path = .ok chain ∧ c.Legal chain := by
  induction e with
  | and l r ihl ihr =>
    rw [Expr.Comparisons, ← ihl, ← ihr]
    constructor
    · rintro ⟨d, h⟩
      cases h with
      | and hl hr => exact ⟨⟨_, hl⟩, ⟨_, hr⟩⟩
    · rintro ⟨⟨cl, hl⟩, ⟨cr, hr⟩⟩
      exact ⟨_, .and hl hr⟩
  | or l r ihl ihr =>
    rw [Expr.Comparisons, ← ihl, ← ihr]
    constructor
    · rintro ⟨d, h⟩
      cases h with
      | or hl hr => exact ⟨⟨_, hl⟩, ⟨_, hr⟩⟩
    · rintro ⟨⟨cl, hl⟩, ⟨cr, hr⟩⟩
      exact ⟨_, .or hl hr⟩
  | not e ih =>
    rw [Expr.Comparisons, ← ih]
    constructor
    · rintro ⟨d, h⟩
      cases h with
      | not h => exact ⟨_, h⟩
    · rintro ⟨d, h⟩
      exact ⟨_, .not h⟩
  | comparison c =>
    rw [Expr.Comparisons]
    constructor
    · rintro ⟨d, h⟩
      cases h with
      | comparison hchain hd =>
        exact ⟨_, hchain, legal_of_states hd⟩
    · rintro ⟨chain, hchain, hlegal⟩
      obtain ⟨d, hd⟩ := exists_states_of_legal (resolve_wellFormed hchain) hlegal
      exact ⟨d, .comparison hchain hd⟩

theorem translates_wellTyped (h : Translates schema root aliases e d) :
    d.Tests fun chain t =>
      (∃ path, schema.resolve root aliases path = .ok chain) ∧ t.WellTyped chain := by
  induction h with
  | and _ _ ihl ihr => exact ⟨ihl, ihr⟩
  | or _ _ ihl ihr => exact ⟨ihl, ihr⟩
  | not _ ih => exact ih
  | comparison hchain hd =>
    refine (states_wellTyped (resolve_wellFormed hchain) hd).imp ?_
    rintro chain t ⟨rfl, ht⟩
    exact ⟨⟨_, hchain⟩, ht⟩

end Typing

/-! ## Top theorem (proved from the lemmas above) -/

/-- The case that the checker leaves open does not come up. An expression becomes a condition exactly when
all its comparisons are legal for the chains that their paths resolve to, and every test of the condition
is well typed. -/
theorem ofExpr_ok_iff_legal (schema : Schema) (root : Shape) (aliases : Aliases) (e : Expr) :
    (∀ chain c, Typing.cascade? chain c = some (Typing.ofChain chain c)) ∧
    ((∃ d, Condition.ofExpr schema root aliases e = .ok d) ↔
      e.Comparisons fun c =>
        ∃ chain, schema.resolve root aliases c.path = .ok chain ∧ c.Legal chain) ∧
    ∀ d, Condition.ofExpr schema root aliases e = .ok d →
      d.Tests fun chain t =>
        (∃ path, schema.resolve root aliases path = .ok chain) ∧ t.WellTyped chain := by
  refine ⟨Typing.cascade?_eq, ?_, fun d h => ?_⟩
  · simp only [Typing.ofExpr_eq_ok_iff]
    exact Typing.exists_translates_iff
  · exact Typing.translates_wellTyped (Typing.ofExpr_eq_ok_iff.1 h)

/-- A list without values is legal behind `in`, though no query can write it, and illegal elsewhere. -/
example :
    let task : Shape := ⟨"Task", [⟨"Effort", .int32, false⟩], []⟩
    let condition (op : Operator) := (Condition.ofExpr ⟨[task], none⟩ task .empty
      (.comparison ⟨"Effort", op, some (.list []), 0⟩)).toOption
    condition .isIn = some (.test ⟨[], ⟨"Effort", .int32, false⟩⟩ (.isIn [])) ∧
      condition .equal = none := by
  decide +kernel

end RecordQuery
