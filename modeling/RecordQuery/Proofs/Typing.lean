import RecordQuery.Condition.Typing
import RecordQuery.Proofs.Outcome

/-!
# Comparisons that suit their field

`Typing.States chain c d` says that the comparison `c` suits the type of the value at the end of
`chain`, and that it states the condition `d`. It lists the cases of the type checker with all that
each of them asks for:

    Typing.ofChain chain c = .ok d  ↔  Typing.States chain c d    (ofChain_eq_ok_iff)

`Typing.Translates` says the same of whole expressions: every path resolves and every comparison suits.

    Condition.ofExpr schema root aliases e = .ok d  ↔  Translates schema root aliases e d
      (ofExpr_eq_ok_iff)
-/

namespace RecordQuery

namespace Typing

/-! ## Algorithm -/

/-- What a comparison with null states: null is equal to null only, and in no order with anything. -/
def againstNull (chain : Chain) : Comparator → Condition
  | .eq => .test chain .isNull
  | .ne => .test chain .isNotNull
  | _ => .const false

/-- Operators that ask for an order need a type that has one. -/
def OrderSuits (type : FieldType) (op : Operator) : Prop := op.isOrdering = true → type.isOrdered = true

/-- The comparison suits its field and states the condition. -/
inductive States (chain : Chain) (c : Comparison) : Condition → Prop
  | isNull : c.operator = .isNull → States chain c (nullTest chain true)
  | isNotNull : c.operator = .isNotNull → States chain c (nullTest chain false)
  | null {op : Comparator} :
      c.operator.comparator? = some op → OrderSuits chain.type c.operator →
      c.operand = some (.one .null) → (chain.type.isRecord = false → chain.isNullable = true) →
      States chain c (againstNull chain op)
  | value {op : Comparator} {l : Literal} {v : Scalar} :
      chain.type.isRecord = false → c.operator.comparator? = some op →
      OrderSuits chain.type c.operator → c.operand = some (.one l) →
      l.coerce chain.type chain.isNullable chain.path = .ok (some v) →
      States chain c (.test chain (.compare op v))
  | text {op : TextOperator} {needle : String} :
      chain.type = .string → c.operator.textOperator? = some op →
      c.operand = some (.one (.string needle)) → States chain c (.test chain (.text op needle))
  | list {ls : List Literal} {vs : List Scalar} :
      chain.type.isRecord = false → chain.type ≠ .string → c.operator = .isIn →
      c.operand = some (.list ls) →
      ls.map (·.coerce chain.type false chain.path) = vs.map (fun v => .ok (some v)) →
      States chain c (.test chain (.isIn vs))

/-- Every path of the expression resolves, every comparison suits its field, and the condition has the
shape of the expression. -/
inductive Translates (schema : Schema) (root : Shape) (aliases : Aliases) : Expr → Condition → Prop
  | and {l r : Expr} {cl cr : Condition} :
      Translates schema root aliases l cl → Translates schema root aliases r cr →
      Translates schema root aliases (.and l r) (.and cl cr)
  | or {l r : Expr} {cl cr : Condition} :
      Translates schema root aliases l cl → Translates schema root aliases r cr →
      Translates schema root aliases (.or l r) (.or cl cr)
  | not {e : Expr} {d : Condition} :
      Translates schema root aliases e d → Translates schema root aliases (.not e) (.not d)
  | comparison {c : Comparison} {chain : Chain} {d : Condition} :
      schema.resolve root aliases c.path = .ok chain → States chain c d →
      Translates schema root aliases (.comparison c) d

end Typing

/-! ## Lemmas -/

theorem coerce_eq_none_iff {l : Literal} {type : FieldType} {nullable : Bool} {field : String} :
    l.coerce type nullable field = .ok none ↔ l = .null ∧ nullable = true := by
  cases l with
  | null => cases nullable <;> simp [Literal.coerce]
  | string s => simp [Literal.coerce, map_eq_ok_iff]
  | number d => simp [Literal.coerce, map_eq_ok_iff]
  | bool b => simp [Literal.coerce, map_eq_ok_iff]

/-- Whether null is allowed matters for null only. -/
theorem coerce_eq_some_of_nullable {l : Literal} {type : FieldType} {n n' : Bool} {field : String}
    {v : Scalar} (h : l.coerce type n field = .ok (some v)) : l.coerce type n' field = .ok (some v) := by
  cases l with
  | null => cases n <;> cases h
  | string s => exact h
  | number d => exact h
  | bool b => exact h

theorem ne_null_of_coerce {l : Literal} {type : FieldType} {nullable : Bool} {field : String} {v : Scalar}
    (h : l.coerce type nullable field = .ok (some v)) : l ≠ .null := by
  rintro rfl
  cases nullable <;> cases h

section

variable {type : FieldType} {field : String} {ls : List Literal} {vs : List Scalar}
  (h : ls.map (·.coerce type false field) = vs.map fun v => .ok (some v)) (nullable : Bool)

include h

/-- The literals of a list stand for its values, wherever else null may be allowed. -/
theorem exists_value_of_mem {l : Literal} (hl : l ∈ ls) :
    ∃ v ∈ vs, l.coerce type nullable field = .ok (some v) := by
  have hmem : l.coerce type false field ∈ vs.map fun v => .ok (some v) := h ▸ List.mem_map_of_mem hl
  obtain ⟨v, hv, heq⟩ := List.mem_map.1 hmem
  exact ⟨v, hv, coerce_eq_some_of_nullable heq.symm⟩

/-- A list has as many values as literals. -/
theorem length_eq_of_values : ls.length = vs.length := by
  simpa only [List.length_map] using congrArg List.length h

theorem exists_literal_of_mem {v : Scalar} (hv : v ∈ vs) :
    ∃ l ∈ ls, l.coerce type nullable field = .ok (some v) := by
  have hmem : Except.ok (some v) ∈ ls.map (·.coerce type false field) :=
    h ▸ List.mem_map_of_mem (f := fun v => Except.ok (some v)) hv
  obtain ⟨l, hl, heq⟩ := List.mem_map.1 hmem
  exact ⟨l, hl, coerce_eq_some_of_nullable heq⟩

end

namespace Typing

variable {chain : Chain} {c : Comparison} {d : Condition}

theorem single_eq_ok_iff {l : Literal} : single c = .ok l ↔ c.operand = some (.one l) := by
  unfold single
  constructor
  · intro h
    split at h
    · next heq => cases h; exact heq
    · cases h
  · intro h
    rw [h]

theorem onRecord_eq_ok_iff : onRecord chain c = .ok d ↔ c.operand = some (.one .null) ∧
    (c.operator = .equal ∧ d = .test chain .isNull ∨
      c.operator = .notEqual ∧ d = .test chain .isNotNull) := by
  unfold onRecord
  constructor
  · intro h
    obtain ⟨l, hl, h⟩ := bind_eq_ok_iff.1 h
    rw [single_eq_ok_iff] at hl
    split at h
    · next hop => cases h; exact ⟨hl, .inl ⟨hop, rfl⟩⟩
    · next hop => cases h; exact ⟨hl, .inr ⟨hop, rfl⟩⟩
    · cases h
  · rintro ⟨hl, ⟨hop, rfl⟩ | ⟨hop, rfl⟩⟩
    · rw [single_eq_ok_iff.2 hl, hop]
      rfl
    · rw [single_eq_ok_iff.2 hl, hop]
      rfl

theorem comparison_eq_ok_iff {op : Comparator} : comparison chain c op = .ok d ↔
    ∃ l, c.operand = some (.one l) ∧
      ((∃ v, l.coerce chain.type chain.isNullable chain.path = .ok (some v) ∧
          d = .test chain (.compare op v)) ∨
        l = .null ∧ chain.isNullable = true ∧ d = againstNull chain op) := by
  unfold comparison
  constructor
  · intro h
    obtain ⟨l, hl, hrest⟩ := bind_eq_ok_iff.1 h
    obtain ⟨v, hv, hd⟩ := bind_eq_ok_iff.1 hrest
    refine ⟨l, single_eq_ok_iff.1 hl, ?_⟩
    cases v with
    | some v => cases hd; exact .inl ⟨v, hv, rfl⟩
    | none =>
      obtain ⟨hnull, hn⟩ := coerce_eq_none_iff.1 hv
      refine .inr ⟨hnull, hn, ?_⟩
      cases op <;> (cases hd; rfl)
  · rintro ⟨l, hl, ⟨v, hv, rfl⟩ | ⟨rfl, hn, rfl⟩⟩
    · rw [single_eq_ok_iff.2 hl, ok_bind, hv]
      rfl
    · rw [single_eq_ok_iff.2 hl, ok_bind, coerce_eq_none_iff.2 ⟨rfl, hn⟩]
      cases op <;> rfl

theorem textTest_eq_ok_iff {op : TextOperator} : textTest chain c op = .ok d ↔
    ∃ needle, c.operand = some (.one (.string needle)) ∧ d = .test chain (.text op needle) := by
  unfold textTest
  constructor
  · intro h
    obtain ⟨l, hl, h⟩ := bind_eq_ok_iff.1 h
    rw [single_eq_ok_iff] at hl
    split at h
    · next needle => cases h; exact ⟨needle, hl, rfl⟩
    · cases h
  · rintro ⟨needle, hl, rfl⟩
    rw [single_eq_ok_iff.2 hl]
    rfl

theorem listValues_cons_ok {type : FieldType} {field : String} {l : Literal} {v : Scalar}
    (h : l.coerce type false field = .ok (some v)) (ls : List Literal) :
    listValues type field (l :: ls) = (listValues type field ls).map (v :: ·) := by
  have hnull : l = .null → False := by rintro rfl; cases h
  rw [listValues.eq_3 _ _ _ _ hnull, h]
  rfl

theorem listValues_cons_ne_ok {type : FieldType} {field : String} {l : Literal}
    (h : ∀ v, l.coerce type false field ≠ .ok (some v)) (ls : List Literal) (vs : List Scalar) :
    listValues type field (l :: ls) ≠ .ok vs := by
  intro hvs
  by_cases hnull : l = .null
  · subst hnull
    cases hvs
  · rw [listValues.eq_3 _ _ _ _ hnull] at hvs
    obtain ⟨o, ho, _⟩ := bind_eq_ok_iff.1 hvs
    cases o with
    | none => exact hnull (coerce_eq_none_iff.1 ho).1
    | some v => exact h v ho

/-- The values of a list are those of its literals, one for one. -/
theorem listValues_eq_ok_iff {type : FieldType} {field : String} {ls : List Literal}
    {vs : List Scalar} : listValues type field ls = .ok vs ↔
      ls.map (·.coerce type false field) = vs.map (fun v => .ok (some v)) := by
  induction ls generalizing vs with
  | nil => cases vs <;> simp [listValues]
  | cons l ls ih =>
    constructor
    · intro h
      by_cases hv : ∃ v, l.coerce type false field = .ok (some v)
      · obtain ⟨v, hv⟩ := hv
        rw [listValues_cons_ok hv] at h
        obtain ⟨rest, hrest, rfl⟩ := map_eq_ok_iff.1 h
        rw [List.map_cons, List.map_cons, hv, ih.1 hrest]
      · exact absurd h (listValues_cons_ne_ok (fun v h => hv ⟨v, h⟩) ls vs)
    · intro h
      cases vs with
      | nil => cases h
      | cons v vs =>
        obtain ⟨hv, hrest⟩ := List.cons_eq_cons.1 h
        rw [listValues_cons_ok hv, ih.2 hrest]
        rfl

theorem membership_eq_ok_iff : membership chain c = .ok d ↔ ∃ ls vs, c.operand = some (.list ls) ∧
    ls.map (·.coerce chain.type false chain.path) = vs.map (fun v => .ok (some v)) ∧
    d = .test chain (.isIn vs) := by
  unfold membership
  constructor
  · intro h
    split at h
    · next ls heq =>
      obtain ⟨vs, hvs, h⟩ := bind_eq_ok_iff.1 h
      cases h
      exact ⟨ls, vs, heq, listValues_eq_ok_iff.1 hvs, rfl⟩
    · cases h
  · rintro ⟨ls, vs, hls, hvs, rfl⟩
    rw [hls]
    simp only [listValues_eq_ok_iff.2 hvs, ok_bind]
    rfl

/-! ## The cases of the type checker -/

theorem orderSuits_of_not_isOrdering {op : Operator} (h : op.isOrdering = false) (type : FieldType) :
    OrderSuits type op := by
  intro hord
  rw [h] at hord
  cases hord

theorem states_of_comparison {op : Comparator} (hrec : chain.type.isRecord = false)
    (hop : c.operator.comparator? = some op) (hord : OrderSuits chain.type c.operator)
    (h : comparison chain c op = .ok d) : States chain c d := by
  obtain ⟨l, hl, ⟨v, hv, rfl⟩ | ⟨rfl, hn, rfl⟩⟩ := comparison_eq_ok_iff.1 h
  · exact .value hrec hop hord hl hv
  · exact .null hop hord hl fun _ => hn

theorem states_of_onRecord (hrec : chain.type.isRecord = true) (h : onRecord chain c = .ok d) :
    States chain c d := by
  have hnull : chain.type.isRecord = false → chain.isNullable = true := by
    intro hfalse
    rw [hrec] at hfalse
    cases hfalse
  obtain ⟨hl, ⟨hop, rfl⟩ | ⟨hop, rfl⟩⟩ := onRecord_eq_ok_iff.1 h
  · have heq : c.operator.comparator? = some .eq := by rw [hop]; rfl
    exact .null heq (orderSuits_of_not_isOrdering (by rw [hop]; rfl) _) hl hnull
  · have hne : c.operator.comparator? = some .ne := by rw [hop]; rfl
    exact .null hne (orderSuits_of_not_isOrdering (by rw [hop]; rfl) _) hl hnull

theorem states_of_onText (htype : chain.type = .string) (h : onText chain c = .ok d) :
    States chain c d := by
  have hrec : chain.type.isRecord = false := by rw [htype]; rfl
  unfold onText at h
  split at h
  · next hop =>
    exact states_of_comparison hrec (by rw [hop]; rfl)
      (orderSuits_of_not_isOrdering (by rw [hop]; rfl) _) h
  · next hop =>
    exact states_of_comparison hrec (by rw [hop]; rfl)
      (orderSuits_of_not_isOrdering (by rw [hop]; rfl) _) h
  · split at h
    · next op ht =>
      obtain ⟨needle, hl, rfl⟩ := textTest_eq_ok_iff.1 h
      exact .text htype ht hl
    · cases h

/-- The operator that is left when all others are gone. -/
theorem eq_isIn {op : Operator} (hnull : op ≠ .isNull) (hnotNull : op ≠ .isNotNull)
    (htext : ¬ op.isText = true) (hop : op.comparator? = none) : op = .isIn := by
  cases op <;> first | rfl | contradiction

theorem states_of_onValue (hrec : chain.type.isRecord = false) (htype : chain.type ≠ .string)
    (hnull : c.operator ≠ .isNull) (hnotNull : c.operator ≠ .isNotNull)
    (h : onValue chain c = .ok d) : States chain c d := by
  unfold onValue at h
  split at h
  · cases h
  · next htext =>
    split at h
    · cases h
    · next hguard =>
      have hord : OrderSuits chain.type c.operator := by
        intro hop
        simpa [hop] using hguard
      split at h
      · next op hop => exact states_of_comparison hrec hop hord h
      · next hop =>
        obtain ⟨ls, vs, hls, hvs, rfl⟩ := membership_eq_ok_iff.1 h
        exact .list hrec htype (eq_isIn hnull hnotNull htext hop) hls hvs

theorem isRecord_of_forall_ne {type : FieldType} (h : ∀ shape, type ≠ .record shape) :
    type.isRecord = false := by
  cases type <;> first | rfl | exact absurd rfl (h _)

theorem states_of_ofChain (h : ofChain chain c = .ok d) : States chain c d := by
  unfold ofChain at h
  split at h
  · next hop => cases h; exact .isNull hop
  · next hop => cases h; exact .isNotNull hop
  · next hnull hnotNull =>
    -- references, texts and other values have checkers of their own
    split at h
    · next htype => exact states_of_onRecord (by rw [htype]; rfl) h
    · next htype => exact states_of_onText htype h
    · next hrec htype => exact states_of_onValue (isRecord_of_forall_ne hrec) htype hnull hnotNull h

theorem ofChain_of_isRecord (hrec : chain.type.isRecord = true) (hnull : c.operator ≠ .isNull)
    (hnotNull : c.operator ≠ .isNotNull) : ofChain chain c = onRecord chain c := by
  unfold ofChain
  split
  · next h => exact absurd h hnull
  · next h => exact absurd h hnotNull
  · split
    · rfl
    · next h => rw [h] at hrec; cases hrec
    · next h _ => rw [isRecord_of_forall_ne h] at hrec; cases hrec

theorem ofChain_of_string (htype : chain.type = .string) (hnull : c.operator ≠ .isNull)
    (hnotNull : c.operator ≠ .isNotNull) : ofChain chain c = onText chain c := by
  unfold ofChain
  split
  · next h => exact absurd h hnull
  · next h => exact absurd h hnotNull
  · rw [htype]

theorem ofChain_of_value (hrec : chain.type.isRecord = false) (htype : chain.type ≠ .string)
    (hnull : c.operator ≠ .isNull) (hnotNull : c.operator ≠ .isNotNull) :
    ofChain chain c = onValue chain c := by
  unfold ofChain
  split
  · next h => exact absurd h hnull
  · next h => exact absurd h hnotNull
  · split
    · next h => rw [h] at hrec; cases hrec
    · next h => exact absurd h htype
    · rfl

theorem ne_isNull_of_comparator {op : Operator} {k : Comparator} (h : op.comparator? = some k) :
    op ≠ .isNull ∧ op ≠ .isNotNull := by
  constructor <;> (rintro rfl; cases h)

theorem ne_isNull_of_textOperator {op : Operator} {t : TextOperator} (h : op.textOperator? = some t) :
    op ≠ .isNull ∧ op ≠ .isNotNull := by
  constructor <;> (rintro rfl; cases h)

/-- On types other than references a comparator leads to the comparison with the literal. -/
theorem ofChain_of_comparator {op : Comparator} (hrec : chain.type.isRecord = false)
    (hop : c.operator.comparator? = some op) (hord : OrderSuits chain.type c.operator) :
    ofChain chain c = comparison chain c op := by
  obtain ⟨hnull, hnotNull⟩ := ne_isNull_of_comparator hop
  by_cases htype : chain.type = .string
  · rw [ofChain_of_string htype hnull hnotNull]
    have hno : c.operator.isOrdering = false := by
      rw [← Bool.not_eq_true]
      intro h
      have hstring := hord h
      rw [htype] at hstring
      exact absurd hstring (by decide)
    unfold onText
    cases hc : c.operator <;> rw [hc] at hop hno <;> cases hop <;>
      first | rfl | exact absurd hno (by decide)
  · have htext : c.operator.isText = false := by
      cases hc : c.operator <;> rw [hc] at hop <;> first | rfl | cases hop
    have hguard : (c.operator.isOrdering && !chain.type.isOrdered) = false := by
      cases ho : c.operator.isOrdering with
      | false => rfl
      | true => rw [hord ho]; rfl
    rw [ofChain_of_value hrec htype hnull hnotNull]
    simp only [onValue, htext, hguard, hop]
    rfl

theorem ofChain_of_states (h : States chain c d) : ofChain chain c = .ok d := by
  cases h with
  | isNull hop => unfold ofChain; rw [hop]
  | isNotNull hop => unfold ofChain; rw [hop]
  | @null op hop hord hl hn =>
    cases hrec : chain.type.isRecord with
    | false =>
      rw [ofChain_of_comparator hrec hop hord]
      exact comparison_eq_ok_iff.2 ⟨.null, hl, .inr ⟨rfl, hn hrec, rfl⟩⟩
    | true =>
      obtain ⟨hnull, hnotNull⟩ := ne_isNull_of_comparator hop
      rw [ofChain_of_isRecord hrec hnull hnotNull]
      refine onRecord_eq_ok_iff.2 ⟨hl, ?_⟩
      have hno : chain.type.isOrdered = false := by
        cases ht : chain.type <;> rw [ht] at hrec <;> first | rfl | cases hrec
      unfold OrderSuits at hord
      rw [hno] at hord
      cases hc : c.operator <;> rw [hc] at hop hord <;> cases hop <;>
        first | exact .inl ⟨rfl, rfl⟩ | exact .inr ⟨rfl, rfl⟩ | exact absurd (hord rfl) (by decide)
  | value hrec hop hord hl hv =>
    rw [ofChain_of_comparator hrec hop hord]
    exact comparison_eq_ok_iff.2 ⟨_, hl, .inl ⟨_, hv, rfl⟩⟩
  | @text op needle htype hop hl =>
    obtain ⟨hnull, hnotNull⟩ := ne_isNull_of_textOperator hop
    rw [ofChain_of_string htype hnull hnotNull]
    have htest : textTest chain c op = .ok (.test chain (.text op needle)) :=
      textTest_eq_ok_iff.2 ⟨needle, hl, rfl⟩
    unfold onText
    cases hc : c.operator <;> rw [hc] at hop <;> cases hop <;> exact htest
  | @list ls vs hrec htype hop hls hvs =>
    rw [ofChain_of_value hrec htype (by rw [hop]; decide) (by rw [hop]; decide)]
    simp only [onValue, hop]
    exact membership_eq_ok_iff.2 ⟨ls, vs, hls, hvs, rfl⟩

/-! ## The conditions of an operator -/

theorem states_isNull_iff (hop : c.operator = .isNull) :
    States chain c d ↔ d = nullTest chain true := by
  constructor
  · intro h
    cases h with
    | isNull _ => rfl
    | isNotNull h => cases hop.symm.trans h
    | null h _ _ _ => rw [hop] at h; cases h
    | value _ h _ _ _ => rw [hop] at h; cases h
    | text _ h _ => rw [hop] at h; cases h
    | list _ _ h _ _ => cases hop.symm.trans h
  · rintro rfl
    exact .isNull hop

theorem states_isNotNull_iff (hop : c.operator = .isNotNull) :
    States chain c d ↔ d = nullTest chain false := by
  constructor
  · intro h
    cases h with
    | isNull h => cases hop.symm.trans h
    | isNotNull _ => rfl
    | null h _ _ _ => rw [hop] at h; cases h
    | value _ h _ _ _ => rw [hop] at h; cases h
    | text _ h _ => rw [hop] at h; cases h
    | list _ _ h _ _ => cases hop.symm.trans h
  · rintro rfl
    exact .isNotNull hop

/-- The operator of a comparator is of no other kind. -/
theorem eq_none_of_comparator {op : Operator} {k : Comparator} (h : op.comparator? = some k) :
    op.textOperator? = none ∧ op ≠ .isIn := by
  constructor
  · cases op <;> first | rfl | cases h
  · rintro rfl
    cases h

theorem states_comparator_iff {op : Comparator} (hop : c.operator.comparator? = some op) :
    States chain c d ↔ OrderSuits chain.type c.operator ∧ ∃ l, c.operand = some (.one l) ∧
      (l = .null ∧ (chain.type.isRecord = false → chain.isNullable = true) ∧ d = againstNull chain op ∨
        chain.type.isRecord = false ∧ ∃ v, l.coerce chain.type chain.isNullable chain.path =
          .ok (some v) ∧ d = .test chain (.compare op v)) := by
  obtain ⟨hnull, hnotNull⟩ := ne_isNull_of_comparator hop
  obtain ⟨htext, hin⟩ := eq_none_of_comparator hop
  constructor
  · intro h
    cases h with
    | isNull h => exact absurd h hnull
    | isNotNull h => exact absurd h hnotNull
    | null hop' hord hl hn =>
      cases hop.symm.trans hop'
      exact ⟨hord, .null, hl, .inl ⟨rfl, hn, rfl⟩⟩
    | value hrec hop' hord hl hv =>
      cases hop.symm.trans hop'
      exact ⟨hord, _, hl, .inr ⟨hrec, _, hv, rfl⟩⟩
    | text _ h _ => cases htext.symm.trans h
    | list _ _ h _ _ => exact absurd h hin
  · rintro ⟨hord, l, hl, ⟨rfl, hn, rfl⟩ | ⟨hrec, v, hv, rfl⟩⟩
    · exact .null hop hord hl hn
    · exact .value hrec hop hord hl hv

theorem states_text_iff {op : TextOperator} (hop : c.operator.textOperator? = some op) :
    States chain c d ↔ chain.type = .string ∧ ∃ needle, c.operand = some (.one (.string needle)) ∧
      d = .test chain (.text op needle) := by
  constructor
  · intro h
    cases h with
    | isNull h => rw [h] at hop; cases hop
    | isNotNull h => rw [h] at hop; cases hop
    | null h _ _ _ => cases (eq_none_of_comparator h).1.symm.trans hop
    | value _ h _ _ _ => cases (eq_none_of_comparator h).1.symm.trans hop
    | text htype hop' hl =>
      cases hop.symm.trans hop'
      exact ⟨htype, _, hl, rfl⟩
    | list _ _ h _ _ => rw [h] at hop; cases hop
  · rintro ⟨htype, needle, hl, rfl⟩
    exact .text htype hop hl

theorem states_isIn_iff (hop : c.operator = .isIn) {ls : List Literal}
    (hls : c.operand = some (.list ls)) : States chain c d ↔
      chain.type.isRecord = false ∧ chain.type ≠ .string ∧ ∃ vs : List Scalar,
        ls.map (·.coerce chain.type false chain.path) = vs.map (fun v => .ok (some v)) ∧
        d = .test chain (.isIn vs) := by
  constructor
  · intro h
    cases h with
    | isNull h => cases hop.symm.trans h
    | isNotNull h => cases hop.symm.trans h
    | null h _ _ _ => exact absurd hop (eq_none_of_comparator h).2
    | value _ h _ _ _ => exact absurd hop (eq_none_of_comparator h).2
    | text _ h _ => rw [hop] at h; cases h
    | list hrec htype _ hls' hvs =>
      cases hls.symm.trans hls'
      exact ⟨hrec, htype, _, hvs, rfl⟩
  · rintro ⟨hrec, htype, vs, hvs, rfl⟩
    exact .list hrec htype hop hls hvs

/-! ## Top theorems (proved from the lemmas above) -/

/-- The type checker takes exactly the comparisons that suit their field. -/
theorem ofChain_eq_ok_iff : ofChain chain c = .ok d ↔ States chain c d :=
  ⟨states_of_ofChain, ofChain_of_states⟩

theorem ofComparison_eq_ok_iff {schema : Schema} {root : Shape} {aliases : Aliases} :
    ofComparison schema root aliases c = .ok d ↔
      ∃ chain, schema.resolve root aliases c.path = .ok chain ∧ States chain c d := by
  unfold ofComparison
  rw [bind_eq_ok_iff]
  simp only [ofChain_eq_ok_iff]

theorem ofExpr_comparison_iff {schema : Schema} {root : Shape} {aliases : Aliases} :
    Condition.ofExpr schema root aliases (.comparison c) = .ok d ↔
      ∃ chain, schema.resolve root aliases c.path = .ok chain ∧ States chain c d := by
  rw [Condition.ofExpr, mapError_eq_ok_iff, ofComparison_eq_ok_iff]

/-- Where a path leads to a chain, a comparison of it becomes what it states of the chain. -/
theorem ofExpr_comparison_of_resolve {schema : Schema} {root : Shape} {aliases : Aliases}
    (hpath : schema.resolve root aliases c.path = .ok chain) :
    Condition.ofExpr schema root aliases (.comparison c) = .ok d ↔ States chain c d := by
  rw [ofExpr_comparison_iff, hpath]
  simp

/-- An expression becomes the conditions that it translates to, of which there is one at most. -/
theorem ofExpr_eq_ok_iff {schema : Schema} {root : Shape} {aliases : Aliases} {e : Expr} :
    Condition.ofExpr schema root aliases e = .ok d ↔ Translates schema root aliases e d := by
  constructor
  · intro h
    induction e generalizing d with
    | and l r ihl ihr =>
      obtain ⟨cl, hl, hrest⟩ := bind_eq_ok_iff.1 h
      obtain ⟨cr, hr, hd⟩ := bind_eq_ok_iff.1 hrest
      cases hd
      exact .and (ihl hl) (ihr hr)
    | or l r ihl ihr =>
      obtain ⟨cl, hl, hrest⟩ := bind_eq_ok_iff.1 h
      obtain ⟨cr, hr, hd⟩ := bind_eq_ok_iff.1 hrest
      cases hd
      exact .or (ihl hl) (ihr hr)
    | not e ih =>
      obtain ⟨c, hc, hd⟩ := bind_eq_ok_iff.1 h
      cases hd
      exact .not (ih hc)
    | comparison c =>
      obtain ⟨chain, hchain, hd⟩ := ofExpr_comparison_iff.1 h
      exact .comparison hchain hd
  · intro h
    induction h with
    | and _ _ ihl ihr => rw [Condition.ofExpr, ihl, ihr]; rfl
    | or _ _ ihl ihr => rw [Condition.ofExpr, ihl, ihr]; rfl
    | not _ ih => rw [Condition.ofExpr, ih]; rfl
    | comparison hchain hd => exact ofExpr_comparison_iff.2 ⟨_, hchain, hd⟩

end Typing

end RecordQuery
