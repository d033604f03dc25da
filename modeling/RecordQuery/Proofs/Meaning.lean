import RecordQuery.Condition.Holds
import RecordQuery.Proofs.Typing

/-!
# What a query means

`Expr.Means` says of an expression as it is written, without going through conditions, that a record
satisfies it. Paths are walked name by name; null, order, text and list read as the operator says.
Conditions decide just that, of every record, whether or not it keeps to the schema:

    Condition.ofExpr schema root aliases e = .ok c  →
      (c.holds r = true  ↔  e.Means schema root aliases r)    (holds_iff_means)
-/

namespace RecordQuery

/-! ## Meaning -/

/-- The field at the end of a path. It is null as soon as a name on the way leads to no record. -/
def Record.fieldAt : Record → List String → Field
  | _, [] => .null
  | r, [name] => r name
  | r, name :: next :: rest =>
    match r name with
    | .record inner => Record.fieldAt inner (next :: rest)
    | _ => .null

/-- The orders that an operator asks for. -/
def Operator.Allows : Operator → Ordering → Prop
  | equal, o => o = .eq
  | less, o => o = .lt
  | lessEqual, o => o ≠ .gt
  | greater, o => o = .gt
  | greaterEqual, o => o ≠ .lt
  | _, _ => False

/-- The field is a scalar that stands to the value in an order that the operator asks for. -/
def Field.Compares (f : Field) (op : Operator) (v : Scalar) : Prop :=
  ∃ s o, f = .scalar s ∧ s.compare? v = some o ∧ op.Allows o

/-- The part of a text at which an operator looks for the needle. -/
def Operator.Finds : Operator → List Char → List Char → Prop
  | contains, needle, s => needle <:+: s
  | startsWith, needle, s => needle <+: s
  | endsWith, needle, s => needle <:+ s
  | _, _, _ => False

/-- The field is a text in which the operator finds the needle. -/
def Field.HasText (f : Field) (op : Operator) (needle : String) : Prop :=
  ∃ s, f = .scalar (.text s) ∧ op.Finds needle.toList s.toList

/-- The literal stands for a value of the type of the chain, or for null. -/
def Literal.StandsFor (l : Literal) (chain : Chain) : Option Scalar → Prop
  | none => l = .null
  | some v => l.coerce chain.type chain.isNullable chain.path = .ok (some v)

/-- The operator holds between the field and a value or null. It is the only one to hold of a field that
is different, of null, of records and of values without an order. -/
def Field.Relates (f : Field) (op : Operator) : Option Scalar → Prop
  | none => op = .equal ∧ f = .null ∨ op = .notEqual ∧ f ≠ .null
  | some v => f.Compares op v ∨ op = .notEqual ∧ ¬ f.Compares .equal v

/-- What a comparison says of the field at the end of its chain. -/
def Comparison.Means (chain : Chain) (c : Comparison) (f : Field) : Prop :=
  match c.operator with
  | .isNull => chain.isNullable = true ∧ f = .null
  | .isNotNull => chain.isNullable = true → f ≠ .null
  | op =>
    match c.operand with
    | none => False
    | some (.one l) =>
      (∃ w, l.StandsFor chain w ∧ f.Relates op w) ∨ ∃ needle, l = .string needle ∧ f.HasText op needle
    | some (.list ls) => op = .isIn ∧ ∃ l ∈ ls, ∃ v, l.StandsFor chain (some v) ∧ f.Compares .equal v

/-- The record satisfies the expression. -/
def Expr.Means (schema : Schema) (root : Shape) (aliases : Aliases) : Expr → Record → Prop
  | and l r, x => l.Means schema root aliases x ∧ r.Means schema root aliases x
  | or l r, x => l.Means schema root aliases x ∨ r.Means schema root aliases x
  | not e, x => ¬ e.Means schema root aliases x
  | comparison c, x =>
    ∃ chain, schema.resolve root aliases c.path = .ok chain ∧ c.Means chain (x.fieldAt chain.names)

/-! ## Lemmas -/

theorem follow_eq_fieldAt (r : Record) (last : String) (before : List String) :
    r.follow last before = r.fieldAt (before ++ [last]) := by
  induction before generalizing r with
  | nil => rfl
  | cons name rest ih =>
    obtain ⟨next, more, hsplit⟩ : ∃ next more, rest ++ [last] = next :: more := by
      cases rest with
      | nil => exact ⟨last, [], rfl⟩
      | cons n ns => exact ⟨n, ns ++ [last], rfl⟩
    rw [List.cons_append, hsplit, Record.follow, Record.fieldAt]
    cases r name with
    | null => rfl
    | scalar s => rfl
    | record inner =>
      show Record.follow inner last rest = Record.fieldAt inner (next :: more)
      rw [ih, hsplit]

theorem chain_value_eq (chain : Chain) (r : Record) : chain.value r = r.fieldAt chain.names := by
  unfold Chain.value Chain.names Chain.steps
  rw [follow_eq_fieldAt, List.map_append]
  rfl

theorem isNull_iff (f : Field) : f.isNull = true ↔ f = .null := by
  cases f <;> simp [Field.isNull]

/-- A comparator admits an order where its operator asks for it, and `ne` admits all else. -/
theorem admits_iff {op : Operator} {k : Comparator} (h : op.comparator? = some k) (hne : k ≠ .ne)
    (o : Option Ordering) : k.admits o = true ↔ ∃ o', o = some o' ∧ op.Allows o' := by
  cases op <;> cases h <;> rcases o with - | - | - | - <;>
    first | exact absurd rfl hne | simp [Comparator.admits, Operator.Allows]

theorem admits_ne (o : Option Ordering) : Comparator.ne.admits o = !Comparator.eq.admits o := by
  simp [Comparator.admits]

theorem occursIn_iff (needle s : List Char) : TextOperator.occursIn needle s = true ↔ needle <:+: s := by
  induction s with
  | nil => simp [TextOperator.occursIn]
  | cons c cs ih =>
    rw [TextOperator.occursIn, Bool.or_eq_true, ih, List.isPrefixOf_iff_prefix, List.infix_cons_iff]

theorem textOperator_admits_iff {op : Operator} {k : TextOperator} (h : op.textOperator? = some k)
    (needle s : String) : k.admits needle s = true ↔ op.Finds needle.toList s.toList := by
  cases op <;> cases h
  · exact occursIn_iff _ _
  · exact List.isPrefixOf_iff_prefix
  · exact List.isSuffixOf_iff_suffix

/-! ## Tests -/

theorem compare_holds_iff {op : Operator} {k : Comparator} (h : op.comparator? = some k) (hne : k ≠ .ne)
    (v : Scalar) (f : Field) : (Test.compare k v).holds f = true ↔ f.Compares op v := by
  cases f with
  | null => simp [Test.holds, Field.Compares, hne]
  | record r => simp [Test.holds, Field.Compares, hne]
  | scalar s =>
    rw [Test.holds, admits_iff h hne]
    simp [Field.Compares]

/-- `ne` holds wherever `eq` does not. -/
theorem compare_ne_holds (v : Scalar) (f : Field) :
    (Test.compare .ne v).holds f = !(Test.compare .eq v).holds f := by
  cases f with
  | null => rfl
  | record r => rfl
  | scalar s => exact admits_ne _

theorem text_holds_iff {op : Operator} {k : TextOperator} (h : op.textOperator? = some k)
    (needle : String) (f : Field) : (Test.text k needle).holds f = true ↔ f.HasText op needle := by
  constructor
  · intro hf
    cases f with
    | null => cases hf
    | record r => cases hf
    | scalar s =>
      cases s with
      | text s => exact ⟨s, rfl, (textOperator_admits_iff h _ _).1 hf⟩
      | _ => cases hf
  · rintro ⟨s, rfl, hs⟩
    exact (textOperator_admits_iff h needle s).2 hs

theorem equals_iff (s v : Scalar) : s.equals v = true ↔ (Field.scalar s).Compares .equal v := by
  simp [Scalar.equals, Field.Compares, Operator.Allows]

theorem isIn_holds_iff (vs : List Scalar) (f : Field) :
    (Test.isIn vs).holds f = true ↔ ∃ v ∈ vs, f.Compares .equal v := by
  cases f with
  | null => simp [Test.holds, Field.Compares]
  | record r => simp [Test.holds, Field.Compares]
  | scalar s => simp only [Test.holds, List.any_eq_true, equals_iff]

/-! ## Comparisons -/

variable {chain : Chain} {c : Comparison}

theorem means_one_iff {l : Literal} (hnull : c.operator ≠ .isNull) (hnotNull : c.operator ≠ .isNotNull)
    (hl : c.operand = some (.one l)) (f : Field) : c.Means chain f ↔
      (∃ w, l.StandsFor chain w ∧ f.Relates c.operator w) ∨
        ∃ needle, l = .string needle ∧ f.HasText c.operator needle := by
  unfold Comparison.Means
  split
  · next h => exact absurd h hnull
  · next h => exact absurd h hnotNull
  · rw [hl]

/-- A comparator says nothing of the parts of a text. -/
theorem means_comparator_iff {k : Comparator} {l : Literal} {w : Option Scalar}
    (hop : c.operator.comparator? = some k) (hl : c.operand = some (.one l))
    (hw : ∀ w', l.StandsFor chain w' ↔ w' = w) (f : Field) :
    c.Means chain f ↔ f.Relates c.operator w := by
  obtain ⟨hnull, hnotNull⟩ := Typing.ne_isNull_of_comparator hop
  rw [means_one_iff hnull hnotNull hl]
  constructor
  · rintro (⟨w', hw', h⟩ | ⟨needle, _, s, _, h⟩)
    · rw [(hw w').1 hw'] at h
      exact h
    · cases hc : c.operator <;> rw [hc] at hop h <;> first | exact h.elim | cases hop
  · intro h
    exact .inl ⟨w, (hw w).2 rfl, h⟩

theorem null_standsFor_iff (chain : Chain) (w : Option Scalar) :
    Literal.null.StandsFor chain w ↔ w = none := by
  cases w with
  | none => simp [Literal.StandsFor]
  | some v =>
    unfold Literal.StandsFor Literal.coerce
    cases chain.isNullable <;> simp

theorem standsFor_iff {l : Literal} {v : Scalar}
    (h : l.coerce chain.type chain.isNullable chain.path = .ok (some v)) (w : Option Scalar) :
    l.StandsFor chain w ↔ w = some v := by
  cases w with
  | none =>
    have hnull : l ≠ .null := by
      rintro rfl
      cases (null_standsFor_iff chain (some v)).1 h
    simp [Literal.StandsFor, hnull]
  | some v' =>
    unfold Literal.StandsFor
    rw [h]
    simp [eq_comm]

theorem nullTest_holds (chain : Chain) (isNull : Bool) (r : Record) :
    (Typing.nullTest chain isNull).holds r =
      if isNull then chain.isNullable && (chain.value r).isNull
      else !(chain.isNullable && (chain.value r).isNull) := by
  unfold Typing.nullTest
  cases chain.isNullable <;> cases isNull <;> rfl

theorem againstNull_holds_iff {op : Operator} {k : Comparator} (h : op.comparator? = some k)
    (r : Record) :
    (Typing.againstNull chain k).holds r = true ↔ (chain.value r).Relates op none := by
  have hnull := isNull_iff (chain.value r)
  cases op <;> cases h <;>
    simp [Typing.againstNull, Condition.holds, Test.holds, Field.Relates, ← hnull]

theorem compare_holds_iff_relates {op : Operator} {k : Comparator} (h : op.comparator? = some k)
    (v : Scalar) (f : Field) : (Test.compare k v).holds f = true ↔ f.Relates op (some v) := by
  unfold Field.Relates
  by_cases hne : k = .ne
  · subst hne
    have hop : op = .notEqual := by cases op <;> first | rfl | cases h
    have heq : (Test.compare .eq v).holds f = true ↔ f.Compares .equal v :=
      compare_holds_iff rfl (by decide) v f
    have hnever : ¬ f.Compares .notEqual v := by rintro ⟨_, _, _, _, h⟩; exact h
    rw [hop, compare_ne_holds, Bool.not_eq_true', ← Bool.not_eq_true, heq]
    simp [hnever]
  · have hop : op ≠ .notEqual := by rintro rfl; cases h; exact hne rfl
    rw [compare_holds_iff h hne]
    simp [hop]

theorem text_means_iff {k : TextOperator} {needle : String} (hop : c.operator.textOperator? = some k)
    (hl : c.operand = some (.one (.string needle))) (f : Field) :
    c.Means chain f ↔ f.HasText c.operator needle := by
  have hne (op : Operator) (hnone : op.textOperator? = none) : c.operator ≠ op := by
    rintro rfl
    rw [hnone] at hop
    cases hop
  rw [means_one_iff (hne _ rfl) (hne _ rfl) hl]
  constructor
  · rintro (⟨w, _, h⟩ | ⟨_, heq, h⟩)
    -- the literal is a value of the type too, but its operator asks for no order
    · cases w with
      | none => exact h.elim (fun h => absurd h.1 (hne _ rfl)) (fun h => absurd h.1 (hne _ rfl))
      | some v =>
        rcases h with ⟨_, _, _, _, hallows⟩ | ⟨h, _⟩
        · cases hc : c.operator <;> rw [hc] at hop hallows <;> first | exact hallows.elim | cases hop
        · exact absurd h (hne _ rfl)
    · cases heq
      exact h
  · intro h
    exact .inr ⟨needle, rfl, h⟩

theorem list_means_iff {ls : List Literal} {vs : List Scalar} (hop : c.operator = .isIn)
    (hl : c.operand = some (.list ls))
    (hvs : ls.map (·.coerce chain.type false chain.path) = vs.map (fun v => .ok (some v)))
    (f : Field) : c.Means chain f ↔ ∃ v ∈ vs, f.Compares .equal v := by
  unfold Comparison.Means
  rw [hop, hl]
  constructor
  · rintro ⟨_, l, hl, v, hv, h⟩
    obtain ⟨v', hv', hlv⟩ := exists_value_of_mem hvs chain.isNullable hl
    have heq : some v' = some v := (standsFor_iff hlv _).1 hv |>.symm
    cases heq
    exact ⟨v, hv', h⟩
  · rintro ⟨v, hv, h⟩
    obtain ⟨l, hl, hlv⟩ := exists_literal_of_mem hvs chain.isNullable hv
    exact ⟨rfl, l, hl, v, hlv, h⟩

/-- The condition that a comparison states holds of just the records that it means. -/
theorem states_holds_iff {d : Condition} (h : Typing.States chain c d) (r : Record) :
    d.holds r = true ↔ c.Means chain (r.fieldAt chain.names) := by
  rw [← chain_value_eq]
  cases h with
  | isNull hop =>
    rw [nullTest_holds]
    unfold Comparison.Means
    rw [hop]
    simp [isNull_iff]
  | isNotNull hop =>
    rw [nullTest_holds]
    unfold Comparison.Means
    rw [hop]
    cases chain.isNullable <;> simp [← isNull_iff]
  | null hop _ hl _ =>
    rw [means_comparator_iff hop hl (null_standsFor_iff chain), againstNull_holds_iff hop]
  | value _ hop _ hl hv =>
    rw [means_comparator_iff hop hl (standsFor_iff hv)]
    exact compare_holds_iff_relates hop _ _
  | text _ hop hl =>
    rw [text_means_iff hop hl]
    exact text_holds_iff hop _ _
  | list _ _ hop hls hvs =>
    rw [list_means_iff hop hls hvs]
    exact isIn_holds_iff _ _

/-! ## Top theorem (proved from the lemmas above) -/

/-- The condition of an expression holds of just the records that the expression means, whatever these
records hold. -/
theorem holds_iff_means {schema : Schema} {root : Shape} {aliases : Aliases} {e : Expr} {d : Condition}
    (h : Condition.ofExpr schema root aliases e = .ok d) (r : Record) :
    d.holds r = true ↔ e.Means schema root aliases r := by
  rw [Typing.ofExpr_eq_ok_iff] at h
  induction h with
  | and _ _ ihl ihr => rw [Condition.holds, Bool.and_eq_true, ihl, ihr, Expr.Means]
  | or _ _ ihl ihr => rw [Condition.holds, Bool.or_eq_true, ihl, ihr, Expr.Means]
  | not _ ih => rw [Condition.holds, Bool.not_eq_true', ← Bool.not_eq_true, ih, Expr.Means]
  | @comparison c chain d hchain hd =>
    rw [states_holds_iff hd, Expr.Means]
    constructor
    · intro h
      exact ⟨chain, hchain, h⟩
    · rintro ⟨chain', hchain', h⟩
      rw [hchain] at hchain'
      cases hchain'
      exact h

/-- `Boss.Done != true` holds where the boss is a text instead of a record. -/
theorem means_boss_not_done :
    let task : Shape := ⟨"Task", [⟨"Done", .bool, false⟩, ⟨"Boss", .record "Task", true⟩], []⟩
    let e : Expr := .comparison ⟨"Boss.Done", .notEqual, some (.one (.bool true)), 0⟩
    e.Means ⟨[task], none⟩ task .empty (fun _ => .scalar (.text "Ann")) := by
  intro task e
  have hresult : Condition.ofExpr ⟨[task], none⟩ task .empty e =
      .ok (.test ⟨[⟨"Boss", .record "Task", true⟩], ⟨"Done", .bool, false⟩⟩
        (.compare .ne (.bool true))) := rfl
  exact (holds_iff_means hresult _).1 rfl

end RecordQuery
