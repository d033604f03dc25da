import RecordQuery.Proofs.Conforming
import RecordQuery.Proofs.Sql.Parsing

/-!
# Clauses and conditions agree

On a record that conforms to its shape, the clause of an accepted query holds where the query's condition
does and fails everywhere else: it is never unknown, and neither is the clause of any part of the
condition. A test whose column may be NULL is guarded, and a column that is NULL may be so.

    Condition.ofQuery schema root aliases query = .ok c  →  Record.Conforms schema root r  →
      read (SqlFilter.ofCondition c) = some f  and  f.truth r = .ofBool (c.holds r)
      (clause_agrees)
-/

namespace RecordQuery

/-- A condition stands somewhere in another one, or is it. -/
inductive Condition.PartOf : Condition → Condition → Prop
  | self {c : Condition} : PartOf c c
  | andLeft {c l r : Condition} : PartOf c l → PartOf c (.and l r)
  | andRight {c l r : Condition} : PartOf c r → PartOf c (.and l r)
  | orLeft {c l r : Condition} : PartOf c l → PartOf c (.or l r)
  | orRight {c l r : Condition} : PartOf c r → PartOf c (.or l r)
  | not {c d : Condition} : PartOf c d → PartOf c (.not d)

/-! ## Lemmas -/

theorem Condition.PartOf.tests {c d : Condition} {p : Chain → Test → Prop} (h : c.PartOf d)
    (hd : d.Tests p) : c.Tests p := by
  induction h with
  | self => exact hd
  | andLeft _ ih => exact ih hd.1
  | andRight _ ih => exact ih hd.2
  | orLeft _ ih => exact ih hd.1
  | orRight _ ih => exact ih hd.2
  | not _ ih => exact ih hd

/-- The formula of a part is a part of the formula. -/
theorem Condition.PartOf.formula {c d : Condition} (h : c.PartOf d) : c.formula.PartOf d.formula := by
  induction h with
  | self => exact .self
  | andLeft _ ih => exact .andLeft ih
  | andRight _ ih => exact .andRight ih
  | orLeft _ ih => exact .orLeft ih
  | orRight _ ih => exact .orRight ih
  | not _ ih => exact .not ih

namespace Sql

variable {schema : Schema} {r : Record} {names : List String} {type : FieldType} {mayBeNull : Bool}

/-- A value of a type that is no reference is null or a scalar of the type. -/
theorem null_or_scalar {f : Field} (hf : f.Conforms schema type mayBeNull)
    (hrec : type.isRecord = false) :
    f = .null ∧ mayBeNull = true ∨ ∃ s, f = .scalar s ∧ s.suits type = true := by
  cases f with
  | null => exact .inl ⟨rfl, hf⟩
  | scalar s => exact .inr ⟨s, rfl, hf⟩
  | record fields =>
    obtain ⟨target, _, htype, _⟩ := hf
    rw [htype] at hrec
    cases hrec

/-- A guard turns unknown into false, and changes nothing where the column is a scalar. -/
theorem guarded_truth {f : Formula} {b : Bool}
    (hf : r.fieldAt names = .null ∧ mayBeNull = true ∧ f.truth r = .unknown ∧ b = false ∨
      (∃ s, r.fieldAt names = .scalar s) ∧ f.truth r = .ofBool b) :
    (Test.guardedFormula (.column names) f mayBeNull).truth r = .ofBool b := by
  unfold Test.guardedFormula
  rcases hf with ⟨hnull, hmay, hunknown, hb⟩ | ⟨⟨s, hs⟩, hknown⟩
  -- the test is unknown, but the guard fails
  · rw [hmay, if_pos rfl, Formula.truth, hunknown, Formula.truth, Operand.read, hnull, hb]
    rfl
  · cases mayBeNull with
    | false => exact hknown
    | true =>
      rw [if_pos rfl, Formula.truth, hknown, Formula.truth, Operand.read, hs]
      show (Truth.ofBool b).and (.ofBool true) = _
      rw [ofBool_and, Bool.and_true]

/-- `<>` holds of NULL by its second half. -/
theorem different_truth {f : Field} (hfield : r.fieldAt names = f)
    (hf : f.Conforms schema type mayBeNull) (hrec : type.isRecord = false) (v : Scalar) :
    ((Test.compare .ne v).formula (.column names) mayBeNull).truth r =
      .ofBool ((Test.compare .ne v).holds f) := by
  rw [Test.formula]
  rcases null_or_scalar hf hrec with ⟨rfl, hmay⟩ | ⟨s, rfl, _⟩
  · rw [hmay, if_pos rfl, Formula.truth, Formula.truth, Formula.truth, Operand.read, hfield]
    rfl
  · cases mayBeNull with
    | false =>
      rw [if_neg (by decide), Formula.truth, Operand.read, hfield]
      rfl
    | true =>
      rw [if_pos rfl, Formula.truth, Formula.truth, Formula.truth, Operand.read, hfield]
      show (Truth.ofBool _).or (.ofBool false) = _
      rw [ofBool_or, Bool.or_false]
      rfl

theorem compare_truth {f : Field} (hfield : r.fieldAt names = f)
    (hf : f.Conforms schema type mayBeNull) (hrec : type.isRecord = false) {op : Comparator}
    (hop : op ≠ .ne) (v : Scalar) :
    ((Test.compare op v).formula (.column names) mayBeNull).truth r =
      .ofBool ((Test.compare op v).holds f) := by
  rw [formula_compare hop]
  apply guarded_truth
  rcases null_or_scalar hf hrec with ⟨rfl, hmay⟩ | ⟨s, rfl, _⟩
  · refine .inl ⟨hfield, hmay, ?_, ?_⟩
    · rw [Formula.truth, Operand.read, hfield]
      rfl
    · simp [Test.holds, hop]
  · refine .inr ⟨⟨s, hfield⟩, ?_⟩
    rw [Formula.truth, Operand.read, hfield]
    rfl

theorem text_truth {f : Field} (hfield : r.fieldAt names = f)
    (hf : f.Conforms schema .string mayBeNull) (op : TextOperator) (needle : String) :
    ((Test.text op needle).formula (.column names) mayBeNull).truth r =
      .ofBool ((Test.text op needle).holds f) := by
  apply guarded_truth
  rcases null_or_scalar hf rfl with ⟨rfl, hmay⟩ | ⟨s, rfl, hs⟩
  · refine .inl ⟨hfield, hmay, ?_, rfl⟩
    rw [Formula.truth, Operand.read, hfield]
    rfl
  · refine .inr ⟨⟨s, hfield⟩, ?_⟩
    obtain ⟨t, rfl⟩ : ∃ t, s = .text t := by
      cases s with
      | text t => exact ⟨t, rfl⟩
      | _ => cases hs
    rw [Formula.truth, Operand.read, hfield]
    show likeTruth '\\' (.scalar (.text t)) (.scalar (.text (op.pattern needle))) = _
    rw [likeTruth, likeParts?_pattern]
    show Truth.ofBool (likeMatches _ _) = _
    rw [likeMatches_likePartsOf]
    rfl

theorem isIn_truth {f : Field} (hfield : r.fieldAt names = f)
    (hf : f.Conforms schema type mayBeNull) (hrec : type.isRecord = false) (values : List Scalar) :
    ((Test.isIn values).formula (.column names) mayBeNull).truth r =
      .ofBool ((Test.isIn values).holds f) := by
  apply guarded_truth
  rcases null_or_scalar hf hrec with ⟨rfl, hmay⟩ | ⟨s, rfl, _⟩
  · refine .inl ⟨hfield, hmay, ?_, rfl⟩
    rw [Formula.truth, Operand.read, hfield]
    rfl
  · refine .inr ⟨⟨s, hfield⟩, ?_⟩
    rw [Formula.truth, Operand.read, hfield]
    rfl

/-- A test that suits its column is known, and holds where the field passes it. -/
theorem test_truth {t : Test} {f : Field} (hfield : r.fieldAt names = f)
    (hf : f.Conforms schema type mayBeNull) (ht : t.Suits type) :
    (t.formula (.column names) mayBeNull).truth r = .ofBool (t.holds f) := by
  cases t with
  | isNull => rw [Test.formula, Formula.truth, Operand.read, hfield, Test.holds]
  | isNotNull => rw [Test.formula, Formula.truth, Operand.read, hfield, Test.holds]
  | compare op v =>
    by_cases hop : op = .ne
    · subst hop
      exact different_truth hfield hf ht v
    · exact compare_truth hfield hf ht hop v
  | text op needle =>
    have htype : type = .string := ht
    exact text_truth hfield (htype ▸ hf) op needle
  | isIn values => exact isIn_truth hfield hf ht values

/-- The formula of a condition is known, and holds where the condition does. -/
theorem formula_truth {root : Shape} {aliases : Aliases} {c : Condition}
    (hc : c.Tests (Test.Accepted schema root aliases)) (hr : Record.Conforms schema root r) :
    c.formula.truth r = .ofBool (c.holds r) := by
  induction c with
  | const b => cases b <;> rfl
  | and l m ihl ihm =>
    rw [Condition.formula, Formula.truth, ihl hc.1, ihm hc.2, ofBool_and, Condition.holds]
  | or l m ihl ihm =>
    rw [Condition.formula, Formula.truth, ihl hc.1, ihm hc.2, ofBool_or, Condition.holds]
  | not c ih => rw [Condition.formula, Formula.truth, ih hc, ofBool_not, Condition.holds]
  | test chain t =>
    obtain ⟨⟨path, hpath⟩, hsuits, _⟩ := hc
    rw [Condition.formula, Condition.holds, chain_value_eq]
    exact test_truth rfl (resolve_conforms hpath hr) hsuits

end Sql

/-! ## Top theorem (proved from the lemmas above) -/

/-- On a record that conforms to the root shape, the clause of an accepted query, with its parameters,
holds exactly where the query keeps the record and fails otherwise; so does the clause of every part of the
query's condition, which is a part of the whole clause. -/
theorem clause_agrees {schema : Schema} {root : Shape} {aliases : Aliases} {query : String}
    {c : Condition} (h : Condition.ofQuery schema root aliases query = .ok c) {r : Record}
    (hr : Record.Conforms schema root r) :
    ∃ f, Sql.read (SqlFilter.ofCondition c) = some f ∧ f.truth r = .ofBool (c.holds r) ∧
      ∀ d, d.PartOf c → ∃ g, Sql.read (SqlFilter.ofCondition d) = some g ∧ g.PartOf f ∧
        g.truth r = .ofBool (d.holds r) := by
  have hc := ofQuery_tests h
  have hread (d : Condition) (hd : d.PartOf c) :
      Sql.read (SqlFilter.ofCondition d) = some d.formula ∧ d.formula.truth r = .ofBool (d.holds r) :=
    ⟨Sql.read_ofCondition ((hd.tests hc).imp fun _ _ ht => ht.hasValues),
      Sql.formula_truth (hd.tests hc) hr⟩
  refine ⟨c.formula, (hread c .self).1, (hread c .self).2, ?_⟩
  intro d hd
  exact ⟨d.formula, (hread d hd).1, hd.formula, (hread d hd).2⟩

/-- A task without a boss satisfies `not Boss.Done = true`, and so the clause holds of it. Without the
guard it would be unknown. -/
theorem clause_holds_without_boss :
    let task : Shape := ⟨"Task", [⟨"Done", .bool, false⟩, ⟨"Boss", .record "Task", true⟩], []⟩
    let r : Record := fun name => if name = "Done" then .scalar (.bool false) else .null
    (Condition.ofQuery ⟨[task], none⟩ task .empty "not Boss.Done = true").map SqlFilter.ofCondition =
        .ok ⟨"NOT ((\"Boss\".\"Done\" = ? AND \"Boss\".\"Done\" IS NOT NULL))", [.bool true]⟩ ∧
      Record.Conforms ⟨[task], none⟩ task r ∧
      ∃ f, Sql.read ⟨"NOT ((\"Boss\".\"Done\" = ? AND \"Boss\".\"Done\" IS NOT NULL))", [.bool true]⟩ =
          some f ∧ f.truth r = .holds := by
  intro task r
  have hquery : Condition.ofQuery ⟨[task], none⟩ task .empty "not Boss.Done = true" =
      .ok (.not (.test ⟨[⟨"Boss", .record "Task", true⟩], ⟨"Done", .bool, false⟩⟩
        (.compare .eq (.bool true)))) := by
    apply toOption_eq_some_iff.1
    decide +kernel
  have hr : Record.Conforms ⟨[task], none⟩ task r := by
    intro p hp
    simp only [task, List.mem_cons, List.not_mem_nil, or_false] at hp
    rcases hp with rfl | rfl <;> rfl
  obtain ⟨f, hread, htruth, _⟩ := clause_agrees hquery hr
  refine ⟨?_, hr, f, hread, htruth⟩
  rw [hquery]
  rfl

end RecordQuery
