import RecordQuery.Filter
import RecordQuery.Proofs.ParserComplete
import RecordQuery.Proofs.Typing

/-!
# What accepted queries ask

A condition that comes from a query text tests only chains that paths resolve to, and each by a test that
suits the type of the chain. Its lists are not empty, as the grammar has no empty list.

    Condition.ofQuery schema root aliases query = .ok c  →  c.Tests (Test.Accepted schema root aliases)
      (ofQuery_tests)
-/

namespace RecordQuery

/-! ## Tests of accepted queries -/

/-- All tests of the condition satisfy `p`. -/
def Condition.Tests (p : Chain → Test → Prop) : Condition → Prop
  | const _ => True
  | and l r => l.Tests p ∧ r.Tests p
  | or l r => l.Tests p ∧ r.Tests p
  | not c => c.Tests p
  | test chain t => p chain t

/-- The test has no list without values. -/
def Test.HasValues : Test → Prop
  | isIn values => values ≠ []
  | _ => True

/-- The test can be made of values of the type. -/
def Test.Suits (type : FieldType) : Test → Prop
  | isNull | isNotNull => True
  | compare _ _ | isIn _ => type.isRecord = false
  | text _ _ => type = .string

/-- The test is one that a query may ask for. -/
structure Test.Accepted (schema : Schema) (root : Shape) (aliases : Aliases) (chain : Chain) (t : Test) :
    Prop where
  resolved : ∃ path, schema.resolve root aliases path = .ok chain
  suits : t.Suits chain.type
  hasValues : t.HasValues

/-- The comparison has no list without literals. -/
def Comparison.HasLiterals (c : Comparison) : Prop := ∀ ls, c.operand = some (.list ls) → ls ≠ []

/-- All comparisons of the expression satisfy `p`. -/
def Expr.Comparisons (p : Comparison → Prop) : Expr → Prop
  | and l r => l.Comparisons p ∧ r.Comparisons p
  | or l r => l.Comparisons p ∧ r.Comparisons p
  | not e => e.Comparisons p
  | comparison c => p c

/-! ## Lemmas -/

theorem Condition.Tests.imp {p q : Chain → Test → Prop} {c : Condition} (h : c.Tests p)
    (hpq : ∀ chain t, p chain t → q chain t) : c.Tests q := by
  induction c with
  | const b => trivial
  | and l r ihl ihr => exact ⟨ihl h.1, ihr h.2⟩
  | or l r ihl ihr => exact ⟨ihl h.1, ihr h.2⟩
  | not c ih => exact ih h
  | test chain t => exact hpq chain t h

theorem Grammar.Compares.hasLiterals {ts : List Token} {c : Comparison} (h : Grammar.Compares ts c) :
    c.HasLiterals := by
  cases h with
  | mk _ _ hoperands =>
    intro ls hls
    cases hoperands with
    | isNull => cases hls
    | isNotNull => cases hls
    | list _ hliterals _ => cases hls; exact hliterals.ne_nil
    | one _ _ _ _ => cases hls

/-- The grammar has no empty list. -/
theorem Grammar.Derives.hasLiterals {rule : Grammar.Rule} {ts : List Token} {e : Expr} {w : Nat}
    (h : Grammar.Derives rule ts e w) : e.Comparisons Comparison.HasLiterals := by
  induction h with
  | comparison hc => exact hc.hasLiterals
  | parens _ _ _ ih => exact ih
  | plain _ ih => exact ih
  | not _ _ ih => exact ih
  | oneOperand _ ih => exact ih
  | and _ _ _ ihl ihr => exact ⟨ihl, ihr⟩
  | oneConjunction _ ih => exact ih
  | or _ _ _ ihl ihr => exact ⟨ihl, ihr⟩

theorem againstNull_tests {schema : Schema} {root : Shape} {aliases : Aliases} {path : String}
    {chain : Chain} (h : schema.resolve root aliases path = .ok chain) (op : Comparator) :
    (Typing.againstNull chain op).Tests (Test.Accepted schema root aliases) := by
  cases op with
  | eq => exact ⟨⟨path, h⟩, trivial, trivial⟩
  | ne => exact ⟨⟨path, h⟩, trivial, trivial⟩
  | _ => trivial

theorem nullTest_tests {schema : Schema} {root : Shape} {aliases : Aliases} {path : String}
    {chain : Chain} (h : schema.resolve root aliases path = .ok chain) (isNull : Bool) :
    (Typing.nullTest chain isNull).Tests (Test.Accepted schema root aliases) := by
  unfold Typing.nullTest
  split
  · cases isNull <;> exact ⟨⟨path, h⟩, trivial, trivial⟩
  · trivial

theorem states_tests {schema : Schema} {root : Shape} {aliases : Aliases} {chain : Chain}
    {c : Comparison} {d : Condition} (hchain : schema.resolve root aliases c.path = .ok chain)
    (h : Typing.States chain c d) (hc : c.HasLiterals) :
    d.Tests (Test.Accepted schema root aliases) := by
  cases h with
  | isNull _ => exact nullTest_tests hchain true
  | isNotNull _ => exact nullTest_tests hchain false
  | null _ _ _ _ => exact againstNull_tests hchain _
  | value hrec _ _ _ _ => exact ⟨⟨c.path, hchain⟩, hrec, trivial⟩
  | text htype _ _ => exact ⟨⟨c.path, hchain⟩, htype, trivial⟩
  | @list ls vs hrec _ _ hls hvs =>
    refine ⟨⟨c.path, hchain⟩, hrec, ?_⟩
    rintro rfl
    exact hc ls hls (List.map_eq_nil_iff.1 hvs)

theorem translates_tests {schema : Schema} {root : Shape} {aliases : Aliases} {e : Expr}
    {d : Condition} (h : Typing.Translates schema root aliases e d)
    (he : e.Comparisons Comparison.HasLiterals) : d.Tests (Test.Accepted schema root aliases) := by
  induction h with
  | and _ _ ihl ihr => exact ⟨ihl he.1, ihr he.2⟩
  | or _ _ ihl ihr => exact ⟨ihl he.1, ihr he.2⟩
  | not _ ih => exact ih he
  | comparison hchain hd => exact states_tests hchain hd he

/-! ## Top theorem (proved from the lemmas above) -/

/-- The condition of a query text makes only tests that queries may ask for. -/
theorem ofQuery_tests {schema : Schema} {root : Shape} {aliases : Aliases} {query : String}
    {c : Condition} (h : Condition.ofQuery schema root aliases query = .ok c) :
    c.Tests (Test.Accepted schema root aliases) := by
  obtain ⟨ts, _, hread⟩ := bind_eq_ok_iff.1 h
  obtain ⟨e, he, hc⟩ := bind_eq_ok_iff.1 hread
  obtain ⟨w, ⟨k, hderives⟩, _⟩ := (ofTokens_eq_ok_iff ts e).1 he
  exact translates_tests (Typing.ofExpr_eq_ok_iff.1 hc) hderives.hasLiterals

end RecordQuery
