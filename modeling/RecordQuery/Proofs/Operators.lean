import RecordQuery.Proofs.Legality
import RecordQuery.Proofs.Meaning

/-!
# Laws of the operators

The operators go together, on whatever records hold: `!=` is accepted where `=` is, and is its complement;
a literal that can be ordered by `<` can be compared in every way, of `<`, `=` and `>` one holds at most,
and `<=` and `>=` add `=` to `<` and `>`; `in` is `=` with one of the literals of its list
(`operator_laws`).

A comparison with a literal compares with what the literal stands for, a value of the type or null:

    Typing.States chain ⟨path, op, some (.one l), _⟩ d  ↔  an order suits, if `op` asks for one, and
      l.coerce … = .ok w  and  d = chain.compared k w  for some w        (states_one_iff)

and null, records and values of another kind pass it as scalars without an order do (`compare_holds_eq`).
So the laws are those of comparators on an order that may be missing.
-/

namespace RecordQuery

/-! ## Comparisons with a value or null -/

/-- The condition that compares the value at the end of a chain with a value or null. -/
def Chain.compared (chain : Chain) (k : Comparator) : Option Scalar → Condition
  | some v => .test chain (.compare k v)
  | none => Typing.againstNull chain k

/-- The order in which a field stands to a value, if it is a scalar that has one. -/
def Field.order? (f : Field) (v : Scalar) : Option Ordering :=
  match f with
  | .scalar s => s.compare? v
  | _ => none

/-! ## Lemmas -/

theorem compare_holds_eq (k : Comparator) (v : Scalar) (f : Field) :
    (Test.compare k v).holds f = k.admits (f.order? v) := by
  cases f with
  | scalar s => rfl
  | null => cases k <;> rfl
  | record r => cases k <;> rfl

theorem admits_le (o : Option Ordering) :
    Comparator.le.admits o = (Comparator.lt.admits o || Comparator.eq.admits o) := by
  simp [Comparator.admits]

theorem admits_ge (o : Option Ordering) :
    Comparator.ge.admits o = (Comparator.gt.admits o || Comparator.eq.admits o) := by
  simp [Comparator.admits]

theorem count_admits_le_one (o : Option Ordering) :
    [Comparator.lt.admits o, Comparator.eq.admits o, Comparator.gt.admits o].count true ≤ 1 := by
  rcases o with - | - | - | - <;> decide

theorem compared_holds_eq (chain : Chain) (k : Comparator) (v : Scalar) (r : Record) :
    (chain.compared k (some v)).holds r = k.admits ((chain.value r).order? v) :=
  compare_holds_eq k v _

/-- A value or null is unequal to all that it does not equal. -/
theorem compared_ne_holds (chain : Chain) (w : Option Scalar) (r : Record) :
    (chain.compared .ne w).holds r = !(chain.compared .eq w).holds r := by
  cases w with
  | some v => rw [compared_holds_eq, compared_holds_eq, admits_ne]
  | none => rfl

namespace Typing

variable {chain : Chain} {d : Condition} {path : String} {position : Nat}

/-! ## Accepted comparisons -/

/-- A comparison with a literal compares with what the literal stands for. -/
theorem states_one_iff (hchain : chain.WellFormed) {op : Operator} {k : Comparator}
    (hop : op.comparator? = some k) (l : Literal) :
    States chain ⟨path, op, some (.one l), position⟩ d ↔ OrderSuits chain.type op ∧
      ∃ w, l.coerce chain.type chain.isNullable chain.path = .ok w ∧ d = chain.compared k w := by
  rw [states_comparator_iff hop]
  refine and_congr_right fun _ => ⟨?_, ?_⟩
  · rintro ⟨_, hl, ⟨rfl, hn, rfl⟩ | ⟨_, v, hv, rfl⟩⟩ <;> cases hl
    · refine ⟨none, coerce_eq_none_iff.2 ⟨rfl, ?_⟩, rfl⟩
      -- a reference can be null by its type, any other value where the checker has seen to it
      cases htype : chain.type.isValueType with
      | false => exact hchain htype
      | true => exact hn (by cases ht : chain.type <;> rw [ht] at htype <;> first | rfl | cases htype)
    · exact ⟨some v, hv, rfl⟩
  · rintro ⟨w, hw, rfl⟩
    refine ⟨l, rfl, ?_⟩
    cases w with
    | none =>
      obtain ⟨rfl, hn⟩ := coerce_eq_none_iff.1 hw
      exact .inl ⟨rfl, fun _ => hn, rfl⟩
    | some v => exact .inr ⟨isRecord_of_suits (coerce_suits hw), v, hw, rfl⟩

theorem states_equality_iff (hchain : chain.WellFormed) {op : Operator} {k : Comparator}
    (hop : op.comparator? = some k) (heq : op = .equal ∨ op = .notEqual) (l : Literal) :
    States chain ⟨path, op, some (.one l), position⟩ d ↔
      ∃ w, l.coerce chain.type chain.isNullable chain.path = .ok w ∧ d = chain.compared k w := by
  rw [states_one_iff hchain hop, and_iff_right (orderSuits_of_equality heq _)]

/-- A literal that can be ordered can be compared by every comparator. -/
theorem states_of_less (hchain : chain.WellFormed) {l : Literal} (hl : l ≠ .null)
    (h : States chain ⟨path, .less, some (.one l), position⟩ d) :
    ∃ v, d = chain.compared .lt (some v) ∧ ∀ op k, op.comparator? = some k →
      States chain ⟨path, op, some (.one l), position⟩ (chain.compared k (some v)) := by
  obtain ⟨hord, w, hw, rfl⟩ := (states_one_iff hchain rfl l).1 h
  cases w with
  | none => exact absurd (coerce_eq_none_iff.1 hw).1 hl
  | some v =>
    exact ⟨v, rfl, fun op k hop => (states_one_iff hchain hop l).2 ⟨fun _ => hord rfl, _, hw, rfl⟩⟩

/-! ## The laws -/

/-- Equality and inequality are stated of the same literals, and are complements. -/
theorem equality_laws (hchain : chain.WellFormed) (l : Literal) :
    ((∃ d, States chain ⟨path, .equal, some (.one l), position⟩ d) ↔
      ∃ d, States chain ⟨path, .notEqual, some (.one l), position⟩ d) ∧
    ∀ eq ne, States chain ⟨path, .equal, some (.one l), position⟩ eq →
      States chain ⟨path, .notEqual, some (.one l), position⟩ ne → ∀ r, ne.holds r = !eq.holds r := by
  simp only [states_equality_iff hchain (k := .eq) rfl (.inl rfl),
    states_equality_iff hchain (k := .ne) rfl (.inr rfl)]
  constructor
  · constructor
    · rintro ⟨_, w, hw, _⟩
      exact ⟨_, w, hw, rfl⟩
    · rintro ⟨_, w, hw, _⟩
      exact ⟨_, w, hw, rfl⟩
  · rintro eq ne ⟨w, hw, rfl⟩ ⟨w', hw', rfl⟩ r
    cases hw.symm.trans hw'
    exact compared_ne_holds chain w r

/-- A literal that can be ordered can be compared in every way. One order holds at most, and the weak orders
add equality to the strict ones. -/
theorem ordering_laws (hchain : chain.WellFormed) (l : Literal) (lt : Condition) (hl : l ≠ .null)
    (h : States chain ⟨path, .less, some (.one l), position⟩ lt) :
    ∃ le gt ge eq, States chain ⟨path, .lessEqual, some (.one l), position⟩ le ∧
      States chain ⟨path, .greater, some (.one l), position⟩ gt ∧
      States chain ⟨path, .greaterEqual, some (.one l), position⟩ ge ∧
      States chain ⟨path, .equal, some (.one l), position⟩ eq ∧
      ∀ r, [lt.holds r, eq.holds r, gt.holds r].count true ≤ 1 ∧
        le.holds r = (lt.holds r || eq.holds r) ∧ ge.holds r = (gt.holds r || eq.holds r) := by
  obtain ⟨v, rfl, hv⟩ := states_of_less hchain hl h
  refine ⟨_, _, _, _, hv _ .le rfl, hv _ .gt rfl, hv _ .ge rfl, hv _ .eq rfl, fun r => ?_⟩
  simp only [compared_holds_eq]
  exact ⟨count_admits_le_one _, admits_le _, admits_ge _⟩

/-- A value can be looked up in a list just if each literal can be compared with it and none is null. -/
theorem exists_states_isIn_iff (hchain : chain.WellFormed) (htype : chain.type ≠ .string)
    {ls : List Literal} (hls : ls ≠ []) :
    (∃ d, States chain ⟨path, .isIn, some (.list ls), position⟩ d) ↔
      ∀ l ∈ ls, l ≠ .null ∧ ∃ d, States chain ⟨path, .equal, some (.one l), position⟩ d := by
  constructor
  · rintro ⟨_, h⟩ l hl
    obtain ⟨_, _, vs, hvs, rfl⟩ := (states_isIn_iff rfl rfl).1 h
    obtain ⟨v, _, hv⟩ := exists_value_of_mem hvs chain.isNullable hl
    exact ⟨ne_null_of_coerce hv, _, (states_equality_iff hchain rfl (.inl rfl) l).2 ⟨some v, hv, rfl⟩⟩
  · intro h
    have hvalues : ∀ l ∈ ls, l.IsValueOf chain := by
      intro l hl
      obtain ⟨hnull, _, hd⟩ := h l hl
      obtain ⟨w, hw, rfl⟩ := (states_equality_iff hchain rfl (.inl rfl) l).1 hd
      cases w with
      | none => exact absurd (coerce_eq_none_iff.1 hw).1 hnull
      | some v => exact ⟨v, hw⟩
    -- the list has a literal, so that the type is none of references
    obtain ⟨l, hl⟩ := List.exists_mem_of_ne_nil ls hls
    obtain ⟨v, hv⟩ := hvalues l hl
    obtain ⟨vs, hvs⟩ := exists_values hvalues
    exact ⟨_, (states_isIn_iff rfl rfl).2
      ⟨isRecord_of_suits (coerce_suits hv), htype, vs, hvs, rfl⟩⟩

/-- A list has the values that one of its literals equals. -/
theorem states_isIn_holds_iff (hchain : chain.WellFormed) {ls : List Literal}
    (h : States chain ⟨path, .isIn, some (.list ls), position⟩ d) (r : Record) :
    d.holds r = true ↔ ∃ l ∈ ls, ∃ eq, States chain ⟨path, .equal, some (.one l), position⟩ eq ∧
      eq.holds r = true := by
  obtain ⟨_, _, vs, hvs, rfl⟩ := (states_isIn_iff rfl rfl).1 h
  have hequal (v : Scalar) :
      (chain.compared .eq (some v)).holds r = true ↔ (chain.value r).Compares .equal v :=
    RecordQuery.compare_holds_iff rfl (by decide) v _
  have hisIn : (Condition.test chain (.isIn vs)).holds r = true ↔
      ∃ v ∈ vs, (chain.value r).Compares .equal v := RecordQuery.isIn_holds_iff vs _
  rw [hisIn]
  constructor
  · rintro ⟨v, hv, heq⟩
    obtain ⟨l, hl, hcoerce⟩ := exists_literal_of_mem hvs chain.isNullable hv
    exact ⟨l, hl, _, (states_equality_iff hchain rfl (.inl rfl) l).2 ⟨some v, hcoerce, rfl⟩,
      (hequal v).2 heq⟩
  · rintro ⟨l, hl, eq, heq, hholds⟩
    obtain ⟨v, hv, hcoerce⟩ := exists_value_of_mem hvs chain.isNullable hl
    obtain ⟨w, hw, rfl⟩ := (states_equality_iff hchain rfl (.inl rfl) l).1 heq
    cases hcoerce.symm.trans hw
    exact ⟨v, hv, (hequal v).1 hholds⟩

end Typing

/-! ## Top theorem (proved from the lemmas above) -/

/-- The operators on one field go together, on every record. Equality and inequality are accepted together
and are complements. Where a literal other than null can be ordered, all comparisons with it are accepted,
at most one of the strict orders and equality holds, and the weak orders add equality to the strict ones.
Where the path does not end at a text, a list is accepted just if none of its literals is null and equality
with each of them is accepted, and it holds where one of these does. -/
theorem operator_laws (schema : Schema) (root : Shape) (aliases : Aliases) (path : String)
    (position : Nat) :
    let states (op : Operator) (o : Operand) (d : Condition) : Prop :=
      Condition.ofExpr schema root aliases (.comparison ⟨path, op, some o, position⟩) = .ok d
    (∀ l, ((∃ d, states .equal (.one l) d) ↔ ∃ d, states .notEqual (.one l) d) ∧
      ∀ eq ne, states .equal (.one l) eq → states .notEqual (.one l) ne →
        ∀ r, ne.holds r = !eq.holds r) ∧
    (∀ l lt, l ≠ .null → states .less (.one l) lt →
      ∃ le gt ge eq, states .lessEqual (.one l) le ∧ states .greater (.one l) gt ∧
        states .greaterEqual (.one l) ge ∧ states .equal (.one l) eq ∧
        ∀ r, [lt.holds r, eq.holds r, gt.holds r].count true ≤ 1 ∧
          le.holds r = (lt.holds r || eq.holds r) ∧ ge.holds r = (gt.holds r || eq.holds r)) ∧
    ((∀ chain, schema.resolve root aliases path = .ok chain → chain.type ≠ .string) →
      ∀ ls, ls ≠ [] →
        ((∃ d, states .isIn (.list ls) d) ↔ ∀ l ∈ ls, l ≠ .null ∧ ∃ d, states .equal (.one l) d) ∧
        ∀ d, states .isIn (.list ls) d → ∀ r,
          d.holds r = true ↔ ∃ l ∈ ls, ∃ eq, states .equal (.one l) eq ∧ eq.holds r = true) := by
  intro states
  cases hpath : schema.resolve root aliases path with
  | error fault =>
    have hno (op : Operator) (o : Operand) (d : Condition) : ¬ states op o d := by
      intro h
      obtain ⟨chain, hchain, _⟩ := Typing.ofExpr_comparison_iff.1 h
      cases hpath.symm.trans hchain
    refine ⟨fun l => ⟨by simp only [hno], fun _ _ h => absurd h (hno _ _ _)⟩,
      fun _ _ _ h => absurd h (hno _ _ _), fun _ ls hls => ⟨?_, fun _ h => absurd h (hno _ _ _)⟩⟩
    obtain ⟨l, hl⟩ := List.exists_mem_of_ne_nil ls hls
    refine ⟨fun ⟨_, h⟩ => absurd h (hno _ _ _), fun h => ?_⟩
    obtain ⟨_, _, hd⟩ := h l hl
    exact absurd hd (hno _ _ _)
  | ok chain =>
    have hwf : chain.WellFormed := resolve_wellFormed hpath
    have hstates (op : Operator) (o : Operand) (d : Condition) :
        states op o d ↔ Typing.States chain ⟨path, op, some o, position⟩ d :=
      Typing.ofExpr_comparison_of_resolve hpath
    simp only [hstates]
    exact ⟨Typing.equality_laws hwf, Typing.ordering_laws hwf, fun htype ls hls =>
      ⟨Typing.exists_states_isIn_iff hwf (htype chain rfl) hls,
        fun _ h => Typing.states_isIn_holds_iff hwf h⟩⟩

/-- What is not a number is unequal to 2.5, in no order with it and not in a list with it. -/
theorem operator_laws_nan :
    let task : Shape := ⟨"Task", [⟨"Effort", .float64, true⟩], []⟩
    let states (op : Operator) (o : Operand) (d : Condition) : Prop :=
      Condition.ofExpr ⟨[task], none⟩ task .empty (.comparison ⟨"effort", op, some o, 0⟩) = .ok d
    let l : Literal := .number ⟨25, 1⟩
    let r : Record := fun _ => .scalar (.float .nan)
    (∃ eq ne, states .equal (.one l) eq ∧ states .notEqual (.one l) ne ∧
      eq.holds r = false ∧ ne.holds r = true) ∧
    (∃ le, states .lessEqual (.one l) le ∧ le.holds r = false) ∧
    ∃ d, states .isIn (.list [l, l]) d ∧ d.holds r = false := by
  intro task states l r
  let chain : Chain := ⟨[], ⟨"Effort", .float64, true⟩⟩
  let w : Option Scalar := some (.float (.finite false 5629499534213120 (-51)))
  have heq : states .equal (.one l) (chain.compared .eq w) :=
    toOption_eq_some_iff.1 (by decide +kernel)
  have hlt : states .less (.one l) (chain.compared .lt w) :=
    toOption_eq_some_iff.1 (by decide +kernel)
  have hpath : Schema.resolve ⟨[task], none⟩ task .empty "effort" = .ok chain :=
    toOption_eq_some_iff.1 (by decide +kernel)
  have htype : ∀ c, Schema.resolve ⟨[task], none⟩ task .empty "effort" = .ok c → c.type ≠ .string := by
    intro c hc
    cases hpath.symm.trans hc
    decide
  obtain ⟨hequality, hordering, hmembership⟩ := operator_laws ⟨[task], none⟩ task .empty "effort" 0
  refine ⟨?_, ?_, ?_⟩
  · obtain ⟨hiff, hcomplement⟩ := hequality l
    obtain ⟨ne, hne⟩ := hiff.1 ⟨_, heq⟩
    exact ⟨_, ne, heq, hne, rfl, hcomplement _ _ heq hne r⟩
  · obtain ⟨le, _, _, eq, hle, _, _, heq', hlaws⟩ := hordering l _ (by decide) hlt
    cases heq.symm.trans heq'
    exact ⟨le, hle, (hlaws r).2.1⟩
  · obtain ⟨hexists, hisIn⟩ := hmembership htype [l, l] (by decide)
    have hl : ∀ l' ∈ [l, l], l' = l := by simp
    obtain ⟨d, hd⟩ := hexists.2 fun l' hl' => by
      rw [hl l' hl']
      exact ⟨by decide, _, heq⟩
    refine ⟨d, hd, Bool.eq_false_iff.2 fun hholds => ?_⟩
    obtain ⟨l', hl', eq, heq', htrue⟩ := (hisIn d hd r).1 hholds
    rw [hl l' hl'] at heq'
    cases heq.symm.trans heq'
    cases htrue

end RecordQuery
