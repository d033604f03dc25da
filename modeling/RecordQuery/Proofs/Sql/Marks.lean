import RecordQuery.Proofs.Sql.Parsing

/-!
# The marks of a clause

A clause states the same whatever values its marks take, but for the values. `Condition.WithValues` gives
the formula of a condition with other values in place of its own, from left to right, and the clause is
read as these formulas and no others:

    Sql.read ⟨c.clause, vs⟩ = some f  ↔  c.WithValues vs f    (read_iff_withValues)

Turns lead to a test, and an index to one of its values. The `k`-th mark and the `k`-th parameter stand at
one such place, the mark in the clause and the parameter in the condition.
-/

namespace RecordQuery

open Sql

/-! ## Formulas with other values -/

/-- The formula is that of the test with these values in place of its own. -/
inductive Test.WithValues (column : Sql.Operand) (mayBeNull : Bool) :
    Test → List Scalar → Formula → Prop
  | isNull : WithValues column mayBeNull .isNull [] (.isNull column)
  | isNotNull : WithValues column mayBeNull .isNotNull [] (.isNotNull column)
  | compare {op : Comparator} {v w : Scalar} :
      WithValues column mayBeNull (.compare op v) [w] ((Test.compare op w).formula column mayBeNull)
  | text {op : TextOperator} {needle : String} {w : Scalar} :
      WithValues column mayBeNull (.text op needle) [w]
        (guardedFormula column (.like column (.value w) '\\') mayBeNull)
  | isIn {vs ws : List Scalar} : vs.length = ws.length →
      WithValues column mayBeNull (.isIn vs) ws ((Test.isIn ws).formula column mayBeNull)

/-- The formula is that of the condition with these values in place of its own: it has the same constants
and connectives, and at every test the test's column and guard. -/
inductive Condition.WithValues : Condition → List Scalar → Formula → Prop
  | const {b : Bool} :
      WithValues (.const b) [] (.compare .eq (.value (.int 1)) (.value (.int (if b then 1 else 0))))
  | and {l r : Condition} {vs ws : List Scalar} {f g : Formula} :
      WithValues l vs f → WithValues r ws g → WithValues (.and l r) (vs ++ ws) (.and f g)
  | or {l r : Condition} {vs ws : List Scalar} {f g : Formula} :
      WithValues l vs f → WithValues r ws g → WithValues (.or l r) (vs ++ ws) (.or f g)
  | not {c : Condition} {vs : List Scalar} {f : Formula} :
      WithValues c vs f → WithValues (.not c) vs (.not f)
  | test {chain : Chain} {t : Test} {vs : List Scalar} {f : Formula} :
      t.WithValues (.column chain.names) chain.mayBeNull vs f → WithValues (.test chain t) vs f

/-! ## Places of values -/

/-- The way from a condition to one of its operands. -/
inductive Turn where
  | left
  | right
  | under
deriving DecidableEq, Repr

/-- The value at a place of a condition: the turns lead to a test, which has it at the index. -/
def Condition.valueAt? : Condition → List Turn → Nat → Option Scalar
  | test _ t, [], j => t.parameters[j]?
  | and l _, .left :: turns, j | or l _, .left :: turns, j => l.valueAt? turns j
  | and _ r, .right :: turns, j | or _ r, .right :: turns, j => r.valueAt? turns j
  | not c, .under :: turns, j => c.valueAt? turns j
  | _, _, _ => none

/-- The value at a place of a formula. Where the turns end at a pair, this is a test and its guard. -/
def Sql.Formula.valueAt? : Formula → List Turn → Nat → Option Scalar
  | compare _ _ (.value v), [], 0 => some v
  | like _ (.value v) _, [], 0 => some v
  | isIn _ vs, [], j => vs[j]?
  | and f _, [], j | or f _, [], j => f.valueAt? [] j
  | and f _, .left :: turns, j | or f _, .left :: turns, j => f.valueAt? turns j
  | and _ g, .right :: turns, j | or _ g, .right :: turns, j => g.valueAt? turns j
  | not f, .under :: turns, j => f.valueAt? turns j
  | _, _, _ => none

namespace Sql

/-! ## Reading with other values -/

/-- The lexemes, with the values at their marks, are read as the formula, an operand of whatever stands
around. -/
def Yields (ls : List Lexeme) (vs : List Scalar) (f : Formula) : Prop :=
  ∃ ms items, Binds ls vs ms ∧ Groups ms items ∧ Builds items f

namespace Yields

variable {ls ls' : List Lexeme} {vs ws : List Scalar} {f g : Formula}

/-- Two conditions in parentheses with a connective between them. -/
theorem pair {l : Lexeme} {i : Item} {fg : Formula} (h : Yields ls vs f) (h' : Yields ls' ws g)
    (hl : l ≠ .mark) (hi : Groups [l] [i])
    (hfg : ∀ {is js}, Builds is f → Builds js g → Builds (.left :: is ++ i :: js ++ [.right]) fg) :
    Yields (.left :: ls ++ l :: ls' ++ [.right]) (vs ++ ws) fg := by
  obtain ⟨ms, is, hbinds, hgroups, hbuilds⟩ := h
  obtain ⟨ms', js, hbinds', hgroups', hbuilds'⟩ := h'
  have hright : Binds [.right] [] [.right] := Binds.keep (by decide)
  have hmarks : Binds (.left :: ls ++ l :: ls' ++ [.right]) (vs ++ ws)
      (.left :: ms ++ l :: ms' ++ [.right]) :=
    ((hbinds.cons (by decide)).append (hbinds'.cons hl)).followed hright
  have hitems : Groups (.left :: ms ++ l :: ms' ++ [.right]) (.left :: is ++ i :: js ++ [.right]) := by
    have hall := Groups.left.append (hgroups.append (hi.append (hgroups'.append Groups.right)))
    simpa [List.append_assoc] using hall
  exact ⟨_, _, hmarks, hitems, hfg hbuilds hbuilds'⟩

theorem not (h : Yields ls vs f) :
    Yields (.word "NOT" :: .left :: ls ++ [.right]) vs (.not f) := by
  obtain ⟨ms, items, hbinds, hgroups, hbuilds⟩ := h
  have hright : Binds [.right] [] [.right] := Binds.keep (by decide)
  exact ⟨.word "NOT" :: .left :: ms ++ [.right], .not :: .left :: items ++ [.right],
    ((hbinds.cons (by decide)).cons (by decide)).followed hright,
    (Groups.not.append (Groups.left.append hgroups)).append Groups.right, hbuilds.not⟩

end Yields

theorem listLexemes_congr {vs ws : List Scalar} (h : vs.length = ws.length) :
    listLexemes (fun _ => .mark) vs = listLexemes (fun _ => .mark) ws := by
  induction vs generalizing ws with
  | nil => rw [List.length_eq_zero_iff.1 h.symm]
  | cons v vs ih =>
    cases ws with
    | nil => cases h
    | cons w ws =>
      have hlength : vs.length = ws.length := Nat.succ.inj h
      have htail := ih hlength
      cases vs with
      | nil => rw [List.length_eq_zero_iff.1 hlength.symm]; rfl
      | cons v' vs =>
        cases ws with
        | nil => cases hlength
        | cons w' ws => exact congrArg (Lexeme.mark :: Lexeme.comma :: ·) htail

/-- The lexemes of a test with values of its own are read as its formula. -/
theorem yields_test {names : List String} (hnames : names ≠ []) (mayBeNull : Bool) {t : Test}
    (ht : t.HasValues) : Yields (t.lexemes (fun _ => .mark) (columnLexemes names) mayBeNull) t.parameters
      (t.formula (.column names) mayBeNull) :=
  ⟨_, _, binds_test (Binds.column names) mayBeNull t, groups_of_test hnames mayBeNull ht,
    builds_pairItems _⟩

/-- A pattern of any kind can stand behind LIKE. -/
theorem yields_like {names : List String} (hnames : names ≠ []) (mayBeNull : Bool) (w : Scalar) :
    Yields (Test.guardedLexemes (columnLexemes names)
        (columnLexemes names ++ [.word "LIKE", .mark, .word "ESCAPE", .text "\\"]) mayBeNull) [w]
      (Test.guardedFormula (.column names) (.like (.column names) (.value w) '\\') mayBeNull) := by
  have hescape : Binds [.word "ESCAPE", .text "\\"] [] [.word "ESCAPE", .text "\\"] :=
    Binds.keep (by decide)
  have hlike : Binds (columnLexemes names ++ [.word "LIKE", .mark, .word "ESCAPE", .text "\\"]) [w]
      (columnLexemes names ++ [.word "LIKE", .value w, .word "ESCAPE", .text "\\"]) :=
    (Binds.column names).append ((hescape.mark w).cons (by decide))
  have hgroups : Groups (columnLexemes names ++ [.word "LIKE", .value w, .word "ESCAPE", .text "\\"])
      [.test (.like (.column names) (.value w) '\\')] := groups_test hnames (by decide) fun _ => rfl
  exact ⟨_, _, binds_guarded (Binds.column names) hlike mayBeNull,
    groups_guarded hnames hgroups rfl mayBeNull, builds_pairItems _⟩

/-- A test with other values has the lexemes of the test that has these values for its own. -/
theorem yields_of_test_withValues {names : List String} (hnames : names ≠ []) {mayBeNull : Bool} {t : Test}
    {vs : List Scalar} {f : Formula} (ht : t.HasValues) (h : t.WithValues (.column names) mayBeNull vs f) :
    Yields (t.lexemes (fun _ => .mark) (columnLexemes names) mayBeNull) vs f := by
  cases h with
  | isNull => exact yields_test hnames mayBeNull ht
  | isNotNull => exact yields_test hnames mayBeNull ht
  | @compare op v w =>
    have hall := yields_test hnames mayBeNull (t := .compare op w) trivial
    cases op <;> exact hall
  | text => exact yields_like hnames mayBeNull _
  | @isIn values _ hlength =>
    have hne : vs ≠ [] := by
      rintro rfl
      exact ht (List.length_eq_zero_iff.1 hlength)
    have hall := yields_test hnames mayBeNull (t := .isIn vs) hne
    rw [Test.lexemes, ← listLexemes_congr hlength] at hall
    exact hall

theorem yields_of_withValues {c : Condition} {vs : List Scalar} {f : Formula}
    (hc : c.Tests fun _ t => t.HasValues) (h : c.WithValues vs f) : Yields (c.lexemes fun _ => .mark) vs f := by
  induction h with
  | @const b =>
    refine ⟨_, _, Binds.keep (by cases b <;> decide), ?_, builds_test _⟩
    cases b <;> exact Groups.item (List.cons_ne_nil _ _) fun _ => rfl
  | and _ _ ihl ihr => exact (ihl hc.1).pair (ihr hc.2) (by decide) Groups.and Builds.and
  | or _ _ ihl ihr => exact (ihl hc.1).pair (ihr hc.2) (by decide) Groups.or Builds.or
  | not _ ih => exact (ih hc).not
  | @test chain t vs f ht =>
    have hnames : chain.names ≠ [] := by simp [Chain.names, Chain.steps]
    exact yields_of_test_withValues hnames hc ht

theorem read_of_yields {c : Condition} {vs : List Scalar} {f : Formula}
    (h : Yields (c.lexemes fun _ => .mark) vs f) : Sql.read ⟨c.clause, vs⟩ = some f := by
  obtain ⟨ms, items, hbinds, hgroups, hbuilds⟩ := h
  have hbind : bind (c.lexemes fun _ => .mark) vs = some ms := by
    have hall := hbinds [] []
    rw [List.append_nil, List.append_nil] at hall
    exact hall.trans (congrArg some (List.append_nil ms))
  have hcut : cut item? ms = some items := by
    have hall := hgroups []
    rw [List.append_nil, cut] at hall
    exact hall.trans (congrArg some (List.append_nil items))
  have hbuild : items.foldlM Reading.step (.wants .empty []) = some (.has none f []) :=
    hbuilds .empty []
  show (do
    let bound ← bind (← Sql.lexemes c.clause.toList) vs
    let last ← (← cut item? bound).foldlM Reading.step (.wants .empty [])
    last.finish) = _
  rw [lexemes_clause, Option.bind_eq_bind, Option.bind_some, hbind, Option.bind_eq_bind,
    Option.bind_some, hcut, Option.bind_eq_bind, Option.bind_some, hbuild]
  rfl

/-! ## Numbers of marks -/

theorem count_mark_of_bind {ls ms : List Lexeme} {vs : List Scalar} (h : bind ls vs = some ms) :
    ls.count .mark = vs.length := by
  induction ls generalizing vs ms with
  | nil =>
    cases vs with
    | nil => rfl
    | cons v vs => cases h
  | cons l ls ih =>
    by_cases hl : l = .mark
    · subst hl
      cases vs with
      | nil => cases h
      | cons v vs =>
        obtain ⟨rest, hrest, _⟩ := Option.map_eq_some_iff.1 h
        rw [List.count_cons_self, ih hrest, List.length_cons]
    · have hstep : bind (l :: ls) vs = (bind ls vs).map (l :: ·) := by
        cases l <;> first | rfl | exact absurd rfl hl
      rw [hstep] at h
      obtain ⟨rest, hrest, _⟩ := Option.map_eq_some_iff.1 h
      rw [List.count_cons_of_ne hl, ih hrest]

theorem count_mark_lexemes (c : Condition) :
    (c.lexemes fun _ => .mark).count .mark = c.parameters.length :=
  count_mark_of_bind (bind_lexemes c)

/-- A clause is read with as many values as it has marks. -/
theorem length_of_read {c : Condition} {vs : List Scalar} {f : Formula}
    (h : Sql.read ⟨c.clause, vs⟩ = some f) : vs.length = c.parameters.length := by
  have hread : (do
      let bound ← bind (← Sql.lexemes c.clause.toList) vs
      let last ← (← cut item? bound).foldlM Reading.step (.wants .empty [])
      last.finish) = some f := h
  rw [lexemes_clause, Option.bind_eq_bind, Option.bind_some] at hread
  obtain ⟨ms, hms, _⟩ := Option.bind_eq_some_iff.1 hread
  rw [← count_mark_of_bind hms, count_mark_lexemes]

end Sql

/-! ## Conditions with other values -/

theorem Test.WithValues.length {column : Sql.Operand} {mayBeNull : Bool} {t : Test} {vs : List Scalar}
    {f : Formula} (h : t.WithValues column mayBeNull vs f) : vs.length = t.parameters.length := by
  cases h with
  | isIn hlength => exact hlength.symm
  | _ => rfl

theorem Condition.WithValues.length {c : Condition} {vs : List Scalar} {f : Formula}
    (h : c.WithValues vs f) : vs.length = c.parameters.length := by
  induction h with
  | const => rfl
  | and _ _ ihl ihr => rw [List.length_append, ihl, ihr, Condition.parameters, List.length_append]
  | or _ _ ihl ihr => rw [List.length_append, ihl, ihr, Condition.parameters, List.length_append]
  | not _ ih => exact ih
  | test ht => exact ht.length

/-- With its own values a condition has its own formula. -/
theorem withValues_parameters (c : Condition) : c.WithValues c.parameters c.formula := by
  induction c with
  | const b => exact .const
  | and l r ihl ihr => exact .and ihl ihr
  | or l r ihl ihr => exact .or ihl ihr
  | not c ih => exact .not ih
  | test chain t =>
    refine .test ?_
    cases t with
    | isNull => exact .isNull
    | isNotNull => exact .isNotNull
    | compare op v => exact .compare
    | text op needle => exact .text
    | isIn values => exact .isIn rfl

theorem Test.exists_withValues (column : Sql.Operand) (mayBeNull : Bool) {t : Test} {vs : List Scalar}
    (h : vs.length = t.parameters.length) : ∃ f, t.WithValues column mayBeNull vs f := by
  cases t with
  | isNull => rw [List.length_eq_zero_iff.1 h]; exact ⟨_, .isNull⟩
  | isNotNull => rw [List.length_eq_zero_iff.1 h]; exact ⟨_, .isNotNull⟩
  | compare op v => obtain ⟨w, rfl⟩ := List.length_eq_one_iff.1 h; exact ⟨_, .compare⟩
  | text op needle => obtain ⟨w, rfl⟩ := List.length_eq_one_iff.1 h; exact ⟨_, .text⟩
  | isIn values => exact ⟨_, .isIn h.symm⟩

/-- A list as long as two others together has a part for each of them. -/
theorem exists_append_of_length {α : Type} {us ws vs : List α} (h : vs.length = (us ++ ws).length) :
    ∃ us' ws', vs = us' ++ ws' ∧ us'.length = us.length ∧ ws'.length = ws.length := by
  rw [List.length_append] at h
  refine ⟨vs.take us.length, vs.drop us.length, (List.take_append_drop _ vs).symm, ?_, ?_⟩
  · rw [List.length_take]
    omega
  · rw [List.length_drop]
    omega

/-- As many values as the condition has can be put in their place. -/
theorem Condition.exists_withValues {c : Condition} {vs : List Scalar}
    (h : vs.length = c.parameters.length) : ∃ f, c.WithValues vs f := by
  induction c generalizing vs with
  | const b => rw [List.length_eq_zero_iff.1 h]; exact ⟨_, .const⟩
  | and l r ihl ihr =>
    obtain ⟨us, ws, rfl, hl, hr⟩ := exists_append_of_length h
    obtain ⟨f, hf⟩ := ihl hl
    obtain ⟨g, hg⟩ := ihr hr
    exact ⟨_, .and hf hg⟩
  | or l r ihl ihr =>
    obtain ⟨us, ws, rfl, hl, hr⟩ := exists_append_of_length h
    obtain ⟨f, hf⟩ := ihl hl
    obtain ⟨g, hg⟩ := ihr hr
    exact ⟨_, .or hf hg⟩
  | not c ih =>
    obtain ⟨f, hf⟩ := ih h
    exact ⟨_, .not hf⟩
  | test chain t =>
    obtain ⟨f, hf⟩ := Test.exists_withValues (.column chain.names) chain.mayBeNull h
    exact ⟨f, .test hf⟩

/-- A clause is read as the formula of its condition with the values, and as nothing else. -/
theorem read_iff_withValues {c : Condition} (hc : c.Tests fun _ t => t.HasValues) (vs : List Scalar)
    (f : Formula) : Sql.read ⟨c.clause, vs⟩ = some f ↔ c.WithValues vs f := by
  constructor
  · intro h
    obtain ⟨g, hg⟩ := Condition.exists_withValues (Sql.length_of_read h)
    have hread := Sql.read_of_yields (Sql.yields_of_withValues hc hg)
    rw [h] at hread
    cases hread
    exact hg
  · intro h
    exact Sql.read_of_yields (Sql.yields_of_withValues hc h)

/-! ## Places -/

theorem guardedFormula_valueAt? (column : Sql.Operand) (f : Formula) (mayBeNull : Bool) (j : Nat) :
    (Test.guardedFormula column f mayBeNull).valueAt? [] j = f.valueAt? [] j := by
  cases mayBeNull <;> rfl

/-- A test takes its values in their order. -/
theorem Test.WithValues.valueAt? {column : Sql.Operand} {mayBeNull : Bool} {t : Test} {vs : List Scalar}
    {f : Formula} (h : t.WithValues column mayBeNull vs f) (j : Nat) : f.valueAt? [] j = vs[j]? := by
  cases h with
  | isNull => rfl
  | isNotNull => rfl
  | @compare op v w =>
    have hcompare : (Formula.compare op column (.value w)).valueAt? [] j = [w][j]? := by
      cases j <;> rfl
    by_cases hop : op = .ne
    · subst hop
      cases mayBeNull <;> exact hcompare
    · rw [Sql.formula_compare hop, guardedFormula_valueAt?, hcompare]
  | text =>
    rw [guardedFormula_valueAt?]
    cases j <;> rfl
  | isIn _ =>
    rw [Test.formula, guardedFormula_valueAt?]
    rfl

/-- The condition has the value at a place, at which its formula with other values has the `k`-th of
these. -/
def Condition.HasPlace (c : Condition) (k : Nat) (v : Scalar) : Prop :=
  ∃ turns j, c.valueAt? turns j = some v ∧ ∀ vs f, c.WithValues vs f → f.valueAt? turns j = vs[k]?

/-- The values of a pair are those of its left side and behind them those of its right side. -/
theorem Condition.HasPlace.pair {c l r : Condition} {k : Nat} {v : Scalar}
    (h : (l.parameters ++ r.parameters)[k]? = some v)
    (hl : ∀ k, l.parameters[k]? = some v → l.HasPlace k v)
    (hr : ∀ k, r.parameters[k]? = some v → r.HasPlace k v)
    (hleft : ∀ turns, c.valueAt? (.left :: turns) = l.valueAt? turns)
    (hright : ∀ turns, c.valueAt? (.right :: turns) = r.valueAt? turns)
    (hwith : ∀ vs f, c.WithValues vs f → ∃ us ws g g',
      vs = us ++ ws ∧ l.WithValues us g ∧ r.WithValues ws g' ∧
      (∀ turns, f.valueAt? (.left :: turns) = g.valueAt? turns) ∧
      ∀ turns, f.valueAt? (.right :: turns) = g'.valueAt? turns) : c.HasPlace k v := by
  by_cases hk : k < l.parameters.length
  · rw [List.getElem?_append_left hk] at h
    obtain ⟨turns, j, hv, hplace⟩ := hl k h
    refine ⟨.left :: turns, j, by rw [hleft, hv], fun vs f hf => ?_⟩
    obtain ⟨us, ws, g, _, rfl, hg, _, hturn, _⟩ := hwith vs f hf
    have hus : k < us.length := by rw [hg.length]; exact hk
    rw [hturn, hplace us g hg, List.getElem?_append_left hus]
  · have hle := Nat.le_of_not_lt hk
    rw [List.getElem?_append_right hle] at h
    obtain ⟨turns, j, hv, hplace⟩ := hr _ h
    refine ⟨.right :: turns, j, by rw [hright, hv], fun vs f hf => ?_⟩
    obtain ⟨us, ws, _, g, rfl, hg, hg', _, hturn⟩ := hwith vs f hf
    have hus : us.length ≤ k := by rw [hg.length]; exact hle
    rw [hturn, hplace ws g hg', List.getElem?_append_right hus, hg.length]

/-- Every parameter has its place. -/
theorem hasPlace_of_getElem? {c : Condition} {k : Nat} {v : Scalar} (h : c.parameters[k]? = some v) :
    c.HasPlace k v := by
  induction c generalizing k with
  | const b => cases h
  | and l r ihl ihr =>
    refine .pair h (fun _ => ihl) (fun _ => ihr) (fun _ => rfl) (fun _ => rfl) fun vs f hf => ?_
    cases hf with
    | and hl hr => exact ⟨_, _, _, _, rfl, hl, hr, fun _ => rfl, fun _ => rfl⟩
  | or l r ihl ihr =>
    refine .pair h (fun _ => ihl) (fun _ => ihr) (fun _ => rfl) (fun _ => rfl) fun vs f hf => ?_
    cases hf with
    | or hl hr => exact ⟨_, _, _, _, rfl, hl, hr, fun _ => rfl, fun _ => rfl⟩
  | not c ih =>
    obtain ⟨turns, j, hv, hplace⟩ := ih h
    refine ⟨.under :: turns, j, hv, fun vs f hf => ?_⟩
    cases hf with
    | not hf => exact hplace _ _ hf
  | test chain t =>
    refine ⟨[], k, h, fun vs f hf => ?_⟩
    cases hf with
    | test ht => exact ht.valueAt? k

/-! ## Top theorem (proved from the lemmas above) -/

/-- The clause of an accepted query has as many marks as the query has parameters, whatever characters its
names are made of. It is read as the formula of the condition, with whatever values the marks take, and the
`k`-th mark stands where the condition has its `k`-th parameter. -/
theorem clause_reads_with_values {schema : Schema} {root : Shape} {aliases : Aliases} {query : String}
    {c : Condition} (h : Condition.ofQuery schema root aliases query = .ok c) :
    (∃ ls, Sql.lexemes c.clause.toList = some ls ∧ ls.count .mark = c.parameters.length) ∧
      Sql.read ⟨c.clause, c.parameters⟩ = some c.formula ∧
      (∀ vs f, Sql.read ⟨c.clause, vs⟩ = some f ↔ c.WithValues vs f) ∧
      (∀ vs, (∃ f, c.WithValues vs f) ↔ vs.length = c.parameters.length) ∧
      ∀ (k : Nat) (v : Scalar), c.parameters[k]? = some v → ∃ turns j, c.valueAt? turns j = some v ∧
        ∀ (vs : List Scalar) (f : Formula), Sql.read ⟨c.clause, vs⟩ = some f →
          f.valueAt? turns j = vs[k]? := by
  have hvalues : c.Tests fun _ t => t.HasValues := (ofQuery_tests h).imp fun _ _ ht => ht.hasValues
  have hread := read_iff_withValues hvalues
  have hlength (vs : List Scalar) : (∃ f, c.WithValues vs f) ↔ vs.length = c.parameters.length :=
    ⟨fun ⟨_, hf⟩ => hf.length, Condition.exists_withValues⟩
  refine ⟨⟨_, Sql.lexemes_clause c, Sql.count_mark_lexemes c⟩,
    (hread _ _).2 (withValues_parameters c), hread, hlength, fun k v hk => ?_⟩
  obtain ⟨turns, j, hv, hplace⟩ := hasPlace_of_getElem? hk
  exact ⟨turns, j, hv, fun vs f hf => hplace vs f ((hread vs f).1 hf)⟩

/-- The marks inside of names are none, and neither is the word `AND` between quotes. The two marks of the
list stand for different values of it, equal as these may be. -/
theorem clause_reads_quoted_names :
    let task : Shape := ⟨"Task", [⟨"a\"?", .string, false⟩, ⟨"AND", .int32, false⟩], []⟩
    let aliases := Aliases.ofList [("label", "a\"?"), ("prio", "AND")]
    let c : Condition := .or (.test ⟨[], ⟨"a\"?", .string, true⟩⟩ (.text .contains "50%"))
      (.not (.test ⟨[], ⟨"AND", .int32, false⟩⟩ (.isIn [.int 1, .int 1])))
    Condition.ofQuery ⟨[task], none⟩ task aliases
        "label contains \"50%\" or not prio in (1, 1)" = .ok c ∧
      c.clause =
        "((\"a\"\"?\" LIKE ? ESCAPE '\\' AND \"a\"\"?\" IS NOT NULL) OR NOT (\"AND\" IN (?, ?)))" ∧
      ∀ x y z, Sql.read ⟨c.clause, [x, y, z]⟩ = some (.or
        (.and (.like (.column ["a\"?"]) (.value x) '\\') (.isNotNull (.column ["a\"?"])))
        (.not (.isIn (.column ["AND"]) [y, z]))) := by
  intro task aliases c
  have hquery : Condition.ofQuery ⟨[task], none⟩ task aliases
      "label contains \"50%\" or not prio in (1, 1)" = .ok c := by
    apply toOption_eq_some_iff.1
    decide +kernel
  obtain ⟨_, _, hread, _⟩ := clause_reads_with_values hquery
  refine ⟨hquery, by decide +kernel, fun x y z => (hread [x, y, z] _).2 ?_⟩
  have hlike : Condition.WithValues (.test ⟨[], ⟨"a\"?", .string, true⟩⟩ (.text .contains "50%")) [x]
      (.and (.like (.column ["a\"?"]) (.value x) '\\') (.isNotNull (.column ["a\"?"]))) := .test .text
  have hin : Condition.WithValues (.test ⟨[], ⟨"AND", .int32, false⟩⟩ (.isIn [.int 1, .int 1])) [y, z]
      (.isIn (.column ["AND"]) [y, z]) := .test (.isIn rfl)
  exact .or hlike (.not hin)

end RecordQuery
