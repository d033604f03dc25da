import RecordQuery.Proofs.Accepted
import RecordQuery.Proofs.Sql.Lexing

/-!
# The formula of a clause

`Condition.formula` is the formula that the clause of a condition states once its marks have their values.
The lexemes of the clause take the parameters in their order, they group into `Condition.items`, and
these build the formula:

    read (SqlFilter.ofCondition c) = some c.formula    (read_ofCondition)

A list with no values has no such clause, so it is asked of the condition that its lists have values.
-/

namespace RecordQuery

open Sql

/-! ## Formulas and items of conditions -/

/-- A condition that fails where the column is NULL. -/
def Test.guardedFormula (column : Sql.Operand) (f : Formula) (mayBeNull : Bool) : Formula :=
  if mayBeNull then .and f (.isNotNull column) else f

/-- The formula of a test of a column. -/
def Test.formula (column : Sql.Operand) (mayBeNull : Bool) : Test → Formula
  | isNull => .isNull column
  | isNotNull => .isNotNull column
  | compare .ne v =>
    if mayBeNull then .or (.compare .ne column (.value v)) (.isNull column)
    else .compare .ne column (.value v)
  | compare op v => guardedFormula column (.compare op column (.value v)) mayBeNull
  | text op needle =>
    guardedFormula column (.like column (.value (.text (op.pattern needle))) '\\') mayBeNull
  | isIn values => guardedFormula column (.isIn column values) mayBeNull

/-- The formula of a condition. -/
def Condition.formula : Condition → Formula
  | const b => .compare .eq (.value (.int 1)) (.value (.int (if b then 1 else 0)))
  | and l r => .and l.formula r.formula
  | or l r => .or l.formula r.formula
  | not c => .not c.formula
  | test chain t => t.formula (.column chain.names) chain.mayBeNull

/-- The items of a formula in parentheses, if it is a pair. -/
def Sql.pairItems : Formula → List Item
  | .and f g => [.left, .test f, .and, .test g, .right]
  | .or f g => [.left, .test f, .or, .test g, .right]
  | f => [.test f]

/-- The items of a condition. -/
def Condition.items : Condition → List Item
  | const b => [.test (const b).formula]
  | and l r => .left :: l.items ++ .and :: r.items ++ [.right]
  | or l r => .left :: l.items ++ .or :: r.items ++ [.right]
  | not c => .not :: .left :: c.items ++ [.right]
  | test chain t => pairItems (t.formula (.column chain.names) chain.mayBeNull)

namespace Sql

/-! ## Values of marks -/

/-- The lexemes become others as their marks take the values. -/
def Binds (ls : List Lexeme) (vs : List Scalar) (ms : List Lexeme) : Prop :=
  ∀ rest ws, bind (ls ++ rest) (vs ++ ws) = (bind rest ws).map (ms ++ ·)

namespace Binds

variable {ls ms : List Lexeme} {vs : List Scalar}

theorem nil : Binds [] [] [] := by
  intro rest ws
  show bind rest ws = _
  cases bind rest ws <;> rfl

theorem append {ls' ms' : List Lexeme} {vs' : List Scalar} (h : Binds ls vs ms)
    (h' : Binds ls' vs' ms') : Binds (ls ++ ls') (vs ++ vs') (ms ++ ms') := by
  intro rest ws
  rw [List.append_assoc, List.append_assoc, h, h', Option.map_map]
  cases bind rest ws with
  | none => rfl
  | some ns => exact congrArg some (List.append_assoc ms ms' ns).symm

theorem followed {ls' ms' : List Lexeme} (h : Binds ls vs ms) (h' : Binds ls' [] ms') :
    Binds (ls ++ ls') vs (ms ++ ms') := by
  have hall := h.append h'
  rw [List.append_nil] at hall
  exact hall

/-- Only marks take values. -/
theorem cons {l : Lexeme} (hl : l ≠ .mark) (h : Binds ls vs ms) : Binds (l :: ls) vs (l :: ms) := by
  intro rest ws
  have hbind : bind (l :: (ls ++ rest)) (vs ++ ws) = (bind (ls ++ rest) (vs ++ ws)).map (l :: ·) := by
    cases l <;> first | rfl | exact absurd rfl hl
  rw [List.cons_append, hbind, h, Option.map_map]
  rfl

theorem mark (v : Scalar) (h : Binds ls vs ms) : Binds (.mark :: ls) (v :: vs) (.value v :: ms) := by
  intro rest ws
  rw [List.cons_append, List.cons_append, bind, h, Option.map_map]
  rfl

theorem keep (h : ∀ l ∈ ls, l ≠ .mark) : Binds ls [] ls := by
  induction ls with
  | nil => exact nil
  | cons l ls ih =>
    exact cons (h l List.mem_cons_self) (ih fun m hm => h m (List.mem_cons_of_mem l hm))

theorem column (names : List String) : Binds (columnLexemes names) [] (columnLexemes names) := by
  apply keep
  induction names with
  | nil => simp [columnLexemes]
  | cons s names ih =>
    cases names with
    | nil => simp [columnLexemes]
    | cons t names => simpa [columnLexemes] using ih

theorem list (values : List Scalar) :
    Binds (listLexemes (fun _ => .mark) values) values (listLexemes .value values) := by
  induction values with
  | nil => exact nil
  | cons v values ih =>
    cases values with
    | nil => exact mark v nil
    | cons w values => exact mark v (cons (by decide) ih)

end Binds

theorem binds_guarded {column ls ms : List Lexeme} {vs : List Scalar} (hcolumn : Binds column [] column)
    (h : Binds ls vs ms) (mayBeNull : Bool) :
    Binds (Test.guardedLexemes column ls mayBeNull) vs (Test.guardedLexemes column ms mayBeNull) := by
  unfold Test.guardedLexemes
  cases mayBeNull with
  | false => exact h
  | true =>
    have hnotNull : Binds [.word "IS", .word "NOT", .word "NULL", .right] []
        [.word "IS", .word "NOT", .word "NULL", .right] := Binds.keep (by decide)
    exact (h.cons (by decide)).followed (hcolumn.cons (by decide)) |>.followed hnotNull

/-- The marks of a test take its values. -/
theorem binds_test {column : List Lexeme} (hcolumn : Binds column [] column) (mayBeNull : Bool)
    (t : Test) : Binds (t.lexemes (fun _ => .mark) column mayBeNull) t.parameters
      (t.lexemes .value column mayBeNull) := by
  have hnull : Binds [.word "IS", .word "NULL"] [] [.word "IS", .word "NULL"] := Binds.keep (by decide)
  cases t with
  | isNull => exact hcolumn.append hnull
  | isNotNull =>
    have hnotNull : Binds [.word "IS", .word "NOT", .word "NULL"] []
        [.word "IS", .word "NOT", .word "NULL"] := Binds.keep (by decide)
    exact hcolumn.append hnotNull
  | compare op v =>
    have hsign : Binds [.sign op, .mark] [v] [.sign op, .value v] :=
      (Binds.mark v Binds.nil).cons nofun
    have hplain : Binds (column ++ [.sign op, .mark]) [v] (column ++ [.sign op, .value v]) :=
      hcolumn.append hsign
    by_cases hop : op = .ne
    · subst hop
      cases mayBeNull with
      | false => exact hplain
      | true =>
        have hor : Binds (.sign .ne :: .mark :: .word "OR" :: column) [v]
            (.sign .ne :: .value v :: .word "OR" :: column) :=
          ((hcolumn.cons (by decide)).mark v).cons (by decide)
        have hnull' : Binds [.word "IS", .word "NULL", .right] [] [.word "IS", .word "NULL", .right] :=
          Binds.keep (by decide)
        exact ((hcolumn.cons (by decide)).append hor).followed hnull'
    · rw [lexemes_compare hop, lexemes_compare hop]
      exact binds_guarded hcolumn hplain mayBeNull
  | text op needle =>
    refine binds_guarded hcolumn ?_ mayBeNull
    have hescape : Binds [.word "ESCAPE", .text "\\"] [] [.word "ESCAPE", .text "\\"] :=
      Binds.keep (by decide)
    exact hcolumn.append ((hescape.mark _).cons (by decide))
  | isIn values =>
    refine binds_guarded hcolumn ?_ mayBeNull
    have hlist := ((Binds.list values).cons (l := .left) (by decide)).cons (l := .word "IN") (by decide)
    have hright : Binds [.right] [] [.right] := Binds.keep (by decide)
    exact (hcolumn.append hlist).followed hright

/-- The marks of a condition take its parameters in their order. -/
theorem binds_condition (c : Condition) :
    Binds (c.lexemes fun _ => .mark) c.parameters (c.lexemes .value) := by
  have hright : Binds [.right] [] [.right] := Binds.keep (by decide)
  induction c with
  | const b => exact Binds.keep (by cases b <;> decide)
  | and l r ihl ihr => exact ((ihl.cons (by decide)).append (ihr.cons (by decide))).followed hright
  | or l r ihl ihr => exact ((ihl.cons (by decide)).append (ihr.cons (by decide))).followed hright
  | not c ih => exact ((ih.cons (by decide)).cons (by decide)).followed hright
  | test chain t => exact binds_test (Binds.column chain.names) chain.mayBeNull t

theorem bind_lexemes (c : Condition) :
    bind (c.lexemes fun _ => .mark) c.parameters = some (c.lexemes .value) := by
  have h := binds_condition c [] []
  rw [List.append_nil, List.append_nil] at h
  rw [h]
  exact congrArg some (List.append_nil _)

/-! ## Grouping -/

/-- The lexemes group into the items. -/
def Groups (ls : List Lexeme) (items : List Item) : Prop :=
  ∀ rest, cut item? (ls ++ rest) = (cut item? rest).map (items ++ ·)

namespace Groups

variable {ls : List Lexeme} {items : List Item}

theorem append {ls' : List Lexeme} {items' : List Item} (h : Groups ls items) (h' : Groups ls' items') :
    Groups (ls ++ ls') (items ++ items') := by
  intro rest
  rw [List.append_assoc, h, h', Option.map_map]
  cases cut item? rest with
  | none => rfl
  | some more => exact congrArg some (List.append_assoc items items' more).symm

/-- Lexemes that are one item. -/
theorem item {i : Item} (hls : ls ≠ []) (h : ∀ rest, item? (ls ++ rest) = some (some i, rest)) :
    Groups ls [i] := by
  intro rest
  have hlt : rest.length < (ls ++ rest).length := by
    have hpos : 0 < ls.length := List.length_pos_iff.2 hls
    rw [List.length_append]
    omega
  exact cut_step (h rest) hlt

theorem and : Groups [.word "AND"] [.and] := item (List.cons_ne_nil _ _) fun _ => rfl

theorem or : Groups [.word "OR"] [.or] := item (List.cons_ne_nil _ _) fun _ => rfl

theorem not : Groups [.word "NOT"] [.not] := item (List.cons_ne_nil _ _) fun _ => rfl

theorem left : Groups [.left] [.left] := item (List.cons_ne_nil _ _) fun _ => rfl

theorem right : Groups [.right] [.right] := item (List.cons_ne_nil _ _) fun _ => rfl

end Groups

theorem column?_lexemes {s : String} {names : List String} {l : Lexeme} {ls : List Lexeme}
    (hl : l ≠ .dot) : column? (columnLexemes (s :: names) ++ l :: ls) = some (s :: names, l :: ls) := by
  induction names generalizing s with
  | nil =>
    show column? (.name s :: l :: ls) = _
    cases l <;> first | rfl | exact absurd rfl hl
  | cons t names ih =>
    show (column? (columnLexemes (t :: names) ++ l :: ls)).map _ = _
    rw [ih]
    rfl

/-- A column and what is said of it make up a test. -/
theorem groups_test {names : List String} {l : Lexeme} {ls : List Lexeme} {f : Formula}
    (hnames : names ≠ []) (hl : l ≠ .dot)
    (h : ∀ rest, testOf (.column names) (l :: ls ++ rest) = some (f, rest)) :
    Groups (columnLexemes names ++ l :: ls) [.test f] := by
  cases names with
  | nil => exact absurd rfl hnames
  | cons s names =>
    obtain ⟨more, hmore⟩ : ∃ more, columnLexemes (s :: names) = .name s :: more := by
      cases names with
      | nil => exact ⟨[], rfl⟩
      | cons t names => exact ⟨.dot :: columnLexemes (t :: names), rfl⟩
    refine Groups.item (by rw [hmore]; exact List.cons_ne_nil _ _) ?_
    intro rest
    -- `item?` looks at the first lexeme, which is a name, so the whole column is split off it
    have hcolumn : column? (columnLexemes (s :: names) ++ l :: (ls ++ rest)) =
        some (s :: names, l :: (ls ++ rest)) := column?_lexemes hl
    have hoperand : operand? (columnLexemes (s :: names) ++ l :: (ls ++ rest)) =
        some (.column (s :: names), l :: (ls ++ rest)) := by
      rw [hmore] at hcolumn ⊢
      show (column? (.name s :: more ++ l :: (ls ++ rest))).map _ = _
      rw [hcolumn]
      rfl
    rw [List.append_assoc]
    show item? (columnLexemes (s :: names) ++ l :: (ls ++ rest)) = _
    rw [hmore] at hoperand ⊢
    show (operand? (.name s :: more ++ l :: (ls ++ rest)) >>= _) = _
    rw [hoperand]
    show (testOf (.column (s :: names)) (l :: ls ++ rest) >>= _) = _
    rw [h]
    rfl

theorem values?_list {values : List Scalar} (h : values ≠ []) (ls : List Lexeme) :
    values? (listLexemes .value values ++ .right :: ls) = some (values, Lexeme.right :: ls) := by
  induction values with
  | nil => exact absurd rfl h
  | cons v values ih =>
    cases values with
    | nil => rfl
    | cons w values =>
      have hrest := ih (List.cons_ne_nil w values)
      show (values? (listLexemes .value (w :: values) ++ .right :: ls) >>= _) = _
      rw [hrest]
      rfl

/-! ## Tests and conditions -/

theorem groups_guarded {names : List String} (hnames : names ≠ []) {ls : List Lexeme} {f : Formula}
    (h : Groups ls [.test f]) (hpair : pairItems f = [.test f]) (mayBeNull : Bool) :
    Groups (Test.guardedLexemes (columnLexemes names) ls mayBeNull)
      (pairItems (Test.guardedFormula (.column names) f mayBeNull)) := by
  unfold Test.guardedLexemes Test.guardedFormula
  cases mayBeNull with
  | false => rw [if_neg (by decide), if_neg (by decide), hpair]; exact h
  | true =>
    have hnotNull : Groups (columnLexemes names ++ [.word "IS", .word "NOT", .word "NULL"])
        [.test (.isNotNull (.column names))] := groups_test hnames (by decide) fun _ => rfl
    have hall := Groups.left.append (h.append (Groups.and.append (hnotNull.append Groups.right)))
    simpa [pairItems, List.append_assoc] using hall

theorem groups_compare {names : List String} (hnames : names ≠ []) (op : Comparator) (v : Scalar) :
    Groups (columnLexemes names ++ [.sign op, .value v])
      [.test (.compare op (.column names) (.value v))] :=
  groups_test hnames nofun fun _ => rfl

theorem formula_compare {op : Comparator} (hop : op ≠ .ne) (column : Operand) (mayBeNull : Bool)
    (v : Scalar) : (Test.compare op v).formula column mayBeNull =
      Test.guardedFormula column (.compare op column (.value v)) mayBeNull := by
  cases op <;> first | rfl | contradiction

/-- The lexemes of a test group into its formula. -/
theorem groups_of_test {names : List String} (hnames : names ≠ []) (mayBeNull : Bool) {t : Test}
    (ht : t.HasValues) : Groups (t.lexemes .value (columnLexemes names) mayBeNull)
      (pairItems (t.formula (.column names) mayBeNull)) := by
  have hnull : Groups (columnLexemes names ++ [.word "IS", .word "NULL"])
      [.test (.isNull (.column names))] := groups_test hnames (by decide) fun _ => rfl
  cases t with
  | isNull => exact hnull
  | isNotNull => exact groups_test hnames (by decide) fun _ => rfl
  | compare op v =>
    have hplain := groups_compare hnames op v
    by_cases hop : op = .ne
    · subst hop
      cases mayBeNull with
      | false => exact hplain
      | true =>
        have hall := Groups.left.append (hplain.append (Groups.or.append (hnull.append Groups.right)))
        simpa [Test.lexemes, Test.formula, pairItems, List.append_assoc] using hall
    · rw [lexemes_compare hop, formula_compare hop]
      exact groups_guarded hnames hplain rfl mayBeNull
  | text op needle =>
    exact groups_guarded hnames (groups_test hnames (by decide) fun _ => rfl) rfl mayBeNull
  | isIn values =>
    refine groups_guarded hnames ?_ rfl mayBeNull
    have hin (rest : List Lexeme) : testOf (.column names)
        (.word "IN" :: (.left :: listLexemes .value values ++ [.right]) ++ rest) =
          some (.isIn (.column names) values, rest) := by
      have hvalues := values?_list ht rest
      show testOf (.column names) (.word "IN" :: .left :: (listLexemes .value values ++ [.right] ++ rest)) = _
      rw [List.append_assoc, List.singleton_append, testOf, hvalues]
    have hall := groups_test hnames (by decide) hin
    simpa [List.append_assoc] using hall

/-- The lexemes of a condition group into its items. -/
theorem groups_condition {c : Condition} (h : c.Tests fun _ t => t.HasValues) :
    Groups (c.lexemes .value) c.items := by
  induction c with
  | const b => cases b <;> exact Groups.item (List.cons_ne_nil _ _) fun _ => rfl
  | and l r ihl ihr =>
    have hr := (Groups.and.append (ihr h.2)).append Groups.right
    have hall := (Groups.left.append (ihl h.1)).append hr
    simpa [Condition.lexemes, Condition.items, List.append_assoc] using hall
  | or l r ihl ihr =>
    have hr := (Groups.or.append (ihr h.2)).append Groups.right
    have hall := (Groups.left.append (ihl h.1)).append hr
    simpa [Condition.lexemes, Condition.items, List.append_assoc] using hall
  | not c ih => exact (Groups.not.append (Groups.left.append (ih h))).append Groups.right
  | test chain t =>
    have hnames : chain.names ≠ [] := by simp [Chain.names, Chain.steps]
    exact groups_of_test hnames chain.mayBeNull h

theorem cut_lexemes {c : Condition} (h : c.Tests fun _ t => t.HasValues) :
    cut item? (c.lexemes .value) = some c.items := by
  have hall := groups_condition h []
  rw [List.append_nil, cut] at hall
  rw [hall]
  exact congrArg some (List.append_nil _)

/-! ## Building the formula -/

/-- The items build the formula, as an operand behind whatever stands in front. -/
def Builds (items : List Item) (f : Formula) : Prop :=
  ∀ front outer, items.foldlM Reading.step (.wants front outer) =
    some (.has front.ors (front.take f) outer)

theorem builds_test (f : Formula) : Builds [.test f] f := fun _ _ => rfl

theorem Builds.and {is js : List Item} {f g : Formula} (hf : Builds is f) (hg : Builds js g) :
    Builds (.left :: is ++ .and :: js ++ [.right]) (.and f g) := by
  intro front outer
  -- the parentheses start a front of their own, and give `front` back to the whole pair
  rw [List.append_assoc, List.cons_append, List.foldlM_cons]
  show (is ++ (Item.and :: js ++ [Item.right])).foldlM Reading.step (.wants .empty (front :: outer)) = _
  rw [List.foldlM_append, hf]
  show (js ++ [Item.right]).foldlM Reading.step (.wants ⟨none, some f, 0⟩ (front :: outer)) = _
  rw [List.foldlM_append, hg]
  rfl

theorem Builds.or {is js : List Item} {f g : Formula} (hf : Builds is f) (hg : Builds js g) :
    Builds (.left :: is ++ .or :: js ++ [.right]) (.or f g) := by
  intro front outer
  rw [List.append_assoc, List.cons_append, List.foldlM_cons]
  show (is ++ (Item.or :: js ++ [Item.right])).foldlM Reading.step (.wants .empty (front :: outer)) = _
  rw [List.foldlM_append, hf]
  show (js ++ [Item.right]).foldlM Reading.step (.wants ⟨some f, none, 0⟩ (front :: outer)) = _
  rw [List.foldlM_append, hg]
  rfl

/-- One more NOT in front of the parentheses. -/
theorem Builds.not {is : List Item} {f : Formula} (hf : Builds is f) :
    Builds (.not :: .left :: is ++ [.right]) (.not f) := by
  intro front outer
  rw [List.cons_append, List.cons_append, List.foldlM_cons]
  show (is ++ [Item.right]).foldlM Reading.step
    (.wants .empty (⟨front.ors, front.ands, front.nots + 1⟩ :: outer)) = _
  rw [List.foldlM_append, hf]
  rfl

theorem builds_pairItems (f : Formula) : Builds (pairItems f) f := by
  cases f with
  | and f g => exact (builds_test f).and (builds_test g)
  | or f g => exact (builds_test f).or (builds_test g)
  | _ => exact builds_test _

theorem builds_condition (c : Condition) : Builds c.items c.formula := by
  induction c with
  | const b => exact builds_test _
  | and l r ihl ihr => exact ihl.and ihr
  | or l r ihl ihr => exact ihl.or ihr
  | not c ih => exact ih.not
  | test chain t => exact builds_pairItems _

/-! ## Top theorem (proved from the lemmas above) -/

/-- The clause of a condition, with its parameters, reads as the formula of the condition. -/
theorem read_ofCondition {c : Condition} (h : c.Tests fun _ t => t.HasValues) :
    Sql.read (SqlFilter.ofCondition c) = some c.formula := by
  have hbuild : c.items.foldlM Reading.step (.wants .empty []) = some (.has none c.formula []) :=
    builds_condition c .empty []
  show (do
    let bound ← bind (← Sql.lexemes c.clause.toList) c.parameters
    let last ← (← cut item? bound).foldlM Reading.step (.wants .empty [])
    last.finish) = _
  rw [lexemes_clause, Option.bind_eq_bind, Option.bind_some, bind_lexemes, Option.bind_eq_bind,
    Option.bind_some, cut_lexemes h, Option.bind_eq_bind, Option.bind_some, hbuild]
  rfl

end Sql

end RecordQuery
