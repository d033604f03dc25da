import RecordQuery.Proofs.ParserComplete
import RecordQuery.Proofs.Printing

/-!
# How high expressions get

The parser counts the operators of a chain on its way to the right, but a chain folds to the left: its
first operands end up under all of its operators, while their own levels have been given back. An
expression can therefore be higher than `Parser.maxDepth`. It is bounded all the same, by about the square
of the limit, and no better:

    (∀ ts e, Expr.ofTokens ts = .ok e → e.height ≤ n)  ↔  maxDepth * (maxDepth + 1) + 1 ≤ n
      (height_le_iff)
-/

namespace RecordQuery

namespace Grammar

/-! ## Bounds -/

/-- The greatest height of a negation of weight `w`. -/
def tallest (w : Nat) : Nat := w * (w - 1) + min w 1

/-- The greatest height that a rule derives with weight `w`. A chain puts its operators on top of a first
operand that weighs as much as the whole chain. -/
def Rule.tallest : Rule → Nat → Nat
  | .disjunction k, w => k + w + Grammar.tallest w
  | .conjunction k, w => k + Grammar.tallest w
  | .negation, w => Grammar.tallest w
  | .primary, w => Grammar.tallest w

/-- The operators that a rule counts. -/
def Rule.operators : Rule → Nat
  | .disjunction k => k
  | .conjunction k => k
  | .negation => 0
  | .primary => 0

/-! ## Lemmas -/

/-- In parentheses a disjunction is an operand of the next weight. -/
theorem tallest_succ {w : Nat} (hw : 0 < w) : tallest (w + 1) = w + w + tallest w := by
  obtain ⟨n, rfl⟩ : ∃ n, w = n + 1 := ⟨w - 1, by omega⟩
  have hsquare : (n + 1 + 1) * (n + 1) = (n + 1) * n + (n + 1 + (n + 1)) := by
    simp only [Nat.add_mul, Nat.mul_add]
    omega
  simp only [tallest, Nat.add_sub_cancel, hsquare]
  omega

theorem tallest_le_succ (w : Nat) : w + w + tallest w ≤ tallest (w + 1) := by
  cases w with
  | zero => decide
  | succ w => exact Nat.le_of_eq (tallest_succ (Nat.succ_pos w)).symm

theorem tallest_lt_succ (w : Nat) : tallest w < tallest (w + 1) := by
  cases w with
  | zero => decide
  | succ w =>
    have hsucc : tallest (w + 1 + 1) = w + 1 + (w + 1) + tallest (w + 1) := tallest_succ (Nat.succ_pos w)
    omega

theorem tallest_mono {v w : Nat} (h : v ≤ w) : tallest v ≤ tallest w := by
  induction h with
  | refl => exact Nat.le_refl _
  | step _ ih => exact Nat.le_trans ih (Nat.le_of_lt (tallest_lt_succ _))

/-- A chain has no more operators than its weight. -/
theorem Derives.operators_le {rule : Rule} {ts : List Token} {e : Expr} {w : Nat}
    (h : Derives rule ts e w) : rule.operators ≤ w := by
  cases h with
  | and _ _ _ => show _ + 1 ≤ _; omega
  | or _ _ _ => show _ + 1 ≤ _; omega
  | _ => exact Nat.zero_le _

/-- The weight of a derivation bounds the height of its expression. -/
theorem Derives.height_le {rule : Rule} {ts : List Token} {e : Expr} {w : Nat}
    (h : Derives rule ts e w) : e.height ≤ rule.tallest w := by
  induction h with
  | comparison _ => exact Nat.zero_le _
  | @parens left right ts e k w _ hd _ ih =>
    have hk : k ≤ w := hd.operators_le
    have hnext := tallest_le_succ w
    have hinner : e.height ≤ k + w + tallest w := ih
    show e.height ≤ tallest (1 + w)
    rw [Nat.add_comm 1 w]
    omega
  | plain _ ih => exact ih
  | @not t ts e w _ _ ih =>
    have hnext := tallest_lt_succ w
    have hinner : e.height ≤ tallest w := ih
    show e.height + 1 ≤ tallest (1 + w)
    rw [Nat.add_comm 1 w]
    omega
  | @oneOperand ts e w _ ih =>
    have hinner : e.height ≤ tallest w := ih
    show e.height ≤ 0 + tallest w
    omega
  | @and t ts us l r k v w _ _ _ ihl ihr =>
    have hv : tallest v ≤ tallest (max v (k + 1 + w)) := tallest_mono (Nat.le_max_left _ _)
    have hw : tallest w ≤ tallest (max v (k + 1 + w)) := tallest_mono (by omega)
    have hl : l.height ≤ k + tallest v := ihl
    have hr : r.height ≤ tallest w := ihr
    show max l.height r.height + 1 ≤ k + 1 + tallest (max v (k + 1 + w))
    omega
  | @oneConjunction ts e k w hd ih =>
    have hk : k ≤ w := hd.operators_le
    have hinner : e.height ≤ k + tallest w := ih
    show e.height ≤ 0 + w + tallest w
    omega
  | @or t ts us l r j k v w _ _ hd ihl ihr =>
    have hj : j ≤ w := hd.operators_le
    have hv : tallest v ≤ tallest (max v (k + 1 + w)) := tallest_mono (Nat.le_max_left _ _)
    have hw : tallest w ≤ tallest (max v (k + 1 + w)) := tallest_mono (by omega)
    have hl : l.height ≤ k + v + tallest v := ihl
    have hr : r.height ≤ j + tallest w := ihr
    show max l.height r.height + 1 ≤ k + 1 + max v (k + 1 + w) + tallest (max v (k + 1 + w))
    omega

/-! ## Expressions of the greatest height -/

/-- The shortest query, `a IS NULL`. -/
def shortest : List Token := [⟨.identifier, "a", none, 0⟩, ⟨.isNull, "IS NULL", none, 0⟩]

theorem derives_shortest : Derives .negation shortest (.comparison ⟨"a", .isNull, none, 0⟩) 0 := by
  have hpath : Path [⟨.identifier, "a", none, 0⟩] ["a"] := .one rfl
  have hsign : (Token.mk .isNull "IS NULL" none 0).kind = Operator.kind .isNull := rfl
  exact .plain (.comparison (.mk hpath hsign .isNull))

variable {ts : List Token} {e : Expr} {w : Nat}

/-- A chain of as many operators as its first operand weighs costs nothing more than that operand. -/
theorem Derives.exists_conjunction (h : Derives .negation ts e w) {k : Nat} (hk : k ≤ w) :
    ∃ us f, Derives (.conjunction k) us f w ∧ f.height = k + e.height := by
  induction k with
  | zero => exact ⟨ts, e, .oneOperand h, (Nat.zero_add _).symm⟩
  | succ k ih =>
    obtain ⟨us, f, hf, hheight⟩ := ih (by omega)
    have hand : Derives (.conjunction (k + 1)) (us ++ ⟨.and, "AND", none, 0⟩ :: shortest) _
        (max w (k + 1 + 0)) := .and hf rfl derives_shortest
    rw [show max w (k + 1 + 0) = w by omega] at hand
    refine ⟨_, _, hand, ?_⟩
    rw [Expr.height, Expr.height, hheight]
    omega

theorem Derives.exists_disjunction {j : Nat} (h : Derives (.conjunction j) ts e w) {k : Nat}
    (hk : k ≤ w) : ∃ us f, Derives (.disjunction k) us f w ∧ f.height = k + e.height := by
  induction k with
  | zero => exact ⟨ts, e, .oneConjunction h, (Nat.zero_add _).symm⟩
  | succ k ih =>
    obtain ⟨us, f, hf, hheight⟩ := ih (by omega)
    have hor : Derives (.disjunction (k + 1)) (us ++ ⟨.or, "OR", none, 0⟩ :: shortest) _
        (max w (k + 1 + 0)) := .or hf rfl (.oneOperand derives_shortest)
    rw [show max w (k + 1 + 0) = w by omega] at hor
    refine ⟨_, _, hor, ?_⟩
    rw [Expr.height, Expr.height, hheight]
    omega

/-- Nothing of a derivation stands behind an end of text. -/
theorem Derives.takeWhile_ne_eof {rule : Rule} (h : Derives rule ts e w) :
    ts.takeWhile (·.kind ≠ .eof) = ts := by
  rw [← List.append_nil ts, List.takeWhile_append_of_pos fun t ht => by simpa using h.ne_eof t ht,
    List.takeWhile_nil]

/-- Both kinds of chains around one operand. -/
theorem Derives.exists_query (h : Derives .negation ts e w) :
    ∃ us f, Derives (.disjunction w) us f w ∧ f.height = w + (w + e.height) := by
  obtain ⟨us, f, hf, hheight⟩ := h.exists_conjunction (Nat.le_refl w)
  obtain ⟨vs, g, hg, hheight'⟩ := hf.exists_disjunction (Nat.le_refl w)
  exact ⟨vs, g, hg, by rw [hheight', hheight]⟩

/-- The bound of negations is met at every weight. -/
theorem exists_tallest (w : Nat) : ∃ ts e, Derives .negation ts e w ∧ e.height = tallest w := by
  induction w with
  | zero => exact ⟨_, _, derives_shortest, rfl⟩
  | succ w ih =>
    cases w with
    | zero => exact ⟨⟨.not, "NOT", none, 0⟩ :: shortest, _, .not rfl derives_shortest, rfl⟩
    | succ w =>
      obtain ⟨ts, e, hd, hheight⟩ := ih
      obtain ⟨us, f, hf, hheight'⟩ := hd.exists_query
      have hparens : Derives .primary (⟨.leftParen, "(", none, 0⟩ :: us ++ [⟨.rightParen, ")", none, 0⟩])
          f (1 + (w + 1)) := .parens rfl hf rfl
      rw [Nat.add_comm 1 (w + 1)] at hparens
      have hsucc : tallest (w + 1 + 1) = w + 1 + (w + 1) + tallest (w + 1) :=
        tallest_succ (Nat.succ_pos w)
      exact ⟨_, _, .plain hparens, by omega⟩

end Grammar

open Grammar

/-! ## Top theorems (proved from the lemmas above) -/

/-- The expressions that the parser accepts are at most `maxDepth * (maxDepth + 1) + 1` high, and some
expression is that high. -/
theorem height_le_iff (n : Nat) :
    (∀ ts e, Expr.ofTokens ts = .ok e → e.height ≤ n) ↔
      Parser.maxDepth * (Parser.maxDepth + 1) + 1 ≤ n := by
  have hbound : Parser.maxDepth + (Parser.maxDepth + tallest Parser.maxDepth) =
      Parser.maxDepth * (Parser.maxDepth + 1) + 1 := by decide
  constructor
  · intro h
    obtain ⟨ts, e, hd, hheight⟩ := exists_tallest Parser.maxDepth
    obtain ⟨us, f, hf, hheight'⟩ := hd.exists_query
    have hread : Expr.ofTokens us = .ok f :=
      (ofTokens_eq_ok_iff us f).2 ⟨_, hf.takeWhile_ne_eof.symm ▸ ⟨_, hf⟩, Nat.le_refl _⟩
    have hle := h us f hread
    omega
  · intro hn ts e h
    obtain ⟨w, ⟨k, hd⟩, hw⟩ := (ofTokens_eq_ok_iff ts e).1 h
    have hk : k ≤ w := hd.operators_le
    have hmono := tallest_mono hw
    have hheight : e.height ≤ k + w + tallest w := hd.height_le
    omega

/-- As many `NOT`s as the limit allows come back off the count before the `AND` behind them is counted, so
the expression is higher than the limit. -/
theorem exists_height_gt_maxDepth :
    let compared : List Token := [⟨.identifier, "a", none, 0⟩, ⟨.isNull, "IS NULL", none, 0⟩]
    ∃ e, Expr.ofTokens (List.replicate 256 ⟨.not, "NOT", none, 0⟩ ++ compared ++
        ⟨.and, "AND", none, 0⟩ :: compared) = .ok e ∧ Parser.maxDepth < e.height := by
  intro compared
  have hheight : ((Expr.ofTokens (List.replicate 256 ⟨.not, "NOT", none, 0⟩ ++ compared ++
      ⟨.and, "AND", none, 0⟩ :: compared)).map Expr.height).toOption = some (Parser.maxDepth + 1) := by
    decide +kernel
  obtain ⟨e, he, hlt⟩ := map_eq_ok_iff.1 (toOption_eq_some_iff.1 hheight)
  exact ⟨e, he, by omega⟩

end RecordQuery
