import RecordQuery.Language.Parser

/-!
# The grammar of queries

`Grammar.Derives rule ts e w` says that the rule derives the tokens `ts`, that `e` is the expression of
the derivation and that `w` is its weight:

    disjunction := conjunction (OR conjunction)*
    conjunction := negation (AND negation)*
    negation    := NOT negation | primary
    primary     := '(' disjunction ')' | comparison

A comparison weighs nothing, `not` and a pair of parentheses weigh one each, and the operand behind the
`i`-th operator of a chain weighs `i` more than by itself. A chain folds to the left.
-/

namespace RecordQuery

/-- The kind of the token that writes an operator. -/
def Operator.kind : Operator → TokenKind
  | equal => .equal
  | notEqual => .notEqual
  | less => .less
  | lessEqual => .lessEqual
  | greater => .greater
  | greaterEqual => .greaterEqual
  | contains => .contains
  | startsWith => .startsWith
  | endsWith => .endsWith
  | isIn => .isIn
  | isNull => .isNull
  | isNotNull => .isNotNull

namespace Grammar

/-! ## Comparisons -/

/-- A token that writes a literal carries a value of its kind. -/
inductive IsLiteral : Token → Literal → Prop
  | string {t : Token} {s : String} :
      t.kind = .string → t.payload = some (.text s) → IsLiteral t (.string s)
  | number {t : Token} {d : Decimal} :
      t.kind = .number → t.payload = some (.number d) → IsLiteral t (.number d)
  | bool {t : Token} {b : Bool} :
      t.kind = .boolean → t.payload = some (.bool b) → IsLiteral t (.bool b)
  | null {t : Token} : t.kind = .null → IsLiteral t .null

/-- Literals with commas between them. -/
inductive Literals : List Token → List Literal → Prop
  | one {t : Token} {l : Literal} : IsLiteral t l → Literals [t] [l]
  | more {t comma : Token} {l : Literal} {ts : List Token} {ls : List Literal} :
      IsLiteral t l → comma.kind = .comma → Literals ts ls → Literals (t :: comma :: ts) (l :: ls)

/-- Identifiers with points between them, and the names that they denote. -/
inductive Path : List Token → List String → Prop
  | one {t : Token} : t.kind = .identifier → Path [t] [Parser.fieldName t]
  | more {t dot : Token} {ts : List Token} {names : List String} :
      t.kind = .identifier → dot.kind = .dot → Path ts names →
      Path (t :: dot :: ts) (Parser.fieldName t :: names)

/-- What stands behind an operator. -/
inductive Operands : Operator → List Token → Option Operand → Prop
  | isNull : Operands .isNull [] none
  | isNotNull : Operands .isNotNull [] none
  | list {left right : Token} {ts : List Token} {ls : List Literal} :
      left.kind = .leftParen → Literals ts ls → right.kind = .rightParen →
      Operands .isIn (left :: ts ++ [right]) (some (.list ls))
  | one {op : Operator} {t : Token} {l : Literal} :
      op ≠ .isNull → op ≠ .isNotNull → op ≠ .isIn → IsLiteral t l → Operands op [t] (some (.one l))

/-- A path, an operator and what it takes. The comparison stands where its path starts. -/
inductive Compares : List Token → Comparison → Prop
  | mk {first sign : Token} {more ts : List Token} {names : List String} {op : Operator}
      {operand : Option Operand} :
      Path (first :: more) names → sign.kind = op.kind → Operands op ts operand →
      Compares (first :: more ++ sign :: ts) ⟨".".intercalate names, op, operand, first.position⟩

/-! ## Expressions -/

/-- The rules that may nest. That of a chain counts the operators. -/
inductive Rule where
  | disjunction (operators : Nat)
  | conjunction (operators : Nat)
  | negation
  | primary

/-- A rule derives tokens, with the expression and the weight of the derivation. -/
inductive Derives : Rule → List Token → Expr → Nat → Prop
  | comparison {ts : List Token} {c : Comparison} :
      Compares ts c → Derives .primary ts (.comparison c) 0
  | parens {left right : Token} {ts : List Token} {e : Expr} {k w : Nat} :
      left.kind = .leftParen → Derives (.disjunction k) ts e w → right.kind = .rightParen →
      Derives .primary (left :: ts ++ [right]) e (1 + w)
  | plain {ts : List Token} {e : Expr} {w : Nat} : Derives .primary ts e w → Derives .negation ts e w
  | not {t : Token} {ts : List Token} {e : Expr} {w : Nat} :
      t.kind = .not → Derives .negation ts e w → Derives .negation (t :: ts) (.not e) (1 + w)
  | oneOperand {ts : List Token} {e : Expr} {w : Nat} :
      Derives .negation ts e w → Derives (.conjunction 0) ts e w
  | and {t : Token} {ts us : List Token} {l r : Expr} {k v w : Nat} :
      Derives (.conjunction k) ts l v → t.kind = .and → Derives .negation us r w →
      Derives (.conjunction (k + 1)) (ts ++ t :: us) (.and l r) (max v (k + 1 + w))
  | oneConjunction {ts : List Token} {e : Expr} {k w : Nat} :
      Derives (.conjunction k) ts e w → Derives (.disjunction 0) ts e w
  | or {t : Token} {ts us : List Token} {l r : Expr} {j k v w : Nat} :
      Derives (.disjunction k) ts l v → t.kind = .or → Derives (.conjunction j) us r w →
      Derives (.disjunction (k + 1)) (ts ++ t :: us) (.or l r) (max v (k + 1 + w))

/-- The tokens are a query for `e`, by a derivation of weight `w`. -/
def Query (ts : List Token) (e : Expr) (w : Nat) : Prop := ∃ k, Derives (.disjunction k) ts e w

/-! ## Lemmas -/

theorem operator?_eq_some_iff (t : Token) (op : Operator) :
    Parser.operator? t = some op ↔ t.kind = op.kind := by
  unfold Parser.operator?
  constructor
  · intro h
    split at h <;> cases h <;> assumption
  · intro h
    rw [h]
    cases op <;> rfl

theorem literal?_eq_some_iff (t : Token) (l : Literal) :
    Parser.literal? t = some l ↔ IsLiteral t l := by
  unfold Parser.literal?
  constructor
  · intro h
    split at h
    · next hk hp => cases h; exact .string hk hp
    · next hk hp => cases h; exact .number hk hp
    · next hk hp => cases h; exact .bool hk hp
    · next hk => cases h; exact .null hk
    · cases h
  · intro h
    cases h with
    | string hk hp => rw [hk, hp]
    | number hk hp => rw [hk, hp]
    | bool hk hp => rw [hk, hp]
    | null hk => rw [hk]

/-- A list of literals has at least one. -/
theorem Literals.ne_nil {ts : List Token} {ls : List Literal} (h : Literals ts ls) : ls ≠ [] := by
  cases h <;> exact List.cons_ne_nil _ _

theorem Path.head {ts : List Token} {names : List String} (h : Path ts names) :
    ∃ t us, ts = t :: us ∧ t.kind = .identifier := by
  cases h with
  | one hk => exact ⟨_, _, rfl, hk⟩
  | more hk _ _ => exact ⟨_, _, rfl, hk⟩

/-- A primary starts with an identifier or a parenthesis, so it is no negation. -/
theorem Derives.primary_head {ts : List Token} {e : Expr} {w : Nat} (h : Derives .primary ts e w) :
    ∃ t us, ts = t :: us ∧ t.kind ≠ .not := by
  cases h with
  | comparison h =>
    obtain ⟨hp, -, -⟩ := h
    obtain ⟨t, us, he, hk⟩ := hp.head
    cases he
    exact ⟨_, _, rfl, by rw [hk]; decide⟩
  | parens hl _ _ => exact ⟨_, _, rfl, by rw [hl]; decide⟩

/-- Tokens of other kinds write no literal. -/
theorem IsLiteral.kind_ne {t : Token} {l : Literal} (h : IsLiteral t l) {kind : TokenKind}
    (hkind : kind ∉ [.string, .number, .boolean, .null]) : t.kind ≠ kind := by
  rintro rfl
  cases h with
  | string hk _ => exact hkind (by simp [hk])
  | number hk _ => exact hkind (by simp [hk])
  | bool hk _ => exact hkind (by simp [hk])
  | null hk => exact hkind (by simp [hk])

theorem forall_mem_append_cons {P : Token → Prop} {ts us : List Token} {t : Token}
    (hts : ∀ x ∈ ts, P x) (ht : P t) (hus : ∀ x ∈ us, P x) : ∀ x ∈ ts ++ t :: us, P x := by
  intro x hx
  rcases List.mem_append.1 hx with hx | hx
  · exact hts x hx
  · rcases List.mem_cons.1 hx with rfl | hx
    · exact ht
    · exact hus x hx

theorem Literals.ne_eof {ts : List Token} {ls : List Literal} (h : Literals ts ls) :
    ∀ t ∈ ts, t.kind ≠ .eof := by
  induction h with
  | one hl => simpa using hl.kind_ne (by decide)
  | more hl hcomma _ ih => simpa [hcomma] using ⟨hl.kind_ne (by decide), ih⟩

theorem Path.ne_eof {ts : List Token} {names : List String} (h : Path ts names) :
    ∀ t ∈ ts, t.kind ≠ .eof := by
  induction h with
  | one hk => simp [hk]
  | more hk hdot _ ih => simpa [hk, hdot] using ih

theorem Operands.ne_eof {op : Operator} {ts : List Token} {o : Option Operand}
    (h : Operands op ts o) : ∀ t ∈ ts, t.kind ≠ .eof := by
  cases h with
  | isNull => simp
  | isNotNull => simp
  | list hl hlist hr =>
    exact List.forall_mem_cons.2
      ⟨by rw [hl]; decide, forall_mem_append_cons hlist.ne_eof (by rw [hr]; decide) (by simp)⟩
  | one _ _ _ hl => simpa using hl.kind_ne (by decide)

theorem Compares.ne_eof {ts : List Token} {c : Comparison} (h : Compares ts c) :
    ∀ t ∈ ts, t.kind ≠ .eof := by
  obtain @⟨_, _, _, _, _, op, _, hp, hsign, ho⟩ := h
  exact forall_mem_append_cons hp.ne_eof (by rw [hsign]; cases op <;> decide) ho.ne_eof

/-- No derivation reaches over an end of text. -/
theorem Derives.ne_eof {rule : Rule} {ts : List Token} {e : Expr} {w : Nat}
    (h : Derives rule ts e w) : ∀ t ∈ ts, t.kind ≠ .eof := by
  induction h with
  | comparison hc => exact hc.ne_eof
  | parens hl _ hr ih =>
    exact List.forall_mem_cons.2
      ⟨by rw [hl]; decide, forall_mem_append_cons ih (by rw [hr]; decide) (by simp)⟩
  | plain _ ih => exact ih
  | not hk _ ih => simpa [hk] using ih
  | oneOperand _ ih => exact ih
  | and _ hk _ ihl ihr => exact forall_mem_append_cons ihl (by rw [hk]; decide) ihr
  | oneConjunction _ ih => exact ih
  | or _ hk _ ihl ihr => exact forall_mem_append_cons ihl (by rw [hk]; decide) ihr

end Grammar

end RecordQuery
