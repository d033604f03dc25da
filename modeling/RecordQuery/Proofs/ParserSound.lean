import RecordQuery.Proofs.Outcome
import RecordQuery.Proofs.Grammar

/-!
# What is read is derived

Whatever a rule of the parser reads, the grammar derives from the tokens that were used up, and the weight
of the derivation is at most the number of levels that were left.

    (level finish d).disjunction ts = .ok (e, rest) →
      ∃ us k w, ts = us ++ rest ∧ Derives (.disjunction k) us e w ∧ w ≤ d    (level_sound)
-/

namespace RecordQuery

open Grammar

namespace Parser

variable {finish : Nat} {rest : List Token}

/-! ## Comparisons -/

theorem expect_eq_ok_iff {kind : TokenKind} {wanted : Wanted} {ts : List Token} :
    expect finish kind wanted ts = .ok rest ↔ ∃ t, t.kind = kind ∧ ts = t :: rest := by
  cases ts with
  | nil => simp [expect]
  | cons t us =>
    rw [expect]
    constructor
    · intro h
      split at h
      · next hk => cases h; exact ⟨t, hk, rfl⟩
      · cases h
    · rintro ⟨t', hk, he⟩
      cases he
      rw [if_pos hk]

theorem literal_eq_ok_iff {ts : List Token} {l : Literal} :
    literal finish ts = .ok (l, rest) ↔ ∃ t, IsLiteral t l ∧ ts = t :: rest := by
  cases ts with
  | nil => simp [literal]
  | cons t us =>
    rw [literal]
    constructor
    · intro h
      split at h
      · next hl => cases h; exact ⟨t, (literal?_eq_some_iff _ _).1 hl, rfl⟩
      · cases h
    · rintro ⟨t', hl, he⟩
      cases he
      rw [(literal?_eq_some_iff _ _).2 hl]

/-- A path grows at its end by a point and an identifier. -/
theorem path_snoc {ts : List Token} {names : List String} {dot t : Token} (h : Path ts names)
    (hdot : dot.kind = .dot) (ht : t.kind = .identifier) :
    Path (ts ++ [dot, t]) (names ++ [fieldName t]) := by
  induction h with
  | one hk => exact .more hk hdot (.one ht)
  | more hk hd _ ih => exact .more hk hd ih

theorem path_names_ne_nil {ts : List Token} {names : List String} (h : Path ts names) :
    names ≠ [] := by
  cases h <;> exact List.cons_ne_nil _ _

theorem pathTail_sound {p q : String} {ts : List Token} (h : pathTail finish p ts = .ok (q, rest)) :
    ∀ us names, Path us names → p = ".".intercalate names →
      ∃ vs names', ts = vs ++ rest ∧ Path (us ++ vs) names' ∧ q = ".".intercalate names' := by
  fun_induction pathTail finish p ts with
  | case1 p =>
    cases h
    intro us names hp he
    exact ⟨[], names, rfl, by simpa using hp, he⟩
  | case2 => cases h
  | case3 p t =>
    cases h
    intro us names hp he
    exact ⟨[], names, rfl, by simpa using hp, he⟩
  | case4 p dot t ts hdot ht ih =>
    intro us names hp he
    have hname : p ++ "." ++ fieldName t = ".".intercalate (names ++ [fieldName t]) := by
      rw [String.intercalate_append_of_ne_nil (path_names_ne_nil hp) (List.cons_ne_nil _ _),
        String.intercalate_singleton, he]
    obtain ⟨vs, names', hts, hp', hq⟩ := ih h _ _ (path_snoc hp hdot ht) hname
    exact ⟨dot :: t :: vs, names', by simp [hts], by simpa using hp', hq⟩
  | case5 => cases h
  | case6 p t t' ts =>
    cases h
    intro us names hp he
    exact ⟨[], names, rfl, by simpa using hp, he⟩

theorem path_sound {p : String} {ts : List Token} (h : path finish ts = .ok (p, rest)) :
    ∃ t us names, ts = t :: us ++ rest ∧ Path (t :: us) names ∧ p = ".".intercalate names := by
  cases ts with
  | nil => simp [path] at h
  | cons t ts =>
    by_cases ht : t.kind = .identifier
    · rw [path, if_pos ht] at h
      obtain ⟨us, names, rfl, hp, hq⟩ := pathTail_sound h [t] _ (.one ht) (by simp)
      exact ⟨t, us, names, rfl, hp, hq⟩
    · rw [path, if_neg ht] at h
      cases h

theorem listTail_sound {ts : List Token} {ls : List Literal}
    (h : listTail finish ts = .ok (ls, rest)) :
    ∀ t l, IsLiteral t l → ∃ us, ts = us ++ rest ∧ Literals (t :: us) (l :: ls) := by
  fun_induction listTail finish ts generalizing ls with
  | case1 =>
    cases h
    exact fun t l ht => ⟨[], rfl, .one ht⟩
  | case2 => cases h
  | case3 =>
    cases h
    exact fun t l ht => ⟨[], rfl, .one ht⟩
  | case4 comma value ts hcomma l' hl' ih =>
    intro t l ht
    obtain ⟨⟨ls', rest'⟩, hls, he⟩ := bind_eq_ok_iff.1 h
    cases he
    obtain ⟨us, hts, hu⟩ := ih hls value l' ((literal?_eq_some_iff _ _).1 hl')
    exact ⟨comma :: value :: us, by simp [hts], .more ht hcomma hu⟩
  | case5 => cases h
  | case6 =>
    cases h
    exact fun t l ht => ⟨[], rfl, .one ht⟩

theorem list_sound {ts : List Token} {ls : List Literal} (h : list finish ts = .ok (ls, rest)) :
    ∃ us, ts = us ++ rest ∧ Operands .isIn us (some (.list ls)) := by
  obtain ⟨ts₁, hleft, h₁⟩ := bind_eq_ok_iff.1 h
  obtain ⟨left, hl, rfl⟩ := expect_eq_ok_iff.1 hleft
  split at h₁
  · cases h₁
  · obtain ⟨⟨l, ts₂⟩, hfirst, h₂⟩ := bind_eq_ok_iff.1 h₁
    obtain ⟨t, ht, rfl⟩ := literal_eq_ok_iff.1 hfirst
    obtain ⟨⟨ls', ts₃⟩, hothers, h₃⟩ := bind_eq_ok_iff.1 h₂
    obtain ⟨us, rfl, hu⟩ := listTail_sound hothers t l ht
    obtain ⟨ts₄, hright, h₄⟩ := bind_eq_ok_iff.1 h₃
    obtain ⟨right, hr, rfl⟩ := expect_eq_ok_iff.1 hright
    cases h₄
    exact ⟨left :: t :: us ++ [right], by simp, .list hl hu hr⟩

theorem operand_sound {op : Operator} {ts : List Token} {v : Option Operand}
    (h : operand finish op ts = .ok (v, rest)) : ∃ us, ts = us ++ rest ∧ Operands op us v := by
  unfold operand at h
  split at h
  · cases h
    exact ⟨[], rfl, .isNull⟩
  · cases h
    exact ⟨[], rfl, .isNotNull⟩
  · obtain ⟨⟨ls, ts'⟩, hlist, h⟩ := bind_eq_ok_iff.1 h
    cases h
    exact list_sound hlist
  · next h₁ h₂ h₃ =>
    obtain ⟨⟨l, ts'⟩, hone, h⟩ := bind_eq_ok_iff.1 h
    cases h
    obtain ⟨t, ht, rfl⟩ := literal_eq_ok_iff.1 hone
    exact ⟨[t], rfl, .one h₁ h₂ h₃ ht⟩

theorem comparison_sound {ts : List Token} {e : Expr} (h : comparison finish ts = .ok (e, rest)) :
    ∃ us c, ts = us ++ rest ∧ e = .comparison c ∧ Compares us c := by
  obtain ⟨⟨p, ts₁⟩, hpath, h⟩ := bind_eq_ok_iff.1 h
  obtain ⟨first, us, names, rfl, hp, rfl⟩ := path_sound hpath
  cases ts₁ with
  | nil => cases h
  | cons sign ts₂ =>
    dsimp only at h
    split at h
    · cases h
    · next op hop =>
      obtain ⟨⟨v, ts₃⟩, hoperand, h⟩ := bind_eq_ok_iff.1 h
      obtain ⟨vs, rfl, hv⟩ := operand_sound hoperand
      cases h
      exact ⟨first :: us ++ sign :: vs, _, by simp, rfl,
        .mk hp ((operator?_eq_some_iff _ _).1 hop) hv⟩

/-! ## Expressions -/

/-- The tokens of `ts` before `rest` are derived with a weight of at most `d`. -/
def Reads (derives : List Token → Nat → Prop) (d : Nat) (ts rest : List Token) : Prop :=
  ∃ us w, ts = us ++ rest ∧ derives us w ∧ w ≤ d

/-- All rules of a level read what the grammar derives with a weight of at most `d`. A chain whose first
`k` operators were read `k` levels above starts with tokens that weigh no more than `k + d`. -/
structure Level.Sound (level : Level) (d : Nat) : Prop where
  negation : ∀ {ts e rest}, level.negation ts = .ok (e, rest) →
    Reads (fun us w => Derives .negation us e w) d ts rest
  conjunction : ∀ {ts e rest}, level.conjunction ts = .ok (e, rest) →
    Reads (fun us w => ∃ k, Derives (.conjunction k) us e w) d ts rest
  disjunction : ∀ {ts e rest}, level.disjunction ts = .ok (e, rest) →
    Reads (fun us w => ∃ k, Derives (.disjunction k) us e w) d ts rest
  andTail : ∀ {left ts e rest}, level.andTail left ts = .ok (e, rest) →
    ∀ us k w, Derives (.conjunction k) us left w → w ≤ k + d →
      Reads (fun vs v => ∃ j, Derives (.conjunction j) (us ++ vs) e v) (k + d) ts rest
  orTail : ∀ {left ts e rest}, level.orTail left ts = .ok (e, rest) →
    ∀ us k w, Derives (.disjunction k) us left w → w ≤ k + d →
      Reads (fun vs v => ∃ j, Derives (.disjunction j) (us ++ vs) e v) (k + d) ts rest

/-- The levels inside, if there are any, are sound for one level less. -/
def InnerSound (inner : Option Level) (d : Nat) : Prop :=
  ∀ level, inner = some level → ∃ d', d = d' + 1 ∧ level.Sound d'

theorem enter_eq_ok_iff {t : Token} {inner : Option Level} {level : Level} :
    enter t inner = .ok level ↔ inner = some level := by
  cases inner with
  | none => simp [enter]
  | some l => simp [enter]

variable {inner : Option Level} {d : Nat} {ts : List Token} {e : Expr}

theorem primary_sound (hin : InnerSound inner d) (h : primary finish inner ts = .ok (e, rest)) :
    Reads (fun us w => Derives .primary us e w) d ts rest := by
  have plain (h : comparison finish ts = .ok (e, rest)) :
      Reads (fun us w => Derives .primary us e w) d ts rest := by
    obtain ⟨us, c, hts, rfl, hc⟩ := comparison_sound h
    exact ⟨us, 0, hts, .comparison hc, Nat.zero_le d⟩
  cases ts with
  | nil => exact plain h
  | cons t ts =>
    rw [primary] at h
    split at h
    · next hk =>
      obtain ⟨level, henter, h₁⟩ := bind_eq_ok_iff.1 h
      obtain ⟨d', rfl, hlevel⟩ := hin level (enter_eq_ok_iff.1 henter)
      obtain ⟨⟨e', ts'⟩, hdisj, h₂⟩ := bind_eq_ok_iff.1 h₁
      obtain ⟨us, w, rfl, ⟨k, hd⟩, hw⟩ := hlevel.disjunction hdisj
      obtain ⟨ts'', hright, h₃⟩ := bind_eq_ok_iff.1 h₂
      obtain ⟨right, hr, rfl⟩ := expect_eq_ok_iff.1 hright
      cases h₃
      exact ⟨t :: us ++ [right], 1 + w, by simp, .parens hk hd hr, by omega⟩
    · exact plain h

theorem negation_sound (hin : InnerSound inner d) (h : negation finish inner ts = .ok (e, rest)) :
    Reads (fun us w => Derives .negation us e w) d ts rest := by
  have plain (h : primary finish inner ts = .ok (e, rest)) :
      Reads (fun us w => Derives .negation us e w) d ts rest := by
    obtain ⟨us, w, hts, hp, hw⟩ := primary_sound hin h
    exact ⟨us, w, hts, .plain hp, hw⟩
  cases ts with
  | nil => exact plain h
  | cons t ts =>
    rw [negation] at h
    split at h
    · next hk =>
      obtain ⟨level, henter, h₁⟩ := bind_eq_ok_iff.1 h
      obtain ⟨d', rfl, hlevel⟩ := hin level (enter_eq_ok_iff.1 henter)
      obtain ⟨⟨e', ts'⟩, hneg, h₂⟩ := bind_eq_ok_iff.1 h₁
      obtain ⟨us, w, rfl, hd, hw⟩ := hlevel.negation hneg
      cases h₂
      exact ⟨t :: us, 1 + w, rfl, .not hk hd, by omega⟩
    · exact plain h

theorem andTail_sound (hin : InnerSound inner d) {left : Expr}
    (h : andTail inner left ts = .ok (e, rest)) {us : List Token} {k w : Nat}
    (hleft : Derives (.conjunction k) us left w) (hw : w ≤ k + d) :
    Reads (fun vs v => ∃ j, Derives (.conjunction j) (us ++ vs) e v) (k + d) ts rest := by
  have stop (h : (e, rest) = (left, ts)) :
      Reads (fun vs v => ∃ j, Derives (.conjunction j) (us ++ vs) e v) (k + d) ts rest := by
    cases h
    exact ⟨[], w, rfl, ⟨k, by simpa using hleft⟩, hw⟩
  cases ts with
  | nil => cases h; exact stop rfl
  | cons t ts =>
    rw [andTail] at h
    split at h
    · next hk =>
      obtain ⟨level, henter, h₁⟩ := bind_eq_ok_iff.1 h
      obtain ⟨d', rfl, hlevel⟩ := hin level (enter_eq_ok_iff.1 henter)
      obtain ⟨⟨r, ts'⟩, hneg, h₂⟩ := bind_eq_ok_iff.1 h₁
      obtain ⟨vs, v, rfl, hr, hv⟩ := hlevel.negation hneg
      -- the operand just read makes the chain one operator longer, and the rest has one level less
      obtain ⟨vs', v', rfl, ⟨j, hj⟩, hv'⟩ :=
        hlevel.andTail h₂ _ _ _ (.and hleft hk hr) (by omega)
      exact ⟨t :: vs ++ vs', v', by simp, ⟨j, by simpa using hj⟩, by omega⟩
    · cases h; exact stop rfl

theorem conjunction_sound (hin : InnerSound inner d)
    (h : conjunction finish inner ts = .ok (e, rest)) :
    Reads (fun us w => ∃ k, Derives (.conjunction k) us e w) d ts rest := by
  obtain ⟨⟨left, ts'⟩, hneg, htail⟩ := bind_eq_ok_iff.1 h
  obtain ⟨us, w, rfl, hd, hw⟩ := negation_sound hin hneg
  obtain ⟨vs, v, rfl, hj, hv⟩ := andTail_sound hin htail (.oneOperand hd) (by omega)
  exact ⟨us ++ vs, v, by simp, hj, by omega⟩

theorem orTail_sound (hin : InnerSound inner d) {left : Expr}
    (h : orTail inner left ts = .ok (e, rest)) {us : List Token} {k w : Nat}
    (hleft : Derives (.disjunction k) us left w) (hw : w ≤ k + d) :
    Reads (fun vs v => ∃ j, Derives (.disjunction j) (us ++ vs) e v) (k + d) ts rest := by
  have stop (h : (e, rest) = (left, ts)) :
      Reads (fun vs v => ∃ j, Derives (.disjunction j) (us ++ vs) e v) (k + d) ts rest := by
    cases h
    exact ⟨[], w, rfl, ⟨k, by simpa using hleft⟩, hw⟩
  cases ts with
  | nil => cases h; exact stop rfl
  | cons t ts =>
    rw [orTail] at h
    split at h
    · next hk =>
      obtain ⟨level, henter, h₁⟩ := bind_eq_ok_iff.1 h
      obtain ⟨d', rfl, hlevel⟩ := hin level (enter_eq_ok_iff.1 henter)
      obtain ⟨⟨r, ts'⟩, hconj, h₂⟩ := bind_eq_ok_iff.1 h₁
      obtain ⟨vs, v, rfl, ⟨i, hr⟩, hv⟩ := hlevel.conjunction hconj
      obtain ⟨vs', v', rfl, ⟨j, hj⟩, hv'⟩ :=
        hlevel.orTail h₂ _ _ _ (.or hleft hk hr) (by omega)
      exact ⟨t :: vs ++ vs', v', by simp, ⟨j, by simpa using hj⟩, by omega⟩
    · cases h; exact stop rfl

theorem disjunction_sound (hin : InnerSound inner d)
    (h : disjunction finish inner ts = .ok (e, rest)) :
    Reads (fun us w => ∃ k, Derives (.disjunction k) us e w) d ts rest := by
  obtain ⟨⟨left, ts'⟩, hconj, htail⟩ := bind_eq_ok_iff.1 h
  obtain ⟨us, w, rfl, ⟨i, hd⟩, hw⟩ := conjunction_sound hin hconj
  obtain ⟨vs, v, rfl, hj, hv⟩ := orTail_sound hin htail (.oneConjunction hd) (by omega)
  exact ⟨us ++ vs, v, by simp, hj, by omega⟩

theorem above_sound (hin : InnerSound inner d) : (Level.above finish inner).Sound d where
  negation := negation_sound hin
  conjunction := conjunction_sound hin
  disjunction := disjunction_sound hin
  andTail h _ _ _ := andTail_sound hin h
  orTail h _ _ _ := orTail_sound hin h

theorem level_sound (finish d : Nat) : (level finish d).Sound d := by
  induction d with
  | zero => exact above_sound fun _ h => by cases h
  | succ d ih =>
    refine above_sound fun inner h => ?_
    cases h
    exact ⟨d, rfl, ih⟩

end Parser

end RecordQuery
