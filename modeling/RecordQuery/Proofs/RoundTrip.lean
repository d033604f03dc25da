import RecordQuery.Proofs.Lexemes
import RecordQuery.Proofs.ParserComplete

/-!
# Reading what was written

The tokens of a written expression derive the expression again, apart from its positions, and the nesting
weighs at most twice the height, since every operand costs a connective and a pair of parentheses.

    e.Printable → e.height ≤ 128 →
      tokenize e.source = .ok ts ∧ Expr.ofTokens ts = .ok e' ∧ e'.unplaced = e.unplaced    (source_reads_back)
-/

namespace RecordQuery

open Grammar Lexer

/-! ## From contents to derivations -/

/-- The contents `contents` make tokens fulfil `P`. -/
def Makes (contents : List (TokenKind × Option Payload)) (P : List Token → Prop) : Prop :=
  ∀ ts : List Token, ts.map Token.content = contents → P ts

theorem content_eq {t : Token} {kind : TokenKind} {payload : Option Payload}
    (h : t.content = (kind, payload)) : t.kind = kind ∧ t.payload = payload :=
  Prod.mk.injEq _ _ _ _ ▸ h

theorem isLiteral_of_content {t : Token} {l : Literal} (h : t.content = l.content) :
    IsLiteral t l := by
  obtain ⟨hk, hp⟩ := content_eq h
  cases l with
  | string s => exact .string hk hp
  | number d => exact .number hk hp
  | bool b => exact .bool hk hp
  | null => exact .null hk

theorem path_of_contents {names : List String} (hne : names ≠ []) :
    Makes (pathContents names) (Path · names) := by
  induction names with
  | nil => exact absurd rfl hne
  | cons n ns ih =>
    intro ts hts
    cases ns with
    | nil =>
      obtain ⟨t, rfl, ht⟩ := List.map_eq_singleton_iff.1 hts
      obtain ⟨hk, hp⟩ := content_eq ht
      have hname : Parser.fieldName t = n := by rw [Parser.fieldName, hp]
      exact hname ▸ .one hk
    | cons m ms =>
      obtain ⟨t, ts, rfl, ht, hts⟩ := List.map_eq_cons_iff.1 hts
      obtain ⟨dot, ts, rfl, hdot, hts⟩ := List.map_eq_cons_iff.1 hts
      obtain ⟨hk, hp⟩ := content_eq ht
      have hname : Parser.fieldName t = n := by rw [Parser.fieldName, hp]
      exact hname ▸ .more hk (content_eq hdot).1 (ih (List.cons_ne_nil m ms) ts hts)

/-- The contents of the tokens of a list of literals. -/
def listContents : List Literal → List (TokenKind × Option Payload)
  | [] => []
  | [l] => [l.content]
  | l :: ls => l.content :: (.comma, none) :: listContents ls

theorem literals_of_contents {ls : List Literal} (hne : ls ≠ []) :
    Makes (listContents ls) (Literals · ls) := by
  induction ls with
  | nil => exact absurd rfl hne
  | cons l ls ih =>
    intro ts hts
    cases ls with
    | nil =>
      obtain ⟨t, rfl, ht⟩ := List.map_eq_singleton_iff.1 hts
      exact .one (isLiteral_of_content ht)
    | cons m ms =>
      obtain ⟨t, ts, rfl, ht, hts⟩ := List.map_eq_cons_iff.1 hts
      obtain ⟨comma, ts, rfl, hcomma, hts⟩ := List.map_eq_cons_iff.1 hts
      exact .more (isLiteral_of_content ht) (content_eq hcomma).1
        (ih (List.cons_ne_nil m ms) ts hts)

/-! ## Parentheses -/

theorem readAs_inParens {cs : List Char} {contents : List (TokenKind × Option Payload)}
    (h : ReadAs Ends cs contents) :
    ReadAs Anything (inParens cs) ((.leftParen, none) :: (contents ++ [(.rightParen, none)])) := by
  have hopen : ReadAs Anything ['('] [(.leftParen, none)] :=
    readAs_sign (by decide) (by decide) (by decide)
  have hclose : ReadAs Anything [')'] [(.rightParen, none)] :=
    readAs_sign (by decide) (by decide) (by decide)
  exact hopen.append (h.append hclose fun _ _ => notNext_cons (by decide)) fun _ _ => trivial

theorem inParens_makes {contents : List (TokenKind × Option Payload)} {P : List Token → Prop}
    (h : Makes contents P) :
    Makes ((.leftParen, none) :: (contents ++ [(.rightParen, none)])) fun ts =>
      ∃ left us right, ts = left :: us ++ [right] ∧ left.kind = .leftParen ∧ P us ∧
        right.kind = .rightParen := by
  intro ts hts
  obtain ⟨left, ts, rfl, hleft, hts⟩ := List.map_eq_cons_iff.1 hts
  obtain ⟨us, vs, rfl, hus, hvs⟩ := List.map_eq_append_iff.1 hts
  obtain ⟨right, rfl, hright⟩ := List.map_eq_singleton_iff.1 hvs
  exact ⟨left, us, right, rfl, (content_eq hleft).1, h us hus, (content_eq hright).1⟩

/-! ## Comparisons -/

theorem readAs_nil : ReadAs Ends [] [] := by
  intro p rest _
  refine ⟨[], rfl, ?_⟩
  cases h : tokensFrom p rest with
  | ok ts => simp [h, Except.map]
  | error e => simp [h, Except.map]

theorem readAs_list {ls : List Literal} (hne : ls ≠ []) (h : ∀ l ∈ ls, l.Printable) :
    ReadAs Ends (Literal.listChars ls) (listContents ls) := by
  induction ls with
  | nil => exact absurd rfl hne
  | cons l ls ih =>
    have hl : ReadAs Ends l.chars [l.content] := readAs_literal (h l (by simp))
    cases ls with
    | nil => exact hl
    | cons m ms =>
      have hrest := ih (List.cons_ne_nil m ms) fun k hk => h k (List.mem_cons_of_mem l hk)
      have hcomma : ReadAs Anything [','] [(.comma, none)] :=
        readAs_sign (by decide) (by decide) (by decide)
      have hblank : ReadAs Ends (' ' :: Literal.listChars (m :: ms)) (listContents (m :: ms)) :=
        .blank (by decide) hrest
      exact hl.append (hcomma.append hblank fun _ _ => trivial) fun _ _ => notNext_cons (by decide)

/-- What an operator takes, as it is written and as it is read. -/
theorem operands_read {op : Operator} {o : Option Operand} (h : op.Takes o) :
    ∃ contents, ReadAs Ends ((o.map Operand.chars).getD []) contents ∧
      Makes contents (Operands op · o) := by
  have one (h₁ : op ≠ .isNull) (h₂ : op ≠ .isNotNull) (h₃ : op ≠ .isIn)
      (h : ∃ l : Literal, l.Printable ∧ o = some (.one l)) :
      ∃ contents, ReadAs Ends ((o.map Operand.chars).getD []) contents ∧
        Makes contents (Operands op · o) := by
    obtain ⟨l, hl, rfl⟩ := h
    refine ⟨[l.content], .blank (by decide) (readAs_literal hl), fun ts hts => ?_⟩
    obtain ⟨t, rfl, ht⟩ := List.map_eq_singleton_iff.1 hts
    exact .one h₁ h₂ h₃ (isLiteral_of_content ht)
  have nothing (hnil : Operands op [] none) (h : o = none) :
      ∃ contents, ReadAs Ends ((o.map Operand.chars).getD []) contents ∧
        Makes contents (Operands op · o) := by
    subst h
    refine ⟨[], readAs_nil, fun ts hts => ?_⟩
    rw [List.map_eq_nil_iff.1 hts]
    exact hnil
  cases op with
  | isNull => exact nothing .isNull h
  | isNotNull => exact nothing .isNotNull h
  | isIn =>
    obtain ⟨ls, hne, hls, rfl⟩ := h
    refine ⟨_, .blank (by decide) ((readAs_inParens (readAs_list hne hls)).weaken fun _ _ => trivial),
      fun ts hts => ?_⟩
    obtain ⟨left, us, right, rfl, hleft, hus, hright⟩ :=
      inParens_makes (literals_of_contents hne) ts hts
    exact .list hleft hus hright
  | _ => exact one nofun nofun nofun h

/-- A written comparison is read as tokens that derive it, at some position. -/
theorem comparison_reads {c : Comparison} (h : c.Printable) :
    ∃ contents, ReadAs Ends c.chars contents ∧
      Makes contents fun ts => ∃ p, Compares ts { c with position := p } := by
  obtain ⟨path, op, o, position⟩ := c
  obtain ⟨⟨names, hne, hnames, hpath⟩, htakes⟩ := h
  dsimp only at hpath htakes
  subst hpath
  obtain ⟨contents, hoperand, hmakes⟩ := operands_read htakes
  have hoperator : ReadAs Ends (' ' :: op.symbol.toList) [(op.kind, none)] :=
    .blank (by decide) (readAs_ends (denotes_operator op))
  have hends (rest : List Char) (hrest : Ends rest) :
      Ends ((o.map Operand.chars).getD [] ++ rest) := by
    match o with
    | none => exact hrest
    | some (.one _) => exact notNext_cons (by decide)
    | some (.list _) => exact notNext_cons (by decide)
  refine ⟨_, ((readAs_path hne hnames).append hoperator fun _ _ => notNext_cons (by decide)).append
    hoperand hends, fun ts hts => ?_⟩
  obtain ⟨us, vs, rfl, hus, hvs⟩ := List.map_eq_append_iff.1 hts
  obtain ⟨ps, ss, rfl, hps, hss⟩ := List.map_eq_append_iff.1 hus
  obtain ⟨sign, rfl, hsign⟩ := List.map_eq_singleton_iff.1 hss
  have hpath := path_of_contents hne ps hps
  obtain ⟨first, more, rfl, -⟩ := hpath.head
  refine ⟨first.position, ?_⟩
  rw [List.append_assoc]
  exact .mk hpath (content_eq hsign).1 (hmakes vs hvs)

/-! ## Expressions -/

/-- The tokens derive the expression, at some positions, and weigh at most twice its height. -/
def Writes (e : Expr) (ts : List Token) : Prop :=
  ∃ e' w, Query ts e' w ∧ e'.unplaced = e.unplaced ∧ w ≤ 2 * e.height

/-- The tokens derive the expression as an operand of a connective. -/
def WritesOperand (e : Expr) (ts : List Token) : Prop :=
  ∃ e' w, Derives .negation ts e' w ∧ e'.unplaced = e.unplaced ∧ w ≤ 2 * e.height + 1

theorem operand_reads {e : Expr}
    (h : ∃ contents, ReadAs Ends e.chars contents ∧ Makes contents (Writes e)) :
    ∃ contents, ReadAs Anything (' ' :: inParens e.chars) contents ∧
      ReadAs Anything (inParens e.chars) contents ∧ Makes contents (WritesOperand e) := by
  obtain ⟨contents, hread, hmakes⟩ := h
  have hparens := readAs_inParens hread
  refine ⟨_, .blank (by decide) hparens, hparens, fun ts hts => ?_⟩
  obtain ⟨left, us, right, rfl, hleft, ⟨e', w, ⟨k, hd⟩, he, hw⟩, hright⟩ := inParens_makes hmakes ts hts
  exact ⟨e', 1 + w, .plain (.parens hleft hd hright), he, by omega⟩

/-- Two operands with the word of a connective between them. -/
theorem binary_reads {l r : Expr} {word : List Char} {kind : TokenKind}
    (hl : ∃ contents, ReadAs Ends l.chars contents ∧ Makes contents (Writes l))
    (hr : ∃ contents, ReadAs Ends r.chars contents ∧ Makes contents (Writes r))
    (hword : ReadAs WordEnds word [(kind, none)]) :
    ∃ contents, ReadAs Ends (inParens l.chars ++ ' ' :: word ++ ' ' :: inParens r.chars) contents ∧
      Makes contents fun ts => ∃ us t vs, ts = us ++ t :: vs ∧ WritesOperand l us ∧ t.kind = kind ∧
        WritesOperand r vs := by
  obtain ⟨ls, -, hreadl, hmakesl⟩ := operand_reads hl
  obtain ⟨rs, hreadr, -, hmakesr⟩ := operand_reads hr
  have hgap : ReadAs WordEnds (' ' :: word) [(kind, none)] := .blank (by decide) hword
  have hread := (hreadl.append hgap fun _ _ => trivial).append hreadr
    fun _ _ => notNext_cons (by decide)
  refine ⟨_, hread.weaken fun _ _ => trivial, fun ts hts => ?_⟩
  obtain ⟨front, vs, rfl, hfront, hvs⟩ := List.map_eq_append_iff.1 hts
  obtain ⟨us, middle, rfl, hus, hmiddle⟩ := List.map_eq_append_iff.1 hfront
  obtain ⟨t, rfl, ht⟩ := List.map_eq_singleton_iff.1 hmiddle
  exact ⟨us, t, vs, by simp, hmakesl us hus, (content_eq ht).1, hmakesr vs hvs⟩

/-- A written expression is read as tokens that derive it, at some positions. -/
theorem expr_reads {e : Expr} (h : e.Printable) :
    ∃ contents, ReadAs Ends e.chars contents ∧ Makes contents (Writes e) := by
  induction e with
  | comparison c =>
    obtain ⟨contents, hread, hmakes⟩ := comparison_reads h
    refine ⟨contents, hread, fun ts hts => ?_⟩
    obtain ⟨p, hc⟩ := hmakes ts hts
    exact ⟨_, 0, ⟨0, .oneConjunction (.oneOperand (.plain (.comparison hc)))⟩, rfl, Nat.zero_le _⟩
  | not e ih =>
    obtain ⟨contents, hread, -, hmakes⟩ := operand_reads (ih h)
    have hnot : ReadAs WordEnds ['N', 'O', 'T'] [(.not, none)] :=
      readAs_word (.keyword (w := "not") (by decide) (by decide)) rfl
    refine ⟨(.not, none) :: contents,
      (hnot.append hread fun _ _ => notNext_cons (by decide)).weaken fun _ _ => trivial,
      fun ts hts => ?_⟩
    obtain ⟨t, us, rfl, ht, hus⟩ := List.map_eq_cons_iff.1 hts
    obtain ⟨e', w, hd, he, hw⟩ := hmakes us hus
    refine ⟨.not e', 1 + w, ⟨0, .oneConjunction (.oneOperand (.not (content_eq ht).1 hd))⟩, ?_, ?_⟩
    · rw [Expr.unplaced, Expr.unplaced, he]
    · rw [Expr.height]
      omega
  | and l r ihl ihr =>
    have hand : ReadAs WordEnds ['A', 'N', 'D'] [(.and, none)] :=
      readAs_word (.keyword (w := "and") (by decide) (by decide)) rfl
    obtain ⟨contents, hread, hmakes⟩ := binary_reads (ihl h.1) (ihr h.2) hand
    refine ⟨contents, hread, fun ts hts => ?_⟩
    obtain ⟨us, t, vs, rfl, ⟨l', v, hl, hle, hv⟩, ht, ⟨r', w, hr, hre, hw⟩⟩ := hmakes ts hts
    refine ⟨.and l' r', max v (0 + 1 + w), ⟨0, .oneConjunction (.and (.oneOperand hl) ht hr)⟩, ?_, ?_⟩
    · rw [Expr.unplaced, Expr.unplaced, hle, hre]
    · rw [Expr.height]
      omega
  | or l r ihl ihr =>
    have hor : ReadAs WordEnds ['O', 'R'] [(.or, none)] :=
      readAs_word (.keyword (w := "or") (by decide) (by decide)) rfl
    obtain ⟨contents, hread, hmakes⟩ := binary_reads (ihl h.1) (ihr h.2) hor
    refine ⟨contents, hread, fun ts hts => ?_⟩
    obtain ⟨us, t, vs, rfl, ⟨l', v, hl, hle, hv⟩, ht, ⟨r', w, hr, hre, hw⟩⟩ := hmakes ts hts
    refine ⟨.or l' r', max v (0 + 1 + w),
      ⟨1, .or (.oneConjunction (.oneOperand hl)) ht (.oneOperand hr)⟩, ?_, ?_⟩
    · rw [Expr.unplaced, Expr.unplaced, hle, hre]
    · rw [Expr.height]
      omega

/-! ## Top theorem (proved from the lemmas above) -/

/-- The text of an expression is cut into tokens, and these are read as the expression, whose positions
alone may differ. -/
theorem source_reads_back (e : Expr) (hprintable : e.Printable) (hheight : e.height ≤ 128) :
    ∃ ts e', tokenize e.source = .ok ts ∧ Expr.ofTokens ts = .ok e' ∧ e'.unplaced = e.unplaced := by
  obtain ⟨contents, hread, hmakes⟩ := expr_reads hprintable
  obtain ⟨ts, hts, htokens⟩ := hread 0 [] rfl
  obtain ⟨e', w, hquery, he, hw⟩ := hmakes ts hts
  have hcut : tokenize e.source = .ok (ts ++ [Token.endAt (0 + e.chars.length)]) := by
    rw [List.append_nil, tokensFrom_nil] at htokens
    rw [tokenize, Expr.source, String.toList_ofList, htokens]
    rfl
  have hbefore : (ts ++ [Token.endAt (0 + e.chars.length)]).takeWhile (·.kind ≠ .eof) = ts := by
    obtain ⟨k, hd⟩ := hquery
    exact takeWhile_append_eof hd.ne_eof rfl
  refine ⟨_, e', hcut, (ofTokens_eq_ok_iff _ _).2 ⟨w, ?_, ?_⟩, he⟩
  · rw [hbefore]
    exact hquery
  · show w ≤ 256
    omega

/-- `(NOT (Mentor.Name contains "\"\\")) AND (is_Open in (-0.05, null))`: a name that starts like a keyword,
a quote and a backslash in a text, and a number below one with a sign. -/
theorem source_reads_back_quoted :
    let e : Expr := .and
      (.not (.comparison ⟨"Mentor.Name", .contains, some (.one (.string "\"\\")), 5⟩))
      (.comparison ⟨"is_Open", .isIn, some (.list [.number ⟨-5, 2⟩, .null]), 40⟩)
    e.Printable ∧ e.height ≤ 128 ∧
      ∃ ts e', tokenize e.source = .ok ts ∧ Expr.ofTokens ts = .ok e' ∧ e'.unplaced = e.unplaced := by
  intro e
  have hmentor : IsName "Mentor" :=
    ⟨⟨'M', ['e', 'n', 't', 'o', 'r'], rfl, by decide, List.all_eq_true.1 (by decide)⟩, by decide⟩
  have hname : IsName "Name" :=
    ⟨⟨'N', ['a', 'm', 'e'], rfl, by decide, List.all_eq_true.1 (by decide)⟩, by decide⟩
  have hopen : IsName "is_Open" :=
    ⟨⟨'i', ['s', '_', 'O', 'p', 'e', 'n'], rfl, by decide, List.all_eq_true.1 (by decide)⟩, by decide⟩
  have hprintable : e.Printable := by
    refine ⟨⟨⟨["Mentor", "Name"], by decide, ?_, by decide⟩, ⟨.string "\"\\", trivial, rfl⟩⟩,
      ⟨⟨["is_Open"], by decide, ?_, by decide⟩, ⟨_, by decide, ?_, rfl⟩⟩⟩
    · simp [hmentor, hname]
    · simp [hopen]
    · simp [Literal.Printable]
  exact ⟨hprintable, by decide, source_reads_back e hprintable (by decide)⟩

end RecordQuery
