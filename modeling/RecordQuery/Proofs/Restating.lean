import RecordQuery.Filter
import RecordQuery.Proofs.Names
import RecordQuery.Proofs.ParserComplete
import RecordQuery.Proofs.Tiling
import RecordQuery.Proofs.Typing

/-!
# Queries in another surface form

`Restates ts cs` says that the text `cs` writes the tokens `ts` in order, words in any ASCII case, with white
space between any two and, perhaps, around them. A query that is written so states the same condition:

    Condition.ofQuery schema root aliases query = .ok c  →  tokenize query = .ok ts  →
      Restates ts text.toList  →  Condition.ofQuery schema root aliases text = .ok c    (ofQuery_restated)

What the stages keep of a token, an expression and a path is its folded form, in which the positions are
forgotten and the letters of names made small.
-/

namespace RecordQuery

open Lexer Grammar

/-- The characters write the token again, in any ASCII case if it is a word. -/
def Token.RespelledAs (t : Token) (cs : List Char) : Prop :=
  if t.kind.isWord then cs.map Char.toLower = t.lexeme.toList.map Char.toLower else cs = t.lexeme.toList

instance (t : Token) (cs : List Char) : Decidable (t.RespelledAs cs) :=
  inferInstanceAs (Decidable (if t.kind.isWord then cs.map Char.toLower = t.lexeme.toList.map Char.toLower
    else cs = t.lexeme.toList))

/-- The text writes the tokens in order, each followed by white space or by the end of the text. -/
inductive Restates : List Token → List Char → Prop
  | finish {t : Token} : t.kind = .eof → Restates [t] []
  | blank {c : Char} {cs : List Char} {ts : List Token} :
      Text.isBlank c = true → Restates ts cs → Restates ts (c :: cs)
  | token {t : Token} {cs rest : List Char} {ts : List Token} :
      t.kind ≠ .eof → t.RespelledAs cs → (∀ c ∈ rest.head?, Text.isBlank c = true) →
      Restates ts rest → Restates (t :: ts) (cs ++ rest)

/-! ## Folded forms -/

/-- The content of a token, with the letters of a name made small. -/
def Token.folded (t : Token) : TokenKind × Option Payload :=
  if t.kind = .identifier then (.identifier, some (.text (Text.foldAscii (Parser.fieldName t))))
  else t.content

/-- A comparison without its position, with the letters of its path made small. -/
def Comparison.folded (c : Comparison) : Comparison :=
  { c with path := Text.foldAscii c.path, position := 0 }

/-- An expression with all its comparisons folded. -/
def Expr.folded : Expr → Expr
  | .and l r => .and l.folded r.folded
  | .or l r => .or l.folded r.folded
  | .not e => .not e.folded
  | .comparison c => .comparison c.folded

theorem folded_fst (t : Token) : t.folded.1 = t.kind := by
  unfold Token.folded
  split
  · next h => exact h.symm
  · rfl

theorem kind_eq_of_folded {t u : Token} (h : u.folded = t.folded) : u.kind = t.kind := by
  rw [← folded_fst u, h, folded_fst]

theorem payload_eq_of_folded {t u : Token} (h : u.folded = t.folded) (hk : t.kind ≠ .identifier) :
    u.payload = t.payload := by
  have hu : u.kind ≠ .identifier := kind_eq_of_folded h ▸ hk
  rw [Token.folded, Token.folded, if_neg hk, if_neg hu] at h
  exact congrArg Prod.snd h

theorem fieldName_of_folded {t u : Token} (h : u.folded = t.folded) (hk : t.kind = .identifier) :
    Text.foldAscii (Parser.fieldName u) = Text.foldAscii (Parser.fieldName t) := by
  have hu : u.kind = .identifier := kind_eq_of_folded h ▸ hk
  rw [Token.folded, Token.folded, if_pos hk, if_pos hu] at h
  simpa using h

/-! ## Words in another case -/

theorem isBlank_toLower (c : Char) : Text.isBlank c.toLower = Text.isBlank c :=
  Text.forall_of_ascii (p := fun c => Text.isBlank c.toLower = Text.isBlank c) (by decide +kernel)
    (fun c h => by rw [h]) c

theorem blank_of_map_toLower {gap gap' : List Char} (h : gap'.map Char.toLower = gap.map Char.toLower)
    (hgap : Blank gap) : Blank gap' := by
  intro c hc
  have hmem : c.toLower ∈ gap.map Char.toLower := by
    rw [← h]
    exact List.mem_map_of_mem hc
  obtain ⟨d, hd, heq⟩ := List.mem_map.1 hmem
  rw [← isBlank_toLower, ← heq, isBlank_toLower]
  exact hgap d hd

theorem ne_nil_of_map_toLower {cs cs' : List Char} (h : cs'.map Char.toLower = cs.map Char.toLower)
    (hne : cs ≠ []) : cs' ≠ [] := by
  rintro rfl
  exact hne (List.map_eq_nil_iff.1 h.symm)

theorem spells_of_map_toLower {cs cs' : List Char} (h : cs'.map Char.toLower = cs.map Char.toLower)
    (w : String) : spells cs' w = spells cs w := by
  rw [spells, spells, h]

theorem isName_of_map_toLower {s : String} {cs : List Char}
    (h : cs.map Char.toLower = s.toList.map Char.toLower) (hs : IsName s) :
    IsName (String.ofList cs) := by
  obtain ⟨hword, hkeywords⟩ := isName_iff.1 hs
  refine isName_iff.2 ?_
  rw [String.toList_ofList]
  constructor
  · rw [← isWordText_map_toLower, h, isWordText_map_toLower, hword]
  · intro k hk
    rw [spells_of_map_toLower h, hkeywords k hk]

/-- A word in another case is a token of the same content, up to the case of a name. -/
theorem denotes_of_map_toLower {cs cs' : List Char} {kind : TokenKind} {payload : Option Payload}
    (hd : Denotes cs kind payload) (hk : kind.isWord = true)
    (h : cs'.map Char.toLower = cs.map Char.toLower) (p q : Nat) :
    ∃ payload', Denotes cs' kind payload' ∧
      Token.folded ⟨kind, String.ofList cs', payload', p⟩ =
        Token.folded ⟨kind, String.ofList cs, payload, q⟩ := by
  cases hd with
  | sign hmem =>
    have hall : ∀ s ∈ signs, s.2.isWord = false := by decide
    rw [hall _ hmem] at hk
    cases hk
  | string _ => cases hk
  | number _ _ => cases hk
  | keyword hmem hs =>
    have hall : ∀ k ∈ keywordKinds, k.2 ≠ .identifier := by decide
    refine ⟨none, .keyword hmem ((spells_of_map_toLower h _).trans hs), ?_⟩
    rw [Token.folded, Token.folded, if_neg (hall _ hmem), if_neg (hall _ hmem)]
    rfl
  | boolean hmem hs =>
    exact ⟨_, .boolean hmem ((spells_of_map_toLower h _).trans hs), rfl⟩
  | isNull his hgap hne hnull =>
    rw [List.map_append, List.map_append] at h
    obtain ⟨is', behind, rfl, his', hbehind⟩ := List.map_eq_append_iff.1 h
    obtain ⟨gap', null', rfl, hgap', hnull'⟩ := List.map_eq_append_iff.1 hbehind
    exact ⟨none, .isNull ((spells_of_map_toLower his' _).trans his) (blank_of_map_toLower hgap' hgap)
      (ne_nil_of_map_toLower hgap' hne) ((spells_of_map_toLower hnull' _).trans hnull), rfl⟩
  | isNotNull his hgap hne hnot hgap₂ hne₂ hnull =>
    rw [List.map_append, List.map_append, List.map_append, List.map_append] at h
    obtain ⟨is', behind, rfl, his', hbehind⟩ := List.map_eq_append_iff.1 h
    obtain ⟨gap', behind, rfl, hgap', hbehind⟩ := List.map_eq_append_iff.1 hbehind
    obtain ⟨not', behind, rfl, hnot', hbehind⟩ := List.map_eq_append_iff.1 hbehind
    obtain ⟨gap₂', null', rfl, hgap₂', hnull'⟩ := List.map_eq_append_iff.1 hbehind
    exact ⟨none, .isNotNull ((spells_of_map_toLower his' _).trans his) (blank_of_map_toLower hgap' hgap)
      (ne_nil_of_map_toLower hgap' hne) ((spells_of_map_toLower hnot' _).trans hnot)
      (blank_of_map_toLower hgap₂' hgap₂) (ne_nil_of_map_toLower hgap₂' hne₂)
      ((spells_of_map_toLower hnull' _).trans hnull), rfl⟩
  | @identifier s hs =>
    have hname := Denotes.identifier (isName_of_map_toLower h hs)
    rw [String.toList_ofList] at hname
    refine ⟨_, hname, ?_⟩
    have hfold : Text.foldAscii (String.ofList cs') = Text.foldAscii s := by
      rw [Text.foldAscii, String.toList_ofList, h, Text.foldAscii]
    show (TokenKind.identifier, some (Payload.text (Text.foldAscii (String.ofList cs')))) =
      (.identifier, some (.text (Text.foldAscii s)))
    rw [hfold]

/-! ## The tokens of a restated text -/

theorem ends_of_blank {rest : List Char} (h : ∀ c ∈ rest.head?, Text.isBlank c = true) : Ends rest := by
  cases rest with
  | nil => rfl
  | cons c rest =>
    have hc : Text.isBlank c = true := h c rfl
    have hpoint : c ≠ '.' := by
      rintro rfl
      exact absurd hc (by decide)
    have hequal : c ≠ '=' := by
      rintro rfl
      exact absurd hc (by decide)
    exact notNext_cons (by simp [isWordPart_of_isBlank hc, hpoint, hequal])

/-- A text that restates tokens is cut into tokens of the same folded form. -/
theorem exists_cut_of_restates {ts : List Token} {cs : List Char} (h : Restates ts cs)
    (hspelled : ∀ t ∈ ts, t.kind ≠ .eof → Denotes t.lexeme.toList t.kind t.payload) (p : Nat) :
    ∃ body, Cut p cs body ∧
      body.map Token.folded = (ts.takeWhile (·.kind ≠ .eof)).map Token.folded := by
  induction h generalizing p with
  | finish heof => exact ⟨[], .finish, by simp [heof]⟩
  | blank hc _ ih =>
    obtain ⟨body, hcut, hbody⟩ := ih hspelled (p + 1)
    exact ⟨body, .blank hc hcut, hbody⟩
  | @token t cs rest ts hkind hrespelled hrest _ ih =>
    obtain ⟨body, hcut, hbody⟩ :=
      ih (fun u hu => hspelled u (List.mem_cons_of_mem t hu)) (p + cs.length)
    have hd := hspelled t List.mem_cons_self hkind
    have hstops : Stops t.kind cs rest := (ends_of_blank hrest).stops t.kind cs
    have hsame : ∃ payload', Denotes cs t.kind payload' ∧
        Token.folded ⟨t.kind, String.ofList cs, payload', p⟩ = t.folded := by
      unfold Token.RespelledAs at hrespelled
      split at hrespelled
      · next hword =>
        obtain ⟨payload', hd', hfold⟩ := denotes_of_map_toLower hd hword hrespelled p t.position
        rw [String.ofList_toList] at hfold
        exact ⟨payload', hd', hfold⟩
      · next hword =>
        subst hrespelled
        refine ⟨t.payload, hd, ?_⟩
        have hne : t.kind ≠ .identifier := by
          intro hidentifier
          rw [hidentifier] at hword
          exact hword rfl
        rw [Token.folded, Token.folded, if_neg hne, if_neg hne]
        rfl
    obtain ⟨payload', hd', hfold⟩ := hsame
    refine ⟨⟨t.kind, String.ofList cs, payload', p⟩ :: body, .token hd' hstops hcut, ?_⟩
    rw [List.map_cons, hfold, hbody, List.takeWhile_cons_of_pos (by simpa using hkind), List.map_cons]

/-! ## Derivations from folded tokens -/

namespace Grammar

theorem IsLiteral.of_folded {t u : Token} {l : Literal} (h : IsLiteral t l) (hu : u.folded = t.folded) :
    IsLiteral u l := by
  have hkind := kind_eq_of_folded hu
  have hpayload : t.kind ≠ .identifier → u.payload = t.payload := payload_eq_of_folded hu
  cases h with
  | string hk hp => exact .string (hkind.trans hk) ((hpayload (by rw [hk]; decide)).trans hp)
  | number hk hp => exact .number (hkind.trans hk) ((hpayload (by rw [hk]; decide)).trans hp)
  | bool hk hp => exact .bool (hkind.trans hk) ((hpayload (by rw [hk]; decide)).trans hp)
  | null hk => exact .null (hkind.trans hk)

theorem Literals.of_folded {ts us : List Token} {ls : List Literal} (h : Literals ts ls)
    (hus : us.map Token.folded = ts.map Token.folded) : Literals us ls := by
  induction h generalizing us with
  | one hl =>
    obtain ⟨u, rfl, hu⟩ := List.map_eq_singleton_iff.1 hus
    exact .one (hl.of_folded hu)
  | more hl hcomma _ ih =>
    obtain ⟨u, us, rfl, hu, hus⟩ := List.map_eq_cons_iff.1 hus
    obtain ⟨comma, us, rfl, hcomma', hus⟩ := List.map_eq_cons_iff.1 hus
    exact .more (hl.of_folded hu) ((kind_eq_of_folded hcomma').trans hcomma) (ih hus)

theorem Path.of_folded {ts us : List Token} {names : List String} (h : Path ts names)
    (hus : us.map Token.folded = ts.map Token.folded) :
    ∃ names', Path us names' ∧ names'.map Text.foldAscii = names.map Text.foldAscii := by
  induction h generalizing us with
  | one hk =>
    obtain ⟨u, rfl, hu⟩ := List.map_eq_singleton_iff.1 hus
    refine ⟨_, .one ((kind_eq_of_folded hu).trans hk), ?_⟩
    rw [List.map_singleton, List.map_singleton, fieldName_of_folded hu hk]
  | more hk hdot _ ih =>
    obtain ⟨u, us, rfl, hu, hus⟩ := List.map_eq_cons_iff.1 hus
    obtain ⟨dot, us, rfl, hdot', hus⟩ := List.map_eq_cons_iff.1 hus
    obtain ⟨names', hpath, hnames⟩ := ih hus
    refine ⟨_, .more ((kind_eq_of_folded hu).trans hk) ((kind_eq_of_folded hdot').trans hdot) hpath, ?_⟩
    rw [List.map_cons, List.map_cons, fieldName_of_folded hu hk, hnames]

theorem Operands.of_folded {op : Operator} {ts us : List Token} {o : Option Operand}
    (h : Operands op ts o) (hus : us.map Token.folded = ts.map Token.folded) : Operands op us o := by
  cases h with
  | isNull =>
    rw [List.map_eq_nil_iff.1 hus]
    exact .isNull
  | isNotNull =>
    rw [List.map_eq_nil_iff.1 hus]
    exact .isNotNull
  | list hleft hlist hright =>
    rw [List.map_append, List.map_cons] at hus
    obtain ⟨front, last, rfl, hfront, hlast⟩ := List.map_eq_append_iff.1 hus
    obtain ⟨left, vs, rfl, hleft', hvs⟩ := List.map_eq_cons_iff.1 hfront
    obtain ⟨right, rfl, hright'⟩ := List.map_eq_singleton_iff.1 hlast
    exact .list ((kind_eq_of_folded hleft').trans hleft) (hlist.of_folded hvs)
      ((kind_eq_of_folded hright').trans hright)
  | one hnull hnot hin hl =>
    obtain ⟨u, rfl, hu⟩ := List.map_eq_singleton_iff.1 hus
    exact .one hnull hnot hin (hl.of_folded hu)

theorem foldAscii_intercalate (names : List String) :
    Text.foldAscii (".".intercalate names) = ".".intercalate (names.map Text.foldAscii) := by
  induction names with
  | nil => rfl
  | cons n ns ih =>
    cases ns with
    | nil => rfl
    | cons m ms =>
      have happend (s t : String) : Text.foldAscii (s ++ t) = Text.foldAscii s ++ Text.foldAscii t := by
        rw [Text.foldAscii, String.toList_append, List.map_append, String.ofList_append]
        rfl
      rw [String.intercalate_cons_cons, happend, happend, ih]
      exact (String.intercalate_cons_cons ..).symm

theorem Compares.of_folded {ts us : List Token} {c : Comparison} (h : Compares ts c)
    (hus : us.map Token.folded = ts.map Token.folded) : ∃ c', Compares us c' ∧ c'.folded = c.folded := by
  cases h with
  | @mk first sign more operands names op o hpath hsign hoperands =>
    rw [List.map_append, List.map_cons (l := operands)] at hus
    obtain ⟨front, behind, rfl, hfront, hbehind⟩ := List.map_eq_append_iff.1 hus
    obtain ⟨sign', vs, rfl, hsign', hvs⟩ := List.map_eq_cons_iff.1 hbehind
    obtain ⟨names', hpath', hnames⟩ := hpath.of_folded hfront
    obtain ⟨first', more', rfl, -⟩ := hpath'.head
    refine ⟨_, .mk hpath' ((kind_eq_of_folded hsign').trans hsign) (hoperands.of_folded hvs), ?_⟩
    rw [Comparison.folded, Comparison.folded, foldAscii_intercalate, hnames, ← foldAscii_intercalate]

/-- Tokens of the same folded form have the same derivations, up to the folded form of the expression. -/
theorem Derives.of_folded {rule : Rule} {ts us : List Token} {e : Expr} {w : Nat}
    (h : Derives rule ts e w) (hus : us.map Token.folded = ts.map Token.folded) :
    ∃ e', Derives rule us e' w ∧ e'.folded = e.folded := by
  induction h generalizing us with
  | comparison hc =>
    obtain ⟨c', hc', hfold⟩ := hc.of_folded hus
    refine ⟨_, .comparison hc', ?_⟩
    rw [Expr.folded, Expr.folded, hfold]
  | parens hleft _ hright ih =>
    rw [List.map_append, List.map_cons] at hus
    obtain ⟨front, last, rfl, hfront, hlast⟩ := List.map_eq_append_iff.1 hus
    obtain ⟨left, vs, rfl, hleft', hvs⟩ := List.map_eq_cons_iff.1 hfront
    obtain ⟨right, rfl, hright'⟩ := List.map_eq_singleton_iff.1 hlast
    obtain ⟨e', he', hfold⟩ := ih hvs
    exact ⟨e', .parens ((kind_eq_of_folded hleft').trans hleft) he'
      ((kind_eq_of_folded hright').trans hright), hfold⟩
  | plain _ ih =>
    obtain ⟨e', he', hfold⟩ := ih hus
    exact ⟨e', .plain he', hfold⟩
  | not hk _ ih =>
    obtain ⟨u, vs, rfl, hu, hvs⟩ := List.map_eq_cons_iff.1 hus
    obtain ⟨e', he', hfold⟩ := ih hvs
    refine ⟨_, .not ((kind_eq_of_folded hu).trans hk) he', ?_⟩
    rw [Expr.folded, Expr.folded, hfold]
  | oneOperand _ ih =>
    obtain ⟨e', he', hfold⟩ := ih hus
    exact ⟨e', .oneOperand he', hfold⟩
  | and _ hk _ ihl ihr =>
    rw [List.map_append, List.map_cons] at hus
    obtain ⟨vs, behind, rfl, hvs, hbehind⟩ := List.map_eq_append_iff.1 hus
    obtain ⟨u, ws, rfl, hu, hws⟩ := List.map_eq_cons_iff.1 hbehind
    obtain ⟨l', hl', hfoldl⟩ := ihl hvs
    obtain ⟨r', hr', hfoldr⟩ := ihr hws
    refine ⟨_, .and hl' ((kind_eq_of_folded hu).trans hk) hr', ?_⟩
    rw [Expr.folded, Expr.folded, hfoldl, hfoldr]
  | oneConjunction _ ih =>
    obtain ⟨e', he', hfold⟩ := ih hus
    exact ⟨e', .oneConjunction he', hfold⟩
  | or _ hk _ ihl ihr =>
    rw [List.map_append, List.map_cons] at hus
    obtain ⟨vs, behind, rfl, hvs, hbehind⟩ := List.map_eq_append_iff.1 hus
    obtain ⟨u, ws, rfl, hu, hws⟩ := List.map_eq_cons_iff.1 hbehind
    obtain ⟨l', hl', hfoldl⟩ := ihl hvs
    obtain ⟨r', hr', hfoldr⟩ := ihr hws
    refine ⟨_, .or hl' ((kind_eq_of_folded hu).trans hk) hr', ?_⟩
    rw [Expr.folded, Expr.folded, hfoldl, hfoldr]

end Grammar

/-! ## Conditions of folded expressions -/

/-- What a comparison states depends on its operator and its operand only, once its path is resolved. -/
theorem states_congr {chain : Chain} {c c' : Comparison} {d : Condition} (hop : c'.operator = c.operator)
    (ho : c'.operand = c.operand) (h : Typing.States chain c d) : Typing.States chain c' d := by
  cases h with
  | isNull h => exact .isNull (hop.trans h)
  | isNotNull h => exact .isNotNull (hop.trans h)
  | null hc hord hnull hrec =>
    rw [← hop] at hc hord
    exact .null hc hord (ho.trans hnull) hrec
  | value hrec hc hord hl hv =>
    rw [← hop] at hc hord
    exact .value hrec hc hord (ho.trans hl) hv
  | text htype hc hl =>
    rw [← hop] at hc
    exact .text htype hc (ho.trans hl)
  | list hrec htype hc hls hvs => exact .list hrec htype (hop.trans hc) (ho.trans hls) hvs

/-- Expressions of the same folded form state the same condition. -/
theorem translates_of_folded {schema : Schema} {root : Shape} {aliases : Aliases} {e e' : Expr}
    {d : Condition} (h : Typing.Translates schema root aliases e d) (he : e'.folded = e.folded) :
    Typing.Translates schema root aliases e' d := by
  induction h generalizing e' with
  | and _ _ ihl ihr =>
    cases e' with
    | and l' r' =>
      obtain ⟨hl, hr⟩ := Expr.and.inj he
      exact .and (ihl hl) (ihr hr)
    | _ => cases he
  | or _ _ ihl ihr =>
    cases e' with
    | or l' r' =>
      obtain ⟨hl, hr⟩ := Expr.or.inj he
      exact .or (ihl hl) (ihr hr)
    | _ => cases he
  | not _ ih =>
    cases e' with
    | not e' => exact .not (ih (Expr.not.inj he))
    | _ => cases he
  | @comparison c chain d hchain hd =>
    cases e' with
    | comparison c' =>
      have hfold : c'.folded = c.folded := Expr.comparison.inj he
      have hpath : Text.foldAscii c.path = Text.foldAscii c'.path :=
        (congrArg Comparison.path hfold).symm
      have hsame : c'.operator = c.operator ∧ c'.operand = c.operand :=
        ⟨congrArg (·.operator) hfold, congrArg (·.operand) hfold⟩
      exact .comparison (resolve_congr hpath hchain) (states_congr hsame.1 hsame.2 hd)
    | _ => cases he

/-! ## Top theorem (proved from the lemmas above) -/

/-- A query that is written again from its tokens, with other white space between them and its words in
another ASCII case, states the same condition. -/
theorem ofQuery_restated {schema : Schema} {root : Shape} {aliases : Aliases} {query text : String}
    {c : Condition} {ts : List Token} (h : Condition.ofQuery schema root aliases query = .ok c)
    (hts : tokenize query = .ok ts) (htext : Restates ts text.toList) :
    Condition.ofQuery schema root aliases text = .ok c := by
  obtain ⟨_, hts', hread⟩ := bind_eq_ok_iff.1 h
  rw [hts] at hts'
  cases hts'
  obtain ⟨e, he, hc⟩ := bind_eq_ok_iff.1 hread
  obtain ⟨w, ⟨k, hderives⟩, hw⟩ := (ofTokens_eq_ok_iff ts e).1 he
  -- the tokens of the text have the folded forms of those of the query
  obtain ⟨body, rfl, hcut⟩ := tokensFrom_eq_ok_iff.1 hts
  have hspelled : ∀ t ∈ body ++ [Token.endAt (0 + query.toList.length)], t.kind ≠ .eof →
      Denotes t.lexeme.toList t.kind t.payload := by
    intro t ht hkind
    rcases List.mem_append.1 ht with ht | ht
    · exact (hcut.placed [] rfl t ht).spelled
    · rw [List.mem_singleton.1 ht] at hkind
      exact absurd rfl hkind
  obtain ⟨body', hcut', hfold⟩ := exists_cut_of_restates htext hspelled 0
  have htokens : tokenize text = .ok (body' ++ [Token.endAt (0 + text.toList.length)]) :=
    tokensFrom_eq_ok_iff.2 ⟨body', rfl, hcut'⟩
  have hbefore : (body' ++ [Token.endAt (0 + text.toList.length)]).takeWhile (·.kind ≠ .eof) = body' := by
    have hne : ∀ t ∈ body', t.kind ≠ .eof := fun t ht =>
      (hcut'.placed [] rfl t ht).spelled.ne_eof
    exact takeWhile_append_eof hne rfl
  -- so they derive the expression, up to its folded form
  obtain ⟨e', hderives', hefold⟩ := hderives.of_folded hfold
  have he' : Expr.ofTokens (body' ++ [Token.endAt (0 + text.toList.length)]) = .ok e' := by
    refine (ofTokens_eq_ok_iff _ _).2 ⟨w, ?_, hw⟩
    rw [hbefore]
    exact ⟨k, hderives'⟩
  have hc' := Typing.ofExpr_eq_ok_iff.2 (translates_of_folded (Typing.ofExpr_eq_ok_iff.1 hc) hefold)
  exact bind_eq_ok_iff.2 ⟨_, htokens, bind_eq_ok_iff.2 ⟨e', he', hc'⟩⟩

/-- A path behind an alias, to the first of two properties whose names have the same letters. -/
theorem ofQuery_restated_alias :
    let person : Shape :=
      ⟨"Person", [⟨"AGE", .int32, true⟩, ⟨"Age", .string, false⟩, ⟨"Boss", .record "Person", true⟩], []⟩
    let ofQuery := Condition.ofQuery ⟨[person], none⟩ person (.ofList [("Chief", "Boss")])
    let c : Condition := .test ⟨[⟨"Boss", .record "Person", true⟩], ⟨"AGE", .int32, true⟩⟩ .isNotNull
    ofQuery "Chief.Age is not Null" = .ok c ∧ ofQuery " cHIEF .\n AGE IS not null" = .ok c := by
  intro person ofQuery c
  have hquery : ofQuery "Chief.Age is not Null" = .ok c := by
    apply toOption_eq_some_iff.1
    decide +kernel
  have hts : tokenize "Chief.Age is not Null" =
      .ok [⟨.identifier, "Chief", some (.text "Chief"), 0⟩, ⟨.dot, ".", none, 5⟩,
        ⟨.identifier, "Age", some (.text "Age"), 6⟩, ⟨.isNotNull, "is not Null", none, 10⟩,
        Token.endAt 21] := by
    apply toOption_eq_some_iff.1
    decide +kernel
  refine ⟨hquery, ofQuery_restated hquery hts ?_⟩
  have hnull : Restates [⟨.isNotNull, "is not Null", none, 10⟩, Token.endAt 21]
      ("IS not null".toList ++ []) := .token (by decide) (by decide) nofun (.finish rfl)
  have hage : Restates (⟨.identifier, "Age", some (.text "Age"), 6⟩ :: _)
      ("AGE".toList ++ (' ' :: ("IS not null".toList ++ []))) :=
    .token (by decide) (by decide) (fun c hc => by cases hc; decide) (.blank (by decide) hnull)
  have hdot : Restates (⟨.dot, ".", none, 5⟩ :: _) (".".toList ++ ('\n' :: (' ' :: _))) :=
    .token (by decide) (by decide) (fun c hc => by cases hc; decide)
      (.blank (by decide) (.blank (by decide) hage))
  have hchief : Restates (⟨.identifier, "Chief", some (.text "Chief"), 0⟩ :: _)
      (' ' :: ("cHIEF".toList ++ (' ' :: _))) :=
    .blank (by decide) (.token (by decide) (by decide) (fun c hc => by cases hc; decide)
      (.blank (by decide) hdot))
  exact hchief

end RecordQuery
