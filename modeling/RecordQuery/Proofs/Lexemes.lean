import RecordQuery.Proofs.Grammar
import RecordQuery.Proofs.Spelling

/-!
# The tokens of written literals, operators and paths

Every piece of a written comparison is read as the tokens it stands for: a literal as one token that
carries it, an operator as the token of its kind, and a path as its names with points between them.
-/

namespace RecordQuery

/-- What the token of a literal holds. -/
def Literal.content : Literal → TokenKind × Option Payload
  | string s => (.string, some (.text s))
  | number d => (.number, some (.number d))
  | bool b => (.boolean, some (.bool b))
  | null => (.null, none)

/-- What the tokens of a path hold. -/
def pathContents : List String → List (TokenKind × Option Payload)
  | [] => []
  | [n] => [(.identifier, some (.text n))]
  | n :: ns => (.identifier, some (.text n)) :: (.dot, none) :: pathContents ns

namespace Lexer

/-- No matter what comes next. -/
def Anything (_ : List Char) : Prop := True

/-! ## Tokens -/

/-- A spelled token is read as itself where it stops. -/
theorem readAs_of_denotes {cs : List Char} {kind : TokenKind} {payload : Option Payload}
    (h : Denotes cs kind payload) : ReadAs (Stops kind cs) cs [(kind, payload)] := by
  obtain ⟨c, tail, rfl, hc⟩ := h.head
  exact .token hc fun p rest hrest => form_eq_ok_iff.2 ⟨tail, rest, rfl, rfl, h, hrest⟩

theorem readAs_ends {cs : List Char} {kind : TokenKind} {payload : Option Payload}
    (h : Denotes cs kind payload) : ReadAs Ends cs [(kind, payload)] :=
  (readAs_of_denotes h).weaken fun _ hrest => hrest.stops kind cs

theorem readAs_word {cs : List Char} {kind : TokenKind} {payload : Option Payload}
    (h : Denotes cs kind payload) (hk : kind.isWord = true) : ReadAs WordEnds cs [(kind, payload)] :=
  (readAs_of_denotes h).weaken fun _ hrest => stops_of_word hk hrest cs

/-- A sign that is a token whatever stands behind it. -/
theorem readAs_sign {cs : List Char} {kind : TokenKind} (h : (cs, kind) ∈ signs) (hless : kind ≠ .less)
    (hgreater : kind ≠ .greater) : ReadAs Anything cs [(kind, none)] := by
  have hall : ∀ s ∈ signs, s.2.isWord = false ∧ s.2 ≠ .number := by decide
  exact (readAs_of_denotes (.sign h)).weaken fun rest _ =>
    stops_of_closed (hall _ h).1 hless hgreater (hall _ h).2 cs rest

/-! ## Literals and operators -/

theorem quotes_escape (cs : List Char) : Quotes (Literal.escape cs) cs := by
  induction cs with
  | nil => exact .nil
  | cons c cs ih =>
    have hcons : Literal.escape (c :: cs) =
        (if Literal.isEscaped c then ['\\', c] else [c]) ++ Literal.escape cs := rfl
    rw [hcons]
    split
    · exact .escaped ih
    · next hc =>
      simp only [Literal.isEscaped, Bool.or_eq_true, decide_eq_true_eq, not_or] at hc
      exact .plain hc.1 hc.2 ih

/-- A number in plain notation has its coefficient and its scale. -/
theorem denotes_plainText {d : Decimal} (h : 0 ≤ d.scale) :
    Denotes d.plainText.toList .number (some (.number d)) := by
  obtain ⟨whole, fraction, hdigits, hne, hd, hscale, hnumber⟩ := Decimal.plainDigits_eq h
  have hsign : d.plainText.toList =
      minus (decide (d.coefficient < 0)) ++ (whole ++ Decimal.pointed fraction) := by
    rw [Decimal.plainText, String.toList_ofList, hdigits]
    unfold Decimal.withSign minus
    simp only [decide_eq_true_eq]
    split <;> rfl
  have hvalue : numberOf (decide (d.coefficient < 0)) whole fraction = d := by
    obtain ⟨coefficient, scale⟩ := d
    simp only [numberOf, hnumber, decide_eq_true_eq, Decimal.mk.injEq]
    refine ⟨?_, hscale⟩
    split <;> omega
  have hdenotes : Denotes _ .number
      (some (.number (numberOf (decide (d.coefficient < 0)) whole fraction))) := .number hne hd
  rwa [← hsign, hvalue] at hdenotes

theorem readAs_literal {l : Literal} (h : l.Printable) : ReadAs Ends l.chars [l.content] := by
  cases l with
  | string s =>
    have hdenotes := Denotes.string (quotes_escape s.toList)
    rw [String.ofList_toList] at hdenotes
    exact readAs_ends hdenotes
  | number d => exact readAs_ends (denotes_plainText h)
  | bool b =>
    cases b with
    | true => exact readAs_ends (.boolean (w := "true") (by decide) (by decide))
    | false => exact readAs_ends (.boolean (w := "false") (by decide) (by decide))
  | null => exact readAs_ends (.keyword (w := "null") (by decide) (by decide))

theorem blank_space : Blank [' '] := List.all_eq_true.1 (by decide)

theorem denotes_operator (op : Operator) : Denotes op.symbol.toList op.kind none := by
  cases op with
  | equal => exact .sign (by decide)
  | notEqual => exact .sign (by decide)
  | less => exact .sign (by decide)
  | lessEqual => exact .sign (by decide)
  | greater => exact .sign (by decide)
  | greaterEqual => exact .sign (by decide)
  | contains => exact .keyword (w := "contains") (by decide) (by decide)
  | startsWith => exact .keyword (w := "startswith") (by decide) (by decide)
  | endsWith => exact .keyword (w := "endswith") (by decide) (by decide)
  | isIn => exact .keyword (w := "in") (by decide) (by decide)
  | isNull =>
    have h : Denotes (['i', 's'] ++ ([' '] ++ ['n', 'u', 'l', 'l'])) .isNull none :=
      .isNull (by decide) blank_space (by decide) (by decide)
    exact h
  | isNotNull =>
    have h : Denotes (['i', 's'] ++ ([' '] ++ (['n', 'o', 't'] ++ ([' '] ++ ['n', 'u', 'l', 'l']))))
        .isNotNull none :=
      .isNotNull (by decide) blank_space (by decide) (by decide) blank_space (by decide) (by decide)
    exact h

/-! ## Paths -/

theorem readAs_path {names : List String} (hne : names ≠ []) (h : ∀ n ∈ names, IsName n) :
    ReadAs WordEnds (".".intercalate names).toList (pathContents names) := by
  induction names with
  | nil => exact absurd rfl hne
  | cons n ns ih =>
    have hn : ReadAs WordEnds n.toList [(.identifier, some (.text n))] :=
      readAs_word (.identifier (h n (by simp))) rfl
    cases ns with
    | nil => rwa [String.intercalate_singleton]
    | cons m ms =>
      have hrest := ih (List.cons_ne_nil m ms) fun k hk => h k (List.mem_cons_of_mem n hk)
      have hdot : ReadAs Anything ['.'] [(.dot, none)] :=
        readAs_sign (by decide) (by decide) (by decide)
      rw [String.intercalate_cons_cons, String.toList_append, String.toList_append, List.append_assoc]
      exact hn.append (hdot.append hrest fun _ _ => trivial) fun _ _ => notNext_cons (by decide)

end Lexer

end RecordQuery
