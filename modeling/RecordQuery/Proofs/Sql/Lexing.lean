import RecordQuery.Proofs.Sql.Reader

/-!
# The lexemes of a clause

`Condition.lexemes` lists the lexemes that the clause of a condition is written in. The clause is cut into
these and no others, whatever characters its names are made of:

    lexemes c.clause.toList = some (c.lexemes fun _ => .mark)    (lexemes_clause)
-/

namespace RecordQuery

open Sql

/-! ## The lexemes of tests and conditions -/

/-- Quoted names with points between them. -/
def Sql.columnLexemes : List String → List Lexeme
  | [] => []
  | [s] => [.name s]
  | s :: t :: names => .name s :: .dot :: columnLexemes (t :: names)

/-- Values with commas between them, as `write` writes them. -/
def Sql.listLexemes (write : Scalar → Lexeme) : List Scalar → List Lexeme
  | [] => []
  | [v] => [write v]
  | v :: w :: values => write v :: .comma :: listLexemes write (w :: values)

/-- The lexemes of a guarded condition. -/
def Test.guardedLexemes (column condition : List Lexeme) (mayBeNull : Bool) : List Lexeme :=
  if mayBeNull then
    .left :: condition ++ .word "AND" :: column ++ [.word "IS", .word "NOT", .word "NULL", .right]
  else condition

/-- The lexemes of a test of a column, with values as `write` writes them. -/
def Test.lexemes (write : Scalar → Lexeme) (column : List Lexeme) (mayBeNull : Bool) :
    Test → List Lexeme
  | isNull => column ++ [.word "IS", .word "NULL"]
  | isNotNull => column ++ [.word "IS", .word "NOT", .word "NULL"]
  | compare .ne v =>
    if mayBeNull then
      .left :: column ++ .sign .ne :: write v :: .word "OR" :: column ++
        [.word "IS", .word "NULL", .right]
    else column ++ [.sign .ne, write v]
  | compare op v => guardedLexemes column (column ++ [.sign op, write v]) mayBeNull
  | text op needle =>
    guardedLexemes column (column ++ [.word "LIKE", write (.text (op.pattern needle)), .word "ESCAPE",
      .text "\\"]) mayBeNull
  | isIn values =>
    guardedLexemes column (column ++ .word "IN" :: .left :: listLexemes write values ++ [.right]) mayBeNull

/-- The lexemes of a condition. -/
def Condition.lexemes (write : Scalar → Lexeme) : Condition → List Lexeme
  | const b => [.number 1, .sign .eq, .number (if b then 1 else 0)]
  | and l r => .left :: l.lexemes write ++ .word "AND" :: r.lexemes write ++ [.right]
  | or l r => .left :: l.lexemes write ++ .word "OR" :: r.lexemes write ++ [.right]
  | not c => .word "NOT" :: .left :: c.lexemes write ++ [.right]
  | test chain t => t.lexemes write (columnLexemes chain.names) chain.mayBeNull

namespace Sql

/-! ## Texts that are cut into known lexemes -/

/-- A lexeme may end in front of the text. -/
def Stops (rest : List Char) : Prop := ∀ c, rest.head? = some c → c ∈ [' ', ')', ',', '.']

/-- The text may stand behind a lexeme. -/
def Detached (a : List Char) : Prop := ∀ rest, Stops rest → Stops (a ++ rest)

/-- The text is cut into the lexemes, in front of every text at which a lexeme may end. -/
def Reads (a : List Char) (ls : List Lexeme) : Prop :=
  ∀ rest, Stops rest → Sql.lexemes (a ++ rest) = (Sql.lexemes rest).map (ls ++ ·)

/-! ## Lemmas -/

theorem stops_cons {c : Char} {cs : List Char} (h : c ∈ [' ', ')', ',', '.']) : Stops (c :: cs) := by
  intro d hd
  cases hd
  exact h

theorem detached_nil : Detached [] := fun _ h => h

theorem detached_cons {c : Char} {cs : List Char} (h : c ∈ [' ', ')', ',', '.']) : Detached (c :: cs) :=
  fun _ _ => stops_cons h

/-- A class of characters without the stops ends at a stop. -/
theorem takeWhile_stops {p : Char → Bool} (hp : [' ', ')', ',', '.'].all (!p ·) = true)
    {cs rest : List Char} (hcs : cs.all p = true) (hrest : Stops rest) :
    (cs ++ rest).takeWhile p = cs ∧ (cs ++ rest).dropWhile p = rest := by
  induction cs with
  | nil =>
    cases rest with
    | nil => exact ⟨rfl, rfl⟩
    | cons c rest =>
      have hc : ¬ p c = true := by simpa using List.all_eq_true.1 hp c (hrest c rfl)
      exact ⟨List.takeWhile_cons_of_neg hc, List.dropWhile_cons_of_neg hc⟩
  | cons c cs ih =>
    rw [List.all_cons, Bool.and_eq_true] at hcs
    rw [List.cons_append, List.takeWhile_cons_of_pos hcs.1, List.dropWhile_cons_of_pos hcs.1]
    exact ⟨congrArg (c :: ·) (ih hcs.2).1, (ih hcs.2).2⟩

/-- A lexeme at the front of a text is cut off. -/
theorem lexemes_step {a rest : List Char} {l : Lexeme} (ha : a ≠ [])
    (h : lexeme? (a ++ rest) = some (some l, rest)) :
    Sql.lexemes (a ++ rest) = (Sql.lexemes rest).map (l :: ·) := by
  have hlt : rest.length < (a ++ rest).length := by
    have hpos : 0 < a.length := List.length_pos_iff.2 ha
    rw [List.length_append]
    omega
  exact cut_step h hlt

theorem lexemes_blank (cs : List Char) : Sql.lexemes (' ' :: cs) = Sql.lexemes cs := by
  have hblank : lexeme? (' ' :: cs) = some (none, cs) := rfl
  have hstep : Sql.lexemes (' ' :: cs) = (Sql.lexemes cs).map ([] ++ ·) :=
    cut_step hblank (Nat.lt_succ_self _)
  rw [hstep]
  cases Sql.lexemes cs <;> rfl

/-- Characters that start neither a word nor a number. -/
theorem lexeme?_of_notMem {c : Char}
    (h : c ∉ [' ', '"', '\'', '?', '(', ')', ',', '.', '=', '<', '>']) (cs : List Char) :
    lexeme? (c :: cs) =
      if c.isDigit then
        some (some (.number (Digit.number (c :: cs.takeWhile Char.isDigit))), cs.dropWhile Char.isDigit)
      else if c.isAlpha then
        some (some (.word (String.ofList ((c :: cs.takeWhile Char.isAlphanum).map Char.toUpper))),
          cs.dropWhile Char.isAlphanum)
      else none := by
  simp only [List.mem_cons, List.not_mem_nil, or_false, not_or] at h
  obtain ⟨hblank, hname, htext, hmark, hleft, hright, hcomma, hdot, heq, hless, hgreater⟩ := h
  exact lexeme?.eq_16 c cs hblank hname htext hmark hleft hright hcomma hdot heq (fun _ h _ => hless h)
    (fun _ h _ => hless h) hless (fun _ h _ => hgreater h) hgreater

theorem notMem_of_isAlphanum {c : Char} (h : c.isAlphanum = true) :
    c ∉ [' ', '"', '\'', '?', '(', ')', ',', '.', '=', '<', '>'] := by
  intro hc
  have hall : [' ', '"', '\'', '?', '(', ')', ',', '.', '=', '<', '>'].all (!·.isAlphanum) = true := by
    decide
  have hnot := List.all_eq_true.1 hall c hc
  rw [h] at hnot
  cases hnot

theorem isDigit_of_isAlpha {c : Char} (h : c.isAlpha = true) : c.isDigit = false := by
  have hcases : (decide (c.val ≥ 'A'.val ∧ c.val ≤ 'Z'.val) ||
      decide (c.val ≥ 'a'.val) && decide (c.val ≤ 'z'.val)) = true := h
  simp only [Bool.or_eq_true, Bool.and_eq_true, decide_eq_true_eq, UInt32.le_iff_toNat_le,
    ge_iff_le] at hcases
  rw [← Bool.not_eq_true]
  simp only [Char.isDigit, Bool.and_eq_true, decide_eq_true_eq, UInt32.le_iff_toNat_le, ge_iff_le]
  have hA : 'A'.val.toNat = 65 := rfl
  have ha : 'a'.val.toNat = 97 := rfl
  have h9 : '9'.val.toNat = 57 := rfl
  omega

namespace Reads

theorem nil : Reads [] [] := by
  intro rest _
  rw [List.nil_append]
  cases Sql.lexemes rest <;> rfl

theorem blank {a : List Char} {ls : List Lexeme} (ha : Reads a ls) : Reads (' ' :: a) ls := by
  intro rest hrest
  rw [List.cons_append, lexemes_blank, ha rest hrest]

/-- A lexeme in front, if it is read off what follows. -/
theorem cons {w a : List Char} {l : Lexeme} {ls : List Lexeme} (hw : w ≠ [])
    (h : ∀ rest, Stops rest → lexeme? (w ++ (a ++ rest)) = some (some l, a ++ rest)) (ha : Reads a ls) :
    Reads (w ++ a) (l :: ls) := by
  intro rest hrest
  rw [List.append_assoc, lexemes_step hw (h rest hrest), ha rest hrest, Option.map_map]
  rfl

/-- A lexeme of one character. -/
theorem symbol {c : Char} {a : List Char} {l : Lexeme} {ls : List Lexeme}
    (h : ∀ cs, lexeme? (c :: cs) = some (some l, cs)) (ha : Reads a ls) : Reads (c :: a) (l :: ls) :=
  cons (List.cons_ne_nil c []) (fun _ _ => h _) ha

/-- A word is all the letters and digits from a letter on. -/
theorem word {c : Char} {cs a : List Char} {w : String} {ls : List Lexeme} (hc : c.isAlpha = true)
    (hcs : cs.all Char.isAlphanum = true) (hw : String.ofList ((c :: cs).map Char.toUpper) = w)
    (hdetached : Detached a) (ha : Reads a ls) : Reads (c :: cs ++ a) (.word w :: ls) := by
  subst hw
  refine cons (List.cons_ne_nil c cs) ?_ ha
  intro rest hrest
  obtain ⟨htake, hdrop⟩ := takeWhile_stops (by decide) hcs (hdetached rest hrest)
  have halnum : c.isAlphanum = true := by simp [Char.isAlphanum, hc]
  have hlex := lexeme?_of_notMem (notMem_of_isAlphanum halnum) (cs ++ (a ++ rest))
  rw [if_neg (by rw [isDigit_of_isAlpha hc]; decide), if_pos hc, htake, hdrop] at hlex
  exact hlex

/-- A number is all the digits from a digit on. -/
theorem number {c : Char} {cs a : List Char} {ls : List Lexeme} (hc : c.isDigit = true)
    (hcs : cs.all Char.isDigit = true) (hdetached : Detached a) (ha : Reads a ls) :
    Reads (c :: cs ++ a) (.number (Digit.number (c :: cs)) :: ls) := by
  refine cons (List.cons_ne_nil c cs) ?_ ha
  intro rest hrest
  obtain ⟨htake, hdrop⟩ := takeWhile_stops (by decide) hcs (hdetached rest hrest)
  have halnum : c.isAlphanum = true := by simp [Char.isAlphanum, hc]
  have hlex := lexeme?_of_notMem (notMem_of_isAlphanum halnum) (cs ++ (a ++ rest))
  rw [if_pos hc, htake, hdrop] at hlex
  exact hlex

/-- A comparison in front of a blank. -/
theorem sign (op : Comparator) {a : List Char} {ls : List Lexeme} (ha : Reads (' ' :: a) ls) :
    Reads (op.symbol.toList ++ ' ' :: a) (.sign op :: ls) := by
  cases op with
  | eq => exact symbol (fun _ => rfl) ha
  | ne => exact cons (List.cons_ne_nil '<' ['>']) (fun _ _ => rfl) ha
  | lt => exact cons (List.cons_ne_nil '<' []) (fun _ _ => rfl) ha
  | le => exact cons (List.cons_ne_nil '<' ['=']) (fun _ _ => rfl) ha
  | gt => exact cons (List.cons_ne_nil '>' []) (fun _ _ => rfl) ha
  | ge => exact cons (List.cons_ne_nil '>' ['=']) (fun _ _ => rfl) ha

end Reads

/-! ## Quoted names and columns -/

theorem quoted?_of_ne {mark c : Char} (h : c ≠ mark) (cs : List Char) :
    quoted? mark (c :: cs) = (quoted? mark cs).map fun p => (c :: p.1, p.2) := by
  cases cs with
  | nil => exact if_neg h
  | cons d cs => rw [quoted?, if_neg h]

theorem quoted?_mark {mark : Char} {rest : List Char} (h : rest.head? ≠ some mark) :
    quoted? mark (mark :: rest) = some ([], rest) := by
  cases rest with
  | nil => rw [quoted?, if_pos rfl]
  | cons d rest =>
    have hd : d ≠ mark := by
      rintro rfl
      exact h rfl
    rw [quoted?, if_pos rfl, if_neg hd]

/-- A text whose marks are doubled is read back. -/
theorem quoted?_doubled {mark : Char} (s : List Char) {rest : List Char} (h : rest.head? ≠ some mark) :
    quoted? mark ((s.flatMap fun c => if c = mark then [mark, mark] else [c]) ++ mark :: rest) =
      some (s, rest) := by
  induction s with
  | nil => exact quoted?_mark h
  | cons c s ih =>
    rw [List.flatMap_cons, List.append_assoc]
    by_cases hc : c = mark
    · rw [if_pos hc]
      rw [List.cons_append, List.cons_append, List.nil_append, quoted?, if_pos rfl, if_pos rfl, ih, hc]
      rfl
    · rw [if_neg hc]
      rw [List.cons_append, List.nil_append, quoted?_of_ne hc, ih]
      rfl

theorem Reads.name (s : String) {a : List Char} {ls : List Lexeme} (hdetached : Detached a)
    (ha : Reads a ls) : Reads ((Sql.quote s).toList ++ a) (.name s :: ls) := by
  have hquote : (Sql.quote s).toList =
      '"' :: ((s.toList.flatMap fun c => if c = '"' then ['"', '"'] else [c]) ++ ['"']) := by
    rw [Sql.quote, String.toList_ofList]
    rfl
  rw [hquote]
  refine cons (List.cons_ne_nil _ _) ?_ ha
  intro rest hrest
  have hhead : (a ++ rest).head? ≠ some '"' := by
    intro h
    exact absurd (hdetached rest hrest _ h) (by decide)
  have hbody := quoted?_doubled s.toList hhead
  show (quoted? '"' (_ ++ ['"'] ++ (a ++ rest))).map _ = _
  rw [List.append_assoc, List.singleton_append, hbody]
  show some (some (Lexeme.name (String.ofList s.toList)), a ++ rest) = _
  rw [String.ofList_toList]

/-- A column is read as its names. -/
theorem Reads.column (names : List String) {a : List Char} {ls : List Lexeme} (hdetached : Detached a)
    (ha : Reads a ls) :
    Reads ((".".intercalate (names.map Sql.quote)).toList ++ a) (columnLexemes names ++ ls) := by
  induction names with
  | nil => exact ha
  | cons s names ih =>
    cases names with
    | nil =>
      rw [List.map_cons, List.map_nil, String.intercalate_singleton]
      exact Reads.name s hdetached ha
    | cons t names =>
      rw [List.map_cons, List.map_cons, String.intercalate_cons_cons, String.toList_append,
        String.toList_append, List.append_assoc, List.append_assoc, ← List.map_cons]
      exact Reads.name s (detached_cons (by decide)) (symbol (fun _ => rfl) ih)

/-! ## Keywords and marks -/

namespace Reads

variable {a : List Char} {ls : List Lexeme}

/-- A word in front of a blank. -/
theorem keyword {c : Char} {cs : List Char} {w : String} (hc : c.isAlpha = true)
    (hcs : cs.all Char.isAlphanum = true) (hw : String.ofList ((c :: cs).map Char.toUpper) = w)
    (ha : Reads a ls) : Reads (c :: cs ++ ' ' :: a) (.word w :: ls) :=
  word hc hcs hw (detached_cons (by decide)) (blank ha)

theorem null (hdetached : Detached a) (ha : Reads a ls) :
    Reads (['N', 'U', 'L', 'L'] ++ a) (.word "NULL" :: ls) :=
  word (by decide) (by decide) (by decide) hdetached ha

theorem isNull (hdetached : Detached a) (ha : Reads a ls) :
    Reads (" IS NULL".toList ++ a) (.word "IS" :: .word "NULL" :: ls) := by
  have his : Reads (['I', 'S'] ++ ' ' :: (['N', 'U', 'L', 'L'] ++ a)) (.word "IS" :: .word "NULL" :: ls) :=
    keyword (by decide) (by decide) (by decide) (null hdetached ha)
  exact blank his

theorem isNotNull (hdetached : Detached a) (ha : Reads a ls) :
    Reads (" IS NOT NULL".toList ++ a) (.word "IS" :: .word "NOT" :: .word "NULL" :: ls) := by
  have hnot : Reads (['N', 'O', 'T'] ++ ' ' :: (['N', 'U', 'L', 'L'] ++ a))
      (.word "NOT" :: .word "NULL" :: ls) :=
    keyword (by decide) (by decide) (by decide) (null hdetached ha)
  have his : Reads (['I', 'S'] ++ ' ' :: (['N', 'O', 'T'] ++ ' ' :: (['N', 'U', 'L', 'L'] ++ a)))
      (.word "IS" :: .word "NOT" :: .word "NULL" :: ls) :=
    keyword (by decide) (by decide) (by decide) hnot
  exact blank his

theorem and (ha : Reads a ls) : Reads (" AND ".toList ++ a) (.word "AND" :: ls) := by
  have hand : Reads (['A', 'N', 'D'] ++ ' ' :: a) (.word "AND" :: ls) :=
    keyword (by decide) (by decide) (by decide) ha
  exact blank hand

theorem or (ha : Reads a ls) : Reads (" OR ".toList ++ a) (.word "OR" :: ls) := by
  have hor : Reads (['O', 'R'] ++ ' ' :: a) (.word "OR" :: ls) :=
    keyword (by decide) (by decide) (by decide) ha
  exact blank hor

theorem left (ha : Reads a ls) : Reads ("(".toList ++ a) (.left :: ls) :=
  symbol (c := '(') (fun _ => rfl) ha

theorem right (ha : Reads a ls) : Reads (")".toList ++ a) (.right :: ls) :=
  symbol (c := ')') (fun _ => rfl) ha

theorem mark (ha : Reads a ls) : Reads ("?".toList ++ a) (.mark :: ls) :=
  symbol (c := '?') (fun _ => rfl) ha

theorem values (values : List Scalar) (ha : Reads a ls) :
    Reads ((", ".intercalate (values.map fun _ => "?")).toList ++ a)
      (listLexemes (fun _ => .mark) values ++ ls) := by
  induction values with
  | nil => exact ha
  | cons v values ih =>
    cases values with
    | nil => exact mark ha
    | cons w values =>
      have hcomma : Reads (", ".toList ++ ((", ".intercalate ((w :: values).map fun _ => "?")).toList ++ a))
          (.comma :: (listLexemes (fun _ => .mark) (w :: values) ++ ls)) :=
        symbol (c := ',') (fun _ => rfl) (blank ih)
      rw [List.map_cons, List.map_cons, String.intercalate_cons_cons, String.toList_append,
        String.toList_append, List.append_assoc, List.append_assoc]
      exact mark hcomma

/-- The text of a test of a column, up to its guard. -/
theorem compare (op : Comparator) (ha : Reads a ls) :
    Reads (" ".toList ++ (op.symbol.toList ++ (" ?".toList ++ a))) (.sign op :: .mark :: ls) :=
  blank (sign op (blank (mark ha)))

theorem like (ha : Reads a ls) (hdetached : Detached a) :
    Reads (" LIKE ? ESCAPE '\\'".toList ++ a)
      (.word "LIKE" :: .mark :: .word "ESCAPE" :: .text "\\" :: ls) := by
  have htext : Reads (['\'', '\\', '\''] ++ a) (.text "\\" :: ls) := by
    refine cons (List.cons_ne_nil _ _) ?_ ha
    intro rest hrest
    have hhead : (a ++ rest).head? ≠ some '\'' := by
      intro h
      exact absurd (hdetached rest hrest _ h) (by decide)
    show (quoted? '\'' ('\\' :: '\'' :: (a ++ rest))).map _ = _
    rw [quoted?_of_ne (by decide), quoted?_mark hhead]
    rfl
  have hescape : Reads (['E', 'S', 'C', 'A', 'P', 'E'] ++ ' ' :: (['\'', '\\', '\''] ++ a))
      (.word "ESCAPE" :: .text "\\" :: ls) :=
    keyword (by decide) (by decide) (by decide) htext
  have hlike : Reads (['L', 'I', 'K', 'E'] ++ ' ' :: ("?".toList ++ ' ' ::
      (['E', 'S', 'C', 'A', 'P', 'E'] ++ ' ' :: (['\'', '\\', '\''] ++ a))))
      (.word "LIKE" :: .mark :: .word "ESCAPE" :: .text "\\" :: ls) :=
    keyword (by decide) (by decide) (by decide) (mark (blank hescape))
  exact blank hlike

theorem isIn (ha : Reads a ls) : Reads (" IN (".toList ++ a) (.word "IN" :: .left :: ls) := by
  have hin : Reads (['I', 'N'] ++ ' ' :: ("(".toList ++ a)) (.word "IN" :: .left :: ls) :=
    keyword (by decide) (by decide) (by decide) (left ha)
  exact blank hin

theorem not (ha : Reads a ls) : Reads ("NOT (".toList ++ a) (.word "NOT" :: .left :: ls) := by
  have hnot : Reads (['N', 'O', 'T'] ++ ' ' :: ("(".toList ++ a)) (.word "NOT" :: .left :: ls) :=
    keyword (by decide) (by decide) (by decide) (left ha)
  exact hnot

end Reads

/-! ## Tests and conditions -/

/-- The text is cut into the lexemes, in front of every text that may stand behind a lexeme. -/
def Writes (s : String) (ms : List Lexeme) : Prop :=
  ∀ a ls, Detached a → Reads a ls → Reads (s.toList ++ a) (ms ++ ls)

theorem writes_column (chain : Chain) : Writes chain.column (columnLexemes chain.names) :=
  fun _ _ hdetached ha => Reads.column chain.names hdetached ha

theorem writes_guarded {column condition : String} {ms ns : List Lexeme} (hcolumn : Writes column ms)
    (hcondition : Writes condition ns) (mayBeNull : Bool) :
    Writes (Test.guarded column condition mayBeNull) (Test.guardedLexemes ms ns mayBeNull) := by
  unfold Test.guarded Test.guardedLexemes
  cases mayBeNull with
  | false => exact hcondition
  | true =>
    intro a ls hdetached ha
    have hnotNull : Reads (" IS NOT NULL)".toList ++ a)
        (.word "IS" :: .word "NOT" :: .word "NULL" :: .right :: ls) :=
      Reads.isNotNull (detached_cons (by decide)) (Reads.right ha)
    have hguard := Reads.and (hcolumn _ _ (detached_cons (by decide)) hnotNull)
    have hall := Reads.left (hcondition _ _ (detached_cons (by decide)) hguard)
    simp only [-String.reduceToList, if_true, String.toList_append, List.append_assoc, List.cons_append,
      List.nil_append]
    exact hall

theorem writes_compare {column : String} {ms : List Lexeme} (hcolumn : Writes column ms)
    (op : Comparator) : Writes (column ++ " " ++ op.symbol ++ " ?") (ms ++ [.sign op, .mark]) := by
  intro a ls _ ha
  have hall := hcolumn _ _ (detached_cons (by decide)) (Reads.compare op ha)
  simp only [-String.reduceToList, String.toList_append, List.append_assoc, List.cons_append,
    List.nil_append]
  exact hall

/-- `<>` holds of NULL too. -/
theorem writes_different {column : String} {ms : List Lexeme} (hcolumn : Writes column ms) :
    Writes ("(" ++ column ++ " <> ? OR " ++ column ++ " IS NULL)")
      (.left :: ms ++ .sign .ne :: .mark :: .word "OR" :: ms ++ [.word "IS", .word "NULL", .right]) := by
  intro a ls _ ha
  have hnull : Reads (" IS NULL)".toList ++ a) (.word "IS" :: .word "NULL" :: .right :: ls) :=
    Reads.isNull (detached_cons (by decide)) (Reads.right ha)
  have hor := Reads.or (hcolumn _ _ (detached_cons (by decide)) hnull)
  have hall := Reads.left (hcolumn _ _ (detached_cons (by decide)) (Reads.compare .ne hor))
  simp only [-String.reduceToList, String.toList_append, List.append_assoc, List.cons_append,
    List.nil_append]
  exact hall

theorem clause_compare {op : Comparator} (hop : op ≠ .ne) (column : String) (mayBeNull : Bool)
    (v : Scalar) : (Test.compare op v).clause column mayBeNull =
      Test.guarded column (column ++ " " ++ op.symbol ++ " ?") mayBeNull := by
  cases op <;> first | rfl | contradiction

theorem lexemes_compare {op : Comparator} (hop : op ≠ .ne) (write : Scalar → Lexeme)
    (column : List Lexeme) (mayBeNull : Bool) (v : Scalar) :
    (Test.compare op v).lexemes write column mayBeNull =
      Test.guardedLexemes column (column ++ [.sign op, write v]) mayBeNull := by
  cases op <;> first | rfl | contradiction

theorem writes_test {column : String} {ms : List Lexeme} (hcolumn : Writes column ms) (mayBeNull : Bool)
    (t : Test) : Writes (t.clause column mayBeNull) (t.lexemes (fun _ => .mark) ms mayBeNull) := by
  cases t with
  | isNull =>
    intro a ls hdetached ha
    have hall := hcolumn _ _ (detached_cons (by decide)) (Reads.isNull hdetached ha)
    rw [Test.clause, Test.lexemes, String.toList_append, List.append_assoc, List.append_assoc]
    exact hall
  | isNotNull =>
    intro a ls hdetached ha
    have hall := hcolumn _ _ (detached_cons (by decide)) (Reads.isNotNull hdetached ha)
    rw [Test.clause, Test.lexemes, String.toList_append, List.append_assoc, List.append_assoc]
    exact hall
  | compare op v =>
    by_cases hop : op = .ne
    · subst hop
      cases mayBeNull with
      | true => exact writes_different hcolumn
      | false =>
        intro a ls _ ha
        have hall := hcolumn _ _ (detached_cons (by decide)) (Reads.compare .ne ha)
        show Reads ((column ++ " <> ?").toList ++ a) (ms ++ [.sign .ne, .mark] ++ ls)
        rw [String.toList_append, List.append_assoc, List.append_assoc]
        exact hall
    · rw [clause_compare hop, lexemes_compare hop]
      exact writes_guarded hcolumn (writes_compare hcolumn op) mayBeNull
  | text op needle =>
    refine writes_guarded hcolumn ?_ mayBeNull
    intro a ls hdetached ha
    have hall := hcolumn _ _ (detached_cons (by decide)) (Reads.like ha hdetached)
    rw [String.toList_append, List.append_assoc, List.append_assoc]
    exact hall
  | isIn values =>
    refine writes_guarded hcolumn ?_ mayBeNull
    intro a ls _ ha
    have hvalues := Reads.isIn (Reads.values values (Reads.right ha))
    have hall := hcolumn _ _ (detached_cons (by decide)) hvalues
    simp only [-String.reduceToList, String.toList_append, List.append_assoc, List.cons_append,
      List.nil_append]
    exact hall

/-- Two conditions in parentheses with a connective between them. -/
theorem writes_pair {l r connective : String} {ms ns : List Lexeme} {m : Lexeme} (hl : Writes l ms)
    (hr : Writes r ns)
    (hm : ∀ {a ls}, Reads a ls → Reads (connective.toList ++ a) (m :: ls))
    (hdetached : ∀ a, Detached (connective.toList ++ a)) :
    Writes ("(" ++ l ++ connective ++ r ++ ")") (.left :: ms ++ m :: ns ++ [.right]) := by
  intro a ls _ ha
  have hright := hm (hr _ _ (detached_cons (by decide)) (Reads.right ha))
  have hall := Reads.left (hl _ _ (hdetached _) hright)
  simp only [-String.reduceToList, String.toList_append, List.append_assoc, List.cons_append,
    List.nil_append]
  exact hall

theorem writes_condition (c : Condition) : Writes c.clause (c.lexemes fun _ => .mark) := by
  induction c with
  | const b =>
    intro a ls hdetached ha
    have hequation (c : Char) (hc : c.isDigit = true) : Reads ("1 = ".toList ++ c :: a)
        (.number 1 :: .sign .eq :: .number (Digit.number [c]) :: ls) := by
      have hright : Reads ([c] ++ a) (.number (Digit.number [c]) :: ls) :=
        Reads.number hc rfl hdetached ha
      have hsign := Reads.sign .eq (Reads.blank hright)
      have hall : Reads (['1'] ++ ' ' :: (Comparator.eq.symbol.toList ++ ' ' :: ([c] ++ a)))
          (.number (Digit.number ['1']) :: .sign .eq :: .number (Digit.number [c]) :: ls) :=
        Reads.number (by decide) rfl (detached_cons (by decide)) (Reads.blank hsign)
      exact hall
    cases b with
    | true => exact hequation '1' (by decide)
    | false => exact hequation '0' (by decide)
  | and l r ihl ihr => exact writes_pair ihl ihr Reads.and fun _ => detached_cons (by decide)
  | or l r ihl ihr => exact writes_pair ihl ihr Reads.or fun _ => detached_cons (by decide)
  | not c ih =>
    intro a ls _ ha
    have hall := Reads.not (ih _ _ (detached_cons (by decide)) (Reads.right ha))
    simp only [-String.reduceToList, Condition.clause, Condition.lexemes, String.toList_append,
      List.append_assoc, List.cons_append, List.nil_append]
    exact hall
  | test chain t => exact writes_test (writes_column chain) chain.mayBeNull t

/-! ## Top theorem (proved from the lemmas above) -/

theorem lexemes_clause (c : Condition) :
    Sql.lexemes c.clause.toList = some (c.lexemes fun _ => .mark) := by
  have h := writes_condition c [] [] detached_nil Reads.nil [] (fun _ h => nomatch h)
  rw [List.append_nil, List.append_nil, List.append_nil] at h
  rw [h, Sql.lexemes, cut]
  exact congrArg some (List.append_nil _)

end Sql

end RecordQuery
