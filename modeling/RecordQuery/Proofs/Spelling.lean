import RecordQuery.Proofs.Digits
import RecordQuery.Proofs.Words

/-!
# How tokens are spelled

`Denotes cs kind payload` says that the characters `cs` are those of a token of some kind, and which value
the token carries then. `Stops kind cs rest` says that such a token takes in nothing of the text behind it.
The token at the front of a text is the one that is spelled there and stops:

    form p c cs = .ok f  ↔  ∃ tail rest, cs = tail ++ rest ∧ f.tail = tail.length ∧
      Denotes (c :: tail) f.kind f.payload ∧ Stops f.kind (c :: tail) rest          (form_eq_ok_iff)
-/

namespace RecordQuery

/-- The kinds of tokens that are a word, or words with white space between them. -/
def TokenKind.isWord : TokenKind → Bool
  | identifier | boolean | null | contains | startsWith | endsWith | isIn | isNull | isNotNull | and | or
  | not => true
  | _ => false

namespace Lexer

/-! ## Spellings -/

/-- The signs that are tokens. -/
def signs : List (List Char × TokenKind) :=
  [(['('], .leftParen), ([')'], .rightParen), ([','], .comma), (['.'], .dot), (['='], .equal),
   (['!', '='], .notEqual), (['<'], .less), (['<', '='], .lessEqual), (['>'], .greater),
   (['>', '='], .greaterEqual)]

/-- The characters between two quotes, and the text that they write: backslashes are dropped and the
character behind each is kept. -/
inductive Quotes : List Char → List Char → Prop
  | nil : Quotes [] []
  | plain {c : Char} {cs ds : List Char} :
      c ≠ '"' → c ≠ '\\' → Quotes cs ds → Quotes (c :: cs) (c :: ds)
  | escaped {c : Char} {cs ds : List Char} : Quotes cs ds → Quotes ('\\' :: c :: cs) (c :: ds)

/-- The minus sign of a negative number. -/
def minus (negative : Bool) : List Char := if negative then ['-'] else []

/-- The number with a sign, the digits `whole` before the point and `fraction` behind it. -/
def numberOf (negative : Bool) (whole fraction : List Char) : Decimal :=
  ⟨if negative then -(Digit.number (whole ++ fraction) : Int) else Digit.number (whole ++ fraction),
    fraction.length⟩

/-- The characters spell a token of the kind, which carries the value. -/
inductive Denotes : List Char → TokenKind → Option Payload → Prop
  | sign {cs : List Char} {kind : TokenKind} : (cs, kind) ∈ signs → Denotes cs kind none
  | keyword {cs : List Char} {w : String} {kind : TokenKind} :
      (w, kind) ∈ keywordKinds → spells cs w = true → Denotes cs kind none
  | boolean {cs : List Char} {w : String} {b : Bool} :
      (w, b) ∈ booleanWords → spells cs w = true → Denotes cs .boolean (some (.bool b))
  | isNull {is gap null : List Char} :
      spells is "is" = true → Blank gap → gap ≠ [] → spells null "null" = true →
      Denotes (is ++ (gap ++ null)) .isNull none
  | isNotNull {is gap not gap' null : List Char} :
      spells is "is" = true → Blank gap → gap ≠ [] → spells not "not" = true →
      Blank gap' → gap' ≠ [] → spells null "null" = true →
      Denotes (is ++ (gap ++ (not ++ (gap' ++ null)))) .isNotNull none
  | identifier {s : String} : IsName s → Denotes s.toList .identifier (some (.text s))
  | string {cs ds : List Char} :
      Quotes cs ds → Denotes ('"' :: cs ++ ['"']) .string (some (.text (String.ofList ds)))
  | number {negative : Bool} {whole fraction : List Char} :
      whole ≠ [] → (∀ c ∈ whole ++ fraction, c.isDigit = true) →
      Denotes (minus negative ++ (whole ++ Decimal.pointed fraction)) .number
        (some (.number (numberOf negative whole fraction)))

/-- A token of the kind with the characters `cs` takes in nothing of the text `rest` behind it. -/
structure Stops (kind : TokenKind) (cs rest : List Char) : Prop where
  word : kind.isWord = true → NotNext isWordPart rest
  angle : kind = .less ∨ kind = .greater → rest.head? ≠ some '='
  digit : kind = .number → NotNext Char.isDigit rest
  point : kind = .number → '.' ∉ cs → ∀ d more, rest = '.' :: d :: more → d.isDigit = false

/-! ## Texts in quotes -/

theorem stringBody?_of_quotes {cs ds : List Char} (h : Quotes cs ds) (rest : List Char) :
    stringBody? (cs ++ '"' :: rest) = some (ds, cs.length + 1) := by
  induction h with
  | nil => rfl
  | @plain c cs ds hquote hslash _ ih =>
    rw [List.cons_append, stringBody?, ih]
    · rfl
    · exact hquote
    · exact fun h _ => hslash h
    · exact fun _ _ h _ => hslash h
  | @escaped c cs ds _ ih =>
    show stringBody? ('\\' :: c :: (cs ++ '"' :: rest)) = _
    rw [stringBody?, ih]
    rfl

theorem quotes_of_stringBody? {cs ds : List Char} {n : Nat} (h : stringBody? cs = some (ds, n)) :
    ∃ inner rest, cs = inner ++ '"' :: rest ∧ Quotes inner ds ∧ n = inner.length + 1 := by
  induction cs using stringBody?.induct generalizing ds n with
  | case1 => simp [stringBody?] at h
  | case2 rest =>
    simp only [stringBody?, Option.some.injEq, Prod.mk.injEq] at h
    obtain ⟨rfl, rfl⟩ := h
    exact ⟨[], rest, rfl, .nil, rfl⟩
  | case3 => simp [stringBody?] at h
  | case4 c cs ih =>
    rw [stringBody?] at h
    obtain ⟨⟨body, m⟩, hbody, heq⟩ := Option.map_eq_some_iff.1 h
    simp only [Prod.mk.injEq] at heq
    obtain ⟨rfl, rfl⟩ := heq
    obtain ⟨inner, rest, rfl, hquotes, rfl⟩ := ih hbody
    exact ⟨'\\' :: c :: inner, rest, rfl, .escaped hquotes, rfl⟩
  | case5 c cs hquote hslash hescape ih =>
    rw [stringBody?] at h
    · obtain ⟨⟨body, m⟩, hbody, heq⟩ := Option.map_eq_some_iff.1 h
      simp only [Prod.mk.injEq] at heq
      obtain ⟨rfl, rfl⟩ := heq
      obtain ⟨inner, rest, rfl, hquotes, rfl⟩ := ih hbody
      -- a backslash is followed by something, so the case of the escapes would have come first
      have hne : c ≠ '\\' := by
        intro hc
        cases inner with
        | nil => exact hescape '"' rest hc rfl
        | cons d inner => exact hescape d (inner ++ '"' :: rest) hc rfl
      exact ⟨c :: inner, rest, rfl, .plain hquote hne hquotes, rfl⟩
    · exact hquote
    · exact hslash
    · exact hescape

/-! ## Numbers -/

theorem fractionDigits_eq_nil_iff (cs : List Char) :
    fractionDigits cs = [] ↔ ∀ d more, cs = '.' :: d :: more → d.isDigit = false := by
  constructor
  · rintro h d more rfl
    cases hd : d.isDigit with
    | false => rfl
    | true =>
      rw [fractionDigits, List.takeWhile_cons_of_pos hd] at h
      cases h
  · intro h
    unfold fractionDigits
    split
    · next more =>
      cases more with
      | nil => rfl
      | cons d more => rw [List.takeWhile_cons_of_neg (by simp [h d more rfl])]
    · rfl

/-- The digits of a fraction and no more of what follows. -/
theorem fractionDigits_pointed {fraction rest : List Char} (hf : ∀ c ∈ fraction, c.isDigit = true)
    (hdigit : NotNext Char.isDigit rest) (hpoint : fraction = [] → fractionDigits rest = []) :
    fractionDigits (Decimal.pointed fraction ++ rest) = fraction := by
  unfold Decimal.pointed
  split
  · next h => rw [h, List.nil_append, hpoint h]
  · exact takeWhile_append_notNext hf hdigit

theorem notNext_pointed {fraction rest : List Char} (hdigit : NotNext Char.isDigit rest) :
    NotNext Char.isDigit (Decimal.pointed fraction ++ rest) := by
  unfold Decimal.pointed
  split
  · exact hdigit
  · exact notNext_cons (by decide)

/-- The digits of a number and its point are all taken, and nothing behind them. -/
theorem number_append {whole fraction rest : List Char}
    (hd : ∀ c ∈ whole ++ fraction, c.isDigit = true) (hdigit : NotNext Char.isDigit rest)
    (hpoint : fraction = [] → fractionDigits rest = []) (negative : Bool) :
    number negative (whole ++ Decimal.pointed fraction ++ rest) =
      (numberOf negative whole fraction, (whole ++ Decimal.pointed fraction).length) := by
  have hw : ∀ c ∈ whole, c.isDigit = true := fun c hc => hd c (List.mem_append_left _ hc)
  have hf : ∀ c ∈ fraction, c.isDigit = true := fun c hc => hd c (List.mem_append_right _ hc)
  unfold number numberOf
  rw [List.append_assoc, takeWhile_append_notNext hw (notNext_pointed hdigit),
    dropWhile_append_notNext hw (notNext_pointed hdigit)]
  simp only [fractionDigits_pointed hf hdigit hpoint, List.length_append]
  congr 2
  unfold Decimal.pointed
  split
  · rfl
  · rw [List.length_cons]

/-- A text splits into digits, perhaps a fraction, and what no number at its front takes in. -/
theorem exists_number (cs : List Char) : ∃ whole fraction rest,
    cs = whole ++ Decimal.pointed fraction ++ rest ∧ whole = cs.takeWhile Char.isDigit ∧
      (∀ c ∈ whole ++ fraction, c.isDigit = true) ∧ NotNext Char.isDigit rest ∧
      (fraction = [] → fractionDigits rest = []) := by
  have hsplit : cs = cs.takeWhile Char.isDigit ++ cs.dropWhile Char.isDigit :=
    List.takeWhile_append_dropWhile.symm
  have hwhole : ∀ c ∈ cs.takeWhile Char.isDigit, c.isDigit = true := 
    List.all_eq_true.1 List.all_takeWhile
  have hafter := notNext_dropWhile Char.isDigit cs
  generalize cs.dropWhile Char.isDigit = after at hsplit hafter
  by_cases hnil : fractionDigits after = []
  · refine ⟨cs.takeWhile Char.isDigit, [], after, ?_, rfl, ?_, hafter, fun _ => hnil⟩
    · simpa [Decimal.pointed] using hsplit
    · simpa using hwhole
  · unfold fractionDigits at hnil
    split at hnil
    · next more =>
      have hmore : more = more.takeWhile Char.isDigit ++ more.dropWhile Char.isDigit :=
        List.takeWhile_append_dropWhile.symm
      refine ⟨cs.takeWhile Char.isDigit, more.takeWhile Char.isDigit, more.dropWhile Char.isDigit,
        ?_, rfl, ?_, notNext_dropWhile _ _, fun h => absurd h hnil⟩
      · rw [Decimal.pointed, if_neg hnil, List.append_assoc, List.cons_append, ← hmore]
        exact hsplit
      · intro c hc
        rcases List.mem_append.1 hc with hc | hc
        · exact hwhole c hc
        · exact List.all_eq_true.1 List.all_takeWhile c hc
    · exact absurd rfl hnil

theorem point_mem_iff {negative : Bool} {whole fraction : List Char}
    (hw : ∀ c ∈ whole, c.isDigit = true) :
    '.' ∈ minus negative ++ (whole ++ Decimal.pointed fraction) ↔ fraction ≠ [] := by
  have hno : '.' ∉ whole := fun h => absurd (hw '.' h) (by decide)
  have hsign : '.' ∉ minus negative := by cases negative <;> decide
  unfold Decimal.pointed
  split
  · next h => simp [h, hno, hsign]
  · next h => simp [h]

/-! ## Tokens -/

/-- A token starts with a character that is not white space. -/
theorem Denotes.head {cs : List Char} {kind : TokenKind} {payload : Option Payload}
    (h : Denotes cs kind payload) : ∃ c tail, cs = c :: tail ∧ Text.isBlank c = false := by
  have word {w : List Char} (hw : isWordText w = true) (more : List Char) :
      ∃ c tail, w ++ more = c :: tail ∧ Text.isBlank c = false := by
    cases w with
    | nil => cases hw
    | cons c w => exact ⟨c, w ++ more, rfl, isBlank_of_isWordStart (isWordText_cons.1 hw).1⟩
  cases h with
  | sign h =>
    have hall : ∀ s ∈ signs, s.1.head?.any (!Text.isBlank ·) = true := by decide
    have hhead := hall _ h
    cases cs with
    | nil => cases hhead
    | cons c tail => exact ⟨c, tail, rfl, by simpa using hhead⟩
  | @keyword _ w _ hk hs =>
    have hall : ∀ k ∈ keywordKinds, isWordText k.1.toList = true := by decide
    simpa using word (isWordText_of_spells hs (hall _ hk)) []
  | @boolean _ w _ hb hs =>
    have hall : ∀ k ∈ booleanWords, isWordText k.1.toList = true := by decide
    simpa using word (isWordText_of_spells hs (hall _ hb)) []
  | isNull his => exact word (isWordText_of_spells his (by decide)) _
  | isNotNull his => exact word (isWordText_of_spells his (by decide)) _
  | identifier hname => simpa using word (isName_iff.1 hname).1 []
  | @string cs _ _ => exact ⟨'"', cs ++ ['"'], rfl, by decide⟩
  | @number negative whole fraction hne hd =>
    cases whole with
    | nil => exact absurd rfl hne
    | cons d whole =>
      cases negative with
      | true => exact ⟨'-', _, rfl, by decide⟩
      | false => exact ⟨d, _, rfl, isBlank_of_isDigit (hd d (by simp))⟩

theorem stops_of_word {kind : TokenKind} (hk : kind.isWord = true) {rest : List Char}
    (h : WordEnds rest) (cs : List Char) : Stops kind cs rest where
  word _ := h
  angle hangle := by rcases hangle with rfl | rfl <;> cases hk
  digit hnumber := by subst hnumber; cases hk
  point hnumber := by subst hnumber; cases hk

/-- A token that does not depend on what is behind it. -/
theorem stops_of_closed {kind : TokenKind} (hword : kind.isWord = false) (hless : kind ≠ .less)
    (hgreater : kind ≠ .greater) (hnumber : kind ≠ .number) (cs rest : List Char) :
    Stops kind cs rest where
  word h := by rw [hword] at h; cases h
  angle h := h.elim (absurd · hless) (absurd · hgreater)
  digit h := absurd h hnumber
  point h := absurd h hnumber

theorem Ends.stops {rest : List Char} (h : Ends rest) (kind : TokenKind) (cs : List Char) :
    Stops kind cs rest where
  word _ := h.wordEnds
  angle _ hhead := by
    obtain ⟨more, rfl⟩ := List.head?_eq_some_iff.1 hhead
    exact h.head_ne.2 rfl
  digit _ := h.notNext_isDigit
  point _ _ d more hrest := by
    subst hrest
    exact absurd rfl h.head_ne.1

/-- A character that starts a word starts no other token. -/
theorem form_of_isWordText {c : Char} {cs w rest : List Char} (hw : isWordText w = true)
    (hrest : WordEnds rest) (heq : c :: cs = w ++ rest) (p : Nat) : form p c cs = wordForm p w rest := by
  cases w with
  | nil => cases hw
  | cons d w =>
    rw [List.cons_append] at heq
    obtain ⟨rfl, rfl⟩ := List.cons.inj heq
    have hc := (isWordText_cons.1 hw).1
    have hne (d : Char) (hd : isWordStart d = false) : c ≠ d := ne_of_class hc hd
    unfold form
    rw [if_neg (hne _ (by decide)), if_neg (hne _ (by decide)), if_neg (hne _ (by decide)),
      if_neg (hne _ (by decide)), if_neg (hne _ (by decide)), if_neg (hne _ (by decide)),
      if_neg (hne _ (by decide)), if_neg (hne _ (by decide)), if_neg (hne _ (by decide)),
      if_neg (by simp [hne '-' (by decide)]), if_neg (by simp [isDigit_of_isWordStart hc]), if_pos hc,
      ← List.cons_append, word_append hw hrest]
    simp

theorem form_of_isDigit {c : Char} (hc : c.isDigit = true) (p : Nat) (cs : List Char) :
    form p c cs =
      .ok ⟨.number, some (.number (number false (c :: cs)).1), (number false (c :: cs)).2 - 1⟩ := by
  have hne (d : Char) (hd : d.isDigit = false) : c ≠ d := ne_of_class hc hd
  unfold form
  rw [if_neg (hne _ (by decide)), if_neg (hne _ (by decide)), if_neg (hne _ (by decide)),
    if_neg (hne _ (by decide)), if_neg (hne _ (by decide)), if_neg (hne _ (by decide)),
    if_neg (hne _ (by decide)), if_neg (hne _ (by decide)), if_neg (hne _ (by decide)),
    if_neg (by simp [hne '-' (by decide)]), if_pos hc]

theorem form_minus {c : Char} (hc : c.isDigit = true) (p : Nat) (cs : List Char) :
    form p '-' (c :: cs) =
      .ok ⟨.number, some (.number (number true (c :: cs)).1), (number true (c :: cs)).2⟩ := by
  simp [form, startsWithDigit, hc]

/-- A comparison sign without `=` behind it stays alone. -/
theorem sign_alone {rest : List Char} (h : rest.head? ≠ some '=') (alone withEqual : TokenKind) :
    sign alone withEqual rest = ⟨alone, none, 0⟩ := by
  cases rest with
  | nil => rfl
  | cons c rest =>
    rw [sign]
    rintro cs ⟨⟩
    exact h rfl

theorem form_of_number {c : Char} {more rest : List Char} {negative : Bool} {whole fraction : List Char}
    (hne : whole ≠ []) (hd : ∀ c ∈ whole ++ fraction, c.isDigit = true)
    (hstops : Stops .number (minus negative ++ (whole ++ Decimal.pointed fraction)) rest)
    (heq : c :: more = minus negative ++ (whole ++ Decimal.pointed fraction) ++ rest) (p : Nat) :
    form p c more = .ok ⟨.number, some (.number (numberOf negative whole fraction)),
      (minus negative ++ (whole ++ Decimal.pointed fraction)).length - 1⟩ := by
  have hpoint : fraction = [] → fractionDigits rest = [] := by
    intro hnil
    refine (fractionDigits_eq_nil_iff rest).2 (hstops.point rfl ?_)
    rw [point_mem_iff fun d hdw => hd d (List.mem_append_left _ hdw)]
    exact fun h => h hnil
  have hvalue := number_append hd (hstops.digit rfl) hpoint negative
  cases whole with
  | nil => exact absurd rfl hne
  | cons d whole =>
    have hdigit : d.isDigit = true := hd d (by simp)
    cases negative with
    | true =>
      cases heq
      show form p '-' (d :: (whole ++ Decimal.pointed fraction ++ rest)) = _
      rw [form_minus hdigit, ← List.cons_append, ← List.cons_append, hvalue]
      rfl
    | false =>
      cases heq
      show form p c (whole ++ Decimal.pointed fraction ++ rest) = _
      rw [form_of_isDigit hdigit, ← List.cons_append, ← List.cons_append, hvalue]
      rfl

/-- A spelled token is read, where it stops. -/
theorem form_of_denotes {c : Char} {more cs rest : List Char} {kind : TokenKind}
    {payload : Option Payload} (h : Denotes cs kind payload) (hstops : Stops kind cs rest)
    (heq : c :: more = cs ++ rest) (p : Nat) :
    form p c more = .ok ⟨kind, payload, cs.length - 1⟩ := by
  cases h with
  | sign h =>
    simp only [signs, List.mem_cons, Prod.mk.injEq, List.not_mem_nil, or_false] at h
    rcases h with h | h | h | h | h | h | h | h | h | h <;> obtain ⟨rfl, rfl⟩ := h <;> cases heq
    -- only `<` and `>` look at what is behind them
    all_goals try rfl
    · show Except.ok (sign .less .lessEqual rest) = _
      rw [sign_alone (hstops.angle (.inl rfl))]
      rfl
    · show Except.ok (sign .greater .greaterEqual rest) = _
      rw [sign_alone (hstops.angle (.inr rfl))]
      rfl
  | @keyword _ w _ hk hs =>
    have hword : isWordText w.toList = true ∧ kind.isWord = true := by
      have hall : ∀ k ∈ keywordKinds, isWordText k.1.toList = true ∧ k.2.isWord = true := by decide
      exact hall _ hk
    rw [form_of_isWordText (isWordText_of_spells hs hword.1) (hstops.word hword.2) heq,
      wordForm_keyword (keyword?_eq_some_iff.2 ⟨w, hk, hs⟩)]
  | @boolean _ w b hb hs =>
    have hword : isWordText w.toList = true := by
      have hall : ∀ k ∈ booleanWords, isWordText k.1.toList = true := by decide
      exact hall _ hb
    rw [form_of_isWordText (isWordText_of_spells hs hword) (hstops.word rfl) heq,
      wordForm_boolean hb hs]
  | @isNull is gap null his hgap hne hnull =>
    have hlength : is.length = 2 := length_of_spells his
    rw [List.append_assoc] at heq
    rw [form_of_isWordText (isWordText_of_spells his (by decide)) ?_ heq, wordForm_is his,
      List.append_assoc, afterIs_null hgap hnull (hstops.word rfl)]
    · simp only [List.length_append, hlength]
      congr 2
      omega
    · rw [List.append_assoc]
      exact wordEnds_blank hgap hne
  | @isNotNull is gap not gap' null his hgap hne hnot hgap' hne' hnull =>
    have hlength : is.length = 2 := length_of_spells his
    simp only [List.append_assoc] at heq
    rw [form_of_isWordText (isWordText_of_spells his (by decide)) (wordEnds_blank hgap hne) heq,
      wordForm_is his, afterIs_notNull hgap hnot hgap' hne' hnull (hstops.word rfl)]
    simp only [List.length_append, hlength]
    congr 2
    omega
  | @identifier s hname =>
    obtain ⟨hword, hkeywords⟩ := isName_iff.1 hname
    rw [form_of_isWordText hword (hstops.word rfl) heq, wordForm_name hkeywords,
      String.ofList_toList]
  | @string cs ds hq =>
    have heq' : c :: more = '"' :: (cs ++ '"' :: rest) := by simpa using heq
    cases heq'
    simp [form, stringBody?_of_quotes hq]
  | number hne hd => exact form_of_number hne hd hstops heq p

/-- A word, or the words that start with `is`, spell the token that they make. -/
theorem denotes_of_wordForm {p : Nat} {w rest : List Char} {f : Form} (hw : isWordText w = true)
    (hrest : WordEnds rest) (h : wordForm p w rest = .ok f) :
    ∃ more rest', rest = more ++ rest' ∧ f.tail + 1 = (w ++ more).length ∧
      Denotes (w ++ more) f.kind f.payload ∧ Stops f.kind (w ++ more) rest' := by
  have hlength : w.length - 1 + 1 = w.length := by
    cases w with
    | nil => cases hw
    | cons c cs => rfl
  have alone {kind : TokenKind} {payload : Option Payload} (hk : kind.isWord = true)
      (hd : Denotes w kind payload) (hf : f = ⟨kind, payload, w.length - 1⟩) :
      ∃ more rest', rest = more ++ rest' ∧ f.tail + 1 = (w ++ more).length ∧
        Denotes (w ++ more) f.kind f.payload ∧ Stops f.kind (w ++ more) rest' := by
    subst hf
    exact ⟨[], rest, rfl, by simpa using hlength, by rwa [List.append_nil], stops_of_word hk hrest _⟩
  unfold wordForm at h
  split at h
  · next kind hkind =>
    obtain ⟨k, hk, hs⟩ := keyword?_eq_some_iff.1 hkind
    have hall : ∀ k ∈ keywordKinds, k.2.isWord = true := by decide
    cases h
    exact alone (hall _ hk) (.keyword hk hs) rfl
  · next hnone =>
    split at h
    · next his =>
      have htwo : w.length = 2 := length_of_spells his
      rcases exists_of_afterIs h with ⟨gap, null, rest', rfl, hgap, hnull, hends, rfl⟩ |
        ⟨gap, not, gap', null, rest', rfl, hgap, hnot, hends', hgap', hnull, hends, rfl⟩
      · have hne := gap_ne_nil (isWordText_of_spells hnull (by decide)) hrest
        refine ⟨gap ++ null, rest', by simp, ?_, .isNull his hgap hne hnull, stops_of_word rfl hends _⟩
        simp only [List.length_append]
        omega
      · have hne := gap_ne_nil (isWordText_of_spells hnot (by decide)) hrest
        have hne' := gap_ne_nil (isWordText_of_spells hnull (by decide)) hends'
        refine ⟨gap ++ (not ++ (gap' ++ null)), rest', by simp, ?_,
          .isNotNull his hgap hne hnot hgap' hne' hnull, stops_of_word rfl hends _⟩
        simp only [List.length_append]
        omega
    · next his =>
      split at h
      · next hs =>
        cases h
        exact alone rfl (.boolean (by decide) hs) rfl
      · next htrue =>
        split at h
        · next hs =>
          cases h
          exact alone rfl (.boolean (by decide) hs) rfl
        · next hfalse =>
          cases h
          have hname : IsName (String.ofList w) :=
            isName_of_wordForm hw hnone (by simpa using his) (by simpa using htrue)
              (by simpa using hfalse)
          have hd := Denotes.identifier hname
          rw [String.toList_ofList] at hd
          exact alone rfl hd rfl

/-- A number that is read is spelled by the characters that it takes. -/
theorem denotes_of_number (negative : Bool) {cs : List Char} (hcs : cs.takeWhile Char.isDigit ≠ []) :
    ∃ front rest, cs = front ++ rest ∧ (number negative cs).2 = front.length ∧ front ≠ [] ∧
      Denotes (minus negative ++ front) .number (some (.number (number negative cs).1)) ∧
      Stops .number (minus negative ++ front) rest := by
  obtain ⟨whole, fraction, rest, heq, hwhole, hd, hdigit, hpoint⟩ := exists_number cs
  have hne : whole ≠ [] := hwhole ▸ hcs
  refine ⟨whole ++ Decimal.pointed fraction, rest, heq, ?_, by simp [hne], ?_, ?_⟩
  · rw [heq, number_append hd hdigit hpoint]
  · rw [heq, number_append hd hdigit hpoint]
    exact .number hne hd
  · refine ⟨nofun, nofun, fun _ => hdigit, fun _ hno => ?_⟩
    rw [point_mem_iff fun d hdw => hd d (List.mem_append_left _ hdw)] at hno
    exact (fractionDigits_eq_nil_iff rest).1 (hpoint (Decidable.not_not.1 hno))

/-- The form is that of a token that `c` and characters at the front of `cs` spell, and that stops there. -/
def Form.SpelledBy (f : Form) (c : Char) (cs : List Char) : Prop :=
  ∃ tail rest, cs = tail ++ rest ∧ f.tail = tail.length ∧ Denotes (c :: tail) f.kind f.payload ∧
    Stops f.kind (c :: tail) rest

/-- A comparison sign takes in a `=` behind it. -/
theorem denotes_of_sign {c : Char} {alone withEqual : TokenKind}
    (h : c = '<' ∧ alone = .less ∧ withEqual = .lessEqual ∨
      c = '>' ∧ alone = .greater ∧ withEqual = .greaterEqual) {cs : List Char} {f : Form}
    (hf : sign alone withEqual cs = f) : f.SpelledBy c cs := by
  by_cases hhead : cs.head? = some '='
  · obtain ⟨rest, rfl⟩ := List.head?_eq_some_iff.1 hhead
    have hsign : f = ⟨withEqual, none, 1⟩ := hf.symm
    subst hsign
    rcases h with ⟨rfl, rfl, rfl⟩ | ⟨rfl, rfl, rfl⟩
    · exact ⟨['='], rest, rfl, rfl, .sign (by decide),
        stops_of_closed rfl (by decide) (by decide) (by decide) _ _⟩
    · exact ⟨['='], rest, rfl, rfl, .sign (by decide),
        stops_of_closed rfl (by decide) (by decide) (by decide) _ _⟩
  · rw [sign_alone hhead] at hf
    subst hf
    rcases h with ⟨rfl, rfl, rfl⟩ | ⟨rfl, rfl, rfl⟩
    · exact ⟨[], cs, rfl, rfl, .sign (by decide), ⟨nofun, fun _ => hhead, nofun, nofun⟩⟩
    · exact ⟨[], cs, rfl, rfl, .sign (by decide), ⟨nofun, fun _ => hhead, nofun, nofun⟩⟩

/-- A sign of one character that nothing behind it changes. -/
theorem denotes_of_single {c : Char} {kind : TokenKind} (hmem : ([c], kind) ∈ signs)
    (hless : kind ≠ .less) (hgreater : kind ≠ .greater) {cs : List Char} {f : Form}
    (h : Except.ok (ε := QueryError) (⟨kind, none, 0⟩ : Form) = .ok f) : f.SpelledBy c cs := by
  cases h
  have hall : ∀ s ∈ signs, s.2.isWord = false ∧ s.2 ≠ .number := by decide
  exact ⟨[], cs, rfl, rfl, .sign hmem,
    stops_of_closed (hall _ hmem).1 hless hgreater (hall _ hmem).2 _ _⟩

theorem denotes_of_unequal {cs : List Char} {f : Form} (hhead : cs.head? = some '=')
    (h : f = ⟨.notEqual, none, 1⟩) : f.SpelledBy '!' cs := by
  obtain ⟨rest, rfl⟩ := List.head?_eq_some_iff.1 hhead
  subst h
  exact ⟨['='], rest, rfl, rfl, .sign (by decide),
    stops_of_closed rfl (by decide) (by decide) (by decide) _ _⟩

/-- A string ends behind its closing quote. -/
theorem denotes_of_string {cs ds : List Char} {n : Nat} (hbody : stringBody? cs = some (ds, n)) {f : Form}
    (h : f = ⟨.string, some (.text (String.ofList ds)), n⟩) : f.SpelledBy '"' cs := by
  obtain ⟨inner, rest, rfl, hquotes, rfl⟩ := quotes_of_stringBody? hbody
  have hstops : Stops .string ('"' :: (inner ++ ['"'])) rest :=
    stops_of_closed rfl (by decide) (by decide) (by decide) _ _
  subst h
  exact ⟨inner ++ ['"'], rest, by simp, by simp, .string hquotes, hstops⟩

/-- A number behind a minus sign. -/
theorem denotes_of_negative {cs : List Char} (hdigit : startsWithDigit cs = true) {f : Form}
    (h : f = ⟨.number, some (.number (number true cs).1), (number true cs).2⟩) : f.SpelledBy '-' cs := by
  have hcs : cs.takeWhile Char.isDigit ≠ [] := by
    cases cs with
    | nil => exact absurd hdigit (by decide)
    | cons d cs =>
      have hd : d.isDigit = true := hdigit
      rw [List.takeWhile_cons_of_pos hd]
      exact List.cons_ne_nil _ _
  obtain ⟨front, rest, heq, hlength, -, hd, hstops⟩ := denotes_of_number true hcs
  subst h
  exact ⟨front, rest, heq, hlength, hd, hstops⟩

/-- A number without a sign. -/
theorem denotes_of_digit {c : Char} (hc : c.isDigit = true) {cs : List Char} {f : Form}
    (h : f = ⟨.number, some (.number (number false (c :: cs)).1), (number false (c :: cs)).2 - 1⟩) :
    f.SpelledBy c cs := by
  have hcs : (c :: cs).takeWhile Char.isDigit ≠ [] := by
    rw [List.takeWhile_cons_of_pos hc]
    exact List.cons_ne_nil _ _
  obtain ⟨front, rest, heq, hlength, hne, hd, hstops⟩ := denotes_of_number false hcs
  subst h
  cases front with
  | nil => exact absurd rfl hne
  | cons d front =>
    obtain ⟨rfl, hrest⟩ := List.cons.inj heq
    refine ⟨front, rest, hrest, ?_, hd, hstops⟩
    show (number false (c :: cs)).2 - 1 = front.length
    rw [hlength, List.length_cons, Nat.add_sub_cancel]

/-- A word, and what the words that start with `is` take in. -/
theorem denotes_of_word {p : Nat} {c : Char} (hc : isWordStart c = true) {cs : List Char} {f : Form}
    (h : wordForm p (word (c :: cs)) (cs.drop ((word (c :: cs)).length - 1)) = .ok f) :
    f.SpelledBy c cs := by
  obtain ⟨tail, rest, rfl, hword, hw, hends⟩ := word_cons_split hc cs
  rw [hword, List.length_cons, Nat.add_sub_cancel, List.drop_left] at h
  obtain ⟨more, rest', hrest, hlength, hd, hstops⟩ := denotes_of_wordForm hw hends h
  refine ⟨tail ++ more, rest', ?_, ?_, hd, hstops⟩
  · rw [List.append_assoc, ← hrest]
  · simp only [List.length_append, List.length_cons] at hlength ⊢
    omega

/-- A token that is read is spelled by the characters that it takes, and stops behind them. -/
theorem denotes_of_form {p : Nat} {c : Char} {cs : List Char} {f : Form} (h : form p c cs = .ok f) :
    f.SpelledBy c cs := by
  unfold form at h
  by_cases hc : c = '('
  · rw [if_pos hc] at h
    exact denotes_of_single (by rw [hc]; decide) (by decide) (by decide) h
  rw [if_neg hc] at h
  by_cases hc : c = ')'
  · rw [if_pos hc] at h
    exact denotes_of_single (by rw [hc]; decide) (by decide) (by decide) h
  rw [if_neg hc] at h
  by_cases hc : c = ','
  · rw [if_pos hc] at h
    exact denotes_of_single (by rw [hc]; decide) (by decide) (by decide) h
  rw [if_neg hc] at h
  by_cases hc : c = '.'
  · rw [if_pos hc] at h
    exact denotes_of_single (by rw [hc]; decide) (by decide) (by decide) h
  rw [if_neg hc] at h
  by_cases hc : c = '='
  · rw [if_pos hc] at h
    exact denotes_of_single (by rw [hc]; decide) (by decide) (by decide) h
  rw [if_neg hc] at h
  by_cases hc : c = '!'
  · rw [if_pos hc] at h
    by_cases hhead : cs.head? = some '='
    · rw [if_pos hhead] at h
      rw [hc]
      exact denotes_of_unequal hhead (Except.ok.inj h).symm
    · rw [if_neg hhead] at h
      cases h
  rw [if_neg hc] at h
  by_cases hc : c = '<'
  · rw [if_pos hc] at h
    exact denotes_of_sign (.inl ⟨hc, rfl, rfl⟩) (Except.ok.inj h)
  rw [if_neg hc] at h
  by_cases hc : c = '>'
  · rw [if_pos hc] at h
    exact denotes_of_sign (.inr ⟨hc, rfl, rfl⟩) (Except.ok.inj h)
  rw [if_neg hc] at h
  by_cases hc : c = '"'
  · rw [if_pos hc] at h
    cases hbody : stringBody? cs with
    | none =>
      rw [hbody] at h
      cases h
    | some body =>
      rw [hbody] at h
      rw [hc]
      exact denotes_of_string hbody (Except.ok.inj h).symm
  rw [if_neg hc] at h
  by_cases hc : (decide (c = '-') && startsWithDigit cs) = true
  · rw [if_pos hc] at h
    simp only [Bool.and_eq_true, decide_eq_true_eq] at hc
    rw [hc.1]
    exact denotes_of_negative hc.2 (Except.ok.inj h).symm
  rw [if_neg hc] at h
  by_cases hc : c.isDigit = true
  · rw [if_pos hc] at h
    exact denotes_of_digit hc (Except.ok.inj h).symm
  rw [if_neg hc] at h
  by_cases hc : isWordStart c = true
  · rw [if_pos hc] at h
    exact denotes_of_word hc h
  · rw [if_neg hc] at h
    cases h

/-! ## Top theorem (proved from the lemmas above) -/

/-- The token that starts with a character is spelled by it and by characters behind it, and takes in
nothing more. -/
theorem form_eq_ok_iff {p : Nat} {c : Char} {cs : List Char} {f : Form} :
    form p c cs = .ok f ↔ ∃ tail rest, cs = tail ++ rest ∧ f.tail = tail.length ∧
      Denotes (c :: tail) f.kind f.payload ∧ Stops f.kind (c :: tail) rest := by
  constructor
  · exact denotes_of_form
  · rintro ⟨tail, rest, rfl, hlength, hd, hstops⟩
    have hform : form p c (tail ++ rest) = .ok ⟨f.kind, f.payload, (c :: tail).length - 1⟩ :=
      form_of_denotes hd hstops rfl p
    rw [hform, List.length_cons, Nat.add_sub_cancel, ← hlength]

end Lexer

end RecordQuery
