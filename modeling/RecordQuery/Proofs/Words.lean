import RecordQuery.Proofs.Lexing

/-!
# Words

A word starts with a letter and takes in all characters that can go on with it. Letter case does not matter
to the words with a meaning of their own: `spells_of_spells` says that a text spells one of them at most, and
`exists_of_afterIs` which words can stand behind `is`.
-/

namespace RecordQuery

namespace Lexer

/-- The words that are tokens by themselves and carry no value. -/
def keywordKinds : List (String × TokenKind) :=
  [("and", .and), ("or", .or), ("not", .not), ("null", .null), ("contains", .contains),
   ("startswith", .startsWith), ("endswith", .endsWith), ("in", .isIn)]

/-- The words for truth values. -/
def booleanWords : List (String × Bool) := [("true", true), ("false", false)]

/-- Only white space. -/
def Blank (cs : List Char) : Prop := ∀ c ∈ cs, Text.isBlank c = true

/-! ## Words as texts -/

/-- A character that starts a word, and characters that go on with it. -/
def isWordText : List Char → Bool
  | [] => false
  | c :: cs => isWordStart c && cs.all isWordPart

theorem isWordText_cons {c : Char} {cs : List Char} :
    isWordText (c :: cs) = true ↔ isWordStart c = true ∧ cs.all isWordPart = true := by
  rw [isWordText, Bool.and_eq_true]

theorem isWordStart_toLower (c : Char) : isWordStart c.toLower = isWordStart c :=
  Text.forall_of_ascii (p := fun c => isWordStart c.toLower = isWordStart c) (by decide +kernel)
    (fun c h => by rw [h]) c

theorem isWordPart_toLower (c : Char) : isWordPart c.toLower = isWordPart c :=
  Text.forall_of_ascii (p := fun c => isWordPart c.toLower = isWordPart c) (by decide +kernel)
    (fun c h => by rw [h]) c

theorem isWordText_map_toLower (cs : List Char) :
    isWordText (cs.map Char.toLower) = isWordText cs := by
  cases cs with
  | nil => rfl
  | cons c cs =>
    have hall : (cs.map Char.toLower).all isWordPart = cs.all isWordPart := by
      rw [List.all_map]
      exact congrArg cs.all (funext isWordPart_toLower)
    rw [List.map_cons, isWordText, isWordText, isWordStart_toLower, hall]

theorem spells_iff {cs : List Char} {w : String} :
    spells cs w = true ↔ cs.map Char.toLower = w.toList := by
  rw [spells, decide_eq_true_eq]

theorem length_of_spells {cs : List Char} {w : String} (h : spells cs w = true) :
    cs.length = w.toList.length := by
  rw [← spells_iff.1 h, List.length_map]

/-- What spells a word in any case is a word. -/
theorem isWordText_of_spells {cs : List Char} {w : String} (h : spells cs w = true)
    (hw : isWordText w.toList = true) : isWordText cs = true := by
  rw [← isWordText_map_toLower, spells_iff.1 h, hw]

/-- A text spells one word at most. -/
theorem spells_of_spells {cs : List Char} {w : String} (h : spells cs w = true) (k : String) :
    spells cs k = decide (w.toList = k.toList) := by
  rw [spells, spells_iff.1 h]

theorem isName_iff {s : String} :
    IsName s ↔ isWordText s.toList = true ∧ ∀ k ∈ keywords, spells s.toList k = false := by
  unfold IsName
  refine and_congr_left fun _ => ?_
  constructor
  · rintro ⟨c, cs, hs, hc, hcs⟩
    rw [hs]
    exact isWordText_cons.2 ⟨hc, List.all_eq_true.2 hcs⟩
  · intro h
    cases hs : s.toList with
    | nil => rw [hs] at h; cases h
    | cons c cs =>
      rw [hs] at h
      obtain ⟨hc, hcs⟩ := isWordText_cons.1 h
      exact ⟨c, cs, rfl, hc, List.all_eq_true.1 hcs⟩

/-- A character that starts a word starts the longest word that there is. -/
theorem word_cons_split {c : Char} (hc : isWordStart c = true) (cs : List Char) :
    ∃ tail rest, cs = tail ++ rest ∧ word (c :: cs) = c :: tail ∧ isWordText (c :: tail) = true ∧
      WordEnds rest := by
  refine ⟨cs.takeWhile isWordPart, cs.dropWhile isWordPart, List.takeWhile_append_dropWhile.symm, ?_, ?_,
    notNext_dropWhile _ _⟩
  · rw [word, if_pos hc]
  · exact isWordText_cons.2 ⟨hc, List.all_takeWhile⟩

/-- The word at the front of a text is as long as it can be. -/
theorem word_split (cs : List Char) : ∃ rest, cs = word cs ++ rest ∧
    (word cs ≠ [] → isWordText (word cs) = true ∧ WordEnds rest) := by
  cases cs with
  | nil => exact ⟨[], rfl, fun h => absurd rfl h⟩
  | cons c cs =>
    by_cases hc : isWordStart c = true
    · obtain ⟨tail, rest, rfl, hword, hw, hends⟩ := word_cons_split hc cs
      rw [hword]
      exact ⟨rest, rfl, fun _ => ⟨hw, hends⟩⟩
    · rw [word, if_neg hc]
      exact ⟨c :: cs, rfl, fun h => absurd rfl h⟩

theorem word_append {w rest : List Char} (hw : isWordText w = true) (hrest : WordEnds rest) :
    word (w ++ rest) = w := by
  cases w with
  | nil => cases hw
  | cons c cs =>
    obtain ⟨hc, hcs⟩ := isWordText_cons.1 hw
    rw [List.cons_append, word, if_pos hc, takeWhile_append_notNext (List.all_eq_true.1 hcs) hrest]

/-! ## Keywords -/

theorem keyword?_eq_some_iff {cs : List Char} {kind : TokenKind} :
    keyword? cs = some kind ↔ ∃ w, (w, kind) ∈ keywordKinds ∧ spells cs w = true := by
  constructor
  · intro h
    unfold keyword? at h
    repeat' split at h
    all_goals cases h
    all_goals refine ⟨_, ?_, by assumption⟩
    all_goals decide
  · rintro ⟨w, hw, hs⟩
    unfold keyword?
    simp only [spells_of_spells hs]
    simp only [keywordKinds, List.mem_cons, Prod.mk.injEq, List.not_mem_nil, or_false] at hw
    rcases hw with h | h | h | h | h | h | h | h <;> obtain ⟨rfl, rfl⟩ := h <;> rfl

theorem keyword?_eq_none {cs : List Char} (h : ∀ k ∈ keywordKinds, spells cs k.1 = false) :
    keyword? cs = none := by
  refine Option.eq_none_iff_forall_ne_some.2 fun kind hkind => ?_
  obtain ⟨w, hw, hs⟩ := keyword?_eq_some_iff.1 hkind
  rw [h _ hw] at hs
  cases hs

/-- Other words than the keywords are no keywords in any case. -/
theorem keyword?_of_spells {cs : List Char} {w : String} (h : spells cs w = true)
    (hw : ∀ k ∈ keywordKinds, w.toList ≠ k.1.toList) : keyword? cs = none :=
  keyword?_eq_none fun k hk => by rw [spells_of_spells h, decide_eq_false (hw k hk)]

/-! ## The words behind `is` -/

theorem wordEnds_blank {gap cs : List Char} (hgap : Blank gap) (hne : gap ≠ []) : WordEnds (gap ++ cs) := by
  cases gap with
  | nil => exact absurd rfl hne
  | cons c gap => exact notNext_cons (isWordPart_of_isBlank (hgap c List.mem_cons_self))

theorem notNext_isBlank {w : List Char} (hw : isWordText w = true) (rest : List Char) :
    NotNext Text.isBlank (w ++ rest) := by
  cases w with
  | nil => cases hw
  | cons c cs => exact notNext_cons (isBlank_of_isWordStart (isWordText_cons.1 hw).1)

/-- White space in front of a word is passed over. -/
theorem gap_word {gap w rest : List Char} (hgap : Blank gap) (hw : isWordText w = true)
    (hrest : WordEnds rest) :
    ((gap ++ (w ++ rest)).takeWhile Text.isBlank).length = gap.length ∧
      word ((gap ++ (w ++ rest)).drop gap.length) = w := by
  constructor
  · rw [takeWhile_append_notNext hgap (notNext_isBlank hw rest)]
  · rw [List.drop_left, word_append hw hrest]

theorem afterIs_null {gap null rest : List Char} (hgap : Blank gap) (hnull : spells null "null" = true)
    (hrest : WordEnds rest) (p : Nat) :
    afterIs p (gap ++ (null ++ rest)) = .ok ⟨.isNull, none, 1 + gap.length + null.length⟩ := by
  obtain ⟨hlength, hword⟩ := gap_word hgap (isWordText_of_spells hnull (by decide)) hrest
  unfold afterIs
  simp only [hlength, hword]
  rw [if_pos hnull]

theorem afterIs_notNull {gap not gap' null rest : List Char} (hgap : Blank gap)
    (hnot : spells not "not" = true) (hgap' : Blank gap') (hne : gap' ≠ [])
    (hnull : spells null "null" = true) (hrest : WordEnds rest) (p : Nat) :
    afterIs p (gap ++ (not ++ (gap' ++ (null ++ rest)))) =
      .ok ⟨.isNotNull, none, 1 + gap.length + not.length + gap'.length + null.length⟩ := by
  have hends : WordEnds (gap' ++ (null ++ rest)) := wordEnds_blank hgap' hne
  obtain ⟨hlength, hword⟩ := gap_word hgap (isWordText_of_spells hnot (by decide)) hends
  obtain ⟨hlength', hword'⟩ := gap_word hgap' (isWordText_of_spells hnull (by decide)) hrest
  have hfirst : spells not "null" = false := by
    rw [spells_of_spells hnot]
    decide
  have hdrop : ((gap ++ (not ++ (gap' ++ (null ++ rest)))).drop gap.length).drop not.length =
      gap' ++ (null ++ rest) := by rw [List.drop_left, List.drop_left]
  unfold afterIs
  simp only [hlength, hword, hdrop, hlength', hword']
  rw [if_neg (by simp [hfirst]), if_pos hnot, if_pos hnull]

/-- The white space at the front of a text. -/
theorem blank_split (cs : List Char) :
    ∃ gap rest, cs = gap ++ rest ∧ cs.takeWhile Text.isBlank = gap ∧ Blank gap ∧
      NotNext Text.isBlank rest :=
  ⟨cs.takeWhile Text.isBlank, cs.dropWhile Text.isBlank, List.takeWhile_append_dropWhile.symm, rfl,
    List.all_eq_true.1 List.all_takeWhile, notNext_dropWhile _ _⟩

/-- The words behind `is`, when they make a token. -/
theorem exists_of_afterIs {p : Nat} {cs : List Char} {f : Form} (h : afterIs p cs = .ok f) :
    (∃ gap null rest, cs = gap ++ (null ++ rest) ∧ Blank gap ∧ spells null "null" = true ∧
        WordEnds rest ∧ f = ⟨.isNull, none, 1 + gap.length + null.length⟩) ∨
      ∃ gap not gap' null rest, cs = gap ++ (not ++ (gap' ++ (null ++ rest))) ∧ Blank gap ∧
        spells not "not" = true ∧ WordEnds (gap' ++ (null ++ rest)) ∧ Blank gap' ∧
        spells null "null" = true ∧ WordEnds rest ∧
        f = ⟨.isNotNull, none, 1 + gap.length + not.length + gap'.length + null.length⟩ := by
  have hne {w : List Char} {k : String} (hw : spells w k = true) (hk : k.toList ≠ []) : w ≠ [] := by
    rintro rfl
    exact hk (spells_iff.1 hw).symm
  unfold afterIs at h
  obtain ⟨gap, rest, rfl, hgap, hblank, -⟩ := blank_split cs
  simp only [hgap, List.drop_left] at h
  obtain ⟨rest', hrest, hword⟩ := word_split rest
  generalize word rest = first at *
  subst hrest
  split at h
  · next hnull =>
    cases h
    exact .inl ⟨gap, first, rest', rfl, hblank, hnull, (hword (hne hnull (by decide))).2, rfl⟩
  · split at h
    · next hnot =>
      have hends := (hword (hne hnot (by decide))).2
      obtain ⟨gap', rest, rfl, hgap', hblank', -⟩ := blank_split rest'
      simp only [hgap', List.drop_left] at h
      obtain ⟨rest'', hrest, hword'⟩ := word_split rest
      generalize word rest = second at *
      subst hrest
      split at h
      · next hnull =>
        cases h
        exact .inr ⟨gap, first, gap', second, rest'', rfl, hblank, hnot, hends, hblank', hnull,
          (hword' (hne hnull (by decide))).2, rfl⟩
      · cases h
    · cases h

theorem gap_ne_nil {gap w rest : List Char} (hw : isWordText w = true)
    (h : WordEnds (gap ++ (w ++ rest))) : gap ≠ [] := by
  rintro rfl
  cases w with
  | nil => cases hw
  | cons c cs =>
    have hstart := (isWordText_cons.1 hw).1
    have hpart : isWordPart c = false := h
    simp only [isWordStart, isWordPart, Bool.or_eq_true, Bool.or_eq_false_iff, decide_eq_true_eq,
      decide_eq_false_iff_not] at hstart hpart
    rcases hstart with hc | hc
    · rw [hpart.1.1] at hc
      cases hc
    · exact hpart.2 hc

/-! ## Tokens of words -/

theorem wordForm_keyword {w : List Char} {kind : TokenKind} (h : keyword? w = some kind) (p : Nat)
    (rest : List Char) : wordForm p w rest = .ok ⟨kind, none, w.length - 1⟩ := by
  unfold wordForm
  rw [h]

theorem wordForm_is {is : List Char} (h : spells is "is" = true) (p : Nat) (rest : List Char) :
    wordForm p is rest = afterIs p rest := by
  unfold wordForm
  rw [keyword?_of_spells h (by decide)]
  simp only [h, if_true]

theorem wordForm_boolean {cs : List Char} {w : String} {b : Bool} (hw : (w, b) ∈ booleanWords)
    (h : spells cs w = true) (p : Nat) (rest : List Char) :
    wordForm p cs rest = .ok ⟨.boolean, some (.bool b), cs.length - 1⟩ := by
  have hnone : keyword? cs = none := by
    refine keyword?_of_spells h ?_
    simp only [booleanWords, List.mem_cons, Prod.mk.injEq, List.not_mem_nil, or_false] at hw
    rcases hw with ⟨rfl, rfl⟩ | ⟨rfl, rfl⟩ <;> decide
  unfold wordForm
  rw [hnone]
  simp only [spells_of_spells h]
  simp only [booleanWords, List.mem_cons, Prod.mk.injEq, List.not_mem_nil, or_false] at hw
  rcases hw with ⟨rfl, rfl⟩ | ⟨rfl, rfl⟩ <;> rfl

theorem wordForm_name {cs : List Char} (h : ∀ k ∈ keywords, spells cs k = false) (p : Nat)
    (rest : List Char) :
    wordForm p cs rest = .ok ⟨.identifier, some (.text (String.ofList cs)), cs.length - 1⟩ := by
  have hnone : keyword? cs = none := by
    have hmem : ∀ k ∈ keywordKinds, k.1 ∈ keywords := by decide
    exact keyword?_eq_none fun k hk => h _ (hmem k hk)
  unfold wordForm
  rw [hnone]
  simp only [h "is" (by decide), h "true" (by decide), h "false" (by decide), Bool.false_eq_true,
    if_false]

/-- What is no keyword of any kind is a name. -/
theorem isName_of_wordForm {w : List Char} (hw : isWordText w = true) (hnone : keyword? w = none)
    (his : spells w "is" = false) (htrue : spells w "true" = false) (hfalse : spells w "false" = false) :
    IsName (String.ofList w) := by
  refine isName_iff.2 ⟨by rwa [String.toList_ofList], fun k hk => ?_⟩
  rw [String.toList_ofList]
  have hall : ∀ k ∈ keywords, k ∈ keywordKinds.map (·.1) ∨ k = "is" ∨ k = "true" ∨ k = "false" := by
    decide
  rcases hall k hk with h | rfl | rfl | rfl
  · obtain ⟨⟨_, kind⟩, hmem, rfl⟩ := List.mem_map.1 h
    rw [← Bool.not_eq_true]
    intro hs
    rw [keyword?_eq_some_iff.2 ⟨_, hmem, hs⟩] at hnone
    cases hnone
  · exact his
  · exact htrue
  · exact hfalse

end Lexer

end RecordQuery
