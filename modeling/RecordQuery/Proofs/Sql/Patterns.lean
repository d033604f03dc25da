import RecordQuery.Proofs.Sql.Like

/-!
# What LIKE means

`Sql.Like pattern s` says character by character that the text `s` matches the pattern, with the backslash as
the escape, and `Sql.IsPattern` that no escape of the pattern is illegal or stands at its end. Reading a
pattern into parts and trying its runs one after the other decides both:

    IsPattern p ↔ ∃ parts, likeParts? '\\' p = some parts                                   (isPattern_iff)
    Like p s ↔ ∃ parts, likeParts? '\\' p = some parts ∧ likeMatches parts s = true             (like_iff)

The value that goes with the clause of a text test is such a pattern, and it matches the texts in which the
needle is found, whatever wildcards and backslashes the needle holds (`like_parameter_iff`).
-/

namespace RecordQuery

/-- The place at which the operator looks for the needle. -/
def TextOperator.Finds : TextOperator → List Char → List Char → Prop
  | contains, needle, s => ∃ front rest, s = front ++ needle ++ rest
  | startsWith, needle, s => ∃ rest, s = needle ++ rest
  | endsWith, needle, s => ∃ front, s = front ++ needle

namespace Sql

/-- The characters that mean themselves only behind a backslash. -/
def IsSpecial (c : Char) : Prop := c = '%' ∨ c = '_' ∨ c = '\\'

/-- A backslash stands in front of a special character only, and never at the end. -/
inductive IsPattern : List Char → Prop
  | nil : IsPattern []
  | escaped {c : Char} {p : List Char} : IsSpecial c → IsPattern p → IsPattern ('\\' :: c :: p)
  | plain {c : Char} {p : List Char} : c ≠ '\\' → IsPattern p → IsPattern (c :: p)

/-- The text matches the pattern from start to end: `%` matches any characters, `_` any one, and all else
itself. -/
inductive Like : List Char → List Char → Prop
  | nil : Like [] []
  | run {p s : List Char} (front : List Char) : Like p s → Like ('%' :: p) (front ++ s)
  | one {p s : List Char} (c : Char) : Like p s → Like ('_' :: p) (c :: s)
  | escaped {c : Char} {p s : List Char} : IsSpecial c → Like p s → Like ('\\' :: c :: p) (c :: s)
  | plain {c : Char} {p s : List Char} : ¬ IsSpecial c → Like p s → Like (c :: p) (c :: s)

/-! ## Reading patterns -/

theorem isSpecial_iff (c : Char) : TextOperator.isSpecial c = true ↔ IsSpecial c := by
  simp [TextOperator.isSpecial, IsSpecial, or_assoc]

theorem likeParts?_run (cs : List Char) :
    likeParts? '\\' ('%' :: cs) = (likeParts? '\\' cs).map (.run :: ·) := by
  rw [likeParts?.eq_def]
  rfl

theorem likeParts?_one (cs : List Char) :
    likeParts? '\\' ('_' :: cs) = (likeParts? '\\' cs).map (.one :: ·) := by
  rw [likeParts?.eq_def]
  rfl

/-- A character that is no backslash makes one part. -/
theorem exists_likeParts?_cons {c : Char} (hc : c ≠ '\\') (cs : List Char) :
    ∃ part, likeParts? '\\' (c :: cs) = (likeParts? '\\' cs).map (part :: ·) := by
  by_cases hrun : c = '%'
  · subst hrun
    exact ⟨.run, likeParts?_run cs⟩
  · by_cases hone : c = '_'
    · subst hone
      exact ⟨.one, likeParts?_one cs⟩
    · have hplain : TextOperator.isSpecial c = false := by
        simp [TextOperator.isSpecial, hrun, hone, hc]
      exact ⟨.exactly c, likeParts?_plain c hplain cs⟩

theorem exists_parts {p : List Char} (h : IsPattern p) : ∃ parts, likeParts? '\\' p = some parts := by
  induction h with
  | nil => exact ⟨[], rfl⟩
  | @escaped c p hc _ ih =>
    obtain ⟨parts, hparts⟩ := ih
    refine ⟨.exactly c :: parts, ?_⟩
    rw [likeParts?_escaped c ((isSpecial_iff c).2 hc), hparts]
    rfl
  | @plain c p hc _ ih =>
    obtain ⟨parts, hparts⟩ := ih
    obtain ⟨part, hpart⟩ := exists_likeParts?_cons hc p
    refine ⟨part :: parts, ?_⟩
    rw [hpart, hparts]
    rfl

/-- What the parts of a pattern say of the text and the pattern itself. A pattern is read from the left, so
the induction follows the cases of its first characters. -/
theorem of_parts {p : List Char} {parts : List LikePart} (h : likeParts? '\\' p = some parts) :
    IsPattern p ∧ ∀ s, likeMatches parts s = true → Like p s := by
  fun_induction likeParts? '\\' p generalizing parts with
  | case1 =>
    cases h
    refine ⟨.nil, fun s hs => ?_⟩
    rw [(likeMatches_nil_iff s).1 hs]
    exact .nil
  | case2 => cases h
  | case3 d rest hd ih =>
    obtain ⟨more, hmore, rfl⟩ := Option.map_eq_some_iff.1 h
    obtain ⟨hrest, hlike⟩ := ih hmore
    refine ⟨.escaped hd hrest, fun s hs => ?_⟩
    obtain ⟨t, rfl, ht⟩ := (likeMatches_exactly_iff [d] more s).1 hs
    exact .escaped hd (hlike t ht)
  | case4 => cases h
  | case5 rest _ ih =>
    obtain ⟨more, hmore, rfl⟩ := Option.map_eq_some_iff.1 h
    obtain ⟨hrest, hlike⟩ := ih hmore
    refine ⟨.plain (by decide) hrest, fun s hs => ?_⟩
    obtain ⟨front, t, rfl, ht⟩ := (likeMatches_run_iff more s).1 hs
    exact .run front (hlike t ht)
  | case6 rest _ _ ih =>
    obtain ⟨more, hmore, rfl⟩ := Option.map_eq_some_iff.1 h
    obtain ⟨hrest, hlike⟩ := ih hmore
    refine ⟨.plain (by decide) hrest, fun s hs => ?_⟩
    cases s with
    | nil => cases hs
    | cons c s => exact .one c (hlike s hs)
  | case7 c rest hslash hrun hone ih =>
    obtain ⟨more, hmore, rfl⟩ := Option.map_eq_some_iff.1 h
    obtain ⟨hrest, hlike⟩ := ih hmore
    have hplain : ¬ IsSpecial c := by simp [IsSpecial, hrun, hone, hslash]
    refine ⟨.plain hslash hrest, fun s hs => ?_⟩
    obtain ⟨t, rfl, ht⟩ := (likeMatches_exactly_iff [c] more s).1 hs
    exact .plain hplain (hlike t ht)

theorem exists_matching_parts {p s : List Char} (h : Like p s) :
    ∃ parts, likeParts? '\\' p = some parts ∧ likeMatches parts s = true := by
  induction h with
  | nil => exact ⟨[], rfl, rfl⟩
  | @run p s front _ ih =>
    obtain ⟨parts, hparts, hs⟩ := ih
    refine ⟨.run :: parts, ?_, (likeMatches_run_iff parts _).2 ⟨front, s, rfl, hs⟩⟩
    rw [likeParts?_run, hparts]
    rfl
  | @one p s c _ ih =>
    obtain ⟨parts, hparts, hs⟩ := ih
    refine ⟨.one :: parts, ?_, hs⟩
    rw [likeParts?_one, hparts]
    rfl
  | @escaped c p s hc _ ih =>
    obtain ⟨parts, hparts, hs⟩ := ih
    refine ⟨.exactly c :: parts, ?_, (likeMatches_exactly_iff [c] parts _).2 ⟨s, rfl, hs⟩⟩
    rw [likeParts?_escaped c ((isSpecial_iff c).2 hc), hparts]
    rfl
  | @plain c p s hc _ ih =>
    obtain ⟨parts, hparts, hs⟩ := ih
    have hplain : TextOperator.isSpecial c = false := by
      rw [← Bool.not_eq_true, isSpecial_iff]
      exact hc
    refine ⟨.exactly c :: parts, ?_, (likeMatches_exactly_iff [c] parts _).2 ⟨s, rfl, hs⟩⟩
    rw [likeParts?_plain c hplain, hparts]
    rfl

/-- The patterns are the texts that have parts. -/
theorem isPattern_iff (p : List Char) : IsPattern p ↔ ∃ parts, likeParts? '\\' p = some parts := by
  constructor
  · exact exists_parts
  · rintro ⟨parts, hparts⟩
    exact (of_parts hparts).1

/-- The texts that a pattern matches are those that its parts match. -/
theorem like_iff (p s : List Char) :
    Like p s ↔ ∃ parts, likeParts? '\\' p = some parts ∧ likeMatches parts s = true := by
  constructor
  · exact exists_matching_parts
  · rintro ⟨parts, hparts, hs⟩
    exact (of_parts hparts).2 s hs

/-! ## Patterns of text tests -/

theorem admits_iff_finds (op : TextOperator) (needle s : String) :
    op.admits needle s = true ↔ op.Finds needle.toList s.toList := by
  cases op with
  | contains =>
    rw [TextOperator.admits, occursIn_iff]
    constructor
    · rintro ⟨front, rest, h⟩
      exact ⟨front, rest, h.symm⟩
    · rintro ⟨front, rest, h⟩
      exact ⟨front, rest, h.symm⟩
  | startsWith =>
    rw [TextOperator.admits, List.isPrefixOf_iff_prefix]
    constructor
    · rintro ⟨rest, h⟩
      exact ⟨rest, h.symm⟩
    · rintro ⟨rest, h⟩
      exact ⟨rest, h.symm⟩
  | endsWith =>
    rw [TextOperator.admits, List.isSuffixOf_iff_suffix]
    constructor
    · rintro ⟨front, h⟩
      exact ⟨front, h.symm⟩
    · rintro ⟨front, h⟩
      exact ⟨front, h.symm⟩

theorem like_pattern_iff (op : TextOperator) (needle s : String) :
    Like (op.pattern needle).toList s.toList ↔ op.admits needle s = true := by
  rw [like_iff, likeParts?_pattern]
  constructor
  · rintro ⟨parts, ⟨⟩, hs⟩
    rwa [likeMatches_likePartsOf] at hs
  · intro h
    exact ⟨_, rfl, by rwa [likeMatches_likePartsOf]⟩

/-! ## Top theorem (proved from the lemmas above) -/

/-- The one value of a text test is a pattern, and the texts that it matches are those in which the operator
finds the needle. They are the texts that pass the test. -/
theorem like_parameter_iff (op : TextOperator) (needle : String) :
    ∃ pattern : String, (Test.text op needle).parameters = [.text pattern] ∧ IsPattern pattern.toList ∧
      ∀ s : String, (Like pattern.toList s.toList ↔ op.Finds needle.toList s.toList) ∧
        (Like pattern.toList s.toList ↔ (Test.text op needle).holds (.scalar (.text s)) = true) := by
  refine ⟨op.pattern needle, rfl, ?_, fun s => ⟨?_, ?_⟩⟩
  · rw [isPattern_iff]
    exact ⟨_, likeParts?_pattern op needle⟩
  · rw [like_pattern_iff, admits_iff_finds]
  · rw [like_pattern_iff]
    rfl

end Sql

end RecordQuery
