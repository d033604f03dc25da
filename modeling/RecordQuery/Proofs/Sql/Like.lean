import RecordQuery.Condition.Clause
import RecordQuery.Proofs.Meaning

/-!
# LIKE patterns

A pattern is read part by part: `%` stands for any run of characters, `_` for any one, a character behind
the escape for itself and all others for themselves too. The patterns of text tests are well formed and
match the texts that pass the test:

    likeParts? '\\' (op.pattern needle).toList = some (likePartsOf op needle.toList)
      (likeParts?_pattern)
    likeMatches (likePartsOf op needle.toList) s.toList = op.admits needle s
      (likeMatches_likePartsOf)
-/

namespace RecordQuery.Sql

/-! ## Algorithm -/

/-- What one part of a pattern stands for. -/
inductive LikePart where
  | run
  | one
  | exactly (c : Char)
deriving DecidableEq, Repr

/-- The parts of a pattern. There are none if an escape stands at the end, or before a character that
needs none. -/
def likeParts? (escape : Char) : List Char → Option (List LikePart)
  | [] => some []
  | c :: cs =>
    if c = escape then
      match cs with
      | [] => none
      | d :: rest =>
        if d = '%' ∨ d = '_' ∨ d = escape then (likeParts? escape rest).map (.exactly d :: ·) else none
    else if c = '%' then (likeParts? escape cs).map (.run :: ·)
    else if c = '_' then (likeParts? escape cs).map (.one :: ·)
    else (likeParts? escape cs).map (.exactly c :: ·)

/-- Does a text match the parts of a pattern from start to end? -/
def likeMatches : List LikePart → List Char → Bool
  | [], s => s.isEmpty
  | .run :: parts, s => (List.range (s.length + 1)).any fun n => likeMatches parts (s.drop n)
  | .one :: _, [] => false
  | .one :: parts, _ :: s => likeMatches parts s
  | .exactly _ :: _, [] => false
  | .exactly c :: parts, d :: s => c = d && likeMatches parts s

/-- The parts of the pattern of a text test. -/
def likePartsOf (op : TextOperator) (needle : List Char) : List LikePart :=
  match op with
  | .contains => .run :: (needle.map .exactly ++ [.run])
  | .startsWith => needle.map .exactly ++ [.run]
  | .endsWith => .run :: (needle.map .exactly ++ [])

/-! ## Lemmas -/

theorem likeParts?_escaped (c : Char) (hc : TextOperator.isSpecial c = true) (cs : List Char) :
    likeParts? '\\' ('\\' :: c :: cs) = (likeParts? '\\' cs).map (.exactly c :: ·) := by
  have hor : c = '%' ∨ c = '_' ∨ c = '\\' := by
    simpa [TextOperator.isSpecial, or_assoc] using hc
  rw [likeParts?.eq_def]
  simp only [if_true, hor]

theorem likeParts?_plain (c : Char) (hc : TextOperator.isSpecial c = false) (cs : List Char) :
    likeParts? '\\' (c :: cs) = (likeParts? '\\' cs).map (.exactly c :: ·) := by
  have hne : (c ≠ '%' ∧ c ≠ '_') ∧ c ≠ '\\' := by
    simpa [TextOperator.isSpecial] using hc
  rw [likeParts?.eq_def]
  simp only [if_neg hne.2, if_neg hne.1.1, if_neg hne.1.2]

/-- An escaped text stands for itself. -/
theorem likeParts?_escape (needle cs : List Char) :
    likeParts? '\\' (TextOperator.escape needle ++ cs) =
      (likeParts? '\\' cs).map (needle.map .exactly ++ ·) := by
  induction needle with
  | nil => simp [TextOperator.escape]
  | cons c needle ih =>
    have hmap : ((likeParts? '\\' cs).map (needle.map LikePart.exactly ++ ·)).map (.exactly c :: ·) =
        (likeParts? '\\' cs).map ((c :: needle).map LikePart.exactly ++ ·) := by
      rw [Option.map_map]
      rfl
    have hstep : TextOperator.escape (c :: needle) ++ cs =
        (if TextOperator.isSpecial c then ['\\', c] else [c]) ++ (TextOperator.escape needle ++ cs) := by
      rw [TextOperator.escape, List.flatMap_cons, List.append_assoc]
      rfl
    rw [hstep, ← hmap, ← ih]
    cases hc : TextOperator.isSpecial c with
    | true => exact likeParts?_escaped c hc _
    | false => exact likeParts?_plain c hc _

theorem likeMatches_nil_iff (s : List Char) : likeMatches [] s = true ↔ s = [] := by
  rw [likeMatches, List.isEmpty_iff]

theorem likeMatches_run_iff (parts : List LikePart) (s : List Char) :
    likeMatches (.run :: parts) s = true ↔ ∃ front t, s = front ++ t ∧ likeMatches parts t = true := by
  rw [likeMatches, List.any_eq_true]
  constructor
  · rintro ⟨n, _, h⟩
    exact ⟨s.take n, s.drop n, (List.take_append_drop n s).symm, h⟩
  · rintro ⟨front, t, rfl, h⟩
    refine ⟨front.length, ?_, ?_⟩
    · rw [List.mem_range, List.length_append]
      omega
    · rw [List.drop_left]
      exact h

theorem likeMatches_exactly_iff (needle : List Char) (parts : List LikePart) (s : List Char) :
    likeMatches (needle.map .exactly ++ parts) s = true ↔
      ∃ t, s = needle ++ t ∧ likeMatches parts t = true := by
  induction needle generalizing s with
  | nil => simp
  | cons c needle ih =>
    cases s with
    | nil => simp [likeMatches]
    | cons d s =>
      rw [List.map_cons, List.cons_append, likeMatches, Bool.and_eq_true, ih, decide_eq_true_iff]
      constructor
      · rintro ⟨rfl, t, rfl, h⟩
        exact ⟨t, rfl, h⟩
      · rintro ⟨t, heq, h⟩
        cases heq
        exact ⟨rfl, t, rfl, h⟩

/-- A run at the end matches what is left. -/
theorem likeMatches_run (s : List Char) : likeMatches [.run] s = true :=
  (likeMatches_run_iff [] s).2 ⟨s, [], (List.append_nil s).symm, rfl⟩

/-! ## Top theorems (proved from the lemmas above) -/

/-- The pattern of a text test is well formed. -/
theorem likeParts?_pattern (op : TextOperator) (needle : String) :
    likeParts? '\\' (op.pattern needle).toList = some (likePartsOf op needle.toList) := by
  have hrun : likeParts? '\\' ['%'] = some [.run] := by decide
  have hfirst (cs : List Char) : likeParts? '\\' ('%' :: cs) = (likeParts? '\\' cs).map (.run :: ·) := by
    rw [likeParts?.eq_def]
    rfl
  unfold TextOperator.pattern
  rw [String.toList_ofList]
  cases op with
  | contains =>
    show likeParts? '\\' ('%' :: (TextOperator.escape needle.toList ++ ['%'])) = _
    rw [hfirst, likeParts?_escape, hrun]
    rfl
  | startsWith =>
    show likeParts? '\\' (TextOperator.escape needle.toList ++ ['%']) = _
    rw [likeParts?_escape, hrun]
    rfl
  | endsWith =>
    show likeParts? '\\' ('%' :: TextOperator.escape needle.toList) = _
    rw [hfirst, ← List.append_nil (TextOperator.escape needle.toList), likeParts?_escape]
    rfl

/-- A text matches the parts of a pattern exactly when it passes the test. -/
theorem likeMatches_likePartsOf (op : TextOperator) (needle s : String) :
    likeMatches (likePartsOf op needle.toList) s.toList = op.admits needle s := by
  rw [Bool.eq_iff_iff]
  cases op with
  | contains =>
    rw [likePartsOf, likeMatches_run_iff, TextOperator.admits, occursIn_iff]
    simp only [likeMatches_exactly_iff, likeMatches_run, and_true]
    constructor
    · rintro ⟨front, t, hs, u, rfl⟩
      exact ⟨front, u, by rw [hs, List.append_assoc]⟩
    · rintro ⟨front, u, hs⟩
      exact ⟨front, needle.toList ++ u, by rw [← hs, List.append_assoc], u, rfl⟩
  | startsWith =>
    rw [likePartsOf, likeMatches_exactly_iff, TextOperator.admits, List.isPrefixOf_iff_prefix]
    simp only [likeMatches_run, and_true]
    constructor
    · rintro ⟨t, ht⟩
      exact ⟨t, ht.symm⟩
    · rintro ⟨t, ht⟩
      exact ⟨t, ht.symm⟩
  | endsWith =>
    rw [likePartsOf, likeMatches_run_iff, TextOperator.admits, List.isSuffixOf_iff_suffix]
    simp only [likeMatches_exactly_iff, likeMatches_nil_iff]
    constructor
    · rintro ⟨front, t, hs, u, rfl, rfl⟩
      rw [List.append_nil] at hs
      exact ⟨front, hs.symm⟩
    · rintro ⟨front, hs⟩
      exact ⟨front, needle.toList, hs.symm, [], (List.append_nil _).symm, rfl⟩

end RecordQuery.Sql
