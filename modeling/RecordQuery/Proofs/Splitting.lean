import RecordQuery.Text.Split

/-!
# Cutting and joining

A text is cut into parts without marks, which make it up again with the marks between them, and it is the only
text that does:

    between.intercalate (split mark s) = s                                          (intercalate_split)
    split mark (between.intercalate parts) = parts,   for parts without the mark    (split_intercalate)

At its first mark a list is cut into what stands before and behind it (`cut?_eq_some_iff`).
-/

namespace RecordQuery.Text

/-! ## At all marks -/

section Lists

variable {α : Type} [DecidableEq α] {mark : α} {part as : List α}

theorem splitList_eq_splitOn (mark : α) (as : List α) : splitList mark as = as.splitOn mark := by
  induction as with
  | nil => rfl
  | cons a as ih =>
    rw [splitList, ih, List.splitOn_cons_eq_if_modifyHead]
    by_cases h : a = mark
    · rw [if_pos h, if_pos (beq_iff_eq.2 h)]
    · rw [if_neg h, if_neg fun hbeq => h (beq_iff_eq.1 hbeq)]
      cases hparts : as.splitOn mark with
      | nil => exact absurd hparts (List.splitOn_ne_nil mark as)
      | cons part parts => rfl

/-- The marks belong to no part. -/
theorem notMem_of_mem_splitList (h : part ∈ splitList mark as) : mark ∉ part := by
  induction as generalizing part with
  | nil =>
    rw [List.mem_singleton.1 h]
    exact List.not_mem_nil
  | cons a as ih =>
    rw [splitList] at h
    split at h
    · rcases List.mem_cons.1 h with rfl | h
      · exact List.not_mem_nil
      · exact ih h
    · next hne =>
      have ha (rest : List α) (hrest : mark ∉ rest) : mark ∉ a :: rest :=
        List.not_mem_cons_of_ne_of_not_mem (Ne.symm hne) hrest
      split at h
      · rw [List.mem_singleton.1 h]
        exact ha [] List.not_mem_nil
      · next first parts hparts =>
        rw [hparts] at ih
        rcases List.mem_cons.1 h with rfl | h
        · exact ha first (ih List.mem_cons_self)
        · exact ih (List.mem_cons_of_mem first h)

end Lists

section Texts

variable {mark : Char} {between : String} {s : String}

theorem toList_parts (mark : Char) (s : String) :
    (split mark s).map String.toList = s.toList.splitOn mark := by
  unfold split
  rw [List.map_map, splitList_eq_splitOn]
  exact (List.map_congr_left fun _ _ => String.toList_ofList).trans (List.map_id _)

theorem split_ne_nil (mark : Char) (s : String) : split mark s ≠ [] := by
  intro hnil
  have hparts := toList_parts mark s
  rw [hnil] at hparts
  exact List.splitOn_ne_nil mark s.toList hparts.symm

theorem notMem_of_mem_split {part : String} (h : part ∈ split mark s) : mark ∉ part.toList := by
  obtain ⟨cs, hcs, rfl⟩ := List.mem_map.1 h
  rw [String.toList_ofList]
  exact notMem_of_mem_splitList hcs

theorem split_of_notMem (h : mark ∉ s.toList) : split mark s = [s] := by
  unfold split
  rw [splitList_eq_splitOn, List.splitOn_eq_singleton h, List.map_singleton, String.ofList_toList]

variable (hbetween : between.toList = [mark])

include hbetween

theorem split_append (s t : String) : split mark (s ++ between ++ t) = split mark s ++ split mark t := by
  have hmark : (s ++ between ++ t).toList = s.toList ++ mark :: t.toList := by simp [hbetween]
  unfold split
  rw [hmark, splitList_eq_splitOn, List.splitOn_append_cons_self, List.map_append,
    ← splitList_eq_splitOn, ← splitList_eq_splitOn]

theorem intercalate_split (s : String) : between.intercalate (split mark s) = s := by
  rw [← String.toList_inj, String.toList_intercalate, toList_parts, hbetween]
  exact List.intercalate_splitOn mark

theorem split_intercalate {parts : List String} (hne : parts ≠ [])
    (hplain : ∀ part ∈ parts, mark ∉ part.toList) : split mark (between.intercalate parts) = parts := by
  have hparts : (between.intercalate parts).toList.splitOn mark = parts.map String.toList := by
    rw [String.toList_intercalate, hbetween]
    apply List.splitOn_intercalate
    · intro cs hcs
      obtain ⟨part, hpart, rfl⟩ := List.mem_map.1 hcs
      exact hplain part hpart
    · intro hnil
      exact hne (List.map_eq_nil_iff.1 hnil)
  rw [← toList_parts] at hparts
  exact (List.map_inj_right fun _ _ => String.toList_inj.1).1 hparts

end Texts

/-! ## At the first mark -/

variable {mark : Char} {cs front rest : List Char}

/-- The first mark is the one behind a part without marks. -/
theorem cut?_append (h : mark ∉ front) (rest : List Char) :
    cut? mark (front ++ mark :: rest) = some (front, rest) := by
  have hfront : ∀ c ∈ front, decide (c ≠ mark) = true := by
    intro c hc
    apply decide_eq_true
    rintro rfl
    exact h hc
  unfold cut?
  rw [List.dropWhile_append_of_pos hfront, List.dropWhile_cons_of_neg (by simp),
    List.takeWhile_append_of_pos hfront, List.takeWhile_cons_of_neg (by simp), List.append_nil]

theorem cut?_eq_none (h : mark ∉ cs) : cut? mark cs = none := by
  have hall : ∀ c ∈ cs, decide (c ≠ mark) = true := by
    intro c hc
    apply decide_eq_true
    rintro rfl
    exact h hc
  have hdrop : (cs ++ []).dropWhile (· ≠ mark) = [] := List.dropWhile_append_of_pos hall
  rw [List.append_nil] at hdrop
  unfold cut?
  rw [hdrop]

theorem cut?_eq_some_iff : cut? mark cs = some (front, rest) ↔ mark ∉ front ∧ cs = front ++ mark :: rest := by
  constructor
  · intro h
    by_cases hmark : mark ∈ cs
    · obtain ⟨first, second, hsplit, hfirst⟩ := List.eq_append_cons_of_mem hmark
      rw [hsplit, cut?_append hfirst] at h
      cases h
      exact ⟨hfirst, hsplit⟩
    · rw [cut?_eq_none hmark] at h
      cases h
  · rintro ⟨hmark, rfl⟩
    exact cut?_append hmark rest

end RecordQuery.Text
