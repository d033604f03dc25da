/-!
# The first and the last of a list

`FirstOf P xs x` says that `x` is the first member of `xs` with the property, and `LastOf P xs x` that it is
the last one. A search from the front finds the first (`find?_eq_some_iff_firstOf`), a search from the back the
last (`find?_reverse_eq_some_iff_lastOf`).
-/

namespace RecordQuery

variable {α : Type} {P : α → Prop} {xs ys : List α} {x : α}

/-- The member has the property, and none in front of it does. -/
def FirstOf (P : α → Prop) (xs : List α) (x : α) : Prop :=
  ∃ before after, xs = before ++ x :: after ∧ P x ∧ ∀ y ∈ before, ¬ P y

/-- The member has the property, and none behind it does. -/
def LastOf (P : α → Prop) (xs : List α) (x : α) : Prop :=
  ∃ before after, xs = before ++ x :: after ∧ P x ∧ ∀ y ∈ after, ¬ P y

theorem FirstOf.mem (h : FirstOf P xs x) : x ∈ xs := by
  obtain ⟨before, after, rfl, -, -⟩ := h
  simp

theorem FirstOf.holds (h : FirstOf P xs x) : P x := by
  obtain ⟨_, _, -, hx, -⟩ := h
  exact hx

theorem find?_eq_some_iff_firstOf [DecidablePred P] :
    xs.find? (fun y => decide (P y)) = some x ↔ FirstOf P xs x := by
  rw [List.find?_eq_some_iff_append]
  constructor
  · rintro ⟨hx, before, after, hsplit, hbefore⟩
    exact ⟨before, after, hsplit, of_decide_eq_true hx, fun y hy => by simpa using hbefore y hy⟩
  · rintro ⟨before, after, hsplit, hx, hbefore⟩
    exact ⟨decide_eq_true hx, before, after, hsplit, fun y hy => by simpa using hbefore y hy⟩

theorem firstOf_reverse_iff : FirstOf P xs.reverse x ↔ LastOf P xs x := by
  constructor
  · rintro ⟨before, after, hsplit, hx, hbefore⟩
    refine ⟨after.reverse, before.reverse, ?_, hx, fun y hy => hbefore y (List.mem_reverse.1 hy)⟩
    rw [← List.reverse_reverse xs, hsplit]
    simp
  · rintro ⟨before, after, rfl, hx, hafter⟩
    refine ⟨after.reverse, before.reverse, ?_, hx, fun y hy => hafter y (List.mem_reverse.1 hy)⟩
    simp

theorem find?_reverse_eq_some_iff_lastOf [DecidablePred P] :
    xs.reverse.find? (fun y => decide (P y)) = some x ↔ LastOf P xs x := by
  rw [find?_eq_some_iff_firstOf, firstOf_reverse_iff]

/-- The first of two lists is in the second one only when the first one has none. -/
theorem firstOf_append_iff :
    FirstOf P (xs ++ ys) x ↔ FirstOf P xs x ∨ (∀ y ∈ xs, ¬ P y) ∧ FirstOf P ys x := by
  constructor
  · rintro ⟨before, after, hsplit, hx, hbefore⟩
    rcases List.append_eq_append_iff.1 hsplit with ⟨mid, rfl, hys⟩ | ⟨mid, rfl, hmid⟩
    · refine .inr ⟨fun y hy => hbefore y (List.mem_append_left _ hy), mid, after, hys, hx, ?_⟩
      exact fun y hy => hbefore y (List.mem_append_right _ hy)
    · cases mid with
      | nil =>
        refine .inr ⟨fun y hy => hbefore y (by simpa using hy), [], after, ?_, hx, by simp⟩
        simpa using hmid.symm
      | cons z mid =>
        rw [List.cons_append] at hmid
        obtain ⟨rfl, rfl⟩ := List.cons.inj hmid
        exact .inl ⟨before, mid, rfl, hx, hbefore⟩
  · rintro (⟨before, after, rfl, hx, hbefore⟩ | ⟨hxs, before, after, rfl, hx, hbefore⟩)
    · exact ⟨before, after ++ ys, by simp, hx, hbefore⟩
    · refine ⟨xs ++ before, after, by simp, hx, fun y hy => ?_⟩
      rcases List.mem_append.1 hy with hy | hy
      · exact hxs y hy
      · exact hbefore y hy

theorem exists_firstOf_append_iff {Q : α → Prop} :
    (∃ x, FirstOf P (xs ++ ys) x ∧ Q x) ↔
      (∃ x, FirstOf P xs x ∧ Q x) ∨ (∀ y ∈ xs, ¬ P y) ∧ ∃ x, FirstOf P ys x ∧ Q x := by
  simp only [firstOf_append_iff, or_and_right, exists_or, and_assoc, exists_and_left]

theorem firstOf_singleton_iff {y : α} : FirstOf P [y] x ↔ P y ∧ x = y := by
  constructor
  · intro h
    obtain rfl := List.mem_singleton.1 h.mem
    exact ⟨h.holds, rfl⟩
  · rintro ⟨hy, rfl⟩
    exact ⟨[], [], rfl, hy, by simp⟩

end RecordQuery
