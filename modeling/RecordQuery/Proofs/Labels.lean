import RecordQuery.Path.Aliases
import RecordQuery.Proofs.FirstMatch

/-!
# Labels of fields

Labels are given fields in pairs. Of the pairs of a label, whatever the case of its letters, the last one
counts (`Relabels`), and aliases that were built by inserting the pairs (`Aliases.Built`) find just this one:

    aliases.Built pairs  →
      (Relabels pairs label field ↔ (aliases.get? label).getD label = field)    (relabels_iff)
-/

namespace RecordQuery

/-- The pair is of the label: their full lower case is the same. -/
def IsOfLabel (label : String) (p : String × String) : Prop := Text.lowercase p.1 = Text.lowercase label

instance (label : String) : DecidablePred (IsOfLabel label) := fun p =>
  inferInstanceAs (Decidable (Text.lowercase p.1 = Text.lowercase label))

/-- The pairs make a label the field of the last pair that is of this label, and leave any other text as it
is. -/
inductive Relabels (pairs : List (String × String)) (label : String) : String → Prop
  | field {p : String × String} : LastOf (IsOfLabel label) pairs p → Relabels pairs label p.2
  | itself : (∀ p ∈ pairs, ¬ IsOfLabel label p) → Relabels pairs label label

/-- The aliases are what insertions have made of an empty map. The pairs have been inserted in this order,
one at a time or many. -/
inductive Aliases.Built : Aliases → List (String × String) → Prop
  | empty : Built .empty []
  | insert {a : Aliases} {pairs : List (String × String)} (label field : String) :
      Built a pairs → Built (a.insert label field) (pairs ++ [(label, field)])
  | extend {a : Aliases} {pairs : List (String × String)} (more : List (String × String)) :
      Built a pairs → Built (a.extend more) (pairs ++ more)

/-- The last of the fields that are given to a label, in whatever case. -/
def lastField? (label : String) (pairs : List (String × String)) : Option String :=
  (pairs.reverse.find? fun p => Text.lowercase p.1 = Text.lowercase label).map (·.2)

/-! ## The last field -/

theorem lastField?_cons (label : String) (p : String × String) (pairs : List (String × String)) :
    lastField? label (p :: pairs) = (lastField? label pairs).or
      (if Text.lowercase p.1 = Text.lowercase label then some p.2 else none) := by
  unfold lastField?
  rw [List.reverse_cons, List.find?_append]
  cases pairs.reverse.find? fun p => Text.lowercase p.1 = Text.lowercase label with
  | some q => rfl
  | none =>
    by_cases h : Text.lowercase p.1 = Text.lowercase label <;> simp [h]

theorem lastField?_append (label : String) (pairs more : List (String × String)) :
    lastField? label (pairs ++ more) = (lastField? label more).or (lastField? label pairs) := by
  unfold lastField?
  rw [List.reverse_append, List.find?_append]
  cases more.reverse.find? fun p => Text.lowercase p.1 = Text.lowercase label <;> rfl

theorem lastField?_getD_eq_iff {pairs : List (String × String)} {label field : String} :
    (lastField? label pairs).getD label = field ↔ Relabels pairs label field := by
  have hlast {p : String × String} : pairs.reverse.find? (fun p => decide (IsOfLabel label p)) = some p ↔
      LastOf (IsOfLabel label) pairs p := find?_reverse_eq_some_iff_lastOf
  have hnone : pairs.reverse.find? (fun p => decide (IsOfLabel label p)) = none ↔
      ∀ p ∈ pairs, ¬ IsOfLabel label p := by simp
  change ((pairs.reverse.find? fun p => decide (IsOfLabel label p)).map (·.2)).getD label = field ↔ _
  constructor
  · rintro rfl
    cases hp : pairs.reverse.find? fun p => decide (IsOfLabel label p) with
    | some p => exact .field (hlast.1 hp)
    | none => exact .itself (hnone.1 hp)
  · rintro (hp | hp)
    · rw [hlast.2 hp]
      rfl
    · rw [hnone.2 hp]
      rfl

/-! ## Insertions -/

namespace Aliases

theorem get?_insert (a : Aliases) (label field other : String) :
    (a.insert label field).get? other =
      if Text.lowercase label = Text.lowercase other then some field else a.get? other := by
  unfold insert get?
  split
  · next h => rw [← h, Entries.lookup_put_self]
  · next h => exact Entries.lookup_put_of_ne (Ne.symm h) _ _

/-- Of all fields of a label the one that was added last counts. -/
theorem get?_extend (a : Aliases) (pairs : List (String × String)) (label : String) :
    (a.extend pairs).get? label = (lastField? label pairs).or (a.get? label) := by
  induction pairs generalizing a with
  | nil => rfl
  | cons p pairs ih =>
    have hstep : (a.extend (p :: pairs)).get? label =
        (lastField? label pairs).or ((a.insert p.1 p.2).get? label) := ih _
    rw [hstep, get?_insert, lastField?_cons, Option.or_assoc]
    split <;> rfl

theorem get?_ofList (pairs : List (String × String)) (label : String) :
    (ofList pairs).get? label = lastField? label pairs := by
  unfold ofList
  rw [get?_extend]
  exact Option.or_none

/-- However the aliases were built, the pairs tell the field of a label. -/
theorem Built.get?_eq {a : Aliases} {pairs : List (String × String)} (h : a.Built pairs)
    (label : String) : a.get? label = lastField? label pairs := by
  induction h with
  | empty => rfl
  | @insert a pairs other field _ ih =>
    have hlast : lastField? label [(other, field)] =
        if Text.lowercase other = Text.lowercase label then some field else none :=
      (lastField?_cons label (other, field) []).trans Option.none_or
    rw [get?_insert, lastField?_append, hlast, ih]
    split <;> rfl
  | extend more _ ih => rw [get?_extend, lastField?_append, ih]

/-- Aliases relabel texts as the pairs do that they were built of. -/
theorem Built.relabels_iff {a : Aliases} {pairs : List (String × String)} (h : a.Built pairs)
    {label field : String} : Relabels pairs label field ↔ (a.get? label).getD label = field := by
  rw [h.get?_eq, lastField?_getD_eq_iff]

end Aliases

end RecordQuery
