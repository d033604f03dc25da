/-!
# Entries by name

A list of pairs of a name and a value stands for a map that keeps the order in which names first came.
`put` changes the value of a name in its place.

    (put name value entries).lookup name = some value    (lookup_put_self)
    (put name value entries).lookup other = entries.lookup other, for other names    (lookup_put_of_ne)

Every name comes once in what pairs make up (`nodup_ofList`), and where that is so a look-up gives just the
value that stands beside the name (`lookup_eq_some_iff`).
-/

namespace RecordQuery.Entries

variable {α : Type}

/-! ## Algorithm -/

/-- Sets the value of a name, in the place of its entry or else at the end. -/
def put (name : String) (value : α) : List (String × α) → List (String × α)
  | [] => [(name, value)]
  | (n, v) :: rest => if n = name then (name, value) :: rest else (n, v) :: put name value rest

/-- The entries that the pairs make up. Of pairs with one name the last one counts, at the place of the
first. -/
def ofList (pairs : List (String × α)) : List (String × α) :=
  pairs.foldl (fun entries p => put p.1 p.2 entries) []

/-! ## Lemmas -/

theorem lookup_put_self (name : String) (value : α) (entries : List (String × α)) :
    (put name value entries).lookup name = some value := by
  induction entries with
  | nil => simp [put]
  | cons e rest ih =>
    obtain ⟨n, v⟩ := e
    by_cases h : n = name
    · simp [put, h]
    · have hb : (name == n) = false := by simpa using Ne.symm h
      simp [put, h, List.lookup_cons, hb, ih]

theorem lookup_put_of_ne {name other : String} (h : other ≠ name) (value : α)
    (entries : List (String × α)) :
    (put name value entries).lookup other = entries.lookup other := by
  have hb : (other == name) = false := by simpa using h
  induction entries with
  | nil => simp [put, List.lookup_cons, hb]
  | cons e rest ih =>
    obtain ⟨n, v⟩ := e
    by_cases he : n = name
    · simp [put, he, List.lookup_cons, hb]
    · simp [put, he, List.lookup_cons, ih]

theorem eq_or_mem_of_mem_put {name : String} {value : α} {entries : List (String × α)} {e : String × α}
    (h : e ∈ put name value entries) : e = (name, value) ∨ e ∈ entries := by
  induction entries with
  | nil => exact .inl (List.mem_singleton.1 h)
  | cons e' rest ih =>
    rw [put] at h
    split at h
    · rcases List.mem_cons.1 h with h | h
      · exact .inl h
      · exact .inr (List.mem_cons_of_mem e' h)
    · rcases List.mem_cons.1 h with h | h
      · exact .inr (h ▸ List.mem_cons_self)
      · exact (ih h).imp_right (List.mem_cons_of_mem e')

theorem nodup_put {entries : List (String × α)} (h : (entries.map (·.1)).Nodup) (name : String)
    (value : α) : ((put name value entries).map (·.1)).Nodup := by
  induction entries with
  | nil => simp [put]
  | cons e rest ih =>
    obtain ⟨n, v⟩ := e
    obtain ⟨hn, hrest⟩ := List.nodup_cons.1 h
    rw [put]
    split
    · next heq => exact List.nodup_cons.2 ⟨heq ▸ hn, hrest⟩
    · next hne =>
      refine List.nodup_cons.2 ⟨fun hmem => ?_, ih hrest⟩
      obtain ⟨e', he', heq⟩ := List.mem_map.1 hmem
      rcases eq_or_mem_of_mem_put he' with rfl | he'
      · exact hne heq.symm
      · exact hn (List.mem_map.2 ⟨e', he', heq⟩)

theorem mem_of_mem_ofList {pairs : List (String × α)} {e : String × α} (h : e ∈ ofList pairs) :
    e ∈ pairs := by
  have hfold (pairs entries : List (String × α))
      (h : e ∈ pairs.foldl (fun entries p => put p.1 p.2 entries) entries) : e ∈ entries ∨ e ∈ pairs := by
    induction pairs generalizing entries with
    | nil => exact .inl h
    | cons p pairs ih =>
      rcases ih (put p.1 p.2 entries) h with h | h
      · rcases eq_or_mem_of_mem_put h with rfl | h
        · exact .inr List.mem_cons_self
        · exact .inl h
      · exact .inr (List.mem_cons_of_mem p h)
  exact (hfold pairs [] h).resolve_left List.not_mem_nil

/-- What pairs make up has every name once. -/
theorem nodup_ofList (pairs : List (String × α)) : ((ofList pairs).map (·.1)).Nodup := by
  have hfold (entries : List (String × α)) (h : (entries.map (·.1)).Nodup) :
      ((pairs.foldl (fun entries p => put p.1 p.2 entries) entries).map (·.1)).Nodup := by
    induction pairs generalizing entries with
    | nil => exact h
    | cons p pairs ih => exact ih (put p.1 p.2 entries) (nodup_put h p.1 p.2)
  exact hfold [] List.nodup_nil

/-- Where every name comes once, a look-up gives the value beside the name. -/
theorem lookup_eq_some_iff {entries : List (String × α)} (h : (entries.map (·.1)).Nodup) {name : String}
    {value : α} : entries.lookup name = some value ↔ (name, value) ∈ entries := by
  induction entries with
  | nil => simp
  | cons e rest ih =>
    obtain ⟨n, v⟩ := e
    obtain ⟨hn, hrest⟩ := List.nodup_cons.1 h
    rw [List.lookup_cons, List.mem_cons, ← ih hrest]
    by_cases heq : name = n
    · subst heq
      have hno : rest.lookup name ≠ some value := by
        intro hlookup
        exact hn (List.mem_map.2 ⟨(name, value), (ih hrest).1 hlookup, rfl⟩)
      simp [hno, eq_comm]
    · have hb : (name == n) = false := by simpa using heq
      simp [hb, heq]

end RecordQuery.Entries
