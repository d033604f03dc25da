import RecordQuery.Path.Chain
import RecordQuery.Proofs.Outcome
import RecordQuery.Proofs.Characters

/-!
# Names in any case

Names are compared in ASCII case first and in full lower case after that. A letter of ASCII and its small
form are the same to all that the lower case of a text depends on, so names that are equal in ASCII case
have one lower case:

    eqIgnoringAsciiCase s t = true  →  lowercase s = lowercase t    (lowercase_eq_of_eqIgnoringAsciiCase)

The name of a property that has been found therefore finds this property again, in a shape of any names:

    shape.find? name = some p  →  shape.find? p.name = some p    (find?_name)

So the names of a chain's steps lead along the very properties that the chain was made of
(`Schema.Leads`, `leads_of_resolve`). Paths in another ASCII case stand for the same chain:

    foldAscii path = foldAscii path'  →  resolve root aliases path = .ok chain  →
      resolve root aliases path' = .ok chain                                   (resolve_congr)
-/

namespace RecordQuery

/-- The steps of the chain are properties, each found by its own name in the shape that the one before
refers to. -/
inductive Schema.Leads (schema : Schema) : Shape → Chain → Prop
  | last {shape : Shape} {p : Property} :
      shape.find? p.name = some p → Leads schema shape ⟨[], p.step⟩
  | cons {shape inner : Shape} {p : Property} {target : String} {chain : Chain} :
      shape.find? p.name = some p → p.type = .record target → schema.shape? target = some inner →
      Leads schema inner chain → Leads schema shape (chain.cons p.step)

namespace Text

/-! ## Letters of ASCII -/

theorem toLower_toLower (c : Char) : c.toLower.toLower = c.toLower :=
  forall_of_ascii (p := fun c => c.toLower.toLower = c.toLower) (by decide +kernel)
    (fun c h => by rw [h, h]) c

/-- A letter has case where its small form has. -/
theorem cased_toLower (c : Char) :
    inRanges c.toLower.toNat casedRanges = inRanges c.toNat casedRanges :=
  forall_of_ascii (p := fun c => inRanges c.toLower.toNat casedRanges = inRanges c.toNat casedRanges)
    (by decide +kernel) (fun c h => by rw [h]) c

/-- A mark is passed over where its small form is. -/
theorem caseIgnorable_toLower (c : Char) :
    inRanges c.toLower.toNat caseIgnorableRanges = inRanges c.toNat caseIgnorableRanges :=
  forall_of_ascii
    (p := fun c => inRanges c.toLower.toNat caseIgnorableRanges = inRanges c.toNat caseIgnorableRanges)
    (by decide +kernel) (fun c h => by rw [h]) c

theorem toNat_toLower_lt_iff (c : Char) : c.toLower.toNat < 128 ↔ c.toNat < 128 :=
  forall_of_ascii (p := fun c => c.toLower.toNat < 128 ↔ c.toNat < 128) (by decide +kernel)
    (fun c h => by rw [h]) c

/-! ## The lower case of names -/

theorem casedFollows_map_toLower (cs : List Char) :
    casedFollows (cs.map Char.toLower) = casedFollows cs := by
  unfold casedFollows
  rw [List.dropWhile_map]
  have hskip : ((fun c : Char => inRanges c.toNat caseIgnorableRanges) ∘ Char.toLower) =
      fun c => inRanges c.toNat caseIgnorableRanges := funext caseIgnorable_toLower
  rw [hskip]
  cases cs.dropWhile fun c => inRanges c.toNat caseIgnorableRanges with
  | nil => rfl
  | cons c rest => exact cased_toLower c

theorem lowerChar_map_toLower (before : List Char) (c : Char) (after : List Char) :
    lowerChar (before.map Char.toLower) c.toLower (after.map Char.toLower) = lowerChar before c after := by
  unfold lowerChar
  by_cases h : c.toNat < 128
  · rw [if_pos h, if_pos ((toNat_toLower_lt_iff c).2 h), toLower_toLower]
  · rw [toLower_of_le (Nat.le_of_not_lt h), if_neg h, if_neg h, casedFollows_map_toLower,
      casedFollows_map_toLower]

theorem lowercaseFrom_map_toLower (before cs : List Char) :
    lowercaseFrom (before.map Char.toLower) (cs.map Char.toLower) = lowercaseFrom before cs := by
  induction cs generalizing before with
  | nil => rfl
  | cons c after ih =>
    rw [List.map_cons, lowercaseFrom, lowercaseFrom, lowerChar_map_toLower, ← ih (c :: before),
      List.map_cons]

theorem lowercase_foldAscii (s : String) : lowercase (foldAscii s) = lowercase s := by
  unfold lowercase foldAscii
  rw [String.toList_ofList]
  exact congrArg String.ofList (lowercaseFrom_map_toLower [] s.toList)

/-- Names that are equal in ASCII case have the same lower case. -/
theorem lowercase_eq_of_eqIgnoringAsciiCase {s t : String} (h : eqIgnoringAsciiCase s t = true) :
    lowercase s = lowercase t := by
  have hfold : foldAscii s = foldAscii t := of_decide_eq_true h
  rw [← lowercase_foldAscii s, hfold, lowercase_foldAscii]

theorem eqIgnoringAsciiCase_refl (s : String) : eqIgnoringAsciiCase s s = true := decide_eq_true rfl

theorem eqIgnoringAsciiCase_congr {s t : String} (h : eqIgnoringAsciiCase s t = true) (name : String) :
    eqIgnoringAsciiCase name s = eqIgnoringAsciiCase name t := by
  have hfold : foldAscii s = foldAscii t := of_decide_eq_true h
  unfold eqIgnoringAsciiCase
  rw [hfold]

theorem foldAscii_eq_empty_iff (s : String) : foldAscii s = "" ↔ s = "" := by
  rw [← String.toList_eq_nil_iff, ← String.toList_eq_nil_iff, foldAscii, String.toList_ofList,
    List.map_eq_nil_iff]

/-! ## Paths -/

/-- Only a point has a point for its small form. -/
theorem toLower_eq_point_iff (c : Char) : c.toLower = '.' ↔ c = '.' :=
  forall_of_ascii (p := fun c => c.toLower = '.' ↔ c = '.') (by decide +kernel) (fun c h => by rw [h]) c

theorem splitList_map_toLower (cs : List Char) :
    splitList '.' (cs.map Char.toLower) = (splitList '.' cs).map (·.map Char.toLower) := by
  induction cs with
  | nil => rfl
  | cons c cs ih =>
    rw [List.map_cons, splitList, splitList, ih]
    by_cases hc : c = '.'
    · rw [if_pos hc, if_pos ((toLower_eq_point_iff c).2 hc)]
      rfl
    · rw [if_neg hc, if_neg fun h => hc ((toLower_eq_point_iff c).1 h)]
      cases splitList '.' cs <;> rfl

/-- A path has its points at the same places in any case. -/
theorem split_foldAscii (s : String) : split '.' (foldAscii s) = (split '.' s).map foldAscii := by
  have hfold (cs : List Char) : String.ofList (cs.map Char.toLower) = foldAscii (String.ofList cs) := by
    rw [foldAscii, String.toList_ofList]
  have hparts : split '.' (foldAscii s) =
      ((splitList '.' s.toList).map (·.map Char.toLower)).map String.ofList := by
    rw [split, foldAscii, String.toList_ofList, splitList_map_toLower]
  rw [hparts, split, List.map_map, List.map_map]
  exact List.map_congr_left fun cs _ => hfold cs

end Text

/-! ## Properties by name -/

variable {shape : Shape} {name other : String} {p : Property}

/-- Names that are equal in ASCII case denote the same property. -/
theorem find?_congr (h : Text.foldAscii name = Text.foldAscii other) :
    shape.find? name = shape.find? other := by
  have heq : Text.eqIgnoringAsciiCase name other = true := decide_eq_true h
  unfold Shape.find? Shape.findAscii? Shape.findLowercase?
  simp only [Text.eqIgnoringAsciiCase_congr heq, Text.lowercase_eq_of_eqIgnoringAsciiCase heq]

theorem get?_congr (aliases : Aliases) (h : Text.foldAscii name = Text.foldAscii other) :
    aliases.get? name = aliases.get? other := by
  have heq : Text.eqIgnoringAsciiCase name other = true := decide_eq_true h
  unfold Aliases.get?
  rw [Text.lowercase_eq_of_eqIgnoringAsciiCase heq]

theorem findAscii?_name (h : shape.findAscii? name = some p) : shape.findAscii? p.name = some p := by
  unfold Shape.findAscii? at h ⊢
  have hp := List.find?_some h
  simp only [Text.eqIgnoringAsciiCase_congr hp]
  exact h

/-- Of the properties with one lower case the first one also comes first in ASCII case. -/
theorem findAscii?_name_of_findLowercase? (h : shape.findLowercase? name = some p) :
    shape.findAscii? p.name = some p := by
  obtain ⟨hp, before, after, hsplit, hbefore⟩ := List.find?_eq_some_iff_append.1 h
  refine List.find?_eq_some_iff_append.2
    ⟨Text.eqIgnoringAsciiCase_refl p.name, before, after, hsplit, fun q hq => ?_⟩
  have hq' := hbefore q hq
  rw [Bool.not_eq_true', ← Bool.not_eq_true] at hq' ⊢
  intro hascii
  rw [decide_eq_true_eq] at hp hq'
  exact hq' ((Text.lowercase_eq_of_eqIgnoringAsciiCase hascii).trans hp)

/-- A property that has been found is found again by its own name. -/
theorem find?_name (h : shape.find? name = some p) : shape.find? p.name = some p := by
  have hascii : shape.findAscii? p.name = some p := by
    rcases Option.or_eq_some_iff.1 h with h | ⟨_, h⟩
    · exact findAscii?_name h
    · exact findAscii?_name_of_findLowercase? h
  unfold Shape.find?
  rw [hascii, Option.some_or]

/-! ## Chains -/

theorem leads_of_walk {schema : Schema} {segment : String} {rest : List String} {chain : Chain}
    (h : schema.walk shape segment rest = .ok chain) : schema.Leads shape chain := by
  induction rest generalizing shape segment chain with
  | nil =>
    unfold Schema.walk at h
    split at h
    · cases h
    · next p hp =>
      cases h
      exact .last (find?_name hp)
  | cons next rest ih =>
    unfold Schema.walk at h
    split at h
    · cases h
    · next p hp =>
      split at h
      · next target htype =>
        split at h
        · cases h
        · next inner hinner =>
          obtain ⟨tail, htail, rfl⟩ := map_eq_ok_iff.1 h
          exact .cons (find?_name hp) htype hinner (ih htail)
      · cases h

/-- A resolved path is a chain of properties that the names of its steps find again. -/
theorem leads_of_resolve {schema : Schema} {root : Shape} {aliases : Aliases} {path : String}
    {chain : Chain} (h : schema.resolve root aliases path = .ok chain) : schema.Leads root chain := by
  unfold Schema.resolve at h
  split at h
  · cases h
  · split at h
    · cases h
    · exact leads_of_walk h

/-! ## Paths in any case -/

theorem segments_congr (aliases : Aliases) {path path' : String}
    (h : Text.foldAscii path = Text.foldAscii path') :
    (Schema.segments aliases path).map Text.foldAscii =
      (Schema.segments aliases path').map Text.foldAscii := by
  have hsplit : (Text.split '.' path).map Text.foldAscii = (Text.split '.' path').map Text.foldAscii := by
    rw [← Text.split_foldAscii, ← Text.split_foldAscii, h]
  unfold Schema.segments
  cases hfirst : Text.split '.' path with
  | nil =>
    rw [hfirst] at hsplit
    rw [List.map_eq_nil_iff.1 hsplit.symm]
  | cons first rest =>
    rw [hfirst] at hsplit
    obtain ⟨first', rest', heq, hhead, hrest⟩ := List.map_eq_cons_iff.1 hsplit.symm
    rw [heq]
    -- an alias gives the same field; a field of the schema is cut where the other is
    have hfield : (Text.split '.' ((aliases.get? first).getD first)).map Text.foldAscii =
        (Text.split '.' ((aliases.get? first').getD first')).map Text.foldAscii := by
      rw [get?_congr aliases hhead]
      cases aliases.get? first with
      | some field => rfl
      | none =>
        rw [← Text.split_foldAscii, ← Text.split_foldAscii]
        exact congrArg (Text.split '.') hhead.symm
    rw [List.map_append, List.map_append, hfield, hrest]

theorem walk_congr {schema : Schema} {segment segment' : String} {rest rest' : List String}
    {chain : Chain} (hsegment : Text.foldAscii segment = Text.foldAscii segment')
    (hrest : rest.map Text.foldAscii = rest'.map Text.foldAscii)
    (h : schema.walk shape segment rest = .ok chain) : schema.walk shape segment' rest' = .ok chain := by
  induction rest generalizing shape segment segment' rest' chain with
  | nil =>
    rw [List.map_eq_nil_iff.1 hrest.symm]
    unfold Schema.walk at h ⊢
    rw [← find?_congr hsegment]
    split at h
    · cases h
    · exact h
  | cons next rest ih =>
    obtain ⟨next', rest', rfl, hnext, hrest⟩ := List.map_eq_cons_iff.1 hrest.symm
    unfold Schema.walk at h ⊢
    rw [← find?_congr hsegment]
    split at h
    · cases h
    · split at h
      · split at h
        · cases h
        · obtain ⟨tail, htail, hchain⟩ := map_eq_ok_iff.1 h
          exact map_eq_ok_iff.2 ⟨tail, ih hnext.symm hrest.symm htail, hchain⟩
      · cases h

/-- Paths that are equal in ASCII case stand for the same chain. -/
theorem resolve_congr {schema : Schema} {root : Shape} {aliases : Aliases} {path path' : String}
    {chain : Chain} (hpath : Text.foldAscii path = Text.foldAscii path')
    (h : schema.resolve root aliases path = .ok chain) :
    schema.resolve root aliases path' = .ok chain := by
  have hsegments := segments_congr aliases hpath
  unfold Schema.resolve at h ⊢
  cases hfirst : Schema.segments aliases path with
  | nil => rw [hfirst] at h; cases h
  | cons first rest =>
    rw [hfirst] at h hsegments
    obtain ⟨first', rest', heq, hhead, hrest⟩ := List.map_eq_cons_iff.1 hsegments.symm
    rw [heq]
    dsimp only at h ⊢
    have hempty : "" ∈ first' :: rest' → "" ∈ first :: rest := by
      intro hmem
      have hfold : "" ∈ (first' :: rest').map Text.foldAscii :=
        List.mem_map.2 ⟨"", hmem, rfl⟩
      rw [List.map_cons, hhead, hrest, ← List.map_cons] at hfold
      obtain ⟨s, hs, hs'⟩ := List.mem_map.1 hfold
      rwa [(Text.foldAscii_eq_empty_iff s).1 hs'] at hs
    split at h
    · cases h
    · next hno =>
      rw [if_neg fun hmem => hno (hempty hmem)]
      exact walk_congr hhead.symm hrest.symm h

end RecordQuery
