import Mathlib.Data.List.Pairwise
import RecordQuery.Proofs.CanonicalPaths
import RecordQuery.Proofs.Shapes
import RecordQuery.Proofs.Walks

/-!
# Properties under their own names

A name stands for one property, in paths and in documents (`Schema.Denotes`). The own name of a property
stands for the first property of the shape that has this name in ASCII case (`exists_firstOf_find?`). This is
the property itself unless another one with such a name is in front of it, and a schema may declare `Age` and
`age` side by side. So all properties of a shape are reached under their own names just if the names differ in
more than the case of ASCII letters:

    Schema.read text = .ok schema  →  shape ∈ schema.shapes  →
      ((∀ p ∈ shape.properties, schema.Denotes shape p.name p)  ↔
        shape.properties.Pairwise fun p q => foldAscii p.name ≠ foldAscii q.name)      (own_names_denote)
-/

namespace RecordQuery

/-- The name stands for the property: it finds it, a path of just this name leads to it, and documents read
the value at its type. -/
structure Schema.Denotes (schema : Schema) (shape : Shape) (name : String) (p : Property) : Prop where
  finds : shape.find? name = some p
  resolves : IsSegment name → schema.resolve shape .empty name = .ok ⟨[], p.step⟩
  reads : ∀ entries, (Document.mk shape entries).record schema name =
    (Document.mk shape entries).holding schema p

variable {schema : Schema} {shape : Shape} {name : String} {p q : Property}

/-! ## Names that find properties -/

/-- A path of one name leads to the property that the name finds. -/
theorem resolve_name (h : shape.find? name = some p) (hname : IsSegment name) :
    schema.resolve shape .empty name = .ok ⟨[], p.step⟩ := by
  have hne : "" ∉ [name] := by simpa using hname.nonempty.symm
  unfold Schema.resolve
  rw [segments_empty, Text.split_of_notMem hname.plain]
  dsimp only
  rw [if_neg hne, Schema.walk, h]

/-- All that a name stands for comes of what it finds. -/
theorem denotes_iff : schema.Denotes shape name p ↔ shape.find? name = some p :=
  ⟨fun h => h.finds, fun h => ⟨h, resolve_name h, fun _ => Document.record_eq h⟩⟩

/-- The own name of a property finds the first property with this name in ASCII case. -/
theorem exists_firstOf_find? (hp : p ∈ shape.properties) :
    ∃ q, FirstOf (fun r => Text.foldAscii r.name = Text.foldAscii p.name) shape.properties q ∧
      shape.find? p.name = some q := by
  have hsome : (shape.findAscii? p.name).isSome :=
    List.find?_isSome.2 ⟨p, hp, Text.eqIgnoringAsciiCase_refl p.name⟩
  obtain ⟨q, hq⟩ := Option.isSome_iff_exists.1 hsome
  have hfirst : FirstOf (fun r => Text.foldAscii r.name = Text.foldAscii p.name) shape.properties q :=
    find?_eq_some_iff_firstOf.1 hq
  exact ⟨q, hfirst, finds_iff.1 (.ascii hfirst)⟩

/-- Properties of different names that each are found by their own name differ in more than case. -/
theorem foldAscii_ne_of_find? (hp : shape.find? p.name = some p) (hq : shape.find? q.name = some q)
    (hne : p.name ≠ q.name) : Text.foldAscii p.name ≠ Text.foldAscii q.name := by
  intro hfold
  rw [find?_congr hfold, hq] at hp
  cases hp
  exact hne rfl

/-- Where names differ in more than case, every property is found by its own name. -/
theorem find?_own_name
    (h : shape.properties.Pairwise fun p q => Text.foldAscii p.name ≠ Text.foldAscii q.name)
    (hp : p ∈ shape.properties) : shape.find? p.name = some p := by
  obtain ⟨q, hfirst, hq⟩ := exists_firstOf_find? hp
  have hsymm : Std.Symm fun p q : Property => Text.foldAscii p.name ≠ Text.foldAscii q.name :=
    ⟨fun _ _ => Ne.symm⟩
  have hqp : q = p := by
    by_contra hne
    exact h.forall hfirst.mem hp hne hfirst.holds
  rw [hq, hqp]

/-! ## Top theorem (proved from the lemmas above) -/

/-- The properties of a shape that is read from a text all are reached under their own names just if no two of
the names are equal in ASCII case. Of properties whose names are equal in ASCII case, each name stands for the
first. -/
theorem own_names_denote {text : String} (hread : Schema.read text = .ok schema)
    (hshape : shape ∈ schema.shapes) :
    ((∀ p ∈ shape.properties, schema.Denotes shape p.name p) ↔
        shape.properties.Pairwise fun p q => Text.foldAscii p.name ≠ Text.foldAscii q.name) ∧
      ∀ p ∈ shape.properties, ∃ q,
        FirstOf (fun r => Text.foldAscii r.name = Text.foldAscii p.name) shape.properties q ∧
          schema.Denotes shape p.name q := by
  have hnames : shape.properties.Pairwise fun p q => p.name ≠ q.name :=
    List.pairwise_map.1 (Schema.nodup_names_of_read hread hshape)
  refine ⟨⟨fun hall => ?_, fun hpairs p hp => denotes_iff.2 (find?_own_name hpairs hp)⟩, fun p hp => ?_⟩
  · refine hnames.imp_of_mem fun hp hq hne => ?_
    exact foldAscii_ne_of_find? (hall _ hp).finds (hall _ hq).finds hne
  · obtain ⟨q, hfirst, hq⟩ := exists_firstOf_find? hp
    exact ⟨q, hfirst, denotes_iff.2 hq⟩

/-- Names that differ in the case of a letter outside ASCII are kept apart, here by a document that has one of
the two. -/
theorem own_names_denote_accented :
    let text := "shapes:\n  S:\n    properties:\n      Âge: i32\n      âge: string\n"
    let big : Property := ⟨"Âge", .int32, false⟩
    let small : Property := ⟨"âge", .string, false⟩
    let shape : Shape := ⟨"S", [big, small], []⟩
    let schema : Schema := ⟨[shape], none⟩
    Schema.read text = .ok schema ∧ shape ∈ schema.shapes ∧
      schema.resolve shape .empty "âge" = .ok ⟨[], small.step⟩ ∧
      (Document.mk shape [(.string "âge", .int 7)]).record schema "âge" = .scalar (.text "7") := by
  intro text big small shape schema
  have hread : Schema.read text = .ok schema := toOption_eq_some_iff.1 (by decide +kernel)
  have hshape : shape ∈ schema.shapes := List.mem_cons_self
  have hpairs : shape.properties.Pairwise fun p q => Text.foldAscii p.name ≠ Text.foldAscii q.name := by
    decide +kernel
  have hsmall : schema.Denotes shape "âge" small :=
    (own_names_denote hread hshape).1.2 hpairs small (by decide +kernel)
  refine ⟨hread, hshape, hsmall.resolves ⟨by decide, by decide⟩, ?_⟩
  rw [hsmall.reads]
  rfl

/-- A shape that is read declares `age` behind `Age`. The name `age` stands for `Age`, so that nothing leads
to the text `age`: what a document is asked for by this name is the number. -/
theorem shadowed_property_not_found :
    let text := "shapes:\n  S:\n    properties:\n      Age: i32\n      age: string\n"
    let big : Property := ⟨"Age", .int32, false⟩
    let small : Property := ⟨"age", .string, false⟩
    let shape : Shape := ⟨"S", [big, small], []⟩
    let schema : Schema := ⟨[shape], none⟩
    Schema.read text = .ok schema ∧ shape ∈ schema.shapes ∧ small ∈ shape.properties ∧
      shape.find? small.name = some big ∧ shape.find? small.name ≠ some small ∧
      schema.resolve shape .empty small.name ≠ .ok ⟨[], small.step⟩ ∧
      (Document.mk shape [(.string "Age", .int 7), (.string "age", .string "seven")]).record schema
        small.name = .scalar (.int 7) := by
  intro text big small shape schema
  have hread : Schema.read text = .ok schema := toOption_eq_some_iff.1 (by decide +kernel)
  have hbig : schema.Denotes shape small.name big := denotes_iff.2 (by decide +kernel)
  refine ⟨hread, List.mem_cons_self, by decide +kernel, hbig.finds, by decide +kernel, ?_, ?_⟩
  · rw [hbig.resolves ⟨by decide, by decide⟩]
    intro heq
    exact absurd (Except.ok.inj heq) (by decide +kernel)
  · rw [hbig.reads]
    rfl

end RecordQuery
