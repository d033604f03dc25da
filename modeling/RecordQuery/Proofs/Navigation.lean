import RecordQuery.Proofs.Shapes
import RecordQuery.Proofs.Walks

/-!
# Navigation in valid schemas

Paths and documents go from record to record, and look up the shape of the next record by the name that a
property refers to. In a closed schema the name leads to a shape of the schema, where the same holds again.
So no path runs into a missing shape, however long it is (`walk_ne_unknownRecordType`), and all documents that
are reached have shapes of the schema (`shape_mem_of_reach?`), whose references to mappings are records:

    the schema is read, or built and valid  →  schema.Navigable                (valid_navigable)
-/

namespace RecordQuery

/-- Whoever navigates in the schema finds the shapes that it refers to. -/
structure Schema.Navigable (schema : Schema) : Prop where
  /-- A shape is found under its own name, and under no other. -/
  stored : ∀ name shape, schema.shape? name = some shape ↔ shape ∈ schema.shapes ∧ shape.name = name
  /-- There is no shape to start from only if no root is named. -/
  rooted : ∀ e, schema.root none = .error e ↔ schema.rootName = none ∧ e = .missingRoot
  resolves : ∀ root ∈ schema.shapes, ∀ aliases path field target,
    schema.resolve root aliases path ≠ .error (.unknownRecordType field target)
  /-- In a document that some names lead to, a mapping at a reference is a record of the shape that is
  referred to. -/
  enters : ∀ root ∈ schema.shapes, ∀ entries names d,
    (Document.mk root entries).reach? schema names = some d →
    ∀ name p target inner, d.shape.find? name = some p → p.type = .record target →
      Document.lookup? p.name d.entries = some (.mapping inner) →
      ∃ shape, schema.shape? target = some shape ∧
        ((Document.mk root entries).record schema).follow name names =
          .record ((Document.mk shape inner).record schema)

variable {schema : Schema}

/-! ## Roots -/

theorem root_eq_error_iff (h : schema.Closed) (e : SchemaError) :
    schema.root none = .error e ↔ schema.rootName = none ∧ e = .missingRoot := by
  unfold Schema.root
  rw [Option.none_or]
  cases hname : schema.rootName with
  | none =>
    rw [Except.error.injEq, eq_comm]
    exact (and_iff_right rfl).symm
  | some name =>
    obtain ⟨root, hroot⟩ := h.root name hname
    dsimp only
    rw [hroot]
    constructor
    · rintro ⟨⟩
    · rintro ⟨hnone, _⟩
      cases hnone

/-! ## Paths -/

/-- A walk from a shape of a closed schema stays in the schema. -/
theorem walk_ne_unknownRecordType (h : schema.Closed) {shape : Shape} (hshape : shape ∈ schema.shapes)
    (segment : String) (rest : List String) (field target : String) :
    schema.walk shape segment rest ≠ .error (.unknownRecordType field target) := by
  induction rest generalizing shape segment with
  | nil =>
    unfold Schema.walk
    split <;> simp
  | cons next rest ih =>
    unfold Schema.walk
    split
    · simp
    · next p hp =>
      split
      · next name htype =>
        obtain ⟨inner, hinner⟩ := h.references shape hshape p (mem_of_find? hp) name htype
        rw [hinner]
        dsimp only
        intro hfail
        exact ih (Schema.mem_of_shape? hinner) next (map_eq_error_iff.1 hfail)
      · simp

theorem resolve_ne_unknownRecordType (h : schema.Closed) {root : Shape} (hroot : root ∈ schema.shapes)
    (aliases : Aliases) (path field target : String) :
    schema.resolve root aliases path ≠ .error (.unknownRecordType field target) := by
  unfold Schema.resolve
  split
  · simp
  · next first rest _ =>
    split
    · simp
    · exact walk_ne_unknownRecordType h hroot first rest field target

/-! ## Documents -/

namespace Document

theorem shape_mem_of_enter? {d next : Document} {name : String} (h : d.enter? schema name = some next) :
    next.shape ∈ schema.shapes := by
  obtain ⟨p, _, hnext⟩ := Option.bind_eq_some_iff.1 h
  unfold referred? at hnext
  split at hnext
  · obtain ⟨shape, hshape, rfl⟩ := Option.map_eq_some_iff.1 hnext
    exact Schema.mem_of_shape? hshape
  · cases hnext

/-- Documents that names lead to have shapes of the schema. -/
theorem shape_mem_of_reach? {d here : Document} {names : List String} (hd : d.shape ∈ schema.shapes)
    (h : d.reach? schema names = some here) : here.shape ∈ schema.shapes := by
  induction names generalizing d with
  | nil =>
    cases h
    exact hd
  | cons name names ih =>
    rw [reach?_cons] at h
    obtain ⟨next, hnext, h⟩ := Option.bind_eq_some_iff.1 h
    exact ih (shape_mem_of_enter? hnext) h

/-- A mapping at a reference is a record of the shape that is referred to. -/
theorem record_of_mapping (h : schema.Closed) {d : Document} (hd : d.shape ∈ schema.shapes)
    {name target : String} {p : Property} {inner : List (Yaml × Yaml)}
    (hp : d.shape.find? name = some p) (htype : p.type = .record target)
    (hinner : lookup? p.name d.entries = some (.mapping inner)) :
    ∃ shape, schema.shape? target = some shape ∧
      d.record schema name = .record ((Document.mk shape inner).record schema) := by
  obtain ⟨shape, hshape⟩ := h.references d.shape hd p (mem_of_find? hp) target htype
  refine ⟨shape, hshape, ?_⟩
  rw [record_eq hp, holding, referred?_of_mapping htype hinner, hshape]
  rfl

end Document

/-! ## Top theorem (proved from the lemmas above) -/

/-- A valid schema has no dangling navigation. In a schema that is read, or that is built by inserting shapes
and passes validation, every walk finds the shapes that it is referred to; of shapes of one name the last one
that was inserted counts. If validation of a built schema complains of a reference, then there is such a
property in the shape of this name, and its target is missing. -/
theorem valid_navigable (schema : Schema) :
    ((∃ text, Schema.read text = .ok schema) ∨ schema.Built ∧ schema.validate = .ok () → schema.Navigable) ∧
      (∀ shape name, (schema.insert shape).shape? name =
        if shape.name = name then some shape else schema.shape? name) ∧
      (schema.Built → ∀ name property target,
        schema.validate = .error (.unknownShape name property target) →
        ∃ shape, schema.shape? name = some shape ∧
          (∃ p ∈ shape.properties, p.name = property ∧ p.type = .record target) ∧
          schema.shape? target = none) := by
  refine ⟨fun hvalid => ?_, schema.shape?_insert, fun hbuilt name property target hvalidate => ?_⟩
  · obtain ⟨hbuilt, hclosed⟩ : schema.Built ∧ schema.Closed := by
      rcases hvalid with ⟨text, htext⟩ | ⟨hbuilt, hvalidate⟩
      · exact ⟨Schema.built_of_read htext, Schema.closed_of_read htext⟩
      · exact ⟨hbuilt, Schema.validate_eq_ok_iff.1 hvalidate⟩
    refine ⟨fun name shape => hbuilt.shape?_eq_some_iff, root_eq_error_iff hclosed,
      fun root hroot => resolve_ne_unknownRecordType hclosed hroot, ?_⟩
    intro root hroot entries names d hreach name p target inner hp htype hinner
    have hd : d.shape ∈ schema.shapes := Document.shape_mem_of_reach? hroot hreach
    obtain ⟨shape, hshape, hrecord⟩ := Document.record_of_mapping hclosed hd hp htype hinner
    refine ⟨shape, hshape, ?_⟩
    rw [Document.follow_record, hreach]
    exact hrecord
  · obtain ⟨shape, hshape, hname, p, hp, hproperty, htype, hnone⟩ :=
      Schema.exists_of_validate_unknownShape hvalidate
    exact ⟨shape, hbuilt.shape?_eq_some_iff.2 ⟨hshape, hname⟩, ⟨p, hp, hproperty, htype⟩, hnone⟩

/-- A shape that refers to itself: a document is entered twice, in any case of the names. The shape that is
inserted behind it refers to it too, and without it this reference dangles. -/
theorem valid_navigable_boss :
    let text := "root: Person\nshapes:\n  Person:\n    properties:\n      Boss: Person\n"
    let person : Shape := ⟨"Person", [⟨"Boss", .record "Person", false⟩], []⟩
    let task : Shape := ⟨"Task", [⟨"Owner", .record "Person", true⟩], []⟩
    let schema : Schema := ⟨[person], some "Person"⟩
    let top := [(Yaml.string "Boss", Yaml.null)]
    let d : Document := ⟨person, [(.string "boss", .mapping [(.string "BOSS", .mapping top)])]⟩
    let both := schema.insert task
    let alone := Schema.empty.insert task
    Schema.read text = .ok schema ∧ schema.Navigable ∧
      (d.record schema).follow "boss" ["Boss"] = .record ((Document.mk person top).record schema) ∧
      both.Navigable ∧
      alone.validate = .error (.unknownShape "Task" "Owner" "Person") ∧
      ∃ shape, alone.shape? "Task" = some shape ∧
        (∃ p ∈ shape.properties, p.name = "Owner" ∧ p.type = .record "Person") ∧
        alone.shape? "Person" = none := by
  intro text person task schema top d both alone
  have hread : Schema.read text = .ok schema := toOption_eq_some_iff.1 (by decide +kernel)
  have hnavigable : schema.Navigable := (valid_navigable schema).1 (.inl ⟨text, hread⟩)
  obtain ⟨shape, hshape, htop⟩ := hnavigable.enters person List.mem_cons_self d.entries ["Boss"]
    ⟨person, [(.string "BOSS", .mapping top)]⟩ rfl "boss" ⟨"Boss", .record "Person", false⟩ "Person" top
    rfl rfl rfl
  cases (show schema.shape? "Person" = some person from rfl).symm.trans hshape
  have hboth : both.Built := (Schema.built_of_read hread).insert task
  have hvalid : both.validate = .ok () := rfl
  have halone : alone.Built := (Schema.Built.start none).insert task
  have hdangles : alone.validate = .error (.unknownShape "Task" "Owner" "Person") := rfl
  exact ⟨hread, hnavigable, htop, (valid_navigable both).1 (.inr ⟨hboth, hvalid⟩), hdangles,
    (valid_navigable alone).2.2 halone "Task" "Owner" "Person" hdangles⟩

end RecordQuery
