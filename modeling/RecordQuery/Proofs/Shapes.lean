import RecordQuery.Schema.Reader
import RecordQuery.Proofs.Outcome

/-!
# Shapes of schemas

A schema is built by inserting shapes (`Schema.Built`), and one that is read from a text is built like this
too. Its shapes are entries by their names, every name once, so that the name of a shape leads to this shape:

    schema.Built  →  (schema.shape? name = some shape  ↔  shape ∈ schema.shapes ∧ shape.name = name)
                                                                               (Built.shape?_eq_some_iff)

Validation accepts the schemas whose references and root lead to shapes, and no others (`Schema.Closed`). When
it complains of a reference, there is one that leads nowhere:

    schema.validate = .ok ()  ↔  schema.Closed                                 (validate_eq_ok_iff)

In a schema that is read, the properties of each shape have different names (`nodup_names_of_read`).
-/

namespace RecordQuery

namespace Schema

/-- The schema is what insertions have made of one without shapes, in which at most the root is named. -/
inductive Built : Schema → Prop
  | start (rootName : Option String) : Built ⟨[], rootName⟩
  | insert {s : Schema} (shape : Shape) : Built s → Built (s.insert shape)

/-- Every reference leads to a shape, and so does the name of the root. -/
structure Closed (s : Schema) : Prop where
  references : ∀ shape ∈ s.shapes, ∀ p ∈ shape.properties, ∀ target, p.type = .record target →
    ∃ inner, s.shape? target = some inner
  root : ∀ name, s.rootName = some name → ∃ root, s.shape? name = some root

/-- The shapes by their names. -/
def entries (s : Schema) : List (String × Shape) := s.shapes.map fun shape => (shape.name, shape)

variable {s : Schema} {shape t : Shape} {name target : String} {p : Property}

/-! ## Shapes by name -/

theorem mem_entries_iff : (name, shape) ∈ s.entries ↔ shape ∈ s.shapes ∧ shape.name = name := by
  unfold entries
  rw [List.mem_map]
  constructor
  · rintro ⟨shape', hshape', heq⟩
    cases heq
    exact ⟨hshape', rfl⟩
  · rintro ⟨hshape, rfl⟩
    exact ⟨shape, hshape, rfl⟩

/-- The shape of a name is looked up among the entries. -/
theorem shape?_eq_lookup (s : Schema) (name : String) : s.shape? name = s.entries.lookup name := by
  unfold shape? entries
  induction s.shapes with
  | nil => rfl
  | cons shape shapes ih =>
    rw [List.find?_cons, List.map_cons, List.lookup_cons, ih]
    by_cases h : shape.name = name
    · simp [h]
    · have hb : (name == shape.name) = false := by simpa using Ne.symm h
      simp [h, hb]

/-- Inserting a shape sets the entry of its name. -/
theorem entries_insert (s : Schema) (shape : Shape) :
    (s.insert shape).entries = Entries.put shape.name shape s.entries := by
  have hshapes (shapes : List Shape) :
      (insertShape shape shapes).map (fun t => (t.name, t)) =
        Entries.put shape.name shape (shapes.map fun t => (t.name, t)) := by
    induction shapes with
    | nil => rfl
    | cons t shapes ih =>
      rw [insertShape, List.map_cons, Entries.put]
      split
      · rfl
      · rw [List.map_cons, ih]
  exact hshapes s.shapes

/-- A shape that is inserted takes the place of the one of its name, and leaves the others. -/
theorem shape?_insert (s : Schema) (shape : Shape) (name : String) :
    (s.insert shape).shape? name = if shape.name = name then some shape else s.shape? name := by
  rw [shape?_eq_lookup, entries_insert, shape?_eq_lookup]
  split
  · next h => rw [← h, Entries.lookup_put_self]
  · next h => rw [Entries.lookup_put_of_ne (Ne.symm h)]

theorem eq_or_mem_of_mem_insert (h : shape ∈ (s.insert t).shapes) : shape = t ∨ shape ∈ s.shapes := by
  have hentry : (shape.name, shape) ∈ (s.insert t).entries := mem_entries_iff.2 ⟨h, rfl⟩
  rw [entries_insert] at hentry
  rcases Entries.eq_or_mem_of_mem_put hentry with heq | hmem
  · exact .inl (Prod.mk.inj heq).2
  · exact .inr (mem_entries_iff.1 hmem).1

theorem Built.nodup_entries (h : s.Built) : (s.entries.map (·.1)).Nodup := by
  induction h with
  | start rootName => exact List.nodup_nil
  | insert shape _ ih =>
    rw [entries_insert]
    exact Entries.nodup_put ih shape.name shape

/-- Every shape is found under its own name, and under no other. -/
theorem Built.shape?_eq_some_iff (h : s.Built) :
    s.shape? name = some shape ↔ shape ∈ s.shapes ∧ shape.name = name := by
  rw [shape?_eq_lookup, Entries.lookup_eq_some_iff h.nodup_entries, mem_entries_iff]

theorem mem_of_shape? (h : s.shape? name = some shape) : shape ∈ s.shapes :=
  List.mem_of_find?_eq_some h

theorem Built.foldl (h : s.Built) (shapes : List Shape) : (shapes.foldl Schema.insert s).Built := by
  induction shapes generalizing s with
  | nil => exact h
  | cons shape shapes ih => exact ih (h.insert shape)

theorem mem_of_mem_foldl {shapes : List Shape} (h : shape ∈ (shapes.foldl Schema.insert s).shapes) :
    shape ∈ s.shapes ∨ shape ∈ shapes := by
  induction shapes generalizing s with
  | nil => exact .inl h
  | cons t shapes ih =>
    rcases ih h with h | h
    · rcases eq_or_mem_of_mem_insert h with rfl | h
      · exact .inr List.mem_cons_self
      · exact .inl h
    · exact .inr (List.mem_cons_of_mem t h)

/-! ## Validation -/

theorem danglingTarget?_eq_some_iff :
    s.danglingTarget? p = some target ↔ p.type = .record target ∧ s.shape? target = none := by
  unfold danglingTarget?
  split
  · next found htype =>
    cases hshape : s.shape? found with
    | none =>
      rw [if_neg (by simp), Option.some.injEq, htype, FieldType.record.injEq]
      exact ⟨fun heq => ⟨heq, heq ▸ hshape⟩, fun h => h.1⟩
    | some inner =>
      rw [if_pos (by rfl), htype, FieldType.record.injEq]
      constructor
      · rintro ⟨⟩
      · rintro ⟨rfl, hnone⟩
        rw [hshape] at hnone
        cases hnone
  · next hrecord =>
    constructor
    · rintro ⟨⟩
    · rintro ⟨htype, _⟩
      exact absurd htype (hrecord target)

theorem danglingIn?_eq_none_iff : s.danglingIn? shape = none ↔
    ∀ p ∈ shape.properties, ∀ target, p.type = .record target → ∃ inner, s.shape? target = some inner := by
  unfold danglingIn?
  rw [List.findSome?_eq_none_iff]
  refine forall₂_congr fun p _ => ?_
  rw [Option.map_eq_none_iff, Option.eq_none_iff_forall_ne_some]
  refine forall_congr' fun target => ?_
  rw [Ne, danglingTarget?_eq_some_iff, not_and, ← Ne, Option.ne_none_iff_exists']

/-- Validation accepts just the closed schemas. -/
theorem validate_eq_ok_iff : s.validate = .ok () ↔ s.Closed := by
  have hroot : (∀ name, s.rootName = some name → ∃ root, s.shape? name = some root) ↔
      ∀ name, s.rootName = some name → (s.shape? name).isSome = true := by
    simp only [Option.isSome_iff_exists]
  unfold validate
  cases hdangling : s.shapes.findSome? s.danglingIn? with
  | some e =>
    obtain ⟨shape, hshape, he⟩ := List.exists_of_findSome?_eq_some hdangling
    constructor
    · rintro ⟨⟩
    · intro h
      rw [danglingIn?_eq_none_iff.2 (h.references shape hshape)] at he
      cases he
  | none =>
    have hreferences (shape : Shape) (hshape : shape ∈ s.shapes) :=
      danglingIn?_eq_none_iff.1 (List.findSome?_eq_none_iff.1 hdangling shape hshape)
    dsimp only
    constructor
    · intro h
      refine ⟨hreferences, hroot.2 fun name hname => ?_⟩
      rw [hname] at h
      dsimp only at h
      split at h
      · assumption
      · cases h
    · intro h
      cases hname : s.rootName with
      | none => rfl
      | some name => exact if_pos (hroot.1 h.root name hname)

/-- A reference that validation complains of is that of a property, and it leads nowhere. -/
theorem exists_of_validate_unknownShape {shapeName property : String}
    (h : s.validate = .error (.unknownShape shapeName property target)) :
    ∃ shape ∈ s.shapes, shape.name = shapeName ∧ ∃ p ∈ shape.properties, p.name = property ∧
      p.type = .record target ∧ s.shape? target = none := by
  unfold validate at h
  split at h
  · next e hdangling =>
    cases h
    obtain ⟨shape, hshape, he⟩ := List.exists_of_findSome?_eq_some hdangling
    obtain ⟨p, hp, he⟩ := List.exists_of_findSome?_eq_some he
    obtain ⟨_, hdangles, he⟩ := Option.map_eq_some_iff.1 he
    cases he
    obtain ⟨htype, hnone⟩ := danglingTarget?_eq_some_iff.1 hdangles
    exact ⟨shape, hshape, rfl, p, hp, rfl, htype, hnone⟩
  · split at h
    · cases h
    · split at h <;> cases h

/-! ## Schemas of texts -/

theorem exists_of_declared? {α : Type} {fields : List (String × Yaml.Node)} {field : String} {default a : α}
    {read? : Yaml.Node → Option α} (h : declared? fields field default read? = some a) :
    a = default ∨ ∃ n, read? n = some a := by
  unfold declared? at h
  split at h
  · exact .inl (Option.some.inj h).symm
  · exact .inr ⟨_, h⟩
  · cases h

/-- The properties of a declared shape have different names. -/
theorem nodup_properties_of_ofNode? {n : Yaml.Node} {d : ShapeDeclaration}
    (h : ShapeDeclaration.ofNode? n = some d) : (d.properties.map (·.1)).Nodup := by
  obtain ⟨fields, _, h⟩ := Option.bind_eq_some_iff.1 h
  obtain ⟨properties, hproperties, h⟩ := Option.bind_eq_some_iff.1 h
  obtain ⟨aliases, _, h⟩ := Option.bind_eq_some_iff.1 h
  cases h
  rcases exists_of_declared? hproperties with rfl | ⟨value, hvalue⟩
  · exact List.nodup_nil
  · obtain ⟨entries, _, hvalue⟩ := Option.bind_eq_some_iff.1 hvalue
    obtain ⟨pairs, _, hvalue⟩ := Option.bind_eq_some_iff.1 hvalue
    cases hvalue
    exact Entries.nodup_ofList pairs

theorem exists_of_mem_declaredShapes? {n : Yaml.Node} {shapes : List (String × ShapeDeclaration)}
    (h : declaredShapes? n = some shapes) {e : String × ShapeDeclaration} (he : e ∈ shapes) :
    ∃ value, ShapeDeclaration.ofNode? value = some e.2 := by
  -- the declarations come from the values of the fields, one after the other
  have hfields (fields : List (String × Yaml.Node)) (pairs : List (String × ShapeDeclaration))
      (h : (fields.mapM fun f => (ShapeDeclaration.ofNode? f.2).map fun d => (f.1, d)) = some pairs)
      (he : e ∈ pairs) : ∃ value, ShapeDeclaration.ofNode? value = some e.2 := by
    induction fields generalizing pairs with
    | nil =>
      cases h
      exact absurd he List.not_mem_nil
    | cons f fields ih =>
      rw [List.mapM_cons] at h
      obtain ⟨pair, hpair, h⟩ := Option.bind_eq_some_iff.1 h
      obtain ⟨rest, hrest, h⟩ := Option.bind_eq_some_iff.1 h
      cases h
      rcases List.mem_cons.1 he with rfl | he
      · obtain ⟨d, hd, heq⟩ := Option.map_eq_some_iff.1 hpair
        cases heq
        exact ⟨f.2, hd⟩
      · exact ih rest hrest he
  obtain ⟨fields, _, h⟩ := Option.bind_eq_some_iff.1 h
  obtain ⟨pairs, hpairs, h⟩ := Option.bind_eq_some_iff.1 h
  cases h
  exact hfields fields pairs hpairs (Entries.mem_of_mem_ofList he)

theorem exists_of_mem_ofNode? {n : Yaml.Node} {d : SchemaDeclaration}
    (h : SchemaDeclaration.ofNode? n = some d) {e : String × ShapeDeclaration} (he : e ∈ d.shapes) :
    ∃ value, ShapeDeclaration.ofNode? value = some e.2 := by
  obtain ⟨fields, _, h⟩ := Option.bind_eq_some_iff.1 h
  obtain ⟨root, _, h⟩ := Option.bind_eq_some_iff.1 h
  obtain ⟨shapes?, hshapes?, h⟩ := Option.bind_eq_some_iff.1 h
  obtain ⟨shapes, hshapes, h⟩ := Option.bind_eq_some_iff.1 h
  cases h
  cases hshapes
  rcases exists_of_declared? hshapes? with heq | ⟨value, hvalue⟩
  · cases heq
  · obtain ⟨_, hdeclared, heq⟩ := Option.map_eq_some_iff.1 hvalue
    cases heq
    exact exists_of_mem_declaredShapes? hdeclared he

/-- The properties of a shape have the names that its declaration gives them. -/
theorem names_of_ofDeclaration {name : String} {d : ShapeDeclaration}
    (h : Shape.ofDeclaration name d = .ok shape) :
    shape.properties.map (·.name) = d.properties.map (·.1) := by
  obtain ⟨properties, hproperties, h⟩ := bind_eq_ok_iff.1 h
  cases h
  refine map_eq_of_mapM (fun pair p hp => ?_) hproperties
  unfold Property.read at hp
  dsimp only at hp
  split at hp <;> cases hp
  rfl

/-- A schema that is read is the one that its declared shapes make up, and is valid. -/
theorem exists_of_read {text : String} (h : Schema.read text = .ok s) :
    ∃ d shapes, (∃ n, SchemaDeclaration.ofNode? n = some d) ∧
      (d.shapes.mapM fun e => Shape.ofDeclaration e.1 e.2) = .ok shapes ∧
      s = shapes.foldl Schema.insert ⟨[], d.root⟩ ∧ s.validate = .ok () := by
  unfold Schema.read at h
  split at h
  · next d hd =>
    obtain ⟨n, _, hn⟩ := Option.bind_eq_some_iff.1 hd
    obtain ⟨shapes, hshapes, h⟩ := bind_eq_ok_iff.1 h
    obtain ⟨_, hvalid, h⟩ := bind_eq_ok_iff.1 h
    cases h
    exact ⟨d, shapes, ⟨n, hn⟩, hshapes, rfl, hvalid⟩
  · cases h

theorem built_of_read {text : String} (h : Schema.read text = .ok s) : s.Built := by
  obtain ⟨d, shapes, _, _, rfl, _⟩ := exists_of_read h
  exact (Built.start d.root).foldl shapes

theorem closed_of_read {text : String} (h : Schema.read text = .ok s) : s.Closed := by
  obtain ⟨_, _, _, _, _, hvalid⟩ := exists_of_read h
  exact validate_eq_ok_iff.1 hvalid

/-- The properties of a shape that is read have different names. -/
theorem nodup_names_of_read {text : String} (h : Schema.read text = .ok s) (hshape : shape ∈ s.shapes) :
    (shape.properties.map (·.name)).Nodup := by
  obtain ⟨d, shapes, ⟨n, hn⟩, hshapes, rfl, _⟩ := exists_of_read h
  have hmem : shape ∈ shapes := (mem_of_mem_foldl hshape).resolve_left List.not_mem_nil
  obtain ⟨e, he, hread⟩ := exists_of_mem_mapM hshapes hmem
  obtain ⟨value, hvalue⟩ := exists_of_mem_ofNode? hn he
  rw [names_of_ofDeclaration hread]
  exact nodup_properties_of_ofNode? hvalue

end Schema

end RecordQuery
