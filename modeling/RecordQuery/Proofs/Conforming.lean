import RecordQuery.Proofs.Meaning

/-!
# Records that keep to a schema

A record conforms to a shape when each of its properties holds what its declaration says: a scalar of the
kind of its type, a record that conforms to the shape it refers to, or null where that is allowed. The
value at the end of a chain then is of the chain's type, and null only if a step on the way may be:

    schema.resolve root aliases path = .ok chain  →  Record.Conforms schema root r  →
      Field.Conforms schema (r.fieldAt chain.names) chain.type chain.mayBeNull    (resolve_conforms)
-/

namespace RecordQuery

/-! ## Conformance -/

/-- The scalar is of the kind in which values of the type are kept. -/
def Scalar.suits : Scalar → FieldType → Bool
  | int _, type => type = .int32 || type = .int64
  | uint _, type => type = .uint32 || type = .uint64
  | float _, type => type = .float32 || type = .float64
  | decimal _, type => type = .decimal
  | bool _, type => type = .bool
  | char _, type => type = .char
  | text _, type => type = .string
  | dateTime _, type => type = .dateTime
  | date _, type => type = .date
  | duration _, type => type = .duration

/-- The field holds what a declaration of its type and nullability says. -/
def Field.Conforms (schema : Schema) : Field → FieldType → Bool → Prop
  | null, _, nullable => nullable = true
  | scalar s, type, _ => s.suits type = true
  | record fields, type, _ =>
    ∃ target shape, type = .record target ∧ schema.shape? target = some shape ∧
      ∀ p ∈ shape.properties, (fields p.name).Conforms schema p.type p.isNullable

/-- Every property of the shape holds what its declaration says. -/
def Record.Conforms (schema : Schema) (shape : Shape) (r : Record) : Prop :=
  ∀ p ∈ shape.properties, (r p.name).Conforms schema p.type p.isNullable

/-! ## Lemmas -/

variable {schema : Schema}

theorem mem_of_find? {shape : Shape} {name : String} {p : Property} (h : shape.find? name = some p) :
    p ∈ shape.properties := by
  unfold Shape.find? at h
  cases hascii : shape.findAscii? name with
  | some q =>
    rw [hascii] at h
    cases h
    exact List.mem_of_find?_eq_some hascii
  | none =>
    rw [hascii] at h
    exact List.mem_of_find?_eq_some h

/-- No scalar stands for a reference. -/
theorem isRecord_of_suits {s : Scalar} {type : FieldType} (h : s.suits type = true) :
    type.isRecord = false := by
  cases type with
  | record target => cases s <;> cases h
  | _ => rfl

theorem Field.Conforms.weaken {f : Field} {type : FieldType} {n n' : Bool}
    (h : f.Conforms schema type n) (hn : n = true → n' = true) : f.Conforms schema type n' := by
  cases f with
  | null => exact hn h
  | scalar s => exact h
  | record fields => exact h

theorem mayBeNull_cons (s : Step) (chain : Chain) :
    (chain.cons s).mayBeNull = (s.nullable || chain.mayBeNull) := rfl

theorem names_cons (s : Step) (chain : Chain) : (chain.cons s).names = s.name :: chain.names := rfl

theorem fieldAt_cons {name : String} {names : List String} (h : names ≠ []) (r : Record) :
    r.fieldAt (name :: names) =
      match r name with
      | .record inner => Record.fieldAt inner names
      | _ => .null := by
  cases names with
  | nil => exact absurd rfl h
  | cons n ns => rfl

theorem names_ne_nil (chain : Chain) : chain.names ≠ [] := by
  simp [Chain.names, Chain.steps]

/-- One step of a walk: a reference is null, which ends the walk, or leads to a record that conforms to
the target, in which the walk goes on. -/
theorem step_conforms {r : Record} {p : Property} {target : String} {inner : Shape} {tail : Chain}
    (htype : p.type = .record target) (hinner : schema.shape? target = some inner)
    (hp : (r p.name).Conforms schema p.type p.isNullable)
    (htail : ∀ fields, Record.Conforms schema inner fields →
      (Record.fieldAt fields tail.names).Conforms schema tail.type tail.mayBeNull) :
    (r.fieldAt (tail.cons p.step).names).Conforms schema tail.type (tail.cons p.step).mayBeNull := by
  rw [names_cons, mayBeNull_cons, fieldAt_cons (names_ne_nil tail)]
  show Field.Conforms schema (match r p.name with
    | .record inner => Record.fieldAt inner tail.names
    | _ => .null) tail.type (p.isNullable || tail.mayBeNull)
  cases hfield : r p.name with
  | null =>
    rw [hfield] at hp
    have hn : p.isNullable = true := hp
    show (p.isNullable || tail.mayBeNull) = true
    rw [hn]
    rfl
  | scalar s =>
    rw [hfield] at hp
    have hs : s.suits p.type = true := hp
    have hrec := isRecord_of_suits hs
    rw [htype] at hrec
    cases hrec
  | record fields =>
    rw [hfield] at hp
    obtain ⟨target', shape', htype', hshape', hfields⟩ := hp
    rw [htype] at htype'
    cases htype'
    rw [hinner] at hshape'
    cases hshape'
    exact (htail fields hfields).weaken fun hn => by rw [hn, Bool.or_true]

/-- A walk through the schema leads to a value of the type at its end. -/
theorem walk_conforms {shape : Shape} {segment : String} {rest : List String} {chain : Chain}
    {r : Record} (h : schema.walk shape segment rest = .ok chain) (hr : Record.Conforms schema shape r) :
    (r.fieldAt chain.names).Conforms schema chain.type chain.mayBeNull := by
  induction rest generalizing shape segment chain r with
  | nil =>
    unfold Schema.walk at h
    split at h
    · cases h
    · next p hp =>
      cases h
      exact (hr p (mem_of_find? hp)).weaken fun hn => by
        rw [Chain.mayBeNull, Chain.steps]
        simp [Property.step, hn]
  | cons next rest ih =>
    unfold Schema.walk at h
    split at h
    · cases h
    · next p hp =>
      split at h
      · next target htype =>
        split at h
        · cases h
        · next inner hinner =>
          obtain ⟨tail, htail, rfl⟩ := map_eq_ok_iff.1 h
          exact step_conforms htype hinner (hr p (mem_of_find? hp)) fun _ hfields => ih htail hfields
      · cases h

/-! ## Top theorem (proved from the lemmas above) -/

/-- The value at the end of a resolved path is of the path's type, and null only where a step may be. -/
theorem resolve_conforms {root : Shape} {aliases : Aliases} {path : String} {chain : Chain} {r : Record}
    (h : schema.resolve root aliases path = .ok chain) (hr : Record.Conforms schema root r) :
    (r.fieldAt chain.names).Conforms schema chain.type chain.mayBeNull := by
  unfold Schema.resolve at h
  split at h
  · cases h
  · split at h
    · cases h
    · exact walk_conforms h hr

end RecordQuery
