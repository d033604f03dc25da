import RecordQuery.Proofs.Legality

/-!
# Walks through documents

A path is resolved against the shapes of a schema. Its chain is then walked through a document by the names
of its steps, and every document on the way looks its property up once more. `Document.reach?` gives the
document in which a look-up takes place.

The properties are found again, their types are those of the chain, and so the value at the end is null, or
of the kind that the literals of the query have:

    Condition.ofQuery schema root aliases query = .ok c  →  Record.ofYaml? schema root y = some r  →
      r is the record of a document d, and every test of c agrees with d    (ofQuery_agrees)
-/

namespace RecordQuery

/-! ## Documents and the look-ups in them -/

/-- A mapping and the shape that it is read with. -/
structure Document where
  shape : Shape
  entries : List (Yaml × Yaml)

namespace Document

/-- The fields of a document. -/
def record (schema : Schema) (d : Document) : Record := fields schema d.shape d.entries

/-- The document that a property refers to. -/
def referred? (schema : Schema) (d : Document) (p : Property) : Option Document :=
  match p.type, lookup? p.name d.entries with
  | .record target, some (.mapping entries) =>
    (schema.shape? target).map fun shape => ⟨shape, entries⟩
  | _, _ => none

/-- What a document holds for a property. -/
def holding (schema : Schema) (d : Document) (p : Property) : Field :=
  match d.referred? schema p with
  | some next => .record (next.record schema)
  | none =>
    match lookup? p.name d.entries with
    | none | some .null => .null
    | some v => scalarField v p.type

/-- The document that a name leads to. -/
def enter? (schema : Schema) (d : Document) (name : String) : Option Document :=
  (d.shape.find? name).bind (d.referred? schema)

/-- The document that the names lead to, one after the other. -/
def reach? (schema : Schema) (d : Document) (names : List String) : Option Document :=
  names.foldlM (enter? schema) d

end Document

/-! ## Agreement -/

/-- The field is null, or a record for a reference, or else a scalar of the kind that literals of the type
have. -/
def Field.Fits : Field → FieldType → Prop
  | null, _ => True
  | record _, type => type.isRecord = true
  | scalar s, type => type.kind? = some s.kind ∧
    ∀ l nullable field v, Literal.coerce l type nullable field = .ok (some v) → v.kind = s.kind

/-- The test is one of such scalars: they have an order with its values, unless one of the two is not a
number, and are texts where it looks for a part of a text. -/
def Test.Judges (s : Scalar) : Test → Prop
  | isNull | isNotNull => True
  | compare _ v => s.compare? v = none ↔ s.isNaN = true ∨ v.isNaN = true
  | text _ _ => ∃ x, s = .text x
  | isIn vs => ∀ v ∈ vs, (s.compare? v = none ↔ s.isNaN = true ∨ v.isNaN = true)

/-- What the chain and the test take for granted is so in the document. -/
structure Document.Agrees (schema : Schema) (d : Document) (chain : Chain) (t : Test) : Prop where
  /-- The value is read in the document that the names before the last lead to. -/
  value : chain.value (d.record schema) =
    match d.reach? schema (chain.before.map (·.name)) with
    | some last => last.record schema chain.last.name
    | none => .null
  /-- A document that the walk comes to finds just the property that makes the step, and the walk goes on
  with what it holds for this property. -/
  finds : ∀ before step after here, chain.steps = before ++ step :: after →
    d.reach? schema (before.map (·.name)) = some here →
    ∃ p, here.shape.find? step.name = some p ∧ p.step = step ∧
      (d.record schema).follow step.name (before.map (·.name)) = here.holding schema p
  fits : (chain.value (d.record schema)).Fits chain.type
  judges : ∀ s, chain.value (d.record schema) = .scalar s → t.Judges s

/-! ## Lemmas -/

namespace Document

variable {schema : Schema} {d : Document} {name : String} {p : Property}

theorem scalarField_ne_record (v : Yaml) (type : FieldType) (r : Record) :
    scalarField v type ≠ .record r := by
  unfold scalarField
  split <;> exact Field.noConfusion

/-- A mapping at a reference is a document of the shape that is referred to. -/
theorem referred?_of_mapping {target : String} {entries : List (Yaml × Yaml)}
    (htype : p.type = .record target) (hv : lookup? p.name d.entries = some (.mapping entries)) :
    d.referred? schema p = (schema.shape? target).map fun shape => ⟨shape, entries⟩ := by
  unfold referred?
  rw [htype, hv]

theorem referred?_shape {target : String} {shape : Shape} {next : Document}
    (htype : p.type = .record target) (hshape : schema.shape? target = some shape)
    (h : d.referred? schema p = some next) : next.shape = shape := by
  unfold referred? at h
  rw [htype] at h
  split at h
  · next heq _ =>
    cases heq
    rw [hshape] at h
    cases h
    rfl
  · cases h

theorem referred?_of_not_mapping (hv : ∀ entries, lookup? p.name d.entries ≠ some (.mapping entries)) :
    d.referred? schema p = none := by
  unfold referred?
  split
  · next hmapping => exact absurd hmapping (hv _)
  · rfl

theorem referred?_of_not_record (htype : ∀ target, p.type ≠ .record target) :
    d.referred? schema p = none := by
  unfold referred?
  split
  · next hrec _ => exact absurd hrec (htype _)
  · rfl

/-- The record of a document reads the property that it finds. -/
theorem record_eq (h : d.shape.find? name = some p) : d.record schema name = d.holding schema p := by
  unfold record holding
  rw [fields, h]
  dsimp only
  split
  · next hv => rw [referred?_of_not_mapping (by rw [hv]; simp), hv]
  · next hv => rw [referred?_of_not_mapping (by rw [hv]; simp), hv]
  · next entries hv =>
    split
    · next target htype =>
      rw [referred?_of_mapping htype hv, hv]
      cases schema.shape? target with
      | none => rw [htype]; rfl
      | some shape => rfl
    · next hrec => rw [referred?_of_not_record hrec, hv]
  · next v hnull hmapping hv =>
    have hno (entries : List (Yaml × Yaml)) : lookup? p.name d.entries ≠ some (.mapping entries) := by
      rw [hv]
      intro heq
      exact hmapping entries (Option.some.inj heq)
    rw [referred?_of_not_mapping hno, hv]
    cases v with
    | null => exact absurd rfl hnull
    | _ => rfl

theorem record_eq_null (h : d.shape.find? name = none) : d.record schema name = .null := by
  unfold record
  rw [fields, h]

/-- A look-up gives a record just where the name leads to a document. -/
theorem record_cases (schema : Schema) (d : Document) (name : String) :
    (∃ next, d.enter? schema name = some next ∧ d.record schema name = .record (next.record schema)) ∨
      d.enter? schema name = none ∧ ∀ r, d.record schema name ≠ .record r := by
  unfold enter?
  cases hp : d.shape.find? name with
  | none =>
    refine .inr ⟨rfl, fun r => ?_⟩
    rw [record_eq_null hp]
    exact Field.noConfusion
  | some p =>
    rw [record_eq hp, Option.bind_some]
    unfold holding
    cases d.referred? schema p with
    | some next => exact .inl ⟨next, rfl, rfl⟩
    | none =>
      refine .inr ⟨rfl, fun r => ?_⟩
      dsimp only
      split
      · exact Field.noConfusion
      · exact Field.noConfusion
      · exact scalarField_ne_record _ _ r

theorem reach?_cons (schema : Schema) (d : Document) (name : String) (names : List String) :
    d.reach? schema (name :: names) = (d.enter? schema name).bind (·.reach? schema names) := by
  unfold reach?
  rw [List.foldlM_cons]
  rfl

/-- Walking the names through the record of a document comes to the record of the document that they lead
to, and finds nothing where they lead to none. -/
theorem follow_record (schema : Schema) (d : Document) (last : String) (names : List String) :
    (d.record schema).follow last names =
      match d.reach? schema names with
      | some here => here.record schema last
      | none => .null := by
  induction names generalizing d with
  | nil => rfl
  | cons name rest ih =>
    rw [reach?_cons, Record.follow]
    rcases record_cases schema d name with ⟨next, henter, hrecord⟩ | ⟨henter, hrecord⟩
    · rw [henter, hrecord, Option.bind_some]
      exact ih next
    · rw [henter, Option.bind_none]
      split
      · next r hr => exact absurd hr (hrecord r)
      · rfl

/-! ## Chains -/

theorem steps_cons (s : Step) (chain : Chain) : (chain.cons s).steps = s :: chain.steps := rfl

/-- A document that a walk along the chain comes to finds the property of the next step. -/
theorem find?_of_leads {shape : Shape} {chain : Chain} (h : schema.Leads shape chain) {d here : Document}
    (hd : d.shape = shape) {before after : List Step} {step : Step}
    (hsplit : chain.steps = before ++ step :: after)
    (hreach : d.reach? schema (before.map (·.name)) = some here) :
    ∃ p, here.shape.find? step.name = some p ∧ p.step = step := by
  induction h generalizing d before with
  | @last shape p hfind =>
    obtain ⟨rfl, rfl⟩ : before = [] ∧ step = p.step := by
      cases before with
      | nil => exact ⟨rfl, (List.cons_eq_cons.1 hsplit).1.symm⟩
      | cons s before => simp [Chain.steps] at hsplit
    cases hreach
    rw [hd]
    exact ⟨p, hfind, rfl⟩
  | @cons shape inner p target tail hfind htype hshape _ ih =>
    rw [steps_cons] at hsplit
    cases before with
    | nil =>
      obtain ⟨rfl, _⟩ := List.cons_eq_cons.1 hsplit
      cases hreach
      rw [hd]
      exact ⟨p, hfind, rfl⟩
    | cons s before =>
      obtain ⟨rfl, htail⟩ := List.cons_eq_cons.1 hsplit
      rw [List.map_cons, reach?_cons] at hreach
      obtain ⟨next, henter, hrest⟩ := Option.bind_eq_some_iff.1 hreach
      have hnext : next.shape = inner := by
        change (d.shape.find? p.name).bind (d.referred? schema) = some next at henter
        rw [hd, hfind] at henter
        exact referred?_shape htype hshape henter
      exact ih hnext htail hrest

/-! ## Values and tests -/

theorem fits_of_suits {s : Scalar} {type : FieldType} (h : s.suits type = true) :
    (Field.scalar s).Fits type :=
  ⟨(suits_iff s type).1 h, fun _ _ _ _ hv => kind_eq_of_suits (coerce_suits hv) h⟩

/-- What a document holds for a property is of the property's type. -/
theorem holding_fits (schema : Schema) (d : Document) (p : Property) :
    (d.holding schema p).Fits p.type := by
  unfold holding
  cases hnext : d.referred? schema p with
  | some next =>
    show p.type.isRecord = true
    cases htype : p.type with
    | record target => rfl
    | _ =>
      rw [referred?_of_not_record (by rw [htype]; simp)] at hnext
      cases hnext
  | none =>
    dsimp only
    split
    · trivial
    · trivial
    · next v _ _ =>
      unfold scalarField
      cases hs : scalar? v p.type with
      | none => trivial
      | some s => exact fits_of_suits (scalar?_suits hs)

/-- A scalar of the type of a chain is one that the chain's tests are about. -/
theorem judges_of_wellTyped {chain : Chain} {t : Test} (ht : t.WellTyped chain) {s : Scalar}
    (hs : chain.type.kind? = some s.kind) : t.Judges s := by
  have hsuits : s.suits chain.type = true := (suits_iff s chain.type).2 hs
  cases t with
  | isNull => trivial
  | isNotNull => trivial
  | compare op v => exact compare?_eq_none_iff (kind_eq_of_suits hsuits ht.1)
  | text op needle =>
    have htype : chain.type = .string := ht
    rw [htype] at hs
    cases s with
    | text x => exact ⟨x, rfl⟩
    | _ => cases hs
  | isIn vs =>
    intro v hv
    exact compare?_eq_none_iff (kind_eq_of_suits hsuits (ht.2.2 v hv))

/-- A well-typed test of a chain agrees with every document of the chain's shape. -/
theorem agrees_of_leads {chain : Chain} {t : Test} (h : schema.Leads d.shape chain)
    (ht : t.WellTyped chain) : d.Agrees schema chain t := by
  have hvalue := follow_record schema d chain.last.name (chain.before.map (·.name))
  have hfinds {before after : List Step} {step : Step} {here : Document}
      (hsplit : chain.steps = before ++ step :: after)
      (hreach : d.reach? schema (before.map (·.name)) = some here) :
      ∃ p, here.shape.find? step.name = some p ∧ p.step = step ∧
        (d.record schema).follow step.name (before.map (·.name)) = here.holding schema p := by
    obtain ⟨p, hp, hstep⟩ := find?_of_leads h rfl hsplit hreach
    refine ⟨p, hp, hstep, ?_⟩
    rw [follow_record, hreach]
    exact record_eq hp
  have hfits : (chain.value (d.record schema)).Fits chain.type := by
    cases hreach : d.reach? schema (chain.before.map (·.name)) with
    | some here =>
      obtain ⟨p, _, hstep, hholding⟩ := hfinds rfl hreach
      have htype : chain.type = p.type := by rw [Chain.type, ← hstep]; rfl
      rw [Chain.value, hholding, htype]
      exact holding_fits schema here p
    | none =>
      rw [Chain.value, hvalue, hreach]
      trivial
  refine ⟨hvalue, fun _ _ _ _ => hfinds, hfits, fun s hs => ?_⟩
  rw [hs] at hfits
  exact judges_of_wellTyped ht hfits.1

end Document

/-! ## Top theorem (proved from the lemmas above) -/

/-- Every test of an accepted query agrees with every document that is read with the schema and the shape of
the query: the look-ups on the way find the properties of the chain, and the test is one of what the
document holds in the end. -/
theorem ofQuery_agrees {schema : Schema} {root : Shape} {aliases : Aliases} {query : String}
    {c : Condition} (h : Condition.ofQuery schema root aliases query = .ok c) {y : Yaml} {r : Record}
    (hr : Record.ofYaml? schema root y = some r) :
    ∃ entries, y = .mapping entries ∧ r = (Document.mk root entries).record schema ∧
      c.Tests ((Document.mk root entries).Agrees schema) := by
  obtain ⟨ts, _, hread⟩ := bind_eq_ok_iff.1 h
  obtain ⟨e, _, hc⟩ := bind_eq_ok_iff.1 hread
  have htyped := Typing.translates_wellTyped (Typing.ofExpr_eq_ok_iff.1 hc)
  cases y with
  | mapping entries =>
    cases hr
    refine ⟨entries, rfl, rfl, htyped.imp ?_⟩
    rintro chain t ⟨⟨path, hpath⟩, ht⟩
    have hleads : schema.Leads (Document.mk root entries).shape chain := leads_of_resolve hpath
    exact Document.agrees_of_leads hleads ht
  | _ => cases hr

/-- Of names that differ only in case the first one counts, for the query and for the document, and the date
of the boss is compared as a date. -/
theorem agrees_boss_date :
    let task : Shape := ⟨"Task", [⟨"ÉtÉ", .date, true⟩, ⟨"été", .int32, true⟩,
      ⟨"BOSS", .record "Task", false⟩, ⟨"Boss", .string, true⟩], []⟩
    let d : Document := ⟨task, [(.string "boss", .mapping [(.string "Été", .string "2024-05-06")])]⟩
    let chain : Chain := ⟨[⟨"BOSS", .record "Task", true⟩], ⟨"ÉtÉ", .date, true⟩⟩
    let t : Test := .compare .gt (.date ⟨2024, 1, 1, rfl⟩)
    Condition.ofQuery ⟨[task], none⟩ task .empty "boss.Été > \"2024-01-01\"" = .ok (.test chain t) ∧
      Record.ofYaml? ⟨[task], none⟩ task (.mapping d.entries) = some (d.record ⟨[task], none⟩) ∧
      d.Agrees ⟨[task], none⟩ chain t ∧
      chain.value (d.record ⟨[task], none⟩) = .scalar (.date ⟨2024, 5, 6, rfl⟩) := by
  intro task d chain t
  have hquery : Condition.ofQuery ⟨[task], none⟩ task .empty "boss.Été > \"2024-01-01\"" =
      .ok (.test chain t) := by
    apply toOption_eq_some_iff.1
    decide +kernel
  have hrecord : Record.ofYaml? ⟨[task], none⟩ task (.mapping d.entries) =
      some (d.record ⟨[task], none⟩) := rfl
  obtain ⟨_, heq, _, hagrees⟩ := ofQuery_agrees hquery hrecord
  cases heq
  -- the boss is the mapping inside, in which the date is found by the name of the step
  have hreach : d.reach? ⟨[task], none⟩ ["BOSS"] =
      some ⟨task, [(.string "Été", .string "2024-05-06")]⟩ := rfl
  obtain ⟨p, hp, _, hholding⟩ := hagrees.finds chain.before chain.last [] _ rfl hreach
  cases (show task.find? "ÉtÉ" = some ⟨"ÉtÉ", .date, true⟩ from rfl).symm.trans hp
  exact ⟨hquery, hrecord, hagrees, hholding⟩

end RecordQuery
