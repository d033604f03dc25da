import RecordQuery.Path.Chain
import RecordQuery.Proofs.Outcome
import RecordQuery.Proofs.Labels
import RecordQuery.Proofs.Splitting

/-!
# Paths and the walks that they stand for

A path is resolved in three steps: the text in front of its first point is relabelled (`Expands`), the whole
is cut at its points (`IsCut`), and the segments are looked up one after the other, each in the shape that
the property before it refers to (`Schema.Walks`). For aliases that were built of pairs this is all that
`resolve` does:

    schema.resolve root aliases path = .ok chain  ↔  there are segments, none empty, that the path comes to,
      and schema.Walks root segments chain.steps    (resolve_eq_ok_iff)
-/

namespace RecordQuery

/-! ## Segments -/

/-- The text that a path comes to when the part in front of its first point is relabelled, once. -/
inductive Expands (pairs : List (String × String)) : String → String → Prop
  | whole {path field : String} : '.' ∉ path.toList → Relabels pairs path field → Expands pairs path field
  | front {first field : String} (rest : String) : '.' ∉ first.toList → Relabels pairs first field →
      Expands pairs (first ++ "." ++ rest) (field ++ "." ++ rest)

/-- The segments are the text, cut at all its points. -/
structure IsCut (text : String) (segments : List String) : Prop where
  nonempty : segments ≠ []
  joined : ".".intercalate segments = text
  plain : ∀ segment ∈ segments, '.' ∉ segment.toList

/-! ## Walks -/

/-- The property is the one that the name denotes: the first one of this name in ASCII case, or, if there is
none, the first one of this name in full lower case. -/
inductive Shape.Finds (shape : Shape) (name : String) : Property → Prop
  | ascii {p : Property} :
      FirstOf (fun q => Text.foldAscii q.name = Text.foldAscii name) shape.properties p → Finds shape name p
  | lowercase {p : Property} : (∀ q ∈ shape.properties, Text.foldAscii q.name ≠ Text.foldAscii name) →
      FirstOf (fun q => Text.lowercase q.name = Text.lowercase name) shape.properties p → Finds shape name p

/-- The step has the name and the type of the property. It can be null if the property may be left out, is
a text or is a record. -/
structure Property.Makes (p : Property) (step : Step) : Prop where
  name : step.name = p.name
  type : step.type = p.type
  nullable : step.nullable = true ↔
    p.optional = true ∨ p.type = .string ∨ ∃ target, p.type = .record target

/-- The steps are those of a walk from the shape that goes through the segments, one step for each. Every
property but the last refers to a shape of the schema, where the walk goes on. -/
inductive Schema.Walks (schema : Schema) : Shape → List String → List Step → Prop
  | last {shape : Shape} {segment : String} {p : Property} {step : Step} :
      shape.Finds segment p → p.Makes step → Walks schema shape [segment] [step]
  | through {shape inner : Shape} {segment target : String} {p : Property} {step : Step}
      {segments : List String} {steps : List Step} :
      shape.Finds segment p → p.Makes step → p.type = .record target →
      FirstOf (fun s => s.name = target) schema.shapes inner → Walks schema inner segments steps →
      Walks schema shape (segment :: segments) (step :: steps)

/-! ## Cutting at points -/

namespace Text

/-- The parts of a text are what it is cut into. -/
theorem split_eq_iff {text : String} {segments : List String} :
    split '.' text = segments ↔ IsCut text segments := by
  have hpoint : ".".toList = ['.'] := rfl
  constructor
  · rintro rfl
    exact ⟨split_ne_nil '.' text, intercalate_split hpoint text, fun _ => notMem_of_mem_split⟩
  · rintro ⟨hne, rfl, hplain⟩
    exact split_intercalate hpoint hne hplain

end Text

/-! ## Relabelled paths -/

section Aliases

variable {aliases : Aliases} {pairs : List (String × String)} (h : aliases.Built pairs)

theorem exists_relabels (pairs : List (String × String)) (label : String) :
    ∃ field, Relabels pairs label field := ⟨_, lastField?_getD_eq_iff.1 rfl⟩

/-- Every path comes to a text: it has a first point, or none. -/
theorem exists_expands (pairs : List (String × String)) (path : String) :
    ∃ text, Expands pairs path text := by
  by_cases hpoint : '.' ∈ path.toList
  · obtain ⟨before, after, hsplit, hbefore⟩ := List.eq_append_cons_of_mem hpoint
    obtain ⟨first, rfl⟩ : ∃ first : String, first.toList = before := ⟨_, String.toList_ofList⟩
    obtain ⟨rest, rfl⟩ : ∃ rest : String, rest.toList = after := ⟨_, String.toList_ofList⟩
    have hpath : path = first ++ "." ++ rest := by
      rw [← String.toList_inj, hsplit]
      simp
    obtain ⟨field, hfield⟩ := exists_relabels pairs first
    rw [hpath]
    exact ⟨_, .front rest hbefore hfield⟩
  · obtain ⟨field, hfield⟩ := exists_relabels pairs path
    exact ⟨field, .whole hpoint hfield⟩

include h

/-- The segments of a path are the parts of the text that it comes to. -/
theorem segments_of_expands {path text : String} (hexpands : Expands pairs path text) :
    Schema.segments aliases path = Text.split '.' text := by
  have happend := Text.split_append (show ".".toList = ['.'] from rfl)
  unfold Schema.segments
  cases hexpands with
  | whole hplain hfield =>
    rw [Text.split_of_notMem hplain]
    dsimp only
    rw [h.relabels_iff.1 hfield, List.append_nil]
  | front rest hplain hfield =>
    rw [happend, Text.split_of_notMem hplain, happend]
    dsimp only [List.singleton_append]
    rw [h.relabels_iff.1 hfield]

theorem segments_eq_iff {path : String} {segments : List String} :
    Schema.segments aliases path = segments ↔
      ∃ text, Expands pairs path text ∧ IsCut text segments := by
  constructor
  · rintro rfl
    obtain ⟨text, htext⟩ := exists_expands pairs path
    refine ⟨text, htext, Text.split_eq_iff.1 ?_⟩
    exact (segments_of_expands h htext).symm
  · rintro ⟨text, htext, hcut⟩
    rw [segments_of_expands h htext]
    exact Text.split_eq_iff.2 hcut

end Aliases

/-! ## Steps -/

theorem makes_iff {p : Property} {step : Step} : p.Makes step ↔ p.step = step := by
  have hnullable : p.isNullable = true ↔
      p.optional = true ∨ p.type = .string ∨ ∃ target, p.type = .record target := by
    unfold Property.isNullable
    cases p.type <;> simp [FieldType.isValueType]
  constructor
  · rintro ⟨hname, htype, hnull⟩
    obtain ⟨name, type, nullable⟩ := step
    rw [← hnullable, Bool.coe_iff_coe] at hnull
    unfold Property.step
    dsimp only at hname htype hnull
    rw [hname, htype, hnull]
  · rintro rfl
    exact ⟨rfl, rfl, hnullable⟩

variable {schema : Schema} {shape : Shape} {name : String} {p : Property}

theorem finds_iff : shape.Finds name p ↔ shape.find? name = some p := by
  have hascii {q : Property} : shape.findAscii? name = some q ↔
      FirstOf (fun q => Text.foldAscii q.name = Text.foldAscii name) shape.properties q :=
    find?_eq_some_iff_firstOf
  have hnone : shape.findAscii? name = none ↔
      ∀ q ∈ shape.properties, Text.foldAscii q.name ≠ Text.foldAscii name := by
    unfold Shape.findAscii? Text.eqIgnoringAsciiCase
    simp
  have hlower {q : Property} : shape.findLowercase? name = some q ↔
      FirstOf (fun q => Text.lowercase q.name = Text.lowercase name) shape.properties q :=
    find?_eq_some_iff_firstOf
  unfold Shape.find?
  rw [Option.or_eq_some_iff]
  constructor
  · rintro (h | ⟨hno, h⟩)
    · exact .inl (hascii.2 h)
    · exact .inr ⟨hnone.2 hno, hlower.2 h⟩
  · rintro (h | ⟨hno, h⟩)
    · exact .ascii (hascii.1 h)
    · exact .lowercase (hnone.1 hno) (hlower.1 h)

theorem shape?_eq_some_iff {target : String} {inner : Shape} :
    schema.shape? target = some inner ↔ FirstOf (fun s => s.name = target) schema.shapes inner :=
  find?_eq_some_iff_firstOf

/-! ## Walks through schemas -/

theorem steps_inj {chain chain' : Chain} (h : chain.steps = chain'.steps) : chain = chain' := by
  obtain ⟨before, last⟩ := chain
  obtain ⟨before', last'⟩ := chain'
  obtain ⟨hbefore, hlast⟩ : before = before' ∧ [last] = [last'] := List.append_inj' h rfl
  rw [hbefore, (List.cons.inj hlast).1]

theorem walks_of_walk {segment : String} {rest : List String} {chain : Chain}
    (h : schema.walk shape segment rest = .ok chain) :
    schema.Walks shape (segment :: rest) chain.steps := by
  induction rest generalizing shape segment chain with
  | nil =>
    unfold Schema.walk at h
    split at h
    · cases h
    · next p hp =>
      cases h
      exact .last (finds_iff.2 hp) (makes_iff.2 rfl)
  | cons next rest ih =>
    unfold Schema.walk at h
    split at h
    · cases h
    · next p hp =>
      split at h
      · next target htype =>
        split at h
        · cases h
        · next inner hinner =>
          obtain ⟨tail, htail, rfl⟩ := map_eq_ok_iff.1 h
          exact .through (finds_iff.2 hp) (makes_iff.2 rfl) htype (shape?_eq_some_iff.1 hinner) (ih htail)
      · cases h

theorem walk_of_walks {segments : List String} {steps : List Step}
    (h : schema.Walks shape segments steps) :
    ∃ segment rest chain, segments = segment :: rest ∧ schema.walk shape segment rest = .ok chain ∧
      chain.steps = steps := by
  induction h with
  | @last shape segment p step hp hstep =>
    refine ⟨segment, [], ⟨[], step⟩, rfl, ?_, rfl⟩
    rw [Schema.walk, finds_iff.1 hp, ← makes_iff.1 hstep]
  | @through shape inner segment target p step segments steps hp hstep htype hinner _ ih =>
    obtain ⟨next, rest, tail, rfl, htail, rfl⟩ := ih
    refine ⟨segment, next :: rest, tail.cons step, rfl, ?_, rfl⟩
    rw [Schema.walk, finds_iff.1 hp]
    dsimp only
    rw [htype]
    dsimp only
    rw [shape?_eq_some_iff.2 hinner]
    dsimp only
    rw [htail, makes_iff.1 hstep]
    rfl

theorem walk_eq_ok_iff {segment : String} {rest : List String} {chain : Chain} :
    schema.walk shape segment rest = .ok chain ↔ schema.Walks shape (segment :: rest) chain.steps := by
  constructor
  · exact walks_of_walk
  · intro h
    obtain ⟨_, _, chain', hsegments, hwalk, hsteps⟩ := walk_of_walks h
    obtain ⟨rfl, rfl⟩ := List.cons.inj hsegments
    rw [hwalk, steps_inj hsteps]

/-! ## Top theorem (proved from the lemmas above) -/

/-- A path resolves to the chain of the walk that it stands for. The part in front of its first point is
relabelled by the pairs that the aliases were built of, the text is cut at its points, no segment is empty,
and the chain has the steps of the walk from the root through the segments. -/
theorem resolve_eq_ok_iff {schema : Schema} {root : Shape} {aliases : Aliases}
    {pairs : List (String × String)} (h : aliases.Built pairs) (path : String) (chain : Chain) :
    schema.resolve root aliases path = .ok chain ↔
      ∃ text segments, Expands pairs path text ∧ IsCut text segments ∧ "" ∉ segments ∧
        schema.Walks root segments chain.steps := by
  have hresolve : schema.resolve root aliases path = .ok chain ↔
      "" ∉ Schema.segments aliases path ∧
        schema.Walks root (Schema.segments aliases path) chain.steps := by
    unfold Schema.resolve
    cases Schema.segments aliases path with
    | nil =>
      constructor
      · intro hfail
        cases hfail
      · rintro ⟨_, hwalks⟩
        cases hwalks
    | cons first rest =>
      dsimp only
      split
      · next hempty =>
        constructor
        · intro hfail
          cases hfail
        · rintro ⟨hfull, _⟩
          exact absurd hempty hfull
      · next hfull => rw [walk_eq_ok_iff, and_iff_right hfull]
  rw [hresolve]
  constructor
  · rintro ⟨hfull, hwalks⟩
    obtain ⟨text, htext, hcut⟩ := (segments_eq_iff h).1 rfl
    exact ⟨text, _, htext, hcut, hfull, hwalks⟩
  · rintro ⟨text, segments, htext, hcut, hfull, hwalks⟩
    rw [(segments_eq_iff h).2 ⟨text, htext, hcut⟩]
    exact ⟨hfull, hwalks⟩

/-- The last pair of a label counts, and its field may be a path. It is not relabelled in its turn. -/
theorem resolve_boss_of_boss :
    let person : Shape := ⟨"Person", [⟨"Name", .string, false⟩, ⟨"Chef", .record "Person", false⟩,
      ⟨"Age", .int32, false⟩], []⟩
    let pairs := [("É", "Age"), ("chef", "Name"), ("é", "CHEF.chef")]
    let aliases := (Aliases.empty.insert "É" "Age").extend [("chef", "Name"), ("é", "CHEF.chef")]
    let chain : Chain := ⟨[⟨"Chef", .record "Person", true⟩, ⟨"Chef", .record "Person", true⟩],
      ⟨"Age", .int32, false⟩⟩
    Schema.resolve ⟨[person], none⟩ person aliases "É.age" = .ok chain ∧
      ∃ text segments, Expands pairs "É.age" text ∧ IsCut text segments ∧ "" ∉ segments ∧
        Schema.Walks ⟨[person], none⟩ person segments chain.steps := by
  intro person pairs aliases chain
  have hresolve : Schema.resolve ⟨[person], none⟩ person aliases "É.age" = .ok chain := by
    apply toOption_eq_some_iff.1
    decide +kernel
  have hbuilt : aliases.Built pairs := (Aliases.Built.empty.insert "É" "Age").extend _
  exact ⟨hresolve, (resolve_eq_ok_iff hbuilt "É.age" chain).1 hresolve⟩

end RecordQuery
