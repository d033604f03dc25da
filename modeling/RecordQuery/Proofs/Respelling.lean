import Mathlib.Data.List.Basic
import Mathlib.Data.List.Pairwise
import RecordQuery.Proofs.Walks

/-!
# Documents in another spelling

`Yaml.Respells y y'` says that `y'` is `y` with the entries of its mappings in another order and the keys
that are strings in another ASCII case. The two are the same record, provided that in each mapping that
references lead to no two string keys have one lower case, and so every filter keeps both or none
(`keeps_respelled`):

    y.Respells y'  →  Document.Apart schema ⟨root, entries⟩, where y = .mapping entries  →
      Record.ofYaml? schema root y' = Record.ofYaml? schema root y      (ofYaml?_respelled)

In such a mapping a name denotes the only entry whose key has its lower case, wherever the entry stands
(`lookup?_eq_some_iff`), and ASCII case does not change the lower case of a key.
-/

namespace RecordQuery

/-! ## Other spellings -/

namespace Yaml

/-- A key with the letters of ASCII made small, if it is a string. -/
def foldKey : Yaml → Yaml
  | string s => string (Text.foldAscii s)
  | v => v

/-- The lower case of a key that is a string. -/
def lowerKey? : Yaml → Option String
  | string s => some (Text.lowercase s)
  | _ => none

/-- The value is the same, or a mapping of respelled entries in any order: `pairs` has each entry together
with the one that takes its place, whose key is equal in ASCII case and whose value is respelled. -/
inductive Respells : Yaml → Yaml → Prop
  | same (v : Yaml) : Respells v v
  | mapping (pairs : List ((Yaml × Yaml) × (Yaml × Yaml))) {entries : List (Yaml × Yaml)} :
      (∀ p ∈ pairs, p.1.1.foldKey = p.2.1.foldKey) → (∀ p ∈ pairs, Respells p.1.2 p.2.2) →
      (pairs.map (·.2)).Perm entries → Respells (mapping (pairs.map (·.1))) (mapping entries)

end Yaml

namespace Document

/-- No two keys that are strings have one lower case. -/
def KeysApart (entries : List (Yaml × Yaml)) : Prop := (entries.filterMap (·.1.lowerKey?)).Nodup

/-- The keys are apart in the document and in all documents that references lead to from it. -/
def Apart (schema : Schema) (d : Document) : Prop :=
  ∀ names here, d.reach? schema names = some here → KeysApart here.entries

/-! ## Lemmas -/

variable {schema : Schema} {name : String} {entries : List (Yaml × Yaml)} {v : Yaml}

theorem lowerKey?_eq_of_foldKey {k k' : Yaml} (h : k.foldKey = k'.foldKey) :
    k.lowerKey? = k'.lowerKey? := by
  cases k with
  | string s =>
    cases k' with
    | string t =>
      have hfold : Text.foldAscii s = Text.foldAscii t := Yaml.string.inj h
      rw [Yaml.lowerKey?, Yaml.lowerKey?, ← Text.lowercase_foldAscii s, hfold, Text.lowercase_foldAscii]
    | _ => cases h
  | _ => cases k' <;> first | rfl | cases h

theorem KeysApart.perm {entries' : List (Yaml × Yaml)} (h : KeysApart entries)
    (hperm : entries.Perm entries') : KeysApart entries' :=
  (hperm.filterMap _).nodup_iff.1 h

/-- Keys stay apart in another ASCII case. -/
theorem KeysApart.respelled {pairs : List ((Yaml × Yaml) × (Yaml × Yaml))}
    (h : KeysApart (pairs.map (·.1))) (hkeys : ∀ p ∈ pairs, p.1.1.foldKey = p.2.1.foldKey) :
    KeysApart (pairs.map (·.2)) := by
  have heq : pairs.filterMap ((·.1.lowerKey?) ∘ (·.2)) = pairs.filterMap ((·.1.lowerKey?) ∘ (·.1)) :=
    List.filterMap_congr fun p hp => (lowerKey?_eq_of_foldKey (hkeys p hp)).symm
  unfold KeysApart at h ⊢
  rw [List.filterMap_map] at h ⊢
  rwa [heq]

/-- Entries whose keys have one lower case are the same entry. -/
theorem KeysApart.eq_of_mem (h : KeysApart entries) {e e' : Yaml × Yaml} {s : String} (he : e ∈ entries)
    (he' : e' ∈ entries) (hs : e.1.lowerKey? = some s) (hs' : e'.1.lowerKey? = some s) : e = e' := by
  by_contra hne
  have hpairs := List.pairwise_filterMap.1 h
  have : Std.Symm fun a a' : Yaml × Yaml =>
      ∀ b, a.1.lowerKey? = some b → ∀ b', a'.1.lowerKey? = some b' → b ≠ b' :=
    ⟨fun _ _ hab b hb b' hb' => (hab b' hb' b hb).symm⟩
  exact hpairs.forall he he' hne s hs s hs' rfl

/-! ## Look-ups -/

theorem lookupExact?_eq (name : String) (entries : List (Yaml × Yaml)) :
    lookupExact? name entries = (entries.find? (·.1.isString name)).map (·.2) := by
  induction entries with
  | nil => rfl
  | cons e rest ih =>
    rw [lookupExact?, List.find?_cons]
    cases e.1.isString name with
    | true => rfl
    | false => exact ih

theorem lookupLowercase?_eq (lower : String) (entries : List (Yaml × Yaml)) :
    lookupLowercase? lower entries = (entries.find? (·.1.lowerKey? = some lower)).map (·.2) := by
  induction entries with
  | nil => rfl
  | cons e rest ih =>
    obtain ⟨k, w⟩ := e
    rw [List.find?_cons]
    cases k with
    | string s =>
      rw [lookupLowercase?, ih]
      by_cases h : Text.lowercase s = lower <;> simp [Yaml.lowerKey?, h]
    | _ => exact ih

theorem lowerKey?_of_isString {k : Yaml} (h : k.isString name = true) :
    k.lowerKey? = some (Text.lowercase name) := by
  cases k with
  | string s =>
    have hs : s = name := of_decide_eq_true h
    rw [hs, Yaml.lowerKey?]
  | _ => cases h

/-- What a name denotes is the value of a key with its lower case. -/
theorem exists_key_of_lookup? (h : lookup? name entries = some v) :
    ∃ k, (k, v) ∈ entries ∧ k.lowerKey? = some (Text.lowercase name) := by
  unfold lookup? at h
  rw [lookupExact?_eq, lookupLowercase?_eq, Option.or_eq_some_iff] at h
  rcases h with h | ⟨_, h⟩
  · obtain ⟨e, he, rfl⟩ := Option.map_eq_some_iff.1 h
    have hname : e.1.isString name = true := List.find?_some (p := fun e : Yaml × Yaml => e.1.isString name) he
    exact ⟨e.1, List.mem_of_find?_eq_some he, lowerKey?_of_isString hname⟩
  · obtain ⟨e, he, rfl⟩ := Option.map_eq_some_iff.1 h
    have hlower : decide (e.1.lowerKey? = some (Text.lowercase name)) = true :=
      List.find?_some (p := fun e : Yaml × Yaml => e.1.lowerKey? = some (Text.lowercase name)) he
    exact ⟨e.1, List.mem_of_find?_eq_some he, of_decide_eq_true hlower⟩

/-- Where the keys are apart, a name denotes the only value whose key has its lower case. -/
theorem lookup?_eq_some_iff (h : KeysApart entries) : lookup? name entries = some v ↔
    ∃ k, (k, v) ∈ entries ∧ k.lowerKey? = some (Text.lowercase name) := by
  refine ⟨exists_key_of_lookup?, ?_⟩
  rintro ⟨k, hk, hlower⟩
  have hfound : (entries.find? (·.1.lowerKey? = some (Text.lowercase name))).isSome = true :=
    List.find?_isSome.2 ⟨(k, v), hk, decide_eq_true hlower⟩
  cases hlookup : lookup? name entries with
  | none =>
    unfold lookup? at hlookup
    rw [Option.or_eq_none_iff, lookupLowercase?_eq, Option.map_eq_none_iff] at hlookup
    rw [hlookup.2] at hfound
    cases hfound
  | some w =>
    obtain ⟨k', hk', hlower'⟩ := exists_key_of_lookup? hlookup
    cases h.eq_of_mem hk hk' hlower hlower'
    rfl

/-- A name denotes in both spellings nothing, or the two values of an entry. -/
theorem lookup?_respelled {pairs : List ((Yaml × Yaml) × (Yaml × Yaml))}
    (hapart : KeysApart (pairs.map (·.1))) (hkeys : ∀ p ∈ pairs, p.1.1.foldKey = p.2.1.foldKey)
    (hperm : (pairs.map (·.2)).Perm entries) (name : String) :
    lookup? name (pairs.map (·.1)) = none ∧ lookup? name entries = none ∨
      ∃ p ∈ pairs, lookup? name (pairs.map (·.1)) = some p.1.2 ∧ lookup? name entries = some p.2.2 := by
  have hapart' : KeysApart entries := (hapart.respelled hkeys).perm hperm
  have hboth {p : (Yaml × Yaml) × (Yaml × Yaml)} (hp : p ∈ pairs)
      (hlower : p.1.1.lowerKey? = some (Text.lowercase name)) :
      lookup? name (pairs.map (·.1)) = some p.1.2 ∧ lookup? name entries = some p.2.2 := by
    refine ⟨(lookup?_eq_some_iff hapart).2 ⟨p.1.1, List.mem_map.2 ⟨p, hp, rfl⟩, hlower⟩,
      (lookup?_eq_some_iff hapart').2 ⟨p.2.1, hperm.mem_iff.1 (List.mem_map.2 ⟨p, hp, rfl⟩), ?_⟩⟩
    rw [← lowerKey?_eq_of_foldKey (hkeys p hp), hlower]
  cases hfirst : lookup? name (pairs.map (·.1)) with
  | some v =>
    obtain ⟨k, hk, hlower⟩ := exists_key_of_lookup? hfirst
    obtain ⟨p, hp, heq⟩ := List.mem_map.1 hk
    have hp1 : p.1.1 = k := congrArg Prod.fst heq
    rw [← hp1] at hlower
    rw [← hfirst]
    exact .inr ⟨p, hp, hboth hp hlower⟩
  | none =>
    refine .inl ⟨rfl, ?_⟩
    cases hsecond : lookup? name entries with
    | none => rfl
    | some w =>
      obtain ⟨k, hk, hlower⟩ := exists_key_of_lookup? hsecond
      obtain ⟨p, hp, heq⟩ := List.mem_map.1 (hperm.mem_iff.2 hk)
      have hp2 : p.2.1 = k := congrArg Prod.fst heq
      rw [← hp2, ← lowerKey?_eq_of_foldKey (hkeys p hp)] at hlower
      rw [(hboth hp hlower).1] at hfirst
      cases hfirst

/-! ## Fields -/

variable {d d' : Document} {p : Property}

theorem holding_congr (h : lookup? p.name d.entries = lookup? p.name d'.entries) :
    d.holding schema p = d'.holding schema p := by
  unfold holding referred?
  rw [h]

theorem scalarField_mapping (es : List (Yaml × Yaml)) (type : FieldType) :
    scalarField (.mapping es) type = .null := by
  cases type <;> rfl

/-- A mapping is a record at a reference and null elsewhere. -/
theorem holding_mapping {es : List (Yaml × Yaml)} (h : lookup? p.name d.entries = some (.mapping es)) :
    d.holding schema p = ((d.referred? schema p).map (record schema)).elim .null .record := by
  unfold holding
  cases d.referred? schema p with
  | some next => rfl
  | none =>
    rw [h]
    exact scalarField_mapping es p.type

/-- Mappings are held alike for a property if they are the same record of the shape that it refers to. -/
theorem holding_mapping_congr {es es' : List (Yaml × Yaml)}
    (hv : lookup? p.name d.entries = some (.mapping es))
    (hv' : lookup? p.name d'.entries = some (.mapping es'))
    (h : ∀ shape, d.referred? schema p = some ⟨shape, es⟩ →
      Record.ofYaml? schema shape (.mapping es') = Record.ofYaml? schema shape (.mapping es)) :
    d'.holding schema p = d.holding schema p := by
  rw [holding_mapping hv, holding_mapping hv']
  congr 1
  by_cases htype : ∃ target, p.type = .record target
  · obtain ⟨target, htype⟩ := htype
    rw [referred?_of_mapping htype hv] at h ⊢
    rw [referred?_of_mapping htype hv']
    cases hshape : schema.shape? target with
    | none => rfl
    | some shape =>
      rw [hshape] at h
      exact h shape rfl
  · have hno : ∀ target, p.type ≠ .record target := fun target ht => htype ⟨target, ht⟩
    rw [referred?_of_not_record hno, referred?_of_not_record hno]

/-! ## Keys apart on the way -/

theorem Apart.keysApart (h : d.Apart schema) : KeysApart d.entries := h [] d rfl

theorem Apart.enter {next : Document} (h : d.Apart schema) (hnext : d.enter? schema name = some next) :
    next.Apart schema := by
  intro names here hhere
  refine h (name :: names) here ?_
  rw [reach?_cons, hnext]
  exact hhere

/-- Keys are apart on the way if they are in the document and in those that its properties refer to. -/
theorem apart_of_referred (hkeys : KeysApart d.entries)
    (h : ∀ p ∈ d.shape.properties, ∀ next, d.referred? schema p = some next → next.Apart schema) :
    d.Apart schema := by
  intro names here hhere
  cases names with
  | nil =>
    cases hhere
    exact hkeys
  | cons name names =>
    rw [reach?_cons, Option.bind_eq_some_iff] at hhere
    obtain ⟨next, hnext, hreach⟩ := hhere
    obtain ⟨p, hp, hreferred⟩ := Option.bind_eq_some_iff.1 hnext
    exact h p (mem_of_find? hp) next hreferred names here hreach

end Document

theorem Yaml.Respells.eq_or_mapping {v v' : Yaml} (h : v.Respells v') :
    v = v' ∨ ∃ es es', v = .mapping es ∧ v' = .mapping es' := by
  cases h with
  | same => exact .inl rfl
  | mapping _ _ _ _ => exact .inr ⟨_, _, rfl, rfl⟩

open Document

/-- A value is the same record in another spelling. -/
theorem ofYaml?_respelled {schema : Schema} {y y' : Yaml} (h : y.Respells y') {root : Shape}
    (hapart : ∀ entries, y = .mapping entries → (Document.mk root entries).Apart schema) :
    Record.ofYaml? schema root y' = Record.ofYaml? schema root y := by
  induction h generalizing root with
  | same v => rfl
  | @mapping pairs entries hkeys hvalues hperm ih =>
    have hapart := hapart _ rfl
    let d : Document := ⟨root, pairs.map (·.1)⟩
    let d' : Document := ⟨root, entries⟩
    suffices hrecord : d'.record schema = d.record schema from congrArg some hrecord
    funext name
    cases hfind : root.find? name with
    | none =>
      have hd : d.record schema name = .null := record_eq_null hfind
      have hd' : d'.record schema name = .null := record_eq_null hfind
      rw [hd, hd']
    | some p =>
      have hd : d.record schema name = d.holding schema p := record_eq hfind
      have hd' : d'.record schema name = d'.holding schema p := record_eq hfind
      rw [hd, hd']
      rcases lookup?_respelled hapart.keysApart hkeys hperm p.name with
        ⟨hnone, hnone'⟩ | ⟨q, hq, hv, hv'⟩
      · exact holding_congr (hnone'.trans hnone.symm)
      · rcases (hvalues q hq).eq_or_mapping with heq | ⟨es, es', hes, hes'⟩
        · exact holding_congr (by rw [hv, hv', heq])
        · -- of mappings a reference makes documents, whose keys are apart on the way from `d`
          rw [hes] at hv
          rw [hes'] at hv'
          refine holding_mapping_congr hv hv' fun shape hreferred => ?_
          have henter : d.enter? schema name = some ⟨shape, es⟩ := by
            unfold enter?
            rw [hfind]
            exact hreferred
          rw [← hes, ← hes']
          refine ih q hq fun inner hinner => ?_
          cases hes.symm.trans hinner
          exact hapart.enter henter

/-! ## Top theorem (proved from the lemmas above) -/

/-- The spelling and the order of the keys of a document do not matter. Where the keys of a mapping and of
all mappings that references lead to are apart in lower case, the mapping in another spelling is the same
record, and an accepted query keeps the one just if it keeps the other. -/
theorem keeps_respelled {schema : Schema} {root : Shape} {entries entries' : List (Yaml × Yaml)}
    (hapart : (Document.mk root entries).Apart schema)
    (h : (Yaml.mapping entries).Respells (.mapping entries')) :
    Record.ofYaml? schema root (.mapping entries') = Record.ofYaml? schema root (.mapping entries) ∧
      ∀ aliases query f, Filter.ofQuery schema root aliases query = .ok f →
        f.keeps ((Document.mk root entries').record schema) =
          f.keeps ((Document.mk root entries).record schema) := by
  have hrecord : Record.ofYaml? schema root (.mapping entries') =
      Record.ofYaml? schema root (.mapping entries) := by
    refine ofYaml?_respelled h fun es hes => ?_
    cases hes
    exact hapart
  exact ⟨hrecord, fun _ _ f _ => congrArg f.keeps (Option.some.inj hrecord)⟩

/-- The boss is found, and found done, whatever the case and the place of the keys of the two mappings. -/
theorem keeps_respelled_boss :
    let task : Shape := ⟨"Task", [⟨"Boss", .record "Task", true⟩, ⟨"Done", .bool, true⟩], []⟩
    let inner : List (Yaml × Yaml) := [(.string "Done", .bool true), (.int 1, .null)]
    let inner' : List (Yaml × Yaml) := [(.int 1, .null), (.string "dONE", .bool true)]
    let d : Document := ⟨task, [(.string "Boss", .mapping inner), (.string "id", .int 5)]⟩
    let d' : Document := ⟨task, [(.string "ID", .int 5), (.string "bOSS", .mapping inner')]⟩
    ∃ f, Filter.ofQuery ⟨[task], none⟩ task .empty "boss.done = true" = .ok f ∧
      f.keeps (d.record ⟨[task], none⟩) = true ∧ f.keeps (d'.record ⟨[task], none⟩) = true := by
  intro task inner inner' d d'
  let schema : Schema := ⟨[task], none⟩
  let chain : Chain := ⟨[⟨"Boss", .record "Task", true⟩], ⟨"Done", .bool, true⟩⟩
  let f : Filter := .matching (.test chain (.compare .eq (.bool true)))
  have hf : Filter.ofQuery schema task .empty "boss.done = true" = .ok f :=
    toOption_eq_some_iff.1 (by decide +kernel)
  have hinnerApart : (Document.mk task inner).Apart schema := by
    refine apart_of_referred (show List.Nodup _ by decide +kernel) fun p hp next hnext => ?_
    rcases List.mem_pair.1 hp with rfl | rfl <;> cases hnext
  have hapart : d.Apart schema := by
    refine apart_of_referred (show List.Nodup _ by decide +kernel) fun p hp next hnext => ?_
    rcases List.mem_pair.1 hp with rfl | rfl <;> cases hnext
    exact hinnerApart
  have hinner : (Yaml.mapping inner).Respells (.mapping inner') :=
    .mapping [((.string "Done", .bool true), (.string "dONE", .bool true)),
      ((.int 1, .null), (.int 1, .null))] (by simp [Yaml.foldKey, Text.foldAscii])
      (by simp [Yaml.Respells.same]) (.swap _ _ _)
  have h : (Yaml.mapping d.entries).Respells (.mapping d'.entries) :=
    .mapping [((.string "Boss", .mapping inner), (.string "bOSS", .mapping inner')),
      ((.string "id", .int 5), (.string "ID", .int 5))] (by simp [Yaml.foldKey, Text.foldAscii])
      (by simp [Yaml.Respells.same, hinner]) (.swap _ _ _)
  have hvalue : chain.value (d.record schema) = .scalar (.bool true) :=
    (follow_record schema d "Done" ["Boss"]).trans
      (record_eq (d := ⟨task, inner⟩) (p := ⟨"Done", .bool, true⟩) rfl)
  have hkept : f.keeps (d.record schema) = true := by
    change Test.holds (.compare .eq (.bool true)) (chain.value (d.record schema)) = true
    rw [hvalue]
    rfl
  exact ⟨f, hf, hkept, ((keeps_respelled hapart h).2 _ _ f hf).trans hkept⟩

end RecordQuery
