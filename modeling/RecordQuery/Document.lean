import RecordQuery.Record
import RecordQuery.Schema.Basic
import RecordQuery.Yaml.Value
import RecordQuery.Number.Decimal.Reader
import RecordQuery.Text.Blank

/-!
# Documents as records

A mapping of a document is read as a record of some shape. A field is the entry whose key is the property's
name, or else the first whose key differs from it in case alone. Its value is read at the property's
type; a value that does not suit the type counts as null.
-/

namespace RecordQuery

namespace Document

/-! ## Algorithm -/

/-- The value of the entry whose key is the string `name`. -/
def lookupExact? (name : String) : List (Yaml × Yaml) → Option Yaml
  | [] => none
  | (key, value) :: rest => if key.isString name then some value else lookupExact? name rest

/-- The value of the first entry whose key is a string with the lower case `lower`. -/
def lookupLowercase? (lower : String) : List (Yaml × Yaml) → Option Yaml
  | [] => none
  | (.string key, value) :: rest =>
    if Text.lowercase key = lower then some value else lookupLowercase? lower rest
  | _ :: rest => lookupLowercase? lower rest

/-- The value of the entry that `name` denotes. -/
def lookup? (name : String) (entries : List (Yaml × Yaml)) : Option Yaml :=
  (lookupExact? name entries).or (lookupLowercase? (Text.lowercase name) entries)

/-- A value as a float. Whole numbers are rounded. -/
def float? : Yaml → Option Binary
  | .int n => some (.ofInt .double n)
  | .float x => some x
  | _ => none

/-- A value as a decimal: the text of a number or of a string, white space around it aside. -/
def decimal? : Yaml → Option Decimal
  | .string s => (Decimal.read (Text.trim s)).toOption
  | v => v.numberText?.bind fun s => (Decimal.read s).toOption

/-- A value as text. -/
def text? : Yaml → Option String
  | .string s => some s
  | .bool b => some (Scalar.boolText b)
  | v => v.numberText?

/-- The characters of a string. -/
def string? : Yaml → Option String
  | .string s => some s
  | _ => none

/-- A whole number of 64 bits with a sign. -/
def signed? : Yaml → Option Int
  | .int n => if (IntegerRange.signed 64).contains n then some n else none
  | _ => none

/-- A whole number of 64 bits without a sign. -/
def unsigned? : Yaml → Option Nat
  | .int n => if (IntegerRange.unsigned 64).contains n then some n.toNat else none
  | _ => none

/-- A string of a single character. -/
def char? : Yaml → Option Char
  | .string s =>
    match s.toList with
    | [c] => some c
    | _ => none
  | _ => none

/-- A truth value. -/
def bool? : Yaml → Option Bool
  | .bool b => some b
  | _ => none

/-- A value at a type, none if it does not suit the type. -/
def scalar? (v : Yaml) : FieldType → Option Scalar
  | .int32 | .int64 => (signed? v).map .int
  | .uint32 | .uint64 => (unsigned? v).map .uint
  | .float32 | .float64 => (float? v).map .float
  | .decimal => (decimal? v).map .decimal
  | .bool => (bool? v).map .bool
  | .char => (char? v).map .char
  | .string => (text? v).map .text
  | .dateTime => ((string? v).bind fun s => (DateTime.read s).toOption).map .dateTime
  | .date => ((string? v).bind fun s => (Date.read s).toOption).map .date
  | .duration => ((string? v).bind Duration.read?).map .duration
  | .record _ => none

/-! ## Lemmas -/

theorem mem_of_lookupExact? {name : String} {entries : List (Yaml × Yaml)} {v : Yaml}
    (h : lookupExact? name entries = some v) : ∃ k, (k, v) ∈ entries := by
  induction entries with
  | nil => simp [lookupExact?] at h
  | cons e rest ih =>
    obtain ⟨k, w⟩ := e
    simp only [lookupExact?] at h
    split at h
    · cases h
      exact ⟨k, List.mem_cons_self⟩
    · obtain ⟨k', hk⟩ := ih h
      exact ⟨k', List.mem_cons_of_mem _ hk⟩

theorem mem_of_lookupLowercase? {lower : String} {entries : List (Yaml × Yaml)} {v : Yaml}
    (h : lookupLowercase? lower entries = some v) : ∃ k, (k, v) ∈ entries := by
  induction entries with
  | nil => simp [lookupLowercase?] at h
  | cons e rest ih =>
    have later (h' : lookupLowercase? lower rest = some v) : ∃ k, (k, v) ∈ e :: rest :=
      (ih h').imp fun _ hk => List.mem_cons_of_mem _ hk
    obtain ⟨k, w⟩ := e
    cases k with
    | string s =>
      simp only [lookupLowercase?] at h
      split at h
      · cases h
        exact ⟨.string s, List.mem_cons_self⟩
      · exact later h
    | _ => exact later (by simpa only [lookupLowercase?] using h)

/-- A value that is found is the value of some entry. -/
theorem mem_of_lookup? {name : String} {entries : List (Yaml × Yaml)} {v : Yaml}
    (h : lookup? name entries = some v) : ∃ k, (k, v) ∈ entries := by
  simp only [lookup?, Option.or_eq_some_iff] at h
  rcases h with h | ⟨_, h⟩
  · exact mem_of_lookupExact? h
  · exact mem_of_lookupLowercase? h

theorem sizeOf_lt_of_lookup? {name : String} {entries es : List (Yaml × Yaml)}
    (h : lookup? name entries = some (.mapping es)) : sizeOf es < sizeOf entries := by
  obtain ⟨k, hk⟩ := mem_of_lookup? h
  have := List.sizeOf_lt_of_mem hk
  simp only [Prod.mk.sizeOf_spec, Yaml.mapping.sizeOf_spec] at this
  omega

/-! ## Records -/

/-- A value at a type of scalars, null if it does not suit the type. -/
def scalarField (v : Yaml) (type : FieldType) : Field :=
  match scalar? v type with
  | some s => .scalar s
  | none => .null

/-- The fields of a mapping that is read as a record of a shape. -/
def fields (schema : Schema) (shape : Shape) (entries : List (Yaml × Yaml)) (name : String) : Field :=
  match shape.find? name with
  | none => .null
  | some p =>
    match _h : lookup? p.name entries with
    | none | some .null => .null
    | some (.mapping inner) =>
      match p.type with
      | .record target =>
        match schema.shape? target with
        | some s => .record (fields schema s inner)
        | none => .null
      | type => scalarField (.mapping inner) type
    | some v => scalarField v p.type
termination_by sizeOf entries
decreasing_by exact sizeOf_lt_of_lookup? _h

end Document

/-- The record that a value is when read with a shape. Only mappings are records. -/
def Record.ofYaml? (schema : Schema) (shape : Shape) : Yaml → Option Record
  | .mapping entries => some (Document.fields schema shape entries)
  | _ => none

end RecordQuery
