import RecordQuery.Proofs.Kinds

/-!
# Strings as literals and in documents

A document and a query read the same string by two different tables. A document's string that suits a type
is also accepted as a literal, as the same scalar, unless it is a character of white space:

    Document.scalar? (.string s) type = some x  →
      (Literal.string s).coerce type nullable field = .ok (some x)  unless type = .char and s is blank
                                                                        (string_coerce_eq)

The documents keep that character, and the literals lose it to the white space that they are trimmed of.
-/

namespace RecordQuery

/-! ## Characters -/

theorem char?_eq_some_iff {s : String} {c : Char} :
    Document.char? (.string s) = some c ↔ s.toList = [c] := by
  unfold Document.char?
  constructor
  · intro h
    simp only at h
    split at h
    · next d hd =>
      cases h
      exact hd
    · cases h
  · intro h
    simp only [h]

/-- A single character is trimmed away when it is white space, and stays otherwise. -/
theorem trimChars_singleton (c : Char) :
    Text.trimChars [c] = if Text.isBlank c then [] else [c] := by
  unfold Text.trimChars Text.dropBlanks
  cases hc : Text.isBlank c with
  | true => simp [hc]
  | false => simp [hc]

theorem plain_char {s : String} {c : Char} (hs : s.toList = [c]) :
    Coercion.plain (Text.trim s) .char = if Text.isBlank c then .error none else .ok (.char c) := by
  have htrim : (Text.trim s).toList = if Text.isBlank c then [] else [c] := by
    rw [Text.trim, String.toList_ofList, hs, trimChars_singleton]
  unfold Coercion.plain
  simp only [FieldType.integerRange?, FieldType.floatFormat?, htrim]
  cases Text.isBlank c <;> rfl

theorem isAllBlank_singleton {s : String} {c : Char} (hs : s.toList = [c]) :
    Text.isAllBlank s = Text.isBlank c := by
  rw [Text.isAllBlank, hs, List.all_cons, List.all_nil, Bool.and_true]

/-! ## Texts -/

/-- What a document reads from a string at any other type, a query reads from it too. -/
theorem reading_of_scalar? {s : String} {type : FieldType} {x : Scalar} (hchar : type ≠ .char)
    (h : Document.scalar? (.string s) type = some x) : Coercion.reading s type = .ok x := by
  cases type with
  | string =>
    cases h
    rfl
  | dateTime =>
    obtain ⟨t, ht, rfl⟩ := Option.map_eq_some_iff.1 h
    have htoOption : (DateTime.read s).toOption = some t := ht
    simp only [Coercion.reading, toOption_eq_some_iff.1 htoOption]
  | date =>
    obtain ⟨d, hd, rfl⟩ := Option.map_eq_some_iff.1 h
    have htoOption : (Date.read s).toOption = some d := hd
    simp only [Coercion.reading, toOption_eq_some_iff.1 htoOption]
  | duration =>
    obtain ⟨d, hd, rfl⟩ := Option.map_eq_some_iff.1 h
    have hread : Duration.read? s = some d := hd
    simp only [Coercion.reading, hread]
  | decimal =>
    obtain ⟨d, hd, rfl⟩ := Option.map_eq_some_iff.1 h
    have htoOption : (Decimal.read (Text.trim s)).toOption = some d := hd
    simp only [Coercion.reading, Coercion.plain, FieldType.integerRange?, FieldType.floatFormat?,
      toOption_eq_some_iff.1 htoOption]
  | char => exact absurd rfl hchar
  -- a string is no value of the other types
  | _ => cases h

/-! ## Top theorem (proved from the lemmas above) -/

/-- A string that a document reads at a type is a literal of the same value, but for a character of white
space, which is no literal of its type. -/
theorem string_coerce_eq {s : String} {type : FieldType} {x : Scalar}
    (h : Document.scalar? (.string s) type = some x) (nullable : Bool) (field : String) :
    (Literal.string s).coerce type nullable field =
      if type = .char ∧ Text.isAllBlank s = true then
        .error (.unconvertible (.string s) type field none)
      else .ok (some x) := by
  have hcoerce : (Literal.string s).coerce type nullable field =
      ((Coercion.reading s type).mapError fun cause => .unconvertible (.string s) type field cause).map
        some := rfl
  rw [hcoerce]
  by_cases hchar : type = .char
  · subst hchar
    obtain ⟨c, hc, rfl⟩ := Option.map_eq_some_iff.1 h
    rw [char?_eq_some_iff] at hc
    have hreading : Coercion.reading s .char = Coercion.plain (Text.trim s) .char := rfl
    rw [hreading, plain_char hc, isAllBlank_singleton hc]
    cases Text.isBlank c <;> rfl
  · rw [if_neg fun hblank => hchar hblank.1, reading_of_scalar? hchar h]
    rfl

/-- The decimal in `" 1.50"`, white space and all. -/
theorem string_coerce_eq_decimal :
    Document.scalar? (.string " 1.50") .decimal = some (.decimal ⟨150, 2⟩) ∧
      (Literal.string " 1.50").coerce .decimal false "Price" = .ok (some (.decimal ⟨150, 2⟩)) := by
  have h : Document.scalar? (.string " 1.50") .decimal = some (.decimal ⟨150, 2⟩) := by decide +kernel
  exact ⟨h, string_coerce_eq h false "Price"⟩

/-- A document has the character `' '`, which no literal of a single space can ask for. -/
theorem blank_char_not_coerced :
    Document.scalar? (.string " ") .char = some (.char ' ') ∧
      (Literal.string " ").coerce .char false "Sep" ≠ .ok (some (.char ' ')) := by
  refine ⟨by decide +kernel, fun h => ?_⟩
  exact absurd (toOption_eq_some_iff.2 h) (by decide +kernel)

end RecordQuery
