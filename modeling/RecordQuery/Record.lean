import RecordQuery.Scalar

/-!
# Records

A record answers the name of a field with what the field holds: nothing, a scalar, or a further record.
Names are the property names of the record's shape.
-/

namespace RecordQuery

/-- What a field holds. -/
inductive Field where
  | null
  | scalar (s : Scalar)
  | record (fields : String → Field)

/-- A record, as the look-up of its fields. -/
abbrev Record := String → Field

namespace Field

/-- Does the field hold nothing? -/
def isNull : Field → Bool
  | null => true
  | _ => false

end Field

namespace Record

/-! ## Algorithm -/

/-- The field `last` of the record that the names `before` lead to. It is null as soon as a name on the
way leads to no record. -/
def follow (r : Record) (last : String) : List String → Field
  | [] => r last
  | name :: rest =>
    match r name with
    | .record next => follow next last rest
    | _ => .null

end Record

end RecordQuery
