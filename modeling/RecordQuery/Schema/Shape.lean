import RecordQuery.Schema.FieldType

/-!
# Shapes

A `Shape` lists the properties of a kind of records and the labels that queries may use for them.
`find?` looks a property up by name whatever the case of its letters.
-/

namespace RecordQuery

/-- A field of a shape. -/
structure Property where
  name : String
  type : FieldType
  optional : Bool
deriving DecidableEq, Repr

/-- A field can be null when it is optional or its type is no value type. -/
def Property.isNullable (p : Property) : Bool := p.optional || !p.type.isValueType

/-- The fields of a kind of records, and labels for them. -/
structure Shape where
  name : String
  properties : List Property
  aliases : List (String × String)
deriving DecidableEq, Repr

namespace Shape

/-! ## Algorithm -/

/-- The first property whose name differs from `name` at most in the case of ASCII letters. -/
def findAscii? (s : Shape) (name : String) : Option Property :=
  s.properties.find? fun p => Text.eqIgnoringAsciiCase p.name name

/-- The first property whose name has the same full lower case as `name`. -/
def findLowercase? (s : Shape) (name : String) : Option Property :=
  s.properties.find? fun p => Text.lowercase p.name = Text.lowercase name

/-- The property that `name` denotes. A match in ASCII case goes before one in full lower case. -/
def find? (s : Shape) (name : String) : Option Property :=
  (s.findAscii? name).or (s.findLowercase? name)

/-- The names of the properties, in order. -/
def propertyNames (s : Shape) : List String := s.properties.map (·.name)

end Shape

end RecordQuery
