import RecordQuery.Schema.Shape

/-!
# Schemas

A `Schema` is a list of shapes with different names, and perhaps the name of the shape that queries
start from. `validate` finds references to shapes that are missing.
-/

namespace RecordQuery

/-- What can be wrong with a schema. -/
inductive SchemaError where
  | unreadable
  | emptyType (shape property : String)
  | unknownShape (shape property target : String)
  | unknownRoot (name : String)
  | missingRoot
deriving DecidableEq, Repr

/-- The wording of each fault. -/
def SchemaError.message : SchemaError → String
  | unreadable => "invalid schema file"
  | emptyType shape property => "property '" ++ shape ++ "." ++ property ++ "' has an empty type"
  | unknownShape shape property target =>
    "property '" ++ shape ++ "." ++ property ++ "' refers to unknown shape '" ++ target ++ "'"
  | unknownRoot name => "unknown root shape '" ++ name ++ "'"
  | missingRoot => "schema does not name a root shape"

/-- The shapes of records, and the shape that queries start from. -/
structure Schema where
  shapes : List Shape
  rootName : Option String
deriving DecidableEq, Repr

namespace Schema

/-! ## Algorithm -/

/-- A schema without shapes. -/
def empty : Schema := ⟨[], none⟩

/-- Puts a shape in the place of the one of its name, or at the end. -/
def insertShape (shape : Shape) : List Shape → List Shape
  | [] => [shape]
  | s :: rest => if s.name = shape.name then shape :: rest else s :: insertShape shape rest

/-- Adds a shape, which replaces an earlier one of its name. -/
def insert (s : Schema) (shape : Shape) : Schema := ⟨insertShape shape s.shapes, s.rootName⟩

/-- The shape of a name. -/
def shape? (s : Schema) (name : String) : Option Shape := s.shapes.find? (·.name = name)

/-- The shape that queries run against: the named one, else the schema's own root. -/
def root (s : Schema) (name : Option String) : Except SchemaError Shape :=
  match name.or s.rootName with
  | none => .error .missingRoot
  | some n =>
    match s.shape? n with
    | some shape => .ok shape
    | none => .error (.unknownRoot n)

/-- The shape that a property refers to, if the schema has no such shape. -/
def danglingTarget? (s : Schema) (p : Property) : Option String :=
  match p.type with
  | .record target => if (s.shape? target).isSome then none else some target
  | _ => none

/-- The first fault of a reference in a shape. -/
def danglingIn? (s : Schema) (shape : Shape) : Option SchemaError :=
  shape.properties.findSome? fun p =>
    (s.danglingTarget? p).map fun target => .unknownShape shape.name p.name target

/-- Checks that references and the root point to shapes of the schema. -/
def validate (s : Schema) : Except SchemaError Unit :=
  match s.shapes.findSome? s.danglingIn? with
  | some e => .error e
  | none =>
    match s.rootName with
    | none => .ok ()
    | some root => if (s.shape? root).isSome then .ok () else .error (.unknownRoot root)

end Schema

end RecordQuery
