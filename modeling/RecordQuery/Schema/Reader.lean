import RecordQuery.Schema.Basic
import RecordQuery.Schema.Declaration
import RecordQuery.Text.Blank

/-!
# Reading schemas

`Schema.read` reads the text of a schema file: the types of the properties are looked up by their names, and
every reference has to lead to a shape of the schema.
-/

namespace RecordQuery

/-! ## Algorithm -/

/-- Reads a property of a shape. A question mark behind the type makes the property optional; white space
around either is no part of the type's name. -/
def Property.read (shape name text : String) : Except SchemaError Property :=
  let cs := Text.trimChars text.toList
  let (type, optional) :=
    if cs.getLast? = some '?' then (Text.trimChars cs.dropLast, true) else (cs, false)
  match FieldType.ofName? (String.ofList type) with
  | some t => .ok ⟨name, t, optional⟩
  | none => .error (.emptyType shape name)

/-- Reads the types of a declared shape. -/
def Shape.ofDeclaration (name : String) (d : ShapeDeclaration) : Except SchemaError Shape := do
  let properties ← d.properties.mapM fun p => Property.read name p.1 p.2
  return ⟨name, properties, d.aliases⟩

namespace Schema

/-- Reads the types of a declared schema and checks its references. -/
def ofDeclaration (d : SchemaDeclaration) : Except SchemaError Schema := do
  let shapes ← d.shapes.mapM fun s => Shape.ofDeclaration s.1 s.2
  let schema := shapes.foldl insert ⟨[], d.root⟩
  schema.validate
  return schema

/-- The schema that a text declares. -/
def read (text : String) : Except SchemaError Schema :=
  match (Yaml.Node.ofText? text).bind SchemaDeclaration.ofNode? with
  | some d => ofDeclaration d
  | none => .error .unreadable

end Schema

end RecordQuery
