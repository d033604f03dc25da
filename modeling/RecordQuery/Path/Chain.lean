import RecordQuery.Text.Split
import RecordQuery.Path.Aliases
import RecordQuery.Language.Fault
import RecordQuery.Schema.Basic

/-!
# Walking paths through a schema

A path names a field of a record, or a field of a record that it refers to, and so on. `resolve` finds
the property that each segment names and gives the chain of steps. The first segment may be a label;
the field that it stands for may itself be a path.
-/

namespace RecordQuery

/-- A property on the way: its own name and type, and whether it can be null. -/
structure Step where
  name : String
  type : FieldType
  nullable : Bool
deriving DecidableEq, Repr

/-- The steps from a record to a value, at least one. -/
structure Chain where
  before : List Step
  last : Step
deriving DecidableEq, Repr

namespace Chain

/-! ## Algorithm -/

/-- All steps, in order. -/
def steps (c : Chain) : List Step := c.before ++ [c.last]

/-- A step taken before all others. -/
def cons (s : Step) (c : Chain) : Chain := ⟨s :: c.before, c.last⟩

/-- The names on the way. -/
def names (c : Chain) : List String := c.steps.map (·.name)

/-- The names with points between them. -/
def path (c : Chain) : String := ".".intercalate c.names

/-- The type of the value. -/
def type (c : Chain) : FieldType := c.last.type

/-- Can the value itself be null? -/
def isNullable (c : Chain) : Bool := c.last.nullable

/-- Can anything on the way be null? -/
def mayBeNull (c : Chain) : Bool := c.steps.any (·.nullable)

end Chain

/-- The step that a property makes. -/
def Property.step (p : Property) : Step := ⟨p.name, p.type, p.isNullable⟩

namespace Schema

/-! ## Algorithm -/

/-- Walks from `shape` to the property `segment`, and from there through the segments `rest`. -/
def walk (schema : Schema) (shape : Shape) (segment : String) :
    List String → Except Fault Chain
  | [] =>
    match shape.find? segment with
    | none => .error (.unknownField segment shape.name shape.propertyNames)
    | some p => .ok ⟨[], p.step⟩
  | next :: rest =>
    match shape.find? segment with
    | none => .error (.unknownField segment shape.name shape.propertyNames)
    | some p =>
      match p.type with
      | .record target =>
        match schema.shape? target with
        | none => .error (.unknownRecordType p.name target)
        | some inner => (schema.walk inner next rest).map (Chain.cons p.step)
      | type => .error (.notARecord p.name shape.name type next)

/-- The segments of a path, after its first part has been looked up among the aliases. -/
def segments (aliases : Aliases) (path : String) : List String :=
  match Text.split '.' path with
  | [] => []
  | first :: rest => Text.split '.' ((aliases.get? first).getD first) ++ rest

/-- The chain of steps that a path stands for, from a record of shape `root`. -/
def resolve (schema : Schema) (root : Shape) (aliases : Aliases) (path : String) :
    Except Fault Chain :=
  match segments aliases path with
  | [] => .error (.invalidPath path)
  | first :: rest =>
    if "" ∈ first :: rest then .error (.invalidPath path) else schema.walk root first rest

end Schema

end RecordQuery
