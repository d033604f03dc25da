import RecordQuery.Entries
import RecordQuery.Yaml.Reader

/-!
# Declarations of schemas

A `SchemaDeclaration` is what a schema file says before its types are read: the name of the root, and for
every shape the properties and labels, all as texts. `SchemaDeclaration.ofNode?` finds them in a document.
Scalars of every style are taken as text. Fields of other names are passed over, but a field must not be
given twice.
-/

namespace RecordQuery

/-- A shape as it is written: properties with the texts of their types, and labels with their fields. -/
structure ShapeDeclaration where
  properties : List (String × String)
  aliases : List (String × String)
deriving DecidableEq, Repr

/-- A schema as it is written. -/
structure SchemaDeclaration where
  root : Option String
  shapes : List (String × ShapeDeclaration)
deriving DecidableEq, Repr

namespace Yaml.Node

/-! ## Parts of documents -/

/-- Is the node a plain scalar without text? It stands for a collection that is left out. -/
def isBlank : Node → Bool
  | .scalar text isPlain => text = "" && isPlain
  | _ => false

/-- The text of a scalar. -/
def text? : Node → Option String
  | .scalar text _ => some text
  | _ => none

/-- The entries of a mapping whose keys are texts. A mapping that is left out has none. -/
def fields? : Node → Option (List (String × Node))
  | .mapping entries => entries.mapM fun e => e.1.text?.map fun key => (key, e.2)
  | n => if n.isBlank then some [] else none

/-- The entries of a mapping of texts. Of entries with one key the last one counts. -/
def texts? (n : Node) : Option (List (String × String)) := do
  return Entries.ofList (← (← n.fields?).mapM fun e => e.2.text?.map fun text => (e.1, text))

end Yaml.Node

open Yaml (Node)

/-- What is read from the value of a field, `default` if there is no such field. A field that is given
twice is a fault. -/
def declared? {α : Type} (fields : List (String × Node)) (name : String) (default : α)
    (read? : Node → Option α) : Option α :=
  match fields.filter (·.1 = name) with
  | [] => some default
  | [(_, value)] => read? value
  | _ => none

/-- The name that a node gives, if it is not null. -/
def declaredName? : Node → Option (Option String)
  | .scalar text isPlain => some (if isPlain && Yaml.isNullWord text then none else some text)
  | _ => none

/-- The declaration of a shape that a node writes. -/
def ShapeDeclaration.ofNode? (n : Node) : Option ShapeDeclaration := do
  let fields ← n.fields?
  return ⟨← declared? fields "properties" [] Node.texts?, ← declared? fields "aliases" [] Node.texts?⟩

/-- The declarations of shapes that a node writes. -/
def declaredShapes? (n : Node) : Option (List (String × ShapeDeclaration)) := do
  return Entries.ofList
    (← (← n.fields?).mapM fun e => (ShapeDeclaration.ofNode? e.2).map fun shape => (e.1, shape))

/-- The declaration of a schema that a node writes. It has to declare shapes. -/
def SchemaDeclaration.ofNode? (n : Node) : Option SchemaDeclaration := do
  let fields ← n.fields?
  let root ← declared? fields "root" none declaredName?
  let shapes ← declared? fields "shapes" none fun n => (declaredShapes? n).map some
  return ⟨root, ← shapes⟩

end RecordQuery
