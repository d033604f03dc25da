import RecordQuery.Number.Binary.Printer

/-!
# Values of documents

A `Yaml` value is what a YAML or JSON document holds: null, a truth value, a number, a string, a sequence
or a mapping, whose entries keep their order and whose keys are values of any kind.
-/

namespace RecordQuery

/-- A value of a document. -/
inductive Yaml where
  | null
  | bool (b : Bool)
  | int (n : Int)
  | float (x : Binary)
  | string (s : String)
  | sequence (items : List Yaml)
  | mapping (entries : List (Yaml × Yaml))
deriving Repr

namespace Yaml

/-! ## Algorithm -/

/-- The text of a number, as a document shows it. -/
def numberText? : Yaml → Option String
  | int n => some (toString n)
  | float x => some x.yamlText
  | _ => none

/-- Is the value the string `s`? -/
def isString (s : String) : Yaml → Bool
  | string t => t = s
  | _ => false

/-- Is the value a mapping? -/
def isMapping : Yaml → Bool
  | mapping _ => true
  | _ => false

end Yaml

end RecordQuery
