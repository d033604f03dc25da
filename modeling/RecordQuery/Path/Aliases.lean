import RecordQuery.Entries
import RecordQuery.Text.Lowercase

/-!
# Aliases of fields

`Aliases` maps labels, whatever the case of their letters, to the fields that they stand for. A label
that is inserted again takes the new field.
-/

namespace RecordQuery

/-- Labels in lower case and their fields, every label once. -/
structure Aliases where
  entries : List (String × String)
deriving DecidableEq, Repr

namespace Aliases

/-! ## Algorithm -/

/-- No labels. -/
def empty : Aliases := ⟨[]⟩

/-- Adds a label, or changes the field of one. -/
def insert (a : Aliases) (label field : String) : Aliases :=
  ⟨Entries.put (Text.lowercase label) field a.entries⟩

/-- Adds pairs of labels and fields in order. -/
def extend (a : Aliases) (pairs : List (String × String)) : Aliases :=
  pairs.foldl (fun a p => a.insert p.1 p.2) a

/-- The aliases that the pairs make up. -/
def ofList (pairs : List (String × String)) : Aliases := empty.extend pairs

/-- The field of a label. -/
def get? (a : Aliases) (label : String) : Option String := a.entries.lookup (Text.lowercase label)

/-- The number of labels. -/
def size (a : Aliases) : Nat := a.entries.length

/-- Are there no labels? -/
def isEmpty (a : Aliases) : Bool := a.entries.isEmpty

end Aliases

end RecordQuery
