import RecordQuery.Yaml.Reader

/-!
# Record files

A record file holds one mapping, or a sequence whose mappings are its records. Its records are labelled by
the path of the file, and by their number if there are several.
-/

namespace RecordQuery

/-- The records of a file. -/
structure RecordFile where
  path : String
  records : List Yaml
deriving Repr

namespace RecordFile

/-! ## Algorithm -/

/-- The records of a document: the mapping itself, or the mappings of a sequence, if it holds any. -/
def recordsOf? : Yaml → Option (List Yaml)
  | .mapping entries => some [.mapping entries]
  | .sequence items =>
    let records := items.filter Yaml.isMapping
    if records.isEmpty then none else some records
  | _ => none

/-- Reads the content of a file. -/
def ofText? (path text : String) : Option RecordFile :=
  ((Yaml.read? text).bind recordsOf?).map fun records => ⟨path, records⟩

/-- The label of a record: the path alone when the file holds one record, else with the record's number. -/
def label (f : RecordFile) (index : Nat) : String :=
  if f.records.length = 1 then f.path else f.path ++ "#" ++ toString index

/-- The records of a file with their labels. -/
def labelled (f : RecordFile) : List (String × Yaml) :=
  f.records.zipIdx.map fun r => (f.label r.2, r.1)

end RecordFile

end RecordQuery
