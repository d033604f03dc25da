import RecordQuery.CommandLine.Options
import RecordQuery.Document
import RecordQuery.Files.Collect
import RecordQuery.Filter
import RecordQuery.Schema.Reader

/-!
# Running the program

`run` answers a call of the program. A query is checked, written in SQL, or used to filter records: the
labels of the records that satisfy it are printed, one on a line. A run fails with a complaint and prints
nothing, or it succeeds with a report.
-/

namespace RecordQuery

/-- A call of the program: its arguments and environment, the text on its standard input, and the files
that it can see. -/
structure Call where
  arguments : List String
  environment : String → Option String
  input : String
  disk : Disk

/-- Why a run fails. -/
inductive Complaint where
  | usage (e : UsageError)
  | noSchema
  | schemaFile (e : FileError)
  | schema (e : SchemaError)
  | query (e : QueryError)
  | noData
deriving DecidableEq, Repr

/-- The wording of each complaint. -/
def Complaint.message : Complaint → String
  | usage e => e.message
  | noSchema => "Error: No schema specified. Use --schema or set RFQ_SCHEMA"
  | schemaFile e => "Schema error: failed to read schema file: " ++ e.message
  | schema e => "Schema error: " ++ e.message
  | query e => "Query error: " ++ e.display
  | noData => "Error: No data path specified. Use --data, set RFQ_DATA or pass --stdin"

/-- What a run finds out: that a query is sound, its clause, or the labels of the records it keeps. -/
inductive Report where
  | sound
  | sql (f : SqlFilter)
  | labels (ls : List String)
deriving DecidableEq, Repr

namespace Report

/-- The line for a parameter of a clause. -/
def parameterLine (number : Nat) (value : Scalar) : String :=
  "$" ++ toString number ++ " = " ++ value.display

/-- The lines that a report prints. -/
def lines : Report → List String
  | sound => []
  | sql f => f.clause :: f.parameters.zipIdx.map fun p => parameterLine (p.2 + 1) p.1
  | labels ls => ls

/-- The exit code of a run with a report: 1 when no record was found. -/
def exitCode : Report → Nat
  | labels [] => 1
  | _ => 0

end Report

/-- What a call of the program shows. -/
structure Outcome where
  exitCode : Nat
  lines : List String
  complaint : Option String
deriving DecidableEq, Repr

/-- What a run shows. -/
def Outcome.ofRun : Except Complaint Report → Outcome
  | .ok r => ⟨r.exitCode, r.lines, none⟩
  | .error c => ⟨2, [], some c.message⟩

/-! ## Reading what a query needs -/

/-- A schema with the shape that queries start from and the labels that they may use. -/
structure Setting where
  schema : Schema
  root : Shape
  aliases : Aliases

namespace Setting

/-- Reads the schema that the options name. Labels of the options go before those of the root shape. -/
def load (disk : Disk) (o : Options) : Except Complaint Setting := do
  match o.schema with
  | none => throw .noSchema
  | some path =>
    let text ← (disk.readText path).mapError .schemaFile
    let schema ← (Schema.read text).mapError .schema
    let root ← (schema.root o.root).mapError .schema
    return ⟨schema, root, (Aliases.ofList root.aliases).extend o.aliases⟩

/-- The filter of a query. -/
def filter (s : Setting) (query : String) : Except Complaint Filter :=
  (Filter.ofQuery s.schema s.root s.aliases query).mapError .query

/-- The clause of a query. -/
def sqlFilter (s : Setting) (query : String) : Except Complaint SqlFilter :=
  (SqlFilter.ofQuery s.schema s.root s.aliases query).mapError .query

/-- Does a filter keep a record of a file? -/
def keeps (s : Setting) (f : Filter) (value : Yaml) : Bool :=
  (Record.ofYaml? s.schema s.root value).any f.keeps

/-- The labels of the records in a file that a filter keeps. -/
def labelsIn (s : Setting) (f : Filter) (file : RecordFile) : List String :=
  (file.labelled.filter fun r => s.keeps f r.2).map (·.1)

end Setting

/-! ## Running -/

/-- The paths on the lines of a text. Blank lines hold none. -/
def inputPaths (input : String) : List String := (Text.lines input).filter (!Text.isAllBlank ·)

/-- The paths of the files that the options name. -/
def dataPaths (disk : Disk) (input : String) (o : Options) : Except Complaint (List String) :=
  if o.readsInput then .ok (inputPaths input)
  else
    match o.data with
    | some path => .ok (disk.recordPaths path)
    | none => .error .noData

/-- A label as it is shown: as the way from the data directory, if the label lies in it. -/
def shownLabel (disk : Disk) (data : Option String) (label : String) : String :=
  match data with
  | some base =>
    if disk.isDirectory base then (FilePath.relativeTo? base label).getD label else label
  | none => label

/-- The labels of the records that a filter keeps, in the order of the files. -/
def keptLabels (disk : Disk) (o : Options) (s : Setting) (f : Filter) (paths : List String) :
    List String :=
  ((paths.filterMap disk.recordFile?).flatMap (s.labelsIn f)).map (shownLabel disk o.data)

/-- Do the options ask for records to be filtered? -/
def Options.filters (o : Options) : Bool := !o.check && !o.sql

/-- Runs what the options ask for. Checking goes before writing SQL, and both before filtering. -/
def Options.run (disk : Disk) (input : String) (o : Options) : Except Complaint Report := do
  let setting ← Setting.load disk o
  let query := o.query.getD ""
  if o.check then
    let _ ← setting.filter query
    return .sound
  else if o.sql then
    return .sql (← setting.sqlFilter query)
  else
    let paths ← dataPaths disk input o
    return .labels (keptLabels disk o setting (← setting.filter query) paths)

/-- Answers a call of the program. -/
def Call.run (c : Call) : Outcome :=
  Outcome.ofRun do
    let o ← (Options.read c.environment c.arguments).mapError .usage
    o.run c.disk c.input

end RecordQuery
