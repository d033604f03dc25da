import RecordQuery.CommandLine.Run
import RecordQuery.Proofs.Outcome
import RecordQuery.Proofs.Labels

/-!
# The modes of the program

Checking a query, writing it in SQL and filtering records with it go through the same steps, up to a
setting and a filter, and the modes differ in the report on them alone:

    o.run disk input = (o.accepted disk).map report

for a `report` of the mode (`run_check`, `run_sql`, `run_filter`). So they fail together, with the same
complaint. What filtering reports is told by relations: the setting stands in the files and the options
(`Setting.ReadFrom`), and the lines are the labels of the records that the filter keeps, file by file
(`Disk.Lists`) and in each file record by record (`RecordFile.Lists`).
-/

namespace RecordQuery

/-! ## What filtering lists -/

/-- The schema and its root stand in the file that the options name. A label stands for the field that the
options give it last, or else the root shape. -/
structure Setting.ReadFrom (disk : Disk) (o : Options) (s : Setting) : Prop where
  schema : ∃ path text, o.schema = some path ∧ disk.readText path = .ok text ∧
    Schema.read text = .ok s.schema
  root : s.schema.root o.root = .ok s.root
  labels : ∀ label, s.aliases.get? label =
    (lastField? label o.aliases).or (lastField? label s.root.aliases)

/-- The value in the file at a path, if it can be read. -/
def Disk.value? (disk : Disk) (path : String) : Option Yaml :=
  (disk.readText path).toOption.bind Yaml.read?

/-- The mappings of a document: itself, or those of a sequence. -/
def Yaml.mappings : Yaml → List Yaml
  | mapping entries => [mapping entries]
  | sequence items => items.filter isMapping
  | _ => []

/-- The lines are the labels, as they are shown, of the records that are kept, the first of which has the
number. -/
inductive RecordFile.Lists (file : RecordFile) (Keeps : Yaml → Prop) (shown : String → String) :
    Nat → List Yaml → List String → Prop
  | nil (number : Nat) : Lists file Keeps shown number [] []
  | keep {number : Nat} {y : Yaml} {ys : List Yaml} {lines : List String} :
      Keeps y → Lists file Keeps shown (number + 1) ys lines →
      Lists file Keeps shown number (y :: ys) (shown (file.label number) :: lines)
  | skip {number : Nat} {y : Yaml} {ys : List Yaml} {lines : List String} :
      ¬ Keeps y → Lists file Keeps shown (number + 1) ys lines →
      Lists file Keeps shown number (y :: ys) lines

/-- The lines are those of the files at the paths, one file after the other. A file that cannot be read has
none. -/
inductive Disk.Lists (disk : Disk) (Keeps : Yaml → Prop) (shown : String → String) :
    List String → List String → Prop
  | nil : Lists disk Keeps shown [] []
  | unreadable {path : String} {paths lines : List String} :
      disk.value? path = none → Lists disk Keeps shown paths lines →
      Lists disk Keeps shown (path :: paths) lines
  | file {path : String} {y : Yaml} {here paths lines : List String} :
      disk.value? path = some y → (RecordFile.mk path y.mappings).Lists Keeps shown 0 y.mappings here →
      Lists disk Keeps shown paths lines → Lists disk Keeps shown (path :: paths) (here ++ lines)

/-- The filter keeps the record that the value is. -/
def Setting.Keeps (s : Setting) (f : Filter) (y : Yaml) : Prop :=
  ∃ r, Record.ofYaml? s.schema s.root y = some r ∧ f.keeps r = true

/-! ## Accepted calls -/

/-- A setting that is loaded stands in the files and the options. -/
theorem Setting.readFrom_of_load {disk : Disk} {o : Options} {s : Setting}
    (h : Setting.load disk o = .ok s) : s.ReadFrom disk o := by
  unfold load at h
  split at h
  · cases h
  · next path hpath =>
    obtain ⟨text, htext, h⟩ := bind_eq_ok_iff.1 h
    obtain ⟨schema, hschema, h⟩ := bind_eq_ok_iff.1 h
    obtain ⟨root, hroot, h⟩ := bind_eq_ok_iff.1 h
    cases h
    refine ⟨⟨path, text, hpath, mapError_eq_ok_iff.1 htext, mapError_eq_ok_iff.1 hschema⟩,
      mapError_eq_ok_iff.1 hroot, fun label => ?_⟩
    rw [Aliases.get?_extend, Aliases.get?_ofList]

/-- The filter in SQL. -/
def Filter.toSql : Filter → SqlFilter
  | everything => ⟨"1 = 1", []⟩
  | matching c => .ofCondition c

theorem ofQuery_toSql (schema : Schema) (root : Shape) (aliases : Aliases) (query : String) :
    SqlFilter.ofQuery schema root aliases query =
      (Filter.ofQuery schema root aliases query).map Filter.toSql := by
  unfold SqlFilter.ofQuery Filter.ofQuery
  split
  · rfl
  · cases Condition.ofQuery schema root aliases query <;> rfl

namespace Options

/-- The setting and the filter that the options ask for. -/
def accepted (disk : Disk) (o : Options) : Except Complaint (Setting × Filter) := do
  let s ← Setting.load disk o
  let f ← s.filter (o.query.getD "")
  return (s, f)

variable {disk : Disk} {input : String} {o : Options}

theorem run_check (h : o.check = true) : o.run disk input = (o.accepted disk).map fun _ => .sound := by
  unfold run accepted
  cases Setting.load disk o with
  | error _ => rfl
  | ok s =>
    simp only [ok_bind, h]
    cases s.filter (o.query.getD "") <;> rfl

theorem run_sql (hcheck : o.check = false) (h : o.sql = true) :
    o.run disk input = (o.accepted disk).map fun a => .sql a.2.toSql := by
  unfold run accepted
  cases Setting.load disk o with
  | error _ => rfl
  | ok s =>
    simp only [ok_bind, hcheck, h]
    unfold Setting.sqlFilter Setting.filter
    rw [ofQuery_toSql]
    cases Filter.ofQuery s.schema s.root s.aliases (o.query.getD "") <;> rfl

theorem run_filter (hcheck : o.check = false) (hsql : o.sql = false) {paths : List String}
    (h : dataPaths disk input o = .ok paths) :
    o.run disk input = (o.accepted disk).map fun a => .labels (keptLabels disk o a.1 a.2 paths) := by
  unfold run accepted
  cases Setting.load disk o with
  | error _ => rfl
  | ok s =>
    simp only [ok_bind, hcheck, hsql, h]
    cases s.filter (o.query.getD "") <;> rfl

theorem exists_dataPaths (disk : Disk) (input : String) (h : o.readsInput = true ∨ o.data.isSome = true) :
    ∃ paths, dataPaths disk input o = .ok paths := by
  unfold dataPaths
  cases hinput : o.readsInput with
  | true => exact ⟨_, rfl⟩
  | false =>
    rw [hinput] at h
    obtain ⟨path, hpath⟩ := Option.isSome_iff_exists.1 (h.resolve_left Bool.noConfusion)
    rw [hpath]
    exact ⟨_, rfl⟩

end Options

/-! ## Lines -/

theorem keeps_iff (s : Setting) (f : Filter) (y : Yaml) : s.keeps f y = true ↔ s.Keeps f y := by
  unfold Setting.keeps Setting.Keeps
  rw [Option.any_eq_true]

theorem recordsOf?_eq (y : Yaml) :
    RecordFile.recordsOf? y = if y.mappings.isEmpty then none else some y.mappings := by
  cases y <;> rfl

theorem recordFile?_eq (disk : Disk) (path : String) : disk.recordFile? path =
    (disk.value? path).bind fun y =>
      if y.mappings.isEmpty then none else some ⟨path, y.mappings⟩ := by
  unfold Disk.recordFile? Disk.value? RecordFile.ofText?
  rw [Option.bind_assoc]
  congr 1
  funext text
  cases Yaml.read? text with
  | none => rfl
  | some y =>
    rw [Option.bind_some, Option.bind_some, recordsOf?_eq]
    split <;> rfl

variable (s : Setting) (f : Filter)

theorem labelsIn_of_value? {disk : Disk} {path : String} {y : Yaml} (h : disk.value? path = some y) :
    (disk.recordFile? path).elim [] (s.labelsIn f) = s.labelsIn f ⟨path, y.mappings⟩ := by
  rw [recordFile?_eq, h, Option.bind_some]
  split
  · next hempty =>
    rw [List.isEmpty_iff.1 hempty]
    rfl
  · rfl

theorem keptLabels_cons (disk : Disk) (o : Options) (path : String) (paths : List String) :
    keptLabels disk o s f (path :: paths) =
      ((disk.recordFile? path).elim [] (s.labelsIn f)).map (shownLabel disk o.data) ++
        keptLabels disk o s f paths := by
  unfold keptLabels
  cases h : disk.recordFile? path with
  | none => rw [List.filterMap_cons_none h]; rfl
  | some file => rw [List.filterMap_cons_some h, List.flatMap_cons, List.map_append]; rfl

/-- The lines of a file are the labels of those of its records that the filter keeps. -/
theorem lists_labelsIn (shown : String → String) (file : RecordFile) :
    file.Lists (s.Keeps f) shown 0 file.records ((s.labelsIn f file).map shown) := by
  -- the numbers go up along the list, so that the start has to vary
  have hfrom (ys : List Yaml) (number : Nat) : file.Lists (s.Keeps f) shown number ys
      (((((ys.zipIdx number).map fun r => (file.label r.2, r.1)).filter fun r => s.keeps f r.2).map
        (·.1)).map shown) := by
    induction ys generalizing number with
    | nil => exact .nil number
    | cons y ys ih =>
      rw [List.zipIdx_cons, List.map_cons, List.filter_cons]
      split
      · next hkeeps => exact .keep ((keeps_iff s f y).1 hkeeps) (ih (number + 1))
      · next hkeeps => exact .skip (fun h => hkeeps ((keeps_iff s f y).2 h)) (ih (number + 1))
  exact hfrom file.records 0

/-- The lines of the files at some paths are the labels of the records that the filter keeps. -/
theorem lists_keptLabels (disk : Disk) (o : Options) (paths : List String) :
    disk.Lists (s.Keeps f) (shownLabel disk o.data) paths (keptLabels disk o s f paths) := by
  induction paths with
  | nil => exact .nil
  | cons path paths ih =>
    rw [keptLabels_cons]
    cases hvalue : disk.value? path with
    | none =>
      have hfile : disk.recordFile? path = none := by rw [recordFile?_eq, hvalue, Option.bind_none]
      rw [hfile]
      exact .unreadable hvalue ih
    | some y =>
      rw [labelsIn_of_value? s f hvalue]
      exact .file hvalue (lists_labelsIn s f _ ⟨path, y.mappings⟩) ih

/-! ## Outcomes -/

theorem exitCode_ne_two (r : Report) : r.exitCode ≠ 2 := by
  unfold Report.exitCode
  split <;> decide

theorem exitCode_labels (ls : List String) : (Report.labels ls).exitCode = if ls = [] then 1 else 0 := by
  cases ls <;> rfl

/-- Failed runs print nothing. -/
theorem lines_eq_nil_of_exitCode {x : Except Complaint Report} (h : (Outcome.ofRun x).exitCode = 2) :
    (Outcome.ofRun x).lines = [] := by
  cases x with
  | error c => rfl
  | ok r => exact absurd h (exitCode_ne_two r)

theorem run_eq_of_read {c : Call} {o : Options} (h : Options.read c.environment c.arguments = .ok o) :
    c.run = Outcome.ofRun (o.run c.disk c.input) := by
  unfold Call.run
  rw [h]
  rfl

/-! ## Top theorem (proved from the lemmas above) -/

/-- The modes of the program agree, and failures print nothing. Of three calls with one set of options that
check, write in SQL and filter records that are given, either none fails or all do, with one complaint. If
they do not fail, filtering lists the labels of the records that the filter of the query keeps, and its exit
code tells whether there are any. -/
theorem modes_agree {disk : Disk} {environment : String → Option String} {input : String} {o : Options}
    {checking writing filtering : List String}
    (hcheck : Options.read environment checking = .ok { o with check := true })
    (hsql : Options.read environment writing = .ok { o with check := false, sql := true })
    (hfilter : Options.read environment filtering = .ok { o with check := false, sql := false })
    (hdata : o.readsInput = true ∨ o.data.isSome = true) :
    let run (arguments : List String) : Outcome := Call.run ⟨arguments, environment, input, disk⟩
    ((run checking).exitCode = 0 ↔ (run writing).exitCode = 0) ∧
    ((run writing).exitCode = 0 ↔ (run filtering).exitCode ≠ 2) ∧
    ((run filtering).exitCode = 2 → ∃ text, (run checking).complaint = some text ∧
      (run writing).complaint = some text ∧ (run filtering).complaint = some text) ∧
    (∀ arguments, (run arguments).exitCode = 2 → (run arguments).lines = []) ∧
    ((run filtering).exitCode ≠ 2 → ∃ (s : Setting) (f : Filter) (paths : List String),
      s.ReadFrom disk o ∧
      Filter.ofQuery s.schema s.root s.aliases (o.query.getD "") = .ok f ∧
      dataPaths disk input o = .ok paths ∧
      disk.Lists (s.Keeps f) (shownLabel disk o.data) paths (run filtering).lines ∧
      (run filtering).exitCode = if (run filtering).lines = [] then 1 else 0) := by
  intro run
  obtain ⟨paths, hpaths⟩ := Options.exists_dataPaths disk input hdata
  -- the flags tell the modes apart, and are nothing to what is accepted
  have hchecking : run checking = .ofRun ((o.accepted disk).map fun _ => .sound) :=
    (run_eq_of_read hcheck).trans
      (congrArg Outcome.ofRun (Options.run_check (o := { o with check := true }) rfl))
  have hwriting : run writing = .ofRun ((o.accepted disk).map fun a => .sql a.2.toSql) :=
    (run_eq_of_read hsql).trans
      (congrArg Outcome.ofRun (Options.run_sql (o := { o with check := false, sql := true }) rfl rfl))
  have hfiltering : run filtering =
      .ofRun ((o.accepted disk).map fun a => .labels (keptLabels disk o a.1 a.2 paths)) :=
    (run_eq_of_read hfilter).trans (congrArg Outcome.ofRun
      (Options.run_filter (o := { o with check := false, sql := false }) rfl rfl hpaths))
  have hempty (arguments : List String) (h : (run arguments).exitCode = 2) :
      (run arguments).lines = [] := lines_eq_nil_of_exitCode h
  rw [hchecking, hwriting, hfiltering]
  cases haccepted : o.accepted disk with
  | error c =>
    have hcode : (2 : Nat) ≠ 0 := by decide
    exact ⟨Iff.rfl, ⟨fun h => absurd h hcode, fun h => absurd rfl h⟩,
      fun _ => ⟨c.message, rfl, rfl, rfl⟩, hempty, fun h => absurd rfl h⟩
  | ok a =>
    obtain ⟨s, hs, hrest⟩ := bind_eq_ok_iff.1 haccepted
    obtain ⟨f, hf, ha⟩ := bind_eq_ok_iff.1 hrest
    cases ha
    have hne := exitCode_ne_two (.labels (keptLabels disk o s f paths))
    exact ⟨Iff.rfl, ⟨fun _ => hne, fun _ => rfl⟩, fun h => absurd h hne, hempty,
      fun _ => ⟨s, f, paths, Setting.readFrom_of_load hs, mapError_eq_ok_iff.1 hf, hpaths,
        lists_keptLabels s f disk o paths, exitCode_labels _⟩⟩

/-- A label of the options goes before that of the shape, and a file that is no YAML and an item that is no
mapping are passed over. -/
theorem modes_agree_finished :
    let text := "root: Task\nshapes:\n  Task:\n    properties:\n      Done: bool\n    aliases:\n      f: x\n"
    let disk : Disk := ⟨.directory [("schema", .file text.toUTF8), ("bad", .file "x: [".toUTF8),
      ("tasks", .file "- 5\n- done: true\n- Done: false\n".toUTF8)], []⟩
    let run (arguments : List String) : Outcome :=
      Call.run ⟨arguments, fun _ => none, "bad\n\ntasks\n", disk⟩
    let arguments := ["--schema", "schema", "--stdin", "--alias", "F = Done", "f = true"]
    (run ("--check" :: arguments)).exitCode = 0 ∧ (run ("--sql" :: arguments)).exitCode = 0 ∧
      run arguments = ⟨0, ["tasks#0"], none⟩ := by
  intro text disk run arguments
  let o : Options :=
    ⟨some "schema", none, none, true, [("F", "Done")], false, false, some "f = true"⟩
  have hcheck : Options.read (fun _ => none) ("--check" :: arguments) = .ok { o with check := true } :=
    toOption_eq_some_iff.1 (by decide +kernel)
  have hsql : Options.read (fun _ => none) ("--sql" :: arguments) =
      .ok { o with check := false, sql := true } := toOption_eq_some_iff.1 (by decide +kernel)
  have hfilter : Options.read (fun _ => none) arguments =
      .ok { o with check := false, sql := false } := toOption_eq_some_iff.1 (by decide +kernel)
  have hrun : run arguments = ⟨0, ["tasks#0"], none⟩ := by decide +kernel
  obtain ⟨hchecks, hfilters, _⟩ :=
    @modes_agree disk (fun _ => none) "bad\n\ntasks\n" o _ _ _ hcheck hsql hfilter (.inl rfl)
  have hcode : (run ("--sql" :: arguments)).exitCode = 0 := by
    refine hfilters.2 ?_
    change (run arguments).exitCode ≠ 2
    rw [hrun]
    decide
  exact ⟨hchecks.2 hcode, hcode, hrun⟩

end RecordQuery
