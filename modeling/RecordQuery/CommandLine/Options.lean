import RecordQuery.Text.Blank
import RecordQuery.Text.Split

/-!
# Options of the command line

`Options.read` reads the arguments of the program: options with a value, given as the next argument or
behind an equals sign, flags, and one query. All but `--alias` may be given once. Two of the values may come
from the environment instead.
-/

namespace RecordQuery

/-- What the arguments ask for. -/
structure Options where
  schema : Option String
  root : Option String
  data : Option String
  readsInput : Bool
  aliases : List (String × String)
  sql : Bool
  check : Bool
  query : Option String
deriving DecidableEq, Repr

/-- Why the arguments cannot be read: they do not fit together, or the value of an alias is no pair. -/
inductive UsageError where
  | arguments
  | noPair (value : String)
deriving DecidableEq, Repr

/-- The wording of each fault. -/
def UsageError.message : UsageError → String
  | arguments => "usage: "
  | noPair value => "usage: expected LABEL=FIELD, got '" ++ value ++ "'"

/-- The options that take a value. -/
inductive ValueOption where
  | schema
  | root
  | data
  | label
deriving DecidableEq, Repr

/-- The options that take none. -/
inductive Flag where
  | stdin
  | sql
  | check
deriving DecidableEq, Repr

/-- What an argument is by itself. -/
inductive Argument where
  | option (o : ValueOption)
  | assignment (o : ValueOption) (value : String)
  | flag (f : Flag)
  | terminator
  | plain (text : String)
  | unknown
deriving DecidableEq, Repr

/-! ## Arguments -/

namespace Argument

/-- The option of a name, with the value behind the equals sign if there is one. -/
def ofName (name : String) (value : Option String) : Argument :=
  let valued (o : ValueOption) := value.elim (.option o) (.assignment o)
  let bare (f : Flag) := if value.isSome then .unknown else .flag f
  match name with
  | "schema" => valued .schema
  | "root" => valued .root
  | "data" => valued .data
  | "alias" => valued .label
  | "stdin" => bare .stdin
  | "sql" => bare .sql
  | "check" => bare .check
  | _ => .unknown

/-- Tells what an argument is. One hyphen alone is plain text. -/
def ofText (text : String) : Argument :=
  match text.toList with
  | ['-', '-'] => .terminator
  | '-' :: '-' :: cs =>
    match Text.cut? '=' cs with
    | some (name, value) => ofName (String.ofList name) (some (String.ofList value))
    | none => ofName (String.ofList cs) none
  | '-' :: _ :: _ => .unknown
  | _ => .plain text

end Argument

namespace Options

/-! ## Setting options -/

/-- The options before any argument. -/
def initial : Options := ⟨none, none, none, false, [], false, false, none⟩

/-- Reads a label and a field with an equals sign between them. White space around them is dropped, and
neither may be blank. -/
def readAlias (value : String) : Except UsageError (String × String) :=
  match Text.cut? '=' value.toList with
  | some (label, field) =>
    let label := Text.trimChars label
    let field := Text.trimChars field
    if label = [] || field = [] then .error (.noPair value)
    else .ok (String.ofList label, String.ofList field)
  | none => .error (.noPair value)

/-- Sets the value of an option. -/
def set (o : Options) (option : ValueOption) (value : String) : Except UsageError Options :=
  match option with
  | .schema =>
    if o.schema.isSome || value = "" then .error .arguments else .ok { o with schema := some value }
  | .root => if o.root.isSome then .error .arguments else .ok { o with root := some value }
  | .data =>
    if o.data.isSome || value = "" then .error .arguments else .ok { o with data := some value }
  | .label => (readAlias value).map fun pair => { o with aliases := o.aliases ++ [pair] }

/-- Sets a flag. -/
def raise (o : Options) : Flag → Except UsageError Options
  | .stdin => if o.readsInput then .error .arguments else .ok { o with readsInput := true }
  | .sql => if o.sql then .error .arguments else .ok { o with sql := true }
  | .check => if o.check then .error .arguments else .ok { o with check := true }

/-- Sets the option whose value came as an argument of its own. -/
def settle (o : Options) : Option (ValueOption × String) → Except UsageError Options
  | none => .ok o
  | some (option, value) => o.set option value

/-! ## Reading arguments -/

/-- Reads the arguments behind `--`, which are plain whatever they look like. -/
def readPlain (o : Options) (pending : Option (ValueOption × String)) :
    List String → Except UsageError Options
  | [] => o.settle pending
  | query :: rest =>
    if o.query.isSome then .error .arguments
    else do
      let o ← o.settle pending
      readPlain { o with query := some query } none rest

/-- Reads arguments. An option whose value is an argument of its own stays `pending` until the next argument
has been recognised: one that is not goes before a fault of the value. -/
def readFrom (o : Options) (pending : Option (ValueOption × String)) :
    List String → Except UsageError Options
  | [] => o.settle pending
  | argument :: rest =>
    match Argument.ofText argument with
    | .unknown => .error .arguments
    | .terminator => readPlain o pending rest
    | .plain query =>
      if o.query.isSome then .error .arguments
      else do
        let o ← o.settle pending
        readFrom { o with query := some query } none rest
    | .flag f => do
      let o ← o.settle pending
      readFrom (← o.raise f) none rest
    | .assignment option value => do
      let o ← o.settle pending
      readFrom (← o.set option value) none rest
    | .option option => do
      let o ← o.settle pending
      match rest with
      | [] => .error .arguments
      | value :: rest =>
        match Argument.ofText value with
        | .plain _ => readFrom o (some (option, value)) rest
        | _ => .error .arguments

/-- Takes the value of an option from the environment, if the arguments do not give it. -/
def setFrom (environment : String → Option String) (name : String) (option : ValueOption)
    (given : Option String) (o : Options) : Except UsageError Options :=
  match given, environment name with
  | none, some value => o.set option value
  | _, _ => .ok o

/-- Reads the arguments of the program. -/
def read (environment : String → Option String) (arguments : List String) :
    Except UsageError Options := do
  let o ← readFrom initial none arguments
  let o ← setFrom environment "RFQ_SCHEMA" .schema o.schema o
  setFrom environment "RFQ_DATA" .data o.data o

end Options

end RecordQuery
