import RecordQuery.Text.Split

/-!
# Paths of files

A path is a text of names with slashes between them. Empty parts and dots in it add nothing, but for a
slash or a dot at its start. `relativeTo?` takes the components of one path off the front of another and
leaves the rest as it was written.
-/

namespace RecordQuery.FilePath

/-- A step on the way that a path describes. -/
inductive Component where
  | root
  | here
  | up
  | name (s : String)
deriving DecidableEq, Repr

/-! ## Algorithm -/

/-- A part that adds nothing to a path. -/
def isVoid (part : String) : Bool := part = "" || part = "."

/-- The component of a part that is not void. -/
def component (part : String) : Component := if part = ".." then .up else .name part

/-- The component that a slash or a dot at the start of a path makes, and the parts behind it. -/
def lead? : List String → Option (Component × List String)
  | "" :: part :: parts => some (.root, part :: parts)
  | "." :: parts => some (.here, parts)
  | _ => none

/-- The components of a path. -/
def components (path : String) : List Component :=
  let parts := Text.split '/' path
  let body (parts : List String) := (parts.filter (!isVoid ·)).map component
  match lead? parts with
  | some (c, rest) => c :: body rest
  | none => body parts

/-- The parts behind the given components, if these come first. -/
def dropComponents? : List Component → List String → Option (List String)
  | [], parts => some parts
  | _ :: _, [] => none
  | c :: cs, part :: parts =>
    if isVoid part then dropComponents? (c :: cs) parts
    else if component part = c then dropComponents? cs parts
    else none

/-- The parts of `path` behind the components of `base`, if these come first. -/
def partsBehind? (base path : String) : Option (List String) :=
  let parts := Text.split '/' path
  match lead? parts, components base with
  | some (c, rest), b :: bs => if c = b then dropComponents? bs rest else none
  | some _, [] => some parts
  | none, bs => dropComponents? bs parts

/-- The way from `base` to `path`, if the components of `base` come first in it. -/
def relativeTo? (base path : String) : Option String :=
  (partsBehind? base path).map fun parts =>
    "/".intercalate (((parts.dropWhile isVoid).reverse.dropWhile isVoid).reverse)

/-- The path of an entry of a directory. -/
def join (directory name : String) : String :=
  if directory = "" || directory.toList.getLast? = some '/' then directory ++ name
  else directory ++ "/" ++ name

/-- What stands behind the last dot of a name, if something stands before it. -/
def extension? (name : String) : Option String :=
  match Text.cut? '.' name.toList.reverse with
  | some (extension, _ :: _) => some (String.ofList extension.reverse)
  | _ => none

end RecordQuery.FilePath
