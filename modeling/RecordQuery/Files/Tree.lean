import RecordQuery.Entries
import RecordQuery.Files.Path

/-!
# File trees

A `FileTree` is a file with its content or a directory with its entries. A `Disk` is a tree whose root is
the path `/`, with the directory that relative paths start from. A place in the tree is the list of names
that lead to it from the root.
-/

namespace RecordQuery

/-- A file, or a directory with its entries by name. -/
inductive FileTree where
  | file (content : ByteArray)
  | directory (entries : List (String × FileTree))

/-- Why a file cannot be read as text. -/
inductive FileError where
  | missing
  | notDirectory
  | isDirectory
  | notText
deriving DecidableEq, Repr

/-- The wording of each fault. -/
def FileError.message : FileError → String
  | missing => "No such file or directory (os error 2)"
  | notDirectory => "Not a directory (os error 20)"
  | isDirectory => "Is a directory (os error 21)"
  | notText => "stream did not contain valid UTF-8"

/-- A tree of files, and the place that relative paths start from. -/
structure Disk where
  tree : FileTree
  current : List String

namespace FileTree

/-! ## Trees -/

/-- A directory without entries. -/
def empty : FileTree := .directory []

/-- Is the tree a directory? -/
def isDirectory : FileTree → Bool
  | .directory _ => true
  | .file _ => false

/-- What is found at a place. -/
def node? : FileTree → List String → Option FileTree
  | tree, [] => some tree
  | .file _, _ :: _ => none
  | .directory entries, name :: rest => (entries.lookup name).bind (node? · rest)

/-- Puts `content` at a place. Directories on the way to it are made, and take the place of files. -/
def put : FileTree → List String → (content : FileTree) → FileTree
  | _, [], content => content
  | .file _, name :: names, content => .directory [(name, put empty names content)]
  | .directory entries, name :: names, content =>
    let old := (entries.lookup name).getD empty
    .directory (Entries.put name (put old names content) entries)

/-- The place to which the parts of a path lead from `place`. -/
def follow (tree : FileTree) (place : List String) : List String → Except FileError (List String)
  | [] => .ok place
  | part :: parts =>
    match tree.node? place with
    | none => .error .missing
    | some (.file _) => .error .notDirectory
    | some (.directory entries) =>
      if FilePath.isVoid part then follow tree place parts
      else if part = ".." then follow tree place.dropLast parts
      else if (entries.lookup part).isSome then follow tree (place ++ [part]) parts
      else .error .missing

end FileTree

namespace Disk

/-! ## Paths -/

/-- The place that a path leads to. -/
def place (d : Disk) (path : String) : Except FileError (List String) :=
  match Text.split '/' path with
  | "" :: parts => d.tree.follow [] parts
  | parts => d.tree.follow d.current parts

/-- What a path leads to. -/
def node? (d : Disk) (path : String) : Option FileTree :=
  (d.place path).toOption.bind d.tree.node?

/-- Does the path lead to a file? -/
def isFile (d : Disk) (path : String) : Bool :=
  match d.node? path with
  | some (.file _) => true
  | _ => false

/-- Does the path lead to a directory? -/
def isDirectory (d : Disk) (path : String) : Bool :=
  match d.node? path with
  | some (.directory _) => true
  | _ => false

/-- The text of a file. -/
def readText (d : Disk) (path : String) : Except FileError String := do
  match d.tree.node? (← d.place path) with
  | none => throw .missing
  | some (.directory _) => throw .isDirectory
  | some (.file content) =>
    match String.fromUTF8? content with
    | some text => return text
    | none => throw .notText

end Disk

end RecordQuery
