import RecordQuery.Files.Ignore
import RecordQuery.Files.RecordFile

/-!
# Finding record files

`Disk.recordPaths` lists the record files that a path leads to: a file stands for itself, a directory for
the record files in it and below it that no rule ignores, in the order of their names. Directories that are
ignored are not entered.
-/

namespace RecordQuery

namespace FileTree

/-! ## Algorithm -/

mutual

/-- The places of the files in a tree that are not ignored. The levels are those of the directories above
`place`, where the tree is, the nearest first. -/
def filesFrom (levels : List IgnoreLevel) (place : List String) : FileTree → List (List String)
  | .file _ => [place]
  | .directory entries => filesAmong (.ofEntries entries :: levels) place entries

/-- The places of the files among the entries of the directory at `place`, and below them. -/
def filesAmong (levels : List IgnoreLevel) (place : List String) :
    List (String × FileTree) → List (List String)
  | [] => []
  | (name, tree) :: rest =>
    let found :=
      if IgnoreLevel.isIgnored levels (place ++ [name]) tree.isDirectory then []
      else filesFrom levels (place ++ [name]) tree
    found ++ filesAmong levels place rest

end

/-- The levels of the directories on the way to a place, the nearest first. -/
def levelsAbove : FileTree → List String → List IgnoreLevel
  | .directory entries, name :: names =>
    match entries.lookup name with
    | some below => levelsAbove below names ++ [.ofEntries entries]
    | none => []
  | _, _ => []

end FileTree

/-- The endings of the names of record files. -/
def recordExtensions : List String := ["yaml", "yml", "json"]

/-- Does a name end like that of a record file, whatever the case of the letters? -/
def isRecordName (name : String) : Bool :=
  match FilePath.extension? name with
  | some e => recordExtensions.any (Text.eqIgnoringAsciiCase e)
  | none => false

namespace Disk

-- Lists of names have the order of the core library.
local instance (priority := 2000) : LE (List String) := List.instLE

/-- The names that lead from the directory at `place` to the record files below it, in order. -/
def recordsBelow (d : Disk) (place : List String) : List (List String) :=
  match d.tree.node? place with
  | some (.directory entries) =>
    let found := FileTree.filesFrom (d.tree.levelsAbove place) place (.directory entries)
    let ways := (found.map (·.drop place.length)).filter fun way => way.getLast?.any isRecordName
    ways.mergeSort fun a b => a ≤ b
  | _ => []

/-- The paths of the record files that a path leads to. The path `-` stands for no directory. -/
def recordPaths (d : Disk) (path : String) : List String :=
  if d.isFile path then [path]
  else if path = "-" then []
  else
    match d.place path with
    | .ok place => (d.recordsBelow place).map fun way => FilePath.join path ("/".intercalate way)
    | .error _ => []

/-- The records of the file at a path. -/
def recordFile? (d : Disk) (path : String) : Option RecordFile :=
  (d.readText path).toOption.bind (RecordFile.ofText? path)

end Disk

end RecordQuery
