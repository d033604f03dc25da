import RecordQuery.CommandLine.Run

/-!
# The program

`main` copies the files that the arguments name into memory, answers the call, and prints the outcome.
-/

namespace RecordQuery

/-- The files in which a directory keeps its ignore rules. -/
def ignoreFiles : List String := [".rfqignore", ".ignore", ".gitignore"]

/-- Copies a file or a directory. In a directory the content of files that hold neither records nor rules
is left out. -/
partial def copyTree (path : String) : IO FileTree := do
  let found ← IO.FS.realPath path
  if ← found.isDir then
    let entries ← (← found.readDir).toList.mapM fun entry => do
      let below := path ++ "/" ++ entry.fileName
      let isPlain := !isRecordName entry.fileName && !ignoreFiles.contains entry.fileName
      if isPlain && !(← entry.path.isDir) then return (entry.fileName, FileTree.file .empty)
      else return (entry.fileName, ← copyTree below)
    return .directory entries
  else return .file (← IO.FS.readBinFile found)

/-- Copies what a path leads to, if it leads anywhere, to its place on the disk. -/
def copyPath (disk : Disk) (place : List String) : IO Disk := do
  try
    let content ← copyTree ("/" ++ "/".intercalate place)
    return { disk with tree := disk.tree.put place content }
  catch _ => return disk

/-- The place that a path names, from the root or else from the current place. -/
def namedPlace (current : List String) (path : String) : List String :=
  (FilePath.components path).foldl
    (fun place c =>
      match c with
      | .root => []
      | .here => place
      | .up => place.dropLast
      | .name s => place ++ [s])
    current

/-- Copies the rules of the directories above a place. -/
def copyRulesAbove (disk : Disk) (place : List String) : IO Disk := do
  let above := (List.range place.length).map place.take
  above.foldlM
    (fun disk directory =>
      (".git" :: ignoreFiles).foldlM
        (fun disk name => do
          let path := "/" ++ "/".intercalate (directory ++ [name])
          try
            let found ← IO.FS.realPath path
            let content ← if ← found.isDir then pure FileTree.empty else copyTree path
            return { disk with tree := disk.tree.put (directory ++ [name]) content }
          catch _ => return disk)
        disk)
    disk

/-- The disk with the files that the options name. A schema inside the data directory is copied last, so
that its content is there whatever its name. -/
def copyDisk (o : Options) (input : String) : IO Disk := do
  let current := namedPlace [] (← IO.FS.realPath ".").toString
  let data := if o.filters then o.data.toList else []
  let places := (data ++ inputPaths input ++ o.schema.toList).map (namedPlace current)
  let disk ← places.foldlM copyRulesAbove ⟨.empty, current⟩
  places.foldlM copyPath disk

/-- Prints what a call shows and gives its exit code. -/
def Outcome.print (o : Outcome) : IO UInt32 := do
  for line in o.lines do
    IO.println line
  match o.complaint with
  | some message => IO.eprintln message
  | none => pure ()
  return o.exitCode.toUInt32

end RecordQuery

open RecordQuery in
/-- Runs the program. -/
def main (arguments : List String) : IO UInt32 := do
  let schema ← IO.getEnv "RFQ_SCHEMA"
  let data ← IO.getEnv "RFQ_DATA"
  let environment (name : String) : Option String :=
    if name = "RFQ_SCHEMA" then schema else if name = "RFQ_DATA" then data else none
  match Options.read environment arguments with
  | .error e => (Outcome.ofRun (.error (.usage e))).print
  | .ok o =>
    let input ← if o.filters && o.readsInput then (← IO.getStdin).readToEnd else pure ""
    let disk ← copyDisk o input
    (Outcome.ofRun (o.run disk input)).print
