import RecordQuery.Files.Glob
import RecordQuery.Files.Tree
import RecordQuery.Text.Blank

/-!
# Ignore rules

Directories may hold files with rules about which of the files below them are to be ignored. Each line is a
pattern, a mark `!` in front makes it a rule to keep what it stands for, and a slash behind it a rule for
directories alone. Of the rules of a directory the last one that fits decides; rules of a nearer directory go
before those of one further up.
-/

namespace RecordQuery

/-- A line of an ignore file. -/
structure IgnoreRule where
  pattern : Glob
  keeps : Bool
  directoriesOnly : Bool

/-- What a rule says about a file. -/
inductive Verdict where
  | ignored
  | kept
deriving DecidableEq, Repr

namespace IgnoreRule

/-! ## Reading rules -/

/-- Passes over the marks in front of a pattern: tells whether the rule keeps files, and whether its pattern
starts at the directory of the rule. A backslash takes away the meaning of a mark. -/
def readMarks : List Char → Bool × Bool × List Char
  | '\\' :: '!' :: cs => (false, false, '!' :: cs)
  | '\\' :: '#' :: cs => (false, false, '#' :: cs)
  | '!' :: '/' :: cs => (true, true, cs)
  | '!' :: cs => (true, false, cs)
  | '/' :: cs => (false, true, cs)
  | cs => (false, false, cs)

/-- Takes off a slash at the end of a pattern, with a backslash before it. -/
def readEnd (cs : List Char) : Bool × List Char :=
  match cs.reverse with
  | '/' :: '\\' :: front => (true, front.reverse)
  | '/' :: front => (true, front.reverse)
  | _ => (false, cs)

/-- The pattern of a rule for the paths from its directory on. A pattern without a slash fits at any depth,
and one that ends in `/**` does not stand for the directory itself. -/
def fullPattern (anchored : Bool) (cs : List Char) : List Char :=
  let deep := if anchored || '/' ∈ cs || cs = ['*', '*'] then cs else '*' :: '*' :: '/' :: cs
  if ['*', '*', '/'].isPrefixOf deep.reverse then deep ++ ['/', '*'] else deep

/-- A line without the white space at its end, unless that is a space behind a backslash. -/
def withoutEnd (cs : List Char) : List Char :=
  match cs.reverse with
  | ' ' :: '\\' :: _ => cs
  | back => (Text.dropBlanks back).reverse

/-- The rule that a line writes. Blank lines, comments and faulty patterns are none. -/
def ofLine? (line : String) : Option IgnoreRule :=
  let cs := withoutEnd line.toList
  if cs = [] || cs.head? = some '#' then none
  else
    let (keeps, anchored, body) := readMarks cs
    let (directoriesOnly, body) := readEnd body
    (Glob.read? (String.ofList (fullPattern anchored body))).map fun pattern =>
      ⟨pattern, keeps, directoriesOnly⟩

/-! ## Verdicts -/

/-- What a rule says about the file or directory at a path from the rule's directory on. -/
def verdict? (r : IgnoreRule) (path : String) (isDirectory : Bool) : Option Verdict :=
  if (isDirectory || !r.directoriesOnly) && r.pattern.isMatch path.toUTF8.toList then
    some (if r.keeps then .kept else .ignored)
  else none

/-- The verdict of the last rule that has one. -/
def lastVerdict? (rules : List IgnoreRule) (path : String) (isDirectory : Bool) : Option Verdict :=
  rules.reverse.findSome? (·.verdict? path isDirectory)

end IgnoreRule

/-- The rules of a directory by the files that they come from, and whether the directory holds a
repository. -/
structure IgnoreLevel where
  queryRules : List IgnoreRule
  generalRules : List IgnoreRule
  gitRules : List IgnoreRule
  isRepository : Bool

namespace IgnoreLevel

/-! ## Rules of directories -/

/-- The text of the leading lines that are valid. -/
def validText (content : ByteArray) : String :=
  let lines := (Text.splitList 0x0a content.toList).map fun line => String.fromUTF8? ⟨line.toArray⟩
  "\n".intercalate ((lines.takeWhile (·.isSome)).filterMap id)

/-- The rules of an ignore file among the entries of a directory. A byte order mark in front of its first
line is no part of it. -/
def rulesIn (name : String) (entries : List (String × FileTree)) : List IgnoreRule :=
  match entries.lookup name with
  | some (.file content) =>
    let text := (validText content).toList.dropWhile (· = '\ufeff')
    (Text.lines (String.ofList text)).filterMap IgnoreRule.ofLine?
  | _ => []

/-- The rules of a directory with the given entries. -/
def ofEntries (entries : List (String × FileTree)) : IgnoreLevel where
  queryRules := rulesIn ".rfqignore" entries
  generalRules := rulesIn ".ignore" entries
  gitRules := rulesIn ".gitignore" entries
  isRepository := (entries.lookup ".git").isSome

/-- The paths that lead to a place from each directory above it, the nearest first. -/
def pathsFromAbove : List String → List String
  | [] => []
  | name :: names => pathsFromAbove names ++ ["/".intercalate (name :: names)]

/-- The verdict of the nearest level that has one. -/
def nearestVerdict? (rules : IgnoreLevel → List IgnoreRule) (isDirectory : Bool)
    (levels : List (IgnoreLevel × String)) : Option Verdict :=
  levels.findSome? fun l => IgnoreRule.lastVerdict? (rules l.1) l.2 isDirectory

/-- The levels up to the nearest repository, if there is one. -/
def upToRepository (levels : List (IgnoreLevel × String)) : List (IgnoreLevel × String) :=
  if levels.any (·.1.isRepository) then
    levels.takeWhile (!·.1.isRepository) ++ (levels.find? (·.1.isRepository)).toList
  else []

/-- Is the file or directory at a place ignored? The levels are those of the directories above it, the
nearest first. Rules for queries go before general rules, and these before the rules of repositories. -/
def isIgnored (levels : List IgnoreLevel) (place : List String) (isDirectory : Bool) : Bool :=
  let above := levels.zip (pathsFromAbove place)
  let verdict :=
    ((nearestVerdict? queryRules isDirectory above).or
      (nearestVerdict? generalRules isDirectory above)).or
      (nearestVerdict? gitRules isDirectory (upToRepository above))
  verdict = some .ignored

end IgnoreLevel

end RecordQuery
