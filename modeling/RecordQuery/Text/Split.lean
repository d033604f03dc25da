/-!
# Cutting texts at a mark

`split` cuts a text at every occurrence of a character, `cut?` at the first. The marks belong to no
part. `lines` cuts a text into lines.
-/

namespace RecordQuery.Text

/-! ## Algorithm -/

/-- The parts between the marks, one more than there are marks. -/
def splitList {α : Type} [DecidableEq α] (mark : α) : List α → List (List α)
  | [] => [[]]
  | a :: as =>
    if a = mark then [] :: splitList mark as
    else
      match splitList mark as with
      | [] => [[a]]
      | part :: parts => (a :: part) :: parts

/-- The parts of a text between the marks. -/
def split (mark : Char) (s : String) : List String := (splitList mark s.toList).map String.ofList

/-- The parts before and after the first mark. -/
def cut? (mark : Char) (cs : List Char) : Option (List Char × List Char) :=
  match cs.dropWhile (· ≠ mark) with
  | [] => none
  | _ :: rest => some (cs.takeWhile (· ≠ mark), rest)

/-- The lines of a text. The end of a line is a line feed, perhaps behind a carriage return; the last line
may do without. -/
def lines (s : String) : List String :=
  let parts := splitList '\n' s.toList
  let ended := parts.dropLast.map fun line => if line.getLast? = some '\r' then line.dropLast else line
  let last := (parts.getLast?.filter (· ≠ [])).toList
  (ended ++ last).map String.ofList

end RecordQuery.Text
