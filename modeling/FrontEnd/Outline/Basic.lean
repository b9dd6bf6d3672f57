/-
Outlines.

An outline shows a tree as lines of text, each part two columns deeper than the
part it belongs to.  A part starts with a head line, which names its shape and
its range; its own parts follow.  Marks for angle brackets in running text are
written as character entities.
-/
import FrontEnd.Source.Location
import FrontEnd.Text.Lines

namespace FrontEnd

namespace Outline

/-- What stands where a list has no items. -/
def emptyMark : String :=
  "&lt;empty&gt;"

/-- The head line of a part. -/
def head (tag : String) (range : Range) : String :=
  s!"({tag}) <range>{range.text}</range>"

/-- A part: its head line, and below it its own parts one level deeper. -/
def part (tag : String) (range : Range) (body : List String) : List String :=
  head tag range :: Text.indent body

/-- A block with a label in front of its first line. -/
def labeled (label : String) : List String → List String
  | [] => [label]
  | first :: later => (label ++ first) :: later

/-- A labeled list, from the lines of all its items. -/
def list (label : String) : List String → List String
  | [] => [s!"{label}: {emptyMark}"]
  | first :: later => s!"{label}:" :: Text.indent (first :: later)

/-- A part that is a list of its own parts. -/
def sequence (tag : String) (range : Range) : List String → List String
  | [] => [s!"{head tag range} {emptyMark}"]
  | first :: later => part tag range (first :: later)

/-- The items of a list that fit on a line each, with their numbers. -/
def numbered (texts : List String) : List String :=
  texts.zipIdx.flatMap fun (text, index) => Text.lines s!"{index}: {text}"

end Outline

end FrontEnd
