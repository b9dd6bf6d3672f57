/-
Blocks of lines.

An outline is built as a list of lines.  A line holds no line feed: text from
outside enters a block through `Text.lines`, which cuts it at its line feeds,
so that indenting a block indents every line of its written form.
-/

namespace FrontEnd

namespace Text

/-- The pieces of a text between its line feeds; the empty text is one empty
piece. -/
def pieces : List Char → List (List Char)
  | [] => [[]]
  | c :: rest =>
    if c = '\n' then [] :: pieces rest
    else
      match pieces rest with
      | [] => [[c]]
      | first :: later => (c :: first) :: later

/-- The lines of a text. -/
def lines (text : String) : List String :=
  (pieces text.toList).map String.ofList

/-- The text of a block of lines. -/
def unlines (block : List String) : String :=
  String.intercalate "\n" block

/-- One level of indentation. -/
def indentation : String :=
  "  "

/-- A block one level deeper. -/
def indent (block : List String) : List String :=
  block.map (indentation ++ ·)

/-- A text with each of its lines one level deeper. -/
def indentText (text : String) : String :=
  unlines (indent (lines text))

/-- Items on one line, with a comma and a space between neighbours. -/
def commas (items : List String) : String :=
  String.intercalate ", " items

theorem pieces_ne_nil (text : List Char) : pieces text ≠ [] := by
  cases text with
  | nil => simp [pieces]
  | cons c rest =>
    unfold pieces
    split
    · simp
    · split <;> simp

end Text

end FrontEnd
