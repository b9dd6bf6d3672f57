/-
The tokens of a text.

Each lexeme becomes a token: its bytes start where the bytes before it end, and
the line table of the text gives the lines and columns of both ends.
-/
import FrontEnd.Lexical.Lexeme
import FrontEnd.Source.LineTable

namespace FrontEnd

namespace Token

/-- The tokens of lexemes that stand one after the other from a byte offset
on. -/
def place (table : LineTable) (offset : Nat) : List Lexeme → List Token
  | [] => []
  | lexeme :: later =>
    let span := Span.covering offset lexeme.text
    ⟨lexeme.kind, span, table.range span⟩ :: place table span.stop later

/-- The tokens of a text, as characters. -/
def ofChars (text : List Char) : List Token :=
  place (LineTable.ofChars text) 0 (Lexeme.ofChars text)

/-- The tokens of a text. -/
def ofText (text : String) : List Token :=
  ofChars text.toList

end Token

end FrontEnd
