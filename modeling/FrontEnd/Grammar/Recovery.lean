/-
Moves of the cursor over whole stretches of text.

After an error the cursor goes on to the next boundary of the block it stands
in: a line break, a semicolon, or the place before the brace that closes the
block.  Braces opened on the way are passed with all that they hold.
-/
import FrontEnd.Text.Blank
import FrontEnd.Token.Cursor

namespace FrontEnd

namespace Cursor

/-- From a token on to the next boundary, when `depth` braces are open. -/
def seekBoundary (depth : Nat) (behind : List Token) (token : Token) : List Token → Cursor
  | [] =>
    match boundary? depth token.kind with
    | none => finish (token :: behind)
    | some closes => stop closes behind token []
  | next :: ahead =>
    match boundary? depth token.kind with
    | none => seekBoundary (depthAfter depth token.kind) (token :: behind) next ahead
    | some closes => stop closes behind token (next :: ahead)
where
  /-- Whether a token is a boundary, and if so, whether it closes the block. -/
  boundary? (depth : Nat) (kind : TokenKind) : Option Bool :=
    if depth = 0 then
      match kind with
      | .punctuator .rightBrace => some true
      | .punctuator .semicolon | .lineFeed | .carriageReturn => some false
      | _ => none
    else none
  /-- The number of open braces behind a token. -/
  depthAfter (depth : Nat) : TokenKind → Nat
    | .punctuator .leftBrace => depth + 1
    | .punctuator .rightBrace => depth - 1
    | _ => depth
  /-- The cursor at a boundary: on it, or before the brace that closes. -/
  stop (closes : Bool) (behind : List Token) (token : Token) (ahead : List Token) : Cursor :=
    if closes then (on behind token ahead).unshift else on behind token ahead

/-- On to the next boundary of the block that the cursor stands in. -/
def resynchronize : Cursor → Cursor
  | on behind token ahead => seekBoundary 0 behind token ahead
  | c => c

/-- The tokens after the current one up to the end of the line. -/
def restOfLine (c : Cursor) : List Token :=
  c.remaining.takeWhile fun token => !token.kind.isLineBreak

/-- Several tokens on. -/
def shiftBy : Nat → Cursor → Cursor
  | 0, c => c
  | n + 1, c => shiftBy n c.shift

/-- On to the last token of the line. -/
def toEndOfLine (c : Cursor) : Cursor :=
  c.shiftBy c.restOfLine.length

/-- What is written after the current token on its line, without comments and
without the blanks at both ends. -/
def lineText (c : Cursor) : String :=
  let written := c.restOfLine.filter fun token =>
    match token.kind with
    | .comment _ => false
    | _ => true
  Text.trim (String.join (written.map (·.kind.text)))

end Cursor

end FrontEnd
