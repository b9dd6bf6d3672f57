/-
What the grammar asks of a cursor.

The grammar sees tokens as `TokenKind.plain` shows them, so it cannot tell a
comment from a blank, one line break from the other, nor one piece of invalid
input from another.  A token is glued to the current one if nothing, not even a
blank, stands between the two.
-/
import FrontEnd.Token.Cursor

namespace FrontEnd

/-! ### The start of a declaration -/

/-- What the search for the start of a declaration looks at. -/
inductive HeaderPlace where
  /-- The first token, which is not blank. -/
  | head
  /-- After `@`: a name must come. -/
  | name
  /-- After the name of an attribute: the rest must start a declaration. -/
  | rest
deriving DecidableEq, Repr, Inhabited

/-- Whether tokens lead on to a declaration: attributes, each an `@` and a plain name
with any blanks around them, and then a declaration keyword. -/
def HeaderPlace.leadsOn (place : HeaderPlace) : List Token → Bool
  | [] => false
  | token :: later =>
    match place, token.kind with
    | .name, .identifier _ => leadsOn .rest later
    | .name, kind => kind.isBlank && leadsOn .name later
    | _, .punctuator .atSign => leadsOn .name later
    | .rest, kind =>
      if kind.isBlank then leadsOn .rest later else kind.isDeclarationKeyword
    | .head, kind => kind.isDeclarationKeyword

/-! ### Binary operators -/

/-- How an operator or the equals sign is written. -/
def TokenKind.binary? : TokenKind → Option String
  | .operator symbol => some symbol
  | .punctuator .equal => some "="
  | _ => none

/-- The binary operator at the start of a list of tokens, on the same line.  It
has blanks on both sides or on neither; the end of the text counts as a blank
behind it. -/
def binaryAhead? (tokens : List Token) : Option String :=
  let spacedBefore := tokens.head?.any Token.isInlineBlank
  match tokens.dropWhile Token.isInlineBlank with
  | [] => none
  | token :: later =>
    if spacedBefore = later.head?.all Token.isBlank then token.kind.binary? else none

namespace Cursor

/-- What the grammar sees of the current token. -/
def here? (c : Cursor) : Option TokenKind :=
  c.kind?.map TokenKind.plain

/-- What the grammar sees of the token that is `n` tokens behind the next one,
unless it is blank. -/
def glued? (c : Cursor) (n : Nat) : Option TokenKind :=
  (c.remaining[n]?.map (·.kind.plain)).filter fun kind => !kind.isBlank

/-- What the grammar sees of the next token of interest. -/
def following? (c : Cursor) (reach : Reach) : Option TokenKind :=
  (c.next? reach).map (·.kind.plain)

/-- Whether a declaration starts at the current token. -/
def startsDeclaration (c : Cursor) : Bool :=
  HeaderPlace.head.leadsOn (c.current?.toList ++ c.remaining)

/-- The binary operator after the current token. -/
def binaryAhead? (c : Cursor) : Option String :=
  FrontEnd.binaryAhead? c.remaining

end Cursor

end FrontEnd
