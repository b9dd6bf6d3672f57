/-
Tokens.

A token is a piece of a text with its kind and its place.  Blanks, comments and
line breaks are tokens too, since the grammar separates statements by them.
The text of a kind is what was written for it, as far as the kind keeps it.
-/
import FrontEnd.Source.Span
import FrontEnd.Source.Location
import FrontEnd.Text.Quoted
import FrontEnd.Token.Keyword

namespace FrontEnd

/-- The punctuation marks. -/
inductive Punctuator where
  | leftParen
  | rightParen
  | leftBrace
  | rightBrace
  | leftSquare
  | rightSquare
  | period
  | comma
  | colon
  | semicolon
  | equal
  | atSign
  | hash
  | arrow
  | question
  | exclamation
deriving DecidableEq, Repr, Inhabited

namespace Punctuator

/-- How a mark is written. -/
def symbol : Punctuator → String
  | leftParen => "("
  | rightParen => ")"
  | leftBrace => "\x7b"
  | rightBrace => "\x7d"
  | leftSquare => "["
  | rightSquare => "]"
  | period => "."
  | comma => ","
  | colon => ":"
  | semicolon => ";"
  | equal => "="
  | atSign => "@"
  | hash => "#"
  | arrow => "->"
  | question => "?"
  | exclamation => "!"

/-- All marks. -/
def all : List Punctuator :=
  [leftParen, rightParen, leftBrace, rightBrace, leftSquare, rightSquare, period, comma, colon,
    semicolon, equal, atSign, hash, arrow, question, exclamation]

/-- The mark with a given symbol. -/
def ofSymbol? (symbol : String) : Option Punctuator :=
  all.find? (·.symbol = symbol)

/-- The symbol between backticks, as messages show it. -/
def display (p : Punctuator) : String :=
  s!"`{p.symbol}`"

theorem mem_all (p : Punctuator) : p ∈ all := by
  cases p <;> decide

end Punctuator

/-- What a token is.  Names in backticks are kept without them, strings with
their escapes resolved. -/
inductive TokenKind where
  | identifier (name : String)
  | quotedIdentifier (name : String)
  | keyword (word : String) (role : KeywordRole)
  | punctuator (mark : Punctuator)
  | operator (symbol : String)
  | integer (digits : String)
  | floating (digits : String)
  | string (content : String)
  | whitespace
  | comment (text : String)
  | lineFeed
  | carriageReturn
  /-- Input that belongs to no token of the language. -/
  | invalid (text : String)
deriving DecidableEq, Repr, Inhabited

namespace TokenKind

/-- The kind of a word: a keyword in its role, or a name. -/
def ofWord (word : String) : TokenKind :=
  match KeywordRole.ofWord? word with
  | some role => keyword word role
  | none => identifier word

/-- Blanks and comments. -/
def isInlineBlank : TokenKind → Bool
  | whitespace | comment _ => true
  | _ => false

/-- Line feeds and carriage returns. -/
def isLineBreak : TokenKind → Bool
  | lineFeed | carriageReturn => true
  | _ => false

/-- Everything that only separates other tokens. -/
def isBlank (kind : TokenKind) : Bool :=
  kind.isInlineBlank || kind.isLineBreak

/-- A keyword with the given spelling, in any role. -/
def isKeyword (word : String) : TokenKind → Bool
  | keyword w _ => w = word
  | _ => false

/-- An operator with the given spelling. -/
def isOperator (symbol : String) : TokenKind → Bool
  | operator o => o = symbol
  | _ => false

/-- The role of a keyword. -/
def role? : TokenKind → Option KeywordRole
  | keyword _ role => some role
  | _ => none

/-- The spelling of a keyword. -/
def word? : TokenKind → Option String
  | keyword word _ => some word
  | _ => none

/-- A keyword that introduces or modifies declarations. -/
def isDeclarationKeyword (kind : TokenKind) : Bool :=
  kind.role? = some .declaration

/-- The word of a keyword that modifies the declaration after it. -/
def modifier? : TokenKind → Option String
  | keyword word .declaration | keyword word .contextual =>
    if KeywordRole.modifiers.contains word then some word else none
  | _ => none

/-- Input that belongs to no token of the language. -/
def isInvalid : TokenKind → Bool
  | invalid _ => true
  | _ => false

/-- The name that a token gives; contextual keywords give one where the place
admits them. -/
def name? (contextual : Bool) : TokenKind → Option String
  | identifier name | quotedIdentifier name => some name
  | keyword word .contextual => if contextual then some word else none
  | _ => none

/-- The name that a token gives where every keyword may serve as a name. -/
def anyName? : TokenKind → Option String
  | identifier name | quotedIdentifier name => some name
  | keyword word _ => some word
  | _ => none

/-- What was written for a kind: strings are quoted anew, and every run of
blanks is one space. -/
def text : TokenKind → String
  | identifier name => name
  | quotedIdentifier name => s!"`{name}`"
  | keyword word _ => word
  | punctuator mark => mark.symbol
  | operator symbol => symbol
  | integer digits => digits
  | floating digits => digits
  | string content => Text.quote content
  | whitespace => " "
  | comment text => text
  | lineFeed => "\n"
  | carriageReturn => "\r"
  | invalid text => text

/-- How messages call a token. -/
def description : TokenKind → String
  | identifier name | quotedIdentifier name => s!"identifier `{name}`"
  | keyword word _ => s!"keyword `{word}`"
  | punctuator mark => mark.display
  | operator symbol => s!"operator `{symbol}`"
  | integer digits | floating digits => s!"literal `{digits}`"
  | string _ => "string literal"
  | whitespace | comment _ => "whitespace"
  | lineFeed | carriageReturn => "line break"
  | invalid text => s!"invalid input `{text}`"

/-- What the grammar sees of a kind: a comment counts as a blank, there is one
kind of line break, and invalid input is all alike. -/
def plain : TokenKind → TokenKind
  | comment _ => whitespace
  | carriageReturn => lineFeed
  | invalid _ => invalid ""
  | kind => kind

end TokenKind

/-- A piece of a text. -/
structure Token where
  kind : TokenKind
  /-- Its bytes. -/
  span : Span
  /-- Its lines and columns. -/
  range : Range
deriving DecidableEq, Repr, Inhabited

namespace Token

/-- Whether a token only separates others. -/
def isBlank (t : Token) : Bool :=
  t.kind.isBlank

/-- Whether a token is a blank or a comment. -/
def isInlineBlank (t : Token) : Bool :=
  t.kind.isInlineBlank

end Token

end FrontEnd
