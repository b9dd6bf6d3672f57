/-
Errors of the grammar.

An error is a cause and a place: a token of the text, or its end.  Each cause
has one message and a stable code, and every error can be turned into a
diagnostic.
-/
import FrontEnd.Diagnostic.Basic
import FrontEnd.Source.Location
import FrontEnd.Token.Cursor

namespace FrontEnd

/-- What is wrong at a place. -/
inductive ErrorKind where
  /-- The grammar is in a state that no text leads to. -/
  | internal
  | missingSeparator
  | missingIdentifier
  /-- An import with a kind names nothing inside a module. -/
  | missingModuleName
  | expectedToken (what : String)
  | expectedExpression
  | expectedPattern
  | expectedType
  | expectedDeclaration
  | unsupportedDeclaration (keyword : String)
  | nestingTooDeep
  | unknown
deriving DecidableEq, Repr, Inhabited

namespace ErrorKind

/-- The code of a cause. -/
def code : ErrorKind → String
  | internal => "P0000"
  | missingSeparator => "P0001"
  | missingIdentifier => "P0002"
  | missingModuleName => "P0003"
  | expectedToken _ => "P0004"
  | expectedExpression => "P0005"
  | expectedPattern => "P0006"
  | expectedType => "P0007"
  | expectedDeclaration => "P0008"
  | unsupportedDeclaration _ => "P0009"
  | nestingTooDeep => "P0010"
  | unknown => "P9999"

/-- The message for a cause. -/
def message : ErrorKind → String
  | internal => "Fatal error."
  | missingSeparator => "Statements must be separated by line breaks or semicolons."
  | missingIdentifier => "Missing identifier."
  | missingModuleName => "Missing module name in import declaration."
  | expectedToken what => s!"Expected {what}."
  | expectedExpression => "Expected expression."
  | expectedPattern => "Expected pattern."
  | expectedType => "Expected type."
  | expectedDeclaration => "Expected declaration after modifiers."
  | unsupportedDeclaration keyword => s!"Declaration `{keyword}` is not supported."
  | nestingTooDeep => "Nesting is too deep."
  | unknown => "Unknown error."

/-- What could be done about a cause. -/
def advice : ErrorKind → List Suggestion
  | missingSeparator => [⟨"insert `;` or a line break before this token", none⟩]
  | missingModuleName =>
    [⟨"qualified imports name a symbol, e.g. `import struct Module.Symbol`", none⟩]
  | _ => []

/-- A certain mark is expected. -/
def expectedMark (mark : Punctuator) : ErrorKind :=
  expectedToken mark.display

/-- A certain word is expected. -/
def expectedWord (word : String) : ErrorKind :=
  expectedToken s!"`{word}`"

end ErrorKind

/-- A cause at a place. -/
structure ParseError where
  kind : ErrorKind
  span : Span
  range : Range
deriving DecidableEq, Repr, Inhabited

namespace ParseError

/-- The message of an error. -/
def message (e : ParseError) : String :=
  e.kind.message

/-- An error as a diagnostic, with a note on the place. -/
def diagnostic (e : ParseError) : Diagnostic where
  level := .error
  message := e.message
  code := some e.kind.code
  span := some e.span
  notes := [s!"at {e.range.start.text}"]
  suggestions := e.kind.advice

end ParseError

/-- An error at the place of a cursor. -/
def Cursor.error (c : Cursor) (kind : ErrorKind) : ParseError :=
  ⟨kind, c.span, c.range⟩

end FrontEnd
