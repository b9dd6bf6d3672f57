/-
Diagnostics.

A diagnostic reports one finding about a text: how grave it is, a message, and
where known a stable code and the bytes it concerns, with further notes and
suggested changes.
-/
import FrontEnd.Source.Span

namespace FrontEnd

/-- How grave a finding is. -/
inductive Level where
  | error
  | warning
  | note
deriving DecidableEq, Repr, Inhabited

namespace Level

/-- The word for a level. -/
def name : Level → String
  | error => "error"
  | warning => "warning"
  | note => "note"

/-- Whether findings of this level are errors. -/
def isError (l : Level) : Bool :=
  l = error

end Level

/-- A change that the reader of a diagnostic may make. -/
structure Suggestion where
  message : String
  /-- The text to put in place, where it can be given. -/
  replacement : Option String
deriving DecidableEq, Repr, Inhabited

/-- One finding about a text. -/
structure Diagnostic where
  level : Level
  message : String
  /-- A code that stays the same when the message is reworded.  The empty code
  is a code. -/
  code : Option String
  span : Option Span
  notes : List String
  suggestions : List Suggestion
deriving DecidableEq, Repr, Inhabited

namespace Diagnostic

/-- A finding of which only level and message are known. -/
def plain (level : Level) (message : String) : Diagnostic :=
  ⟨level, message, none, none, [], []⟩

/-- The one-line form, `level[code]: message` or `level: message`. -/
def text (d : Diagnostic) : String :=
  match d.code with
  | some code => s!"{d.level.name}[{code}]: {d.message}"
  | none => s!"{d.level.name}: {d.message}"

end Diagnostic

end FrontEnd
