/-
Reading a text.

The top level of a text is read declaration by declaration.  Tokens that start
none are passed over, and invalid ones among them are errors.  Reading never
fails: it gives the declarations that could be read and the errors, in the
order in which they were found.
-/
import FrontEnd.Diagnostic.Log
import FrontEnd.Grammar.Rules
import FrontEnd.Lexical.Tokens

namespace FrontEnd

/-- What reading a text gives. -/
structure Reading where
  root : Root
  /-- The errors, in the order in which they were found. -/
  errors : List ParseError

namespace Reading

/-- The messages of the errors. -/
def messages (r : Reading) : List String :=
  r.errors.map (·.message)

/-- The errors as diagnostics. -/
def diagnostics (r : Reading) : List Diagnostic :=
  r.errors.map (·.diagnostic)

/-- Whether there are errors. -/
def hasErrors (r : Reading) : Bool :=
  !r.errors.isEmpty

/-- A log of the errors. -/
def log (r : Reading) : Log :=
  Log.empty.extend r.diagnostics

end Reading

namespace TopLevel

/-- Takes up a declaration that was read, or the error that came of it. -/
def takeUp (found : List Declaration) :
    Except ParseError (Kept Declaration) → State → List Declaration × State
  | .ok ⟨d, none⟩, s => (d :: found, s)
  | .ok ⟨d, some e⟩, s => (d :: found, s.note e)
  | .error e, s => (found, s.note e)

/-- Reads at most so many times a declaration, or passes over a token.  The
declarations found so far stand with the latest first; `readOne` reads one. -/
def sweep (readOne : State → Outcome (Kept Declaration)) :
    Nat → List Declaration → State → List Declaration × State
  | 0, found, s => (found, s)
  | steps + 1, found, s =>
    match s.cursor.current? with
    | none => (found, s)
    | some token =>
      if s.cursor.startsDeclaration then
        match readOne s with
        | .stalled => (found, s)
        | .finished result s =>
          let (found, s) := takeUp found result s
          sweep readOne steps found (s.moveTo s.cursor.shift)
      else
        let s := if token.kind.isInvalid then s.note (s.cursor.error .unknown) else s
        sweep readOne steps found (s.moveTo s.cursor.shift)

end TopLevel

/-- A reader of texts. -/
structure Parser where
  /-- How many levels of nesting it follows. -/
  maxDepth : Nat := 256
deriving DecidableEq, Repr, Inhabited

namespace Parser

/-- From the start of the first token to the end of the last one. -/
def rootRange (tokens : List Token) : Range :=
  match tokens.head?, tokens.getLast? with
  | some first, some last => first.range.through last.range
  | _, _ => .point .origin

/-- A bound on the depth of calls that no list of so many tokens reaches. -/
def callBound (size : Nat) : Nat :=
  16 * (size + 2)

/-- Reads a list of tokens. -/
def readTokens (p : Parser) (tokens : List Token) : Reading :=
  let readOne := (Goal.declaration .topLevel).run (callBound tokens.length) p.maxDepth
  let first : State := ⟨(Cursor.start tokens).shift, []⟩
  let (found, s) := TopLevel.sweep readOne (tokens.length + 1) [] first
  ⟨⟨rootRange tokens, found.reverse⟩, s.noted.reverse⟩

/-- Reads a text. -/
def readText (p : Parser) (text : String) : Reading :=
  p.readTokens (Token.ofText text)

end Parser

end FrontEnd
