/-
Procedures.

A procedure is a tree of what can happen while a goal is read: instructions to
the cursor with a continuation for each answer, other goals with a continuation
for each result, errors that are noted, and an end in a value or an error.  The
grammar consists of procedures alone; only `Procedure.perform` interprets them.
So a fact that every instruction respects holds of the whole grammar.
-/
import FrontEnd.Grammar.Goal
import FrontEnd.Grammar.Lookahead
import FrontEnd.Grammar.Recovery

namespace FrontEnd

/-- A question to the cursor, or a move of it. -/
inductive Instruction where
  /-- What is the current token? -/
  | here
  /-- What is glued to the current token, `n` tokens behind the next one? -/
  | glued (n : Nat)
  /-- What is the next token of interest? -/
  | following (reach : Reach)
  /-- What binary operator comes next? -/
  | binaryAhead
  /-- Does a declaration start here? -/
  | startsDeclaration
  /-- Where does the current token start? -/
  | startLocation
  /-- Where does the current token end? -/
  | stopLocation
  /-- The error with this cause, here. -/
  | errorHere (kind : ErrorKind)
  /-- One token on. -/
  | shift
  /-- One token on, and then to the next token of interest. -/
  | advance (reach : Reach)
  /-- One token back, if there is a current token. -/
  | stepBack
  /-- On to the next boundary of the block. -/
  | resynchronize
  /-- On to the end of the line: what is written up to there? -/
  | takeLine
deriving DecidableEq, Repr

namespace Instruction

/-- What an instruction answers. -/
@[reducible] def Answer : Instruction → Type
  | here | glued _ | following _ => Option TokenKind
  | binaryAhead => Option String
  | startsDeclaration => Bool
  | startLocation | stopLocation => Location
  | errorHere _ => ParseError
  | shift | advance _ | resynchronize => Unit
  | stepBack => Bool
  | takeLine => String

/-- The answer of an instruction, and the cursor after it. -/
def perform (c : Cursor) : (i : Instruction) → i.Answer × Cursor
  | here => (c.here?, c)
  | glued n => (c.glued? n, c)
  | following reach => (c.following? reach, c)
  | binaryAhead => (c.binaryAhead?, c)
  | startsDeclaration => (c.startsDeclaration, c)
  | startLocation => (c.startLocation, c)
  | stopLocation => (c.stopLocation, c)
  | errorHere kind => (c.error kind, c)
  | shift => ((), c.shift)
  | advance reach => ((), c.advance reach)
  | stepBack => (c.current?.isSome, c.unshift)
  | resynchronize => ((), c.resynchronize)
  | takeLine => (c.lineText, c.toEndOfLine)

end Instruction

/-- What can happen while something is read. -/
inductive Procedure (α : Type) where
  /-- The end, in a value. -/
  | done (value : α)
  /-- The end, in an error. -/
  | fail (error : ParseError)
  /-- An instruction, and what follows on its answer. -/
  | ask (i : Instruction) (next : i.Answer → Procedure α)
  /-- A goal, and what follows on its result. -/
  | call (g : Goal) (next : Except ParseError g.Result → Procedure α)
  /-- An error that does not stop the reading, and what follows. -/
  | note (error : ParseError) (next : Procedure α)

namespace Procedure

variable {α β : Type}

/-- One procedure after the other; an error ends both. -/
def bind : Procedure α → (α → Procedure β) → Procedure β
  | done a, f => f a
  | fail e, _ => fail e
  | ask i next, f => ask i fun answer => (next answer).bind f
  | call g next, f => call g fun result => (next result).bind f
  | note e next, f => note e (next.bind f)

instance : Monad Procedure where
  pure := done
  bind := bind

/-! ### The words of the grammar -/

/-- What the grammar sees of the current token. -/
def here : Procedure (Option TokenKind) :=
  ask .here done

/-- What is glued to the current token. -/
def glued (n : Nat) : Procedure (Option TokenKind) :=
  ask (.glued n) done

/-- The next token of interest. -/
def following (reach : Reach) : Procedure (Option TokenKind) :=
  ask (.following reach) done

/-- Whether the current token is a given mark. -/
def isHere (mark : Punctuator) : Procedure Bool := do
  return (← here) = some (.punctuator mark)

/-- Whether the current token is a given keyword. -/
def isWordHere (word : String) : Procedure Bool := do
  return (← here).any (·.isKeyword word)

/-- Whether a given mark is glued to the current token. -/
def isGlued (mark : Punctuator) : Procedure Bool := do
  return (← glued 0) = some (.punctuator mark)

/-- Whether the next token of interest is a given mark. -/
def isNext (mark : Punctuator) (reach : Reach) : Procedure Bool := do
  return (← following reach) = some (.punctuator mark)

/-- Whether the next token of interest is a given keyword. -/
def isWordNext (word : String) (reach : Reach) : Procedure Bool := do
  return (← following reach).any (·.isKeyword word)

/-- Where the current token starts. -/
def startLocation : Procedure Location :=
  ask .startLocation done

/-- Where the current token ends. -/
def stopLocation : Procedure Location :=
  ask .stopLocation done

/-- The range from a place to the end of the current token. -/
def rangeFrom (start : Location) : Procedure Range :=
  ask .stopLocation fun stop => done ⟨start, stop⟩

/-- The binary operator after the current token. -/
def binaryAhead : Procedure (Option String) :=
  ask .binaryAhead done

/-- Whether a declaration starts at the current token. -/
def startsDeclaration : Procedure Bool :=
  ask .startsDeclaration done

/-- On to the last token of the line; what is written up to there. -/
def takeLine : Procedure String :=
  ask .takeLine done

/-- One token on. -/
def shift : Procedure Unit :=
  ask .shift done

/-- One token on, and then to the next token of interest. -/
def advance (reach : Reach) : Procedure Unit :=
  ask (.advance reach) done

/-- Twice on to the next token of interest, on any line. -/
def advanceTwice : Procedure Unit := do
  advance .anyLine
  advance .anyLine

/-- The error with a cause, here. -/
def errorHere (kind : ErrorKind) : Procedure ParseError :=
  ask (.errorHere kind) done

/-- The end, in the error with a cause, here. -/
def raise (kind : ErrorKind) : Procedure α :=
  ask (.errorHere kind) fail

/-- One token back. -/
def stepBack : Procedure Unit :=
  ask .stepBack fun moved => if moved then done () else raise .internal

/-- What comes of a goal, an error included. -/
def attempt (g : Goal) : Procedure (Except ParseError g.Result) :=
  call g done

/-- What comes of a goal; an error of it is one of the whole. -/
def read (g : Goal) : Procedure g.Result :=
  call g fun
    | .ok value => done value
    | .error e => fail e

/-- Notes an error and goes on to the next boundary of the block. -/
def recover (e : ParseError) : Procedure Unit :=
  note e (ask .resynchronize done)

/-- Reads a node together with its range. -/
def ranged (node : Procedure (Range → α)) : Procedure α := do
  let start ← startLocation
  let build ← node
  let range ← rangeFrom start
  return build range

/-- Requires that the current token is a given mark. -/
def expectHere (mark : Punctuator) : Procedure Unit := do
  if ← isHere mark then return () else raise (.expectedMark mark)

/-- Goes on to the next token of interest, which must be a given mark. -/
def expectNext (mark : Punctuator) : Procedure Unit := do
  advance .anyLine
  expectHere mark

/-- Goes on to the next token of interest, which must be a given keyword. -/
def expectNextWord (word : String) : Procedure Unit := do
  advance .anyLine
  if ← isWordHere word then return () else raise (.expectedWord word)

/-- The name that the current token gives, where contextual keywords are names
too. -/
def expectName : Procedure String := do
  match (← here).bind (·.name? true) with
  | some name => return name
  | none => raise .missingIdentifier

end Procedure

/-! ### Interpretation -/

/-- Where the reading stands. -/
structure State where
  cursor : Cursor
  /-- The errors noted so far, the latest first. -/
  noted : List ParseError

namespace State

/-- Moves the cursor. -/
def moveTo (s : State) (c : Cursor) : State :=
  ⟨c, s.noted⟩

/-- Notes an error. -/
def note (s : State) (e : ParseError) : State :=
  ⟨s.cursor, e :: s.noted⟩

end State

/-- How the reading of something ends. -/
inductive Outcome (α : Type) where
  /-- In a value or an error. -/
  | finished (result : Except ParseError α) (state : State)
  /-- The bound on the depth of calls was too low. -/
  | stalled

/-- Interprets a procedure; `callee` answers the goals that it calls. -/
def Procedure.perform {α : Type} (callee : (g : Goal) → State → Outcome g.Result) :
    Procedure α → State → Outcome α
  | .done value, s => .finished (.ok value) s
  | .fail e, s => .finished (.error e) s
  | .ask i next, s =>
    let (answer, cursor) := i.perform s.cursor
    (next answer).perform callee (s.moveTo cursor)
  | .call g next, s =>
    match callee g s with
    | .finished result s' => (next result).perform callee s'
    | .stalled => .stalled
  | .note e next, s => next.perform callee (s.note e)

end FrontEnd
