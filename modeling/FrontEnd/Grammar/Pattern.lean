/-
How patterns are read.

Declarations and `for` have declared patterns, where names are bound and a type
may follow.  In `case` and `catch` a name is an expression to compare with,
unless `let` or `var` stands before it; there a pattern may also be a case of an
enumeration, and question marks may be glued to it.
-/
import FrontEnd.Grammar.Precedence
import FrontEnd.Grammar.Procedure

namespace FrontEnd

namespace Grammar

open Procedure

/-- The elements of a tuple pattern, from the opening parenthesis on. -/
def tupleElements (mode : PatternMode) : Procedure (List Pattern) := do
  advance .anyLine
  if ← isHere .rightParen then
    return []
  else
    let elements ← read (.patterns mode)
    expectNext .rightParen
    return elements

/-- One or more patterns with commas between them. -/
def patterns (mode : PatternMode) : Procedure (List Pattern) := do
  let first ← read (.pattern mode)
  if ← isNext .comma .anyLine then
    advanceTwice
    let later ← read (.patterns mode)
    return first :: later
  else
    return [first]

/-- A tuple pattern. -/
def tuplePattern (mode : PatternMode) : Procedure (Range → Pattern) := do
  let elements ← tupleElements mode
  return (.tuple · elements)

/-! ### Declared patterns -/

/-- A declared pattern without a type. -/
def untypedPattern : Procedure (Range → Pattern) := do
  match ← here with
  | some (.keyword "_" .pattern) => return .wildcard
  | some (.punctuator .leftParen) => tuplePattern .declared
  | kind =>
    match kind.bind (·.name? true) with
    | some name => return (.identifier · name)
    | none => raise .expectedPattern

/-- A declared pattern with the type behind it, if there is one. -/
def declaredPattern : Procedure Pattern := do
  let start ← startLocation
  let node ← untypedPattern
  let range ← rangeFrom start
  if ← isNext .colon .sameLine then
    advance .sameLine
    advance .anyLine
    let type ← read .type
    let whole ← rangeFrom start
    return .annotated whole (node range) type
  else
    return node range

/-! ### Patterns that test a value -/

/-- A case of an enumeration, from its name on. -/
def enumCase (mode : PatternMode) (type : Option String) (name : String) :
    Procedure (Range → Pattern) := do
  if ← isGlued .leftParen then
    shift
    let payload ← ranged (tuplePattern mode)
    return (.enumCase · type name (some payload))
  else
    return (.enumCase · type name none)

/-- Whether a glued period leads on to the name of a case. -/
def caseFollows : Procedure Bool := do
  if ← isGlued .period then
    match ← glued 1 with
    | some (.identifier _) | some (.keyword _ .contextual) => return true
    | _ => return false
  else
    return false

/-- An expression to compare with. -/
def comparedValue : Procedure (Range → Pattern) := do
  let value ← read (.expression Precedence.aboveAssignment)
  return (.expression · value)

/-- The same where no expression starts for certain: there a pattern is
expected. -/
def comparedValueOrError : Procedure (Range → Pattern) := do
  match ← attempt (.expression Precedence.aboveAssignment) with
  | .ok value => return (.expression · value)
  | .error e => if e.kind = .expectedExpression then raise .expectedPattern else fail e

/-- A pattern that tests a value, without the marks behind it. -/
def unmarkedPattern (mode : PatternMode) : Procedure (Range → Pattern) := do
  match ← here with
  | none => raise .expectedPattern
  | some kind =>
    if kind.isKeyword "let" || kind.isKeyword "var" then
      advance .anyLine
      let inner ← read (.pattern .binding)
      return (.binding · (kind.isKeyword "var") inner)
    else
      match kind with
      | .keyword "_" .pattern => return .wildcard
      | .punctuator .leftParen => tuplePattern mode
      | .punctuator .period =>
        shift
        let name ← expectName
        enumCase mode none name
      | .identifier name | .quotedIdentifier name =>
        if ← caseFollows then
          shift
          shift
          let case ← expectName
          enumCase mode (some name) case
        else if mode = .binding then
          return (.identifier · name)
        else
          comparedValue
      | _ =>
        match kind.name? true with
        | some name =>
          if mode = .binding then return (.identifier · name) else comparedValueOrError
        | none => comparedValueOrError

/-- The ends of the question marks glued to a pattern. -/
def patternMarks : Procedure (List Location) := do
  if ← isGlued .question then
    shift
    let stop ← stopLocation
    let later ← read .patternMarks
    return stop :: later
  else
    return []

/-- A pattern that tests a value. -/
def testedPattern (mode : PatternMode) : Procedure Pattern := do
  let start ← startLocation
  let node ← unmarkedPattern mode
  let range ← rangeFrom start
  let marks ← read .patternMarks
  return marks.foldl (fun inner stop => .optional ⟨start, stop⟩ inner) (node range)

/-- A pattern. -/
def pattern : PatternMode → Procedure Pattern
  | .declared => declaredPattern
  | mode => testedPattern mode

end Grammar

end FrontEnd
