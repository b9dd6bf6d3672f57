/-
How types are read.

The angle brackets of generic arguments, the periods of a path and the marks
behind a type are glued to what they follow.
-/
import FrontEnd.Grammar.Procedure

namespace FrontEnd

namespace Grammar

open Procedure

/-- A collection type from its opening bracket on. -/
def collectionType : Procedure TypeExpr := do
  advance .anyLine
  let first ← read .type
  if ← isNext .colon .anyLine then
    advanceTwice
    let value ← read .type
    expectNext .rightSquare
    return .dictionary first value
  else
    expectNext .rightSquare
    return .array first

/-- The elements of a tuple type, from its opening parenthesis on. -/
def tupleTypeElements : Procedure (List TypeExpr) := do
  advance .anyLine
  if ← isHere .rightParen then
    return []
  else
    let elements ← read .types
    expectNext .rightParen
    return elements

/-- A tuple type from its opening parenthesis on, or the type of the functions
that take it. -/
def tupleOrFunctionType : Procedure TypeExpr := do
  let elements ← tupleTypeElements
  let throws ← isWordNext "throws" .sameLine
  if throws then
    advance .sameLine
  if ← isNext .arrow .sameLine then
    advance .sameLine
    advance .anyLine
    let result ← read .type
    return .function elements throws result
  else if throws then
    advance .anyLine
    raise (.expectedMark .arrow)
  else
    return .tuple elements

/-- A type without the marks behind it. -/
def unmarkedType : Procedure TypeExpr := do
  match ← here with
  | some (.punctuator .leftSquare) => collectionType
  | some (.punctuator .leftParen) => tupleOrFunctionType
  | some kind =>
    if (kind.name? true).isSome || kind.isKeyword "self" then
      let path ← read .typePath
      return .named path
    else
      raise .expectedType
  | none => raise .expectedType

/-- A type with the marks behind it. -/
def type : Procedure TypeExpr := do
  let base ← unmarkedType
  let marks ← read .typeMarks
  return marks.foldl TypeExpr.mark base

/-- The marks behind a type. -/
def typeMarks : Procedure (List TypeMark) := do
  match ← glued 0 with
  | some (.punctuator .question) =>
    shift
    let later ← read .typeMarks
    return .question :: later
  | some (.punctuator .exclamation) =>
    shift
    let later ← read .typeMarks
    return .exclamation :: later
  | _ => return []

/-- One or more types with commas between them. -/
def types : Procedure (List TypeExpr) := do
  let first ← read .type
  if ← isNext .comma .anyLine then
    advanceTwice
    let later ← read .types
    return first :: later
  else
    return [first]

/-- Generic arguments, if they are glued to the current name. -/
def genericArguments : Procedure (List TypeExpr) := do
  if (← glued 0) = some (.operator "<") then
    shift
    advance .anyLine
    let arguments ← read .types
    advance .anyLine
    if (← here) = some (.operator ">") then
      return arguments
    else
      raise (.expectedWord ">")
  else
    return []

/-- Whether a glued period leads on to another name of a path. -/
def pathContinues : Procedure Bool := do
  if ← isGlued .period then
    let next ← glued 1
    return (next.bind (·.name? true)).isSome
  else
    return false

/-- The path of names of a type; its first name may be any keyword. -/
def typePath : Procedure (List TypeSegment) := do
  match (← here).bind (·.anyName?) with
  | none => raise .expectedType
  | some name =>
    let arguments ← genericArguments
    if ← pathContinues then
      shift
      shift
      let later ← read .typePath
      return ⟨name, arguments⟩ :: later
    else
      return [⟨name, arguments⟩]

end Grammar

end FrontEnd
