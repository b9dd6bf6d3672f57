/-
How expressions are read.

Binary operators are read by precedence climbing: an expression is an operand
and the operators that bind at least as tightly as its floor, each with the
expression that its own level allows on the right.  An operator stands on the
line of its left operand; blanks stand on both of its sides or on neither, so
that an operator with a blank in front only belongs to the next operand.
Operators in front, calls, subscripts, members and marks are glued to their
operands.
-/
import FrontEnd.Grammar.Precedence
import FrontEnd.Grammar.Procedure

namespace FrontEnd

/-- An operand with one operation applied to it, from a place on. -/
def Operation.apply (start : Location) (left : Expression) (op : Operation) : Expression :=
  if op.operator = "=" then .assignment ⟨start, op.stop⟩ left op.operand
  else .binary ⟨start, op.stop⟩ op.operator left op.operand

/-- An expression with a suffix. -/
def PlacedSuffix.apply (base : Expression) (s : PlacedSuffix) : Expression :=
  let range : Range := ⟨base.range.start, s.stop⟩
  match s.suffix with
  | .call arguments => .call range base arguments
  | .subscript arguments => .subscript range base arguments
  | .member name => .member range base name
  | .forced => .forced range base

/-- The expression in parentheses: one element without a label is only
grouped. -/
def parenthesized : List Argument → Range → Expression
  | [⟨none, inner⟩], range => .parenthesized range inner
  | elements, range => .tuple range elements

namespace Grammar

open Procedure

/-! ### Operands -/

/-- A literal between brackets, from the opening one on. -/
def collectionLiteral : Procedure (Range → Expression) := do
  advance .anyLine
  if ← isHere .rightSquare then
    return (.array · [])
  else if ← isHere .colon then
    expectNext .rightSquare
    return (.dictionary · [])
  else
    let first ← read (.expression 0)
    if ← isNext .colon .anyLine then
      let (value, later) ← read .entries
      return (.dictionary · (⟨first, value⟩ :: later))
    else
      let later ← read .elements
      return (.array · (first :: later))

/-- The elements of an array behind its first one, and the closing bracket; a
comma may stand before it. -/
def elements : Procedure (List Expression) := do
  if ← isNext .comma .anyLine then
    advanceTwice
    if ← isHere .rightSquare then
      return []
    else
      let element ← read (.expression 0)
      let later ← read .elements
      return element :: later
  else
    expectNext .rightSquare
    return []

/-- The value behind a key, the further entries, and the closing bracket; a
comma may stand before it. -/
def entries : Procedure (Expression × List Entry) := do
  advanceTwice
  let value ← read (.expression 0)
  if ← isNext .comma .anyLine then
    advanceTwice
    if ← isHere .rightSquare then
      return (value, [])
    else
      let key ← read (.expression 0)
      if ← isNext .colon .anyLine then
        let (next, later) ← read .entries
        return (value, ⟨key, next⟩ :: later)
      else
        advance .anyLine
        raise (.expectedMark .colon)
  else
    expectNext .rightSquare
    return (value, [])

/-- What a keyword stands for as an operand. -/
def keywordOperand (word : String) : Procedure (Range → Expression) :=
  match word with
  | "true" => return (.boolean · true)
  | "false" => return (.boolean · false)
  | "nil" => return .nil
  | "self" => return .selfReference
  | "_" => return .wildcard
  | _ => raise .expectedExpression

/-- An operand without anything glued to it. -/
def primary : Procedure Expression :=
  ranged do
    match ← here with
    | some (.identifier name) | some (.quotedIdentifier name)
    | some (.keyword name .contextual) => return (.identifier · name)
    | some (.integer digits) => return (.integer · digits)
    | some (.floating digits) => return (.floating · digits)
    | some (.string content) => return (.string · content)
    | some (.keyword word _) => keywordOperand word
    | some (.punctuator .period) =>
      shift
      let name ← expectName
      return (.implicitMember · name)
    | some (.punctuator .leftParen) =>
      advance .anyLine
      let inner ← read (.arguments .rightParen)
      return parenthesized inner
    | some (.punctuator .leftSquare) => collectionLiteral
    | _ => raise .expectedExpression

/-- The label of an argument; any keyword may serve as one. -/
def argumentLabel : Procedure (Option String) := do
  match (← here).bind (·.anyName?) with
  | none => return none
  | some name =>
    if ← isNext .colon .anyLine then
      return some name
    else
      return none

/-- Arguments up to the closing mark; a comma may stand before it. -/
def arguments (closer : Punctuator) : Procedure (List Argument) := do
  if ← isHere closer then
    return []
  else
    let label ← argumentLabel
    if label.isSome then
      advanceTwice
    let value ← read (.expression 0)
    if ← isNext .comma .anyLine then
      advanceTwice
      let later ← read (.arguments closer)
      return ⟨label, value⟩ :: later
    else
      expectNext closer
      return [⟨label, value⟩]

/-- The name of a member: a name, any keyword, or the number of an element. -/
def memberName? : TokenKind → Option String
  | .integer digits => some digits
  | kind => kind.anyName?

/-- The suffix just read, and those behind it. -/
def suffixThen (suffix : Suffix) : Procedure (List PlacedSuffix) := do
  let stop ← stopLocation
  let later ← read .suffixes
  return ⟨suffix, stop⟩ :: later

/-- What is glued to an operand. -/
def suffixes : Procedure (List PlacedSuffix) := do
  match ← glued 0 with
  | some (.punctuator .leftParen) =>
    shift
    advance .anyLine
    let inner ← read (.arguments .rightParen)
    suffixThen (.call inner)
  | some (.punctuator .leftSquare) =>
    shift
    advance .anyLine
    let inner ← read (.arguments .rightSquare)
    suffixThen (.subscript inner)
  | some (.punctuator .period) =>
    shift
    shift
    match (← here).bind memberName? with
    | some name => suffixThen (.member name)
    | none => raise .missingIdentifier
  | some (.punctuator .exclamation) =>
    shift
    suffixThen .forced
  | _ => return []

/-! ### Operators -/

/-- The kind of the attempt at the current `try`, and on to its mark. -/
def attemptKind : Procedure AttemptKind := do
  if ← isGlued .question then
    shift
    return .optional
  else if ← isGlued .exclamation then
    shift
    return .forced
  else
    return .plain

/-- How an operator in front of an operand is written. -/
def unaryOperator? : TokenKind → Option String
  | .operator symbol => some symbol
  | .punctuator .exclamation => some "!"
  | _ => none

/-- An operand with what is glued to it on both sides; an attempt reaches as
far as an expression does. -/
def operand : Procedure Expression := do
  if ← isWordHere "try" then
    ranged do
      let kind ← attemptKind
      advance .anyLine
      let body ← read (.expression 0)
      return (.attempt · kind body)
  else
    match (← here).bind unaryOperator? with
    | some operator =>
      ranged do
        if (← glued 0).isNone then
          raise .expectedExpression
        else
          shift
          let inner ← read .operand
          return (.unary · operator inner)
    | none =>
      let base ← primary
      let glued ← read .suffixes
      return glued.foldl PlacedSuffix.apply base

/-- The operators that bind at least as tightly as the floor, with their right
operands. -/
def operations (floor : Nat) : Procedure (List Operation) := do
  match ← binaryAhead with
  | none => return []
  | some operator =>
    let precedence := Precedence.ofOperator operator
    if precedence.level < floor then
      return []
    else
      advance .sameLine
      advance .anyLine
      let right ← read (.expression precedence.rightFloor)
      let stop ← stopLocation
      let later ← read (.operations floor)
      return ⟨operator, right, stop⟩ :: later

/-- An expression whose operators bind at least as tightly as the floor. -/
def expression (floor : Nat) : Procedure Expression := do
  let start ← startLocation
  let first ← operand
  let later ← read (.operations floor)
  return later.foldl (Operation.apply start) first

end Grammar

end FrontEnd
