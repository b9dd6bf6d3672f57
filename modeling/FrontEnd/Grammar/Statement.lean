/-
How statements are read.

The statements of a block are read one by one.  An error is noted, and reading
goes on at the next boundary of the block, so that no error leaves the block it
stands in.
-/
import FrontEnd.Grammar.Precedence
import FrontEnd.Grammar.Procedure
import FrontEnd.Text.Decimal

namespace FrontEnd

namespace Grammar

open Procedure

/-! ### Separators and blocks -/

/-- Goes on to what separates a statement or declaration from the next one: a
semicolon, a line break or the end of the text.  A brace that closes the
enclosing block serves too, and is left for the block.  Anything else is
complained of from the token before it. -/
def separator (context : Context) : Procedure (Option ParseError) := do
  advance .sameLine
  match ← here with
  | none | some (.punctuator .semicolon) | some .lineFeed => return none
  | some kind =>
    stepBack
    if kind = .punctuator .rightBrace && context.isNested then
      return none
    else
      let complaint ← errorHere .missingSeparator
      return some complaint

/-- Notes an error, goes on to the next boundary and reads what follows. -/
def recoverThen {α : Type} (e : ParseError) (next : Procedure α) : Procedure α := do
  recover e
  next

/-- The items of a list from the one just tried: an item that was read stays
in the list also where an error was found behind it. -/
def itemThen {α : Type} (tried : Except ParseError (Kept α)) (next : Procedure (List α)) :
    Procedure (List α) := do
  match tried with
  | .ok ⟨value, none⟩ =>
    let later ← next
    return value :: later
  | .ok ⟨value, some e⟩ =>
    let later ← recoverThen e next
    return value :: later
  | .error e => recoverThen e next

/-- A statement of a block with its separator. -/
def item : Procedure (Kept Statement) := do
  if ← startsDeclaration then
    let kept ← read (.declaration .block)
    return ⟨.declaration kept.value, kept.complaint⟩
  else
    let statement ← read .statement
    let complaint ← separator .block
    return ⟨statement, complaint⟩

/-- The statements behind the current token, up to the token that ends them. -/
def statements (stop : BlockEnd) : Procedure (List Statement) := do
  advance .anyLine
  match ← here with
  | none => raise (.expectedMark .rightBrace)
  | some kind =>
    if stop.holds kind then
      return []
    else if kind = .punctuator .semicolon then
      read (.statements stop)
    else
      let tried ← attempt .item
      itemThen tried (read (.statements stop))

/-- A block from its opening brace on. -/
def block : Procedure Block :=
  ranged do
    let inner ← read (.statements .brace)
    return fun range => ⟨range, inner⟩

/-- A block, which must start here. -/
def blockHere : Procedure Block := do
  expectHere .leftBrace
  read .block

/-- A block, which must start at the next token of interest. -/
def blockNext : Procedure Block := do
  expectNext .leftBrace
  read .block

/-! ### Conditions -/

/-- The value behind the equals sign of a condition. -/
def conditionValue : Procedure Expression := do
  expectNext .equal
  advance .anyLine
  read (.expression 0)

/-- One condition. -/
def condition : Procedure Condition := do
  if ← isWordHere "case" then
    advance .anyLine
    let pattern ← read (.pattern .matching)
    let value ← conditionValue
    return .matching pattern value
  else
    let isMutable ← isWordHere "var"
    if isMutable || (← isWordHere "let") then
      advance .anyLine
      let pattern ← read (.pattern .declared)
      let value ← conditionValue
      return .binding isMutable pattern value
    else
      let value ← read (.expression 0)
      return .expression value

/-- One or more conditions; a comma stands on the line of the condition before
it. -/
def conditions : Procedure (List Condition) := do
  let first ← condition
  if ← isNext .comma .sameLine then
    advance .sameLine
    advance .anyLine
    let later ← read .conditions
    return first :: later
  else
    return [first]

/-- The condition behind `where`, if there is one. -/
def guardingCondition : Procedure (Option Expression) := do
  if ← isWordNext "where" .anyLine then
    advanceTwice
    let value ← read (.expression 0)
    return some value
  else
    return none

/-! ### Statements with blocks -/

/-- What follows `else`, if anything. -/
def alternative : Procedure (Option Alternative) := do
  if ← isWordNext "else" .anyLine then
    advanceTwice
    if ← isWordHere "if" then
      let statement ← read .elseIf
      return some (.choice statement)
    else if ← isHere .leftBrace then
      let body ← read .block
      return some (.block body)
    else
      raise (.expectedToken "`\x7b` or `if`")
  else
    return none

/-- A choice, from `if` on. -/
def choice : Procedure (Range → Statement) := do
  advance .anyLine
  let conditions ← read .conditions
  let body ← blockNext
  let other ← alternative
  return (.choice · conditions body other)

/-- The choice that follows `else`. -/
def elseIf : Procedure Statement :=
  ranged choice

/-- A guard, from `guard` on. -/
def guarding : Procedure (Range → Statement) := do
  advance .anyLine
  let conditions ← read .conditions
  expectNextWord "else"
  let body ← blockNext
  return (.guarding · conditions body)

/-- A loop with its conditions in front, from `while` on. -/
def looping : Procedure (Range → Statement) := do
  advance .anyLine
  let conditions ← read .conditions
  let body ← blockNext
  return (.looping · conditions body)

/-- A loop with its condition behind, from `repeat` on. -/
def repeating : Procedure (Range → Statement) := do
  advance .anyLine
  let body ← blockHere
  expectNextWord "while"
  advance .anyLine
  let condition ← read (.expression 0)
  return (.repeating · body condition)

/-- The pattern of a loop over a collection. -/
def loopPattern (isMatching : Bool) : Procedure Pattern := do
  if isMatching then
    advance .anyLine
    read (.pattern .matching)
  else
    read (.pattern .declared)

/-- A loop over a collection, from `for` on. -/
def forIn : Procedure (Range → Statement) := do
  advance .anyLine
  let isMatching ← isWordHere "case"
  let pattern ← loopPattern isMatching
  expectNextWord "in"
  advance .anyLine
  let collection ← read (.expression 0)
  let guarding ← guardingCondition
  let body ← blockNext
  return (.forIn · isMatching pattern collection guarding body)

/-- The pattern of a handler, which goes up to `where` or the block. -/
def handlerPattern : Procedure (Option Pattern) := do
  match ← following .anyLine with
  | none => return none
  | some kind =>
    if kind = .punctuator .leftBrace || kind.isKeyword "where" then
      return none
    else
      advance .anyLine
      let pattern ← read (.pattern .matching)
      return some pattern

/-- The handlers behind a block. -/
def handlers : Procedure (List Handler) := do
  if ← isWordNext "catch" .anyLine then
    advance .anyLine
    let pattern ← handlerPattern
    let guarding ← guardingCondition
    let body ← blockNext
    let later ← read .handlers
    return ⟨pattern, guarding, body⟩ :: later
  else
    return []

/-- A block with handlers, from `do` on. -/
def doing : Procedure (Range → Statement) := do
  advance .anyLine
  let body ← blockHere
  let handlers ← read .handlers
  return (.doing · body handlers)

/-- The patterns behind `case`. -/
def caseItems : Procedure (List CaseItem) := do
  advance .anyLine
  let pattern ← read (.pattern .matching)
  let guarding ← guardingCondition
  if ← isNext .comma .anyLine then
    advance .anyLine
    let later ← read .caseItems
    return ⟨pattern, guarding⟩ :: later
  else
    return [⟨pattern, guarding⟩]

/-- The arms of a `switch` from the current token on. -/
def arms : Procedure (List Arm) := do
  match ← here with
  | none => raise (.expectedMark .rightBrace)
  | some kind =>
    if kind = .punctuator .rightBrace then
      return []
    else if kind.isKeyword "case" then
      let items ← read .caseItems
      expectNext .colon
      let inner ← read (.statements .arm)
      let later ← read .arms
      return .case items inner :: later
    else if kind.isKeyword "default" then
      expectNext .colon
      let inner ← read (.statements .arm)
      let later ← read .arms
      return .default inner :: later
    else
      raise (.expectedToken "`case` or `default`")

/-- The body of a `switch` from its opening brace on. -/
def switchBody : Procedure (List Arm) := do
  advance .anyLine
  read .arms

/-- A selection by patterns, from `switch` on. -/
def switch : Procedure (Range → Statement) := do
  advance .anyLine
  let subject ← read (.expression 0)
  expectNext .leftBrace
  let arms ← read .switchBody
  return (.switch · subject arms)

/-! ### Statements without blocks -/

/-- The label of a jump, on its line. -/
def jumpLabel : Procedure (Option String) := do
  match ← following .sameLine with
  | some (.identifier name) =>
    advance .sameLine
    return some name
  | _ => return none

/-- Whether a `return` has no value, by the next token on its line. -/
def endsReturn (kind : TokenKind) : Bool :=
  kind.isLineBreak || kind = .punctuator .semicolon || kind = .punctuator .rightBrace ||
    kind.isKeyword "case" || kind.isKeyword "default"

/-- The value of a `return`, on its line. -/
def returnValue : Procedure (Option Expression) := do
  match ← following .sameLine with
  | none => return none
  | some kind =>
    if endsReturn kind then
      return none
    else
      advance .sameLine
      let value ← read (.expression 0)
      return some value

/-! ### Directives -/

/-- Lines are numbered below this bound. -/
def lineBound : Nat :=
  UInt64.size

/-- The line that a token gives; underscores between its digits do not
count. -/
def lineNumber? : TokenKind → Option Nat
  | .integer digits => Text.decimalBelow? lineBound (digits.toList.filter (· ≠ '_'))
  | _ => none

/-- Requires a label here, and goes on to the value behind its colon. -/
def expectLabel (label : String) : Procedure Unit := do
  if (← here).bind (·.name? true) = some label then
    expectNext .colon
    advance .anyLine
  else
    raise (.expectedWord label)

/-- The file of a source location. -/
def locationFile : Procedure String := do
  expectLabel "file"
  match ← here with
  | some (.string content) => return content
  | _ => raise (.expectedToken "string literal")

/-- The line of a source location. -/
def locationLine : Procedure Nat := do
  expectLabel "line"
  match (← here).bind lineNumber? with
  | some line => return line
  | none => raise (.expectedToken "line number")

/-- A source location, from its name on. -/
def sourceLocation : Procedure Directive := do
  expectNext .leftParen
  advance .anyLine
  if ← isHere .rightParen then
    return .sourceLocation none none
  else
    let file ← locationFile
    expectNext .comma
    advance .anyLine
    let line ← locationLine
    expectNext .rightParen
    return .sourceLocation (some file) (some line)

/-- A directive with a given name, from that name on. -/
def directiveNamed (name : String) : Procedure Directive :=
  match name with
  | "if" => do
    let condition ← takeLine
    return .ifTrue condition
  | "elseif" => do
    let condition ← takeLine
    return .elseIfTrue condition
  | "else" => return .otherwise
  | "endif" => return .endIf
  | "sourceLocation" => sourceLocation
  | _ => raise (.expectedToken "compiler control directive")

/-- A directive, from its `#` on; its name is glued to it. -/
def directive : Procedure Directive := do
  let name := match ← glued 0 with
    | some (.identifier name) | some (.keyword name _) => some name
    | _ => none
  shift
  match name with
  | some name => directiveNamed name
  | none => raise (.expectedToken "compiler control directive")

/-! ### All statements -/

/-- A statement that starts with a keyword, or else an expression. -/
def unlabeled (word : Option String) : Procedure (Range → Statement) :=
  match word with
  | some "break" => do
    let label ← jumpLabel
    return (.jump · .break label)
  | some "continue" => do
    let label ← jumpLabel
    return (.jump · .continue label)
  | some "fallthrough" => return .fallthrough
  | some "return" => do
    let value ← returnValue
    return (.returning · value)
  | some "throw" => do
    advance .anyLine
    let value ← read (.expression 0)
    return (.throwing · value)
  | some "defer" => do
    advance .anyLine
    let body ← blockHere
    return (.deferred · body)
  | some "do" => doing
  | some "if" => choice
  | some "guard" => guarding
  | some "while" => looping
  | some "repeat" => repeating
  | some "for" => forIn
  | some "switch" => switch
  | _ => do
    let value ← read (.expression 0)
    return fun _ => .expression value

/-- The label of a statement: a name with a colon on its line. -/
def statementLabel : Procedure (Option String) := do
  match (← here).bind (·.name? false) with
  | none => return none
  | some name =>
    if ← isNext .colon .sameLine then
      return some name
    else
      return none

/-- A statement. -/
def statement : Procedure Statement :=
  ranged do
    if ← isHere .hash then
      let directive ← directive
      return (.directive · directive)
    else
      match ← statementLabel with
      | some label =>
        advance .sameLine
        advance .anyLine
        let inner ← read .statement
        return (.labeled · label inner)
      | none =>
        let word := (← here).bind TokenKind.word?
        unlabeled word

end Grammar

end FrontEnd
