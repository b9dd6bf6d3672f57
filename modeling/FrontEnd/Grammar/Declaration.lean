/-
How declarations are read.

A declaration is attributes, modifiers and a keyword, which says how to go on,
and behind it a separator.  The members of a type are read like the statements
of a block: an error concerns its own member only.
-/
import FrontEnd.Grammar.Statement

namespace FrontEnd

namespace Grammar

open Procedure

/-! ### What stands in front -/

/-- The names of the attributes from the current token on.  An `@` without a
name is passed over. -/
def attributes : Procedure (List String) := do
  if ← isHere .atSign then
    advance .anyLine
    match (← here).bind (·.name? false) with
    | some name =>
      advance .anyLine
      let later ← read .attributes
      return name :: later
    | none => read .attributes
  else
    return []

/-- The modifiers from the current token on. -/
def modifiers : Procedure (List String) := do
  match (← here).bind (·.modifier?) with
  | some word =>
    advance .anyLine
    let later ← read .modifiers
    return word :: later
  | none => return []

/-! ### Imports -/

/-- What an import imports; a keyword may say so. -/
def importKind : Procedure ImportKind := do
  match ← here with
  | some (.keyword word .declaration) =>
    match ImportKind.ofKeyword? word with
    | some kind =>
      advance .anyLine
      return kind
    | none => return .module
  | _ => return .module

/-- The names behind a module, each with its period; a period without a name is
passed over. -/
def submodules : Procedure (List String) := do
  match ← here with
  | none => return []
  | some (.punctuator .period) =>
    shift
    match (← here).bind (·.name? true) with
    | some name =>
      shift
      let later ← read .submodules
      return name :: later
    | none => read .submodules
  | some _ =>
    stepBack
    return []

/-- What follows an import: where a kind is given but nothing inside the module is
named, that is complained of, else a separator must come. -/
def importEnd (context : Context) (kind : ImportKind) (names : List String) :
    Procedure (Option ParseError) := do
  if kind ≠ .module && names.isEmpty then
    let complaint ← errorHere .missingModuleName
    return some complaint
  else
    separator context

/-- An import with its separator. -/
def importing (context : Context) (start : Location) (header : Header) :
    Procedure (Kept Declaration) := do
  advance .anyLine
  let kind ← importKind
  let module ← expectName
  shift
  let names ← read .submodules
  let range ← rangeFrom start
  let complaint ← importEnd context kind names
  return ⟨.importing range header kind module names, complaint⟩

/-! ### Bindings, aliases and functions -/

/-- The value behind the equals sign of a binding. -/
def initializer : Procedure (Option Expression) := do
  if ← isNext .equal .sameLine then
    advance .sameLine
    advance .anyLine
    let value ← read (.expression 0)
    return some value
  else
    return none

/-- The bindings behind the current token; an equals sign and a comma stand on
the line of what is before them. -/
def bindings : Procedure (List Binding) := do
  advance .anyLine
  let pattern ← read (.pattern .declared)
  let value ← initializer
  if ← isNext .comma .sameLine then
    advance .sameLine
    let later ← read .bindings
    return ⟨pattern, value⟩ :: later
  else
    return [⟨pattern, value⟩]

/-- An alias, from its keyword on. -/
def typeAlias (header : Header) : Procedure (Range → Declaration) := do
  advance .anyLine
  let name ← expectName
  expectNext .equal
  advance .anyLine
  let type ← read .type
  return (.typeAlias · header name type)

/-- A name of a parameter; any keyword may serve as one. -/
def parameterName : Procedure String := do
  match (← here).bind (·.anyName?) with
  | some name => return name
  | none => raise .missingIdentifier

/-- The label of a parameter, if there is one, and its name. -/
def parameterNames : Procedure (Option String × String) := do
  let first ← parameterName
  if ← isNext .colon .anyLine then
    return (none, first)
  else
    advance .anyLine
    let second ← parameterName
    return (some first, second)

/-- The default of a parameter. -/
def parameterDefault : Procedure (Option Expression) := do
  if ← isNext .equal .anyLine then
    advanceTwice
    let value ← read (.expression Precedence.aboveAssignment)
    return some value
  else
    return none

/-- A parameter. -/
def parameter : Procedure Parameter := do
  let (label, name) ← parameterNames
  expectNext .colon
  advance .anyLine
  let type ← read .type
  let default ← parameterDefault
  return ⟨label, name, type, default⟩

/-- The parameters from the current token on, and the closing parenthesis. -/
def parameters : Procedure (List Parameter) := do
  let first ← parameter
  if ← isNext .comma .anyLine then
    advanceTwice
    let later ← read .parameters
    return first :: later
  else
    expectNext .rightParen
    return [first]

/-- The parameters of a function with their parentheses. -/
def parameterClause : Procedure (List Parameter) := do
  expectNext .leftParen
  advance .anyLine
  if ← isHere .rightParen then
    return []
  else
    read .parameters

/-- Whether a function says that it may throw, on its line. -/
def throwsClause : Procedure Bool := do
  if (← isWordNext "throws" .sameLine) || (← isWordNext "rethrows" .sameLine) then
    advance .sameLine
    return true
  else
    return false

/-- The type behind the arrow of a function. -/
def resultClause : Procedure (Option TypeExpr) := do
  if ← isNext .arrow .sameLine then
    advance .sameLine
    advance .anyLine
    let type ← read .type
    return some type
  else
    return none

/-- A function up to its body, from its keyword on. -/
def signature : Procedure Signature := do
  advance .anyLine
  let name ← expectName
  let parameters ← parameterClause
  let throws ← throwsClause
  let result ← resultClause
  return ⟨name, parameters, throws, result⟩

/-- A function, from its keyword on. -/
def function (header : Header) : Procedure (Range → Declaration) := do
  let signature ← signature
  if ← isNext .leftBrace .anyLine then
    advance .anyLine
    let body ← read .block
    return (.function · header signature (some body))
  else
    return (.function · header signature none)

/-! ### Types -/

/-- The name of a type; where it starts with a plain name it may be any type. -/
def typeName : Procedure String := do
  match ← here with
  | some (.identifier _) =>
    let type ← read .type
    return type.text
  | _ => expectName

/-- The types that a type inherits from, on its line. -/
def inheritanceClause : Procedure (List TypeExpr) := do
  if ← isNext .colon .sameLine then
    advance .sameLine
    advance .anyLine
    read .types
  else
    return []

/-- The declaration of a type, from its keyword on. -/
def typeDeclaration (header : Header) (family : TypeFamily) :
    Procedure (Range → Declaration) := do
  advance .anyLine
  let name ← typeName
  let inherits ← inheritanceClause
  expectNext .leftBrace
  let members ← read (.typeBody (.ofFamily family))
  return (.type · header family name inherits members)

/-- The members behind the current token, up to the closing brace. -/
def members (context : Context) : Procedure (List Declaration) := do
  advance .anyLine
  match ← here with
  | none => raise (.expectedMark .rightBrace)
  | some kind =>
    if kind = .punctuator .rightBrace then
      return []
    else if kind = .punctuator .semicolon then
      read (.members context)
    else if (← startsDeclaration) || context = .enumBody && kind.isKeyword "case" then
      let tried ← attempt (.declaration context)
      itemThen tried (read (.members context))
    else
      let e ← errorHere (.expectedToken "declaration")
      recoverThen e (read (.members context))

/-- The body of a type from its opening brace on. -/
def typeBody (context : Context) : Procedure (List Declaration) :=
  read (.members context)

/-- The names of the cases behind the current token; a comma stands on the line
of the name before it. -/
def caseNames : Procedure (List String) := do
  advance .anyLine
  let name ← expectName
  if ← isNext .comma .sameLine then
    advance .sameLine
    let later ← read .caseNames
    return name :: later
  else
    return [name]

/-! ### All declarations -/

/-- A declaration other than an import, from its keyword on. -/
def declarationNamed (header : Header) (word : String) : Procedure (Range → Declaration) :=
  match word with
  | "let" => do
    let items ← read .bindings
    return (.bindings · header false items)
  | "var" => do
    let items ← read .bindings
    return (.bindings · header true items)
  | "typealias" => typeAlias header
  | "func" => function header
  | "struct" => typeDeclaration header .structType
  | "class" => typeDeclaration header .classType
  | "enum" => typeDeclaration header .enumType
  | "protocol" => typeDeclaration header .protocol
  | "extension" => typeDeclaration header .extension
  | "case" => do
    let names ← read .caseNames
    return (.cases · header names)
  | _ => raise (.unsupportedDeclaration word)

/-- A declaration from its keyword on, with its separator. -/
def declarationFrom (context : Context) (start : Location) (header : Header) (word : String) :
    Procedure (Kept Declaration) := do
  if word = "import" then
    importing context start header
  else
    let node ← declarationNamed header word
    let range ← rangeFrom start
    let complaint ← separator context
    return ⟨node range, complaint⟩

/-- The keyword that a declaration goes on with; a case of an enumeration has a
keyword of another role. -/
def declarationKeyword? (context : Context) : TokenKind → Option String
  | .keyword word role =>
    if role = .declaration || context = .enumBody && word = "case" then some word else none
  | _ => none

/-- A declaration with its separator. -/
def declaration (context : Context) : Procedure (Kept Declaration) := do
  let start ← startLocation
  let attributes ← read .attributes
  let modifiers ← read .modifiers
  match (← here).bind (declarationKeyword? context) with
  | some word => declarationFrom context start ⟨attributes, modifiers⟩ word
  | none => raise (if modifiers.isEmpty then .internal else .expectedDeclaration)

end Grammar

end FrontEnd
