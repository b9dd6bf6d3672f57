/-
Declarations and statements.

Declarations hold blocks of statements and statements hold declarations, so the
two are defined together.  The root of a text is its list of declarations.
-/
import FrontEnd.Syntax.Pattern

namespace FrontEnd

/-! ### Parts without statements -/

/-- What an import declaration imports. -/
inductive ImportKind where
  | module
  | typeAlias
  | structType
  | classType
  | enumType
  | protocol
  /-- A global variable. -/
  | global
  | function
deriving DecidableEq, Repr, Inhabited

namespace ImportKind

/-- The word for what is imported. -/
def name : ImportKind → String
  | module => "module"
  | typeAlias => "typealias"
  | structType => "struct"
  | classType => "class"
  | enumType => "enum"
  | protocol => "protocol"
  | global => "var"
  | function => "func"

/-- The kinds that a keyword after `import` selects. -/
def symbols : List ImportKind :=
  [typeAlias, structType, classType, enumType, protocol, global, function]

/-- The kind that a keyword after `import` selects. -/
def ofKeyword? (word : String) : Option ImportKind :=
  symbols.find? (·.name = word)

end ImportKind

/-- A pattern of a `let` or `var` declaration, with its initial value. -/
structure Binding where
  pattern : Pattern
  value : Option Expression

/-- A pattern and its value as one line of text. -/
def Binding.text (b : Binding) : String :=
  match b.value with
  | some value => s!"{b.pattern.text} = {value.text}"
  | none => b.pattern.text

/-- A parameter of a function. -/
structure Parameter where
  /-- The name that callers use, where it differs. -/
  label : Option String
  name : String
  type : TypeExpr
  default : Option Expression

/-- A parameter as one line of text. -/
def Parameter.text (p : Parameter) : String :=
  let label := match p.label with
    | some label => label ++ " "
    | none => ""
  let default := match p.default with
    | some value => s!" = {value.text}"
    | none => ""
  s!"{label}{p.name}: {p.type.text}{default}"

/-- A function without its body. -/
structure Signature where
  name : String
  parameters : List Parameter
  throws : Bool
  result : Option TypeExpr

/-- The families of type declarations. -/
inductive TypeFamily where
  | structType
  | classType
  | enumType
  | protocol
  | extension
deriving DecidableEq, Repr, Inhabited

/-- What stands in front of the keyword of a declaration. -/
structure Header where
  /-- The names after `@`. -/
  attributes : List String
  modifiers : List String
deriving DecidableEq, Repr, Inhabited

/-- A condition of `if`, `guard` or `while`. -/
inductive Condition where
  | expression (value : Expression)
  /-- `case` with a pattern that the value must match. -/
  | matching (pattern : Pattern) (value : Expression)
  /-- `let` or `var` with a value that must not be missing. -/
  | binding (isMutable : Bool) (pattern : Pattern) (value : Expression)

/-- A condition as one line of text. -/
def Condition.text : Condition → String
  | expression value => value.text
  | matching pattern value => s!"case {pattern.text} = {value.text}"
  | binding isMutable pattern value =>
    s!"{bindingKeyword isMutable} {pattern.text} = {value.text}"

/-- One pattern of a `case` in a `switch`. -/
structure CaseItem where
  pattern : Pattern
  guarding : Option Expression

/-- An instruction to the compiler, on a line of its own. -/
inductive Directive where
  | ifTrue (condition : String)
  | elseIfTrue (condition : String)
  | otherwise
  | endIf
  /-- The file and line that the next line counts as. -/
  | sourceLocation (file : Option String) (line : Option Nat)
deriving DecidableEq, Repr, Inhabited

/-- The ways to leave the current turn of a loop or the loop as a whole. -/
inductive JumpKind where
  | break
  | continue
deriving DecidableEq, Repr, Inhabited

/-! ### Declarations, blocks and statements -/

mutual

/-- A declaration. -/
inductive Declaration where
  /-- An import of a module, or of something inside it. -/
  | importing (range : Range) (header : Header) (kind : ImportKind) (module : String)
      (submodules : List String)
  | bindings (range : Range) (header : Header) (isMutable : Bool) (items : List Binding)
  | typeAlias (range : Range) (header : Header) (name : String) (type : TypeExpr)
  /-- A function; without a body, it is a requirement on types. -/
  | function (range : Range) (header : Header) (signature : Signature) (body : Option Block)
  | type (range : Range) (header : Header) (family : TypeFamily) (name : String)
      (inherits : List TypeExpr) (members : List Declaration)
  /-- Cases of an enumeration. -/
  | cases (range : Range) (header : Header) (names : List String)

/-- Statements between braces. -/
inductive Block where
  | mk (range : Range) (statements : List Statement)

/-- A statement. -/
inductive Statement where
  | jump (range : Range) (kind : JumpKind) (label : Option String)
  | directive (range : Range) (directive : Directive)
  | declaration (declaration : Declaration)
  | deferred (range : Range) (body : Block)
  | doing (range : Range) (body : Block) (handlers : List Handler)
  | expression (value : Expression)
  | fallthrough (range : Range)
  | forIn (range : Range) (isMatching : Bool) (pattern : Pattern) (collection : Expression)
      (guarding : Option Expression) (body : Block)
  | guarding (range : Range) (conditions : List Condition) (body : Block)
  | choice (range : Range) (conditions : List Condition) (body : Block)
      (alternative : Option Alternative)
  | labeled (range : Range) (label : String) (statement : Statement)
  | repeating (range : Range) (body : Block) (condition : Expression)
  | returning (range : Range) (value : Option Expression)
  | switch (range : Range) (subject : Expression) (arms : List Arm)
  | throwing (range : Range) (value : Expression)
  | looping (range : Range) (conditions : List Condition) (body : Block)

/-- What follows `else`. -/
inductive Alternative where
  | block (body : Block)
  | choice (statement : Statement)

/-- A `catch` clause. -/
inductive Handler where
  | mk (pattern : Option Pattern) (guarding : Option Expression) (body : Block)

/-- An arm of a `switch`. -/
inductive Arm where
  | case (items : List CaseItem) (statements : List Statement)
  | default (statements : List Statement)

end

/-- The declarations of a text, in the order in which they stand there. -/
structure Root where
  range : Range
  declarations : List Declaration

/-! ### Ranges and tags -/

/-- The range that a declaration was read from. -/
def Declaration.range : Declaration → Range
  | importing r .. | bindings r .. | typeAlias r .. | function r .. | type r .. | cases r .. => r

/-- What stands in front of the keyword of a declaration. -/
def Declaration.header : Declaration → Header
  | importing _ h .. | bindings _ h .. | typeAlias _ h .. | function _ h .. | type _ h ..
  | cases _ h _ => h

/-- The name of the shape of a family. -/
def TypeFamily.tag : TypeFamily → String
  | structType => "struct_decl"
  | classType => "class_decl"
  | enumType => "enum_decl"
  | protocol => "protocol_decl"
  | extension => "ext_decl"

/-- The name of the shape of a declaration. -/
def Declaration.tag : Declaration → String
  | importing .. => "import_decl"
  | bindings _ _ isMutable _ => if isMutable then "var_decl" else "const_decl"
  | typeAlias .. => "typealias_decl"
  | function .. => "func_decl"
  | type _ _ family .. => family.tag
  | cases .. => "enum_case_decl"

/-- The range of a block, braces included. -/
def Block.range : Block → Range
  | ⟨r, _⟩ => r

/-- The statements of a block. -/
def Block.statements : Block → List Statement
  | ⟨_, statements⟩ => statements

/-- The range that a statement was read from. -/
def Statement.range : Statement → Range
  | declaration d => d.range
  | expression e => e.range
  | jump r .. | directive r .. | deferred r .. | doing r .. | fallthrough r | forIn r ..
  | guarding r .. | choice r .. | labeled r .. | repeating r .. | returning r .. | switch r ..
  | throwing r .. | looping r .. => r

/-- The name of the shape of a jump. -/
def JumpKind.tag : JumpKind → String
  | .break => "break_stmt"
  | .continue => "continue_stmt"

/-- The name of the shape of a statement; declarations and expressions that
serve as statements keep their own. -/
def Statement.tag : Statement → String
  | jump _ kind _ => kind.tag
  | directive .. => "compiler_ctrl_stmt"
  | declaration d => d.tag
  | deferred .. => "defer_stmt"
  | doing .. => "do_stmt"
  | expression e => e.tag
  | fallthrough .. => "fallthrough_stmt"
  | forIn .. => "for_stmt"
  | guarding .. => "guard_stmt"
  | choice .. => "if_stmt"
  | labeled .. => "labeled_stmt"
  | repeating .. => "repeat_stmt"
  | returning .. => "return_stmt"
  | switch .. => "switch_stmt"
  | throwing .. => "throw_stmt"
  | looping .. => "while_stmt"

end FrontEnd
