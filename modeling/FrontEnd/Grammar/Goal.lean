/-
The goals of the grammar.

A goal is something that the grammar can read, and `Goal.Result` is what comes
of it.  A goal starts on its first token and ends on its last one, the goals
that continue something apart: they start on the last token of what they
continue and end there if nothing comes.  Goals carry no part of a tree and no
place, so what is read for a goal hangs on the tokens alone.
-/
import FrontEnd.Grammar.Error
import FrontEnd.Syntax.Declaration

namespace FrontEnd

/-- Where a declaration stands. -/
inductive Context where
  | topLevel
  | block
  | typeBody
  | enumBody
deriving DecidableEq, Repr, Inhabited

namespace Context

/-- Whether a closing brace may end what stands here. -/
def isNested : Context → Bool
  | topLevel => false
  | _ => true

/-- The context of the members of a type. -/
def ofFamily : TypeFamily → Context
  | .enumType => enumBody
  | _ => typeBody

end Context

/-- Where a list of statements ends. -/
inductive BlockEnd where
  /-- At a closing brace. -/
  | brace
  /-- At a closing brace or at the next arm of a `switch`. -/
  | arm
deriving DecidableEq, Repr, Inhabited

/-- Whether a list of statements ends at a token. -/
def BlockEnd.holds (stop : BlockEnd) (kind : TokenKind) : Bool :=
  kind = .punctuator .rightBrace ||
    stop = .arm && (kind.isKeyword "case" || kind.isKeyword "default")

/-- How a pattern treats a name. -/
inductive PatternMode where
  /-- In `case` and `catch`: a name is an expression to compare with. -/
  | matching
  /-- Below `let` and `var`: a name is bound. -/
  | binding
  /-- In declarations and `for`: a name is bound, and a type may follow. -/
  | declared
deriving DecidableEq, Repr, Inhabited

/-- What was read, with an error that was found behind it. -/
structure Kept (α : Type) where
  value : α
  complaint : Option ParseError

/-- The next operation of a chain of binary operators. -/
structure Operation where
  operator : String
  operand : Expression
  /-- Where the operand ends. -/
  stop : Location

/-- What may follow a primary expression without a blank between. -/
inductive Suffix where
  | call (arguments : List Argument)
  | subscript (arguments : List Argument)
  | member (name : String)
  | forced

/-- A suffix and where it ends. -/
structure PlacedSuffix where
  suffix : Suffix
  stop : Location

/-- What the grammar can read. -/
inductive Goal where
  -- Types
  | type
  /-- One or more types with commas between them. -/
  | types
  /-- The path of names of a type. -/
  | typePath
  /-- The marks behind a type. -/
  | typeMarks
  -- Expressions
  /-- An expression whose binary operators bind at least this tightly. -/
  | expression (floor : Nat)
  /-- The operators and operands behind an operand. -/
  | operations (floor : Nat)
  /-- What an operator in front applies to. -/
  | operand
  /-- What is glued to a primary expression. -/
  | suffixes
  /-- Arguments up to a closing mark, which is the last token. -/
  | arguments (closer : Punctuator)
  /-- The elements of an array behind its first one, and the closing bracket. -/
  | elements
  /-- The value of the key just read, the entries behind it, and the closing
  bracket. -/
  | entries
  -- Patterns
  | pattern (mode : PatternMode)
  /-- One or more patterns with commas between them. -/
  | patterns (mode : PatternMode)
  /-- The ends of the question marks behind a pattern. -/
  | patternMarks
  -- Statements
  /-- A block from its opening brace on. -/
  | block
  /-- The statements behind the current token. -/
  | statements (stop : BlockEnd)
  /-- A statement of a block with its separator. -/
  | item
  | statement
  /-- The `if` of an `else if`. -/
  | elseIf
  | conditions
  /-- The `catch` clauses behind a block. -/
  | handlers
  /-- The body of a `switch` from its opening brace on. -/
  | switchBody
  /-- The arms from the current token on, up to the closing brace. -/
  | arms
  /-- The patterns behind `case`. -/
  | caseItems
  -- Declarations
  /-- A declaration with its separator. -/
  | declaration (context : Context)
  | attributes
  | modifiers
  /-- The names behind the module of an import. -/
  | submodules
  /-- The bindings behind `let` or `var`. -/
  | bindings
  /-- The parameters behind the opening parenthesis, and the closing one. -/
  | parameters
  /-- The body of a type from its opening brace on. -/
  | typeBody (context : Context)
  /-- The members behind the current token. -/
  | members (context : Context)
  /-- The names behind the `case` of an enumeration. -/
  | caseNames
deriving DecidableEq, Repr

namespace Goal

/-- What comes of a goal. -/
@[reducible] def Result : Goal → Type
  | type => TypeExpr
  | types => List TypeExpr
  | typePath => List TypeSegment
  | typeMarks => List TypeMark
  | expression _ => Expression
  | operations _ => List Operation
  | operand => Expression
  | suffixes => List PlacedSuffix
  | arguments _ => List Argument
  | elements => List Expression
  | entries => Expression × List Entry
  | pattern _ => Pattern
  | patterns _ => List Pattern
  | patternMarks => List Location
  | block => Block
  | statements _ => List Statement
  | item => Kept Statement
  | statement => Statement
  | elseIf => Statement
  | conditions => List Condition
  | handlers => List Handler
  | switchBody => List Arm
  | arms => List Arm
  | caseItems => List CaseItem
  | declaration _ => Kept Declaration
  | attributes => List String
  | modifiers => List String
  | submodules => List String
  | bindings => List Binding
  | parameters => List Parameter
  | typeBody _ => List Declaration
  | members _ => List Declaration
  | caseNames => List String

/-- Whether a goal is one level of nesting. -/
def isLevel : Goal → Bool
  | type | expression _ | operand | pattern _ | block | elseIf | switchBody | typeBody _ => true
  | _ => false

end Goal

end FrontEnd
