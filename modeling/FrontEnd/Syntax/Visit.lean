/-
Visiting a tree.

A visit lists the declarations, statements, expressions and patterns of a tree
in the order of the text, each before the nodes below it.  The caller decides at
each node whether the visit goes below it.
-/
import FrontEnd.Outline.Declaration

namespace FrontEnd

/-- A node of a tree. -/
inductive Node where
  | declaration (d : Declaration)
  | statement (s : Statement)
  | expression (e : Expression)
  | pattern (p : Pattern)

/-- The categories of nodes. -/
inductive NodeCategory where
  | declaration
  | statement
  | expression
  | pattern
deriving DecidableEq, Repr, Inhabited

/-- The word for a category. -/
def NodeCategory.name : NodeCategory → String
  | declaration => "declaration"
  | statement => "statement"
  | expression => "expression"
  | pattern => "pattern"

/-- What can be told of a node in one or several texts. -/
inductive NodeDetail where
  | nothing
  | one (text : String)
  | several (texts : List String)
deriving DecidableEq, Repr, Inhabited

namespace Node

/-- The category of a node. -/
def category : Node → NodeCategory
  | declaration _ => .declaration
  | statement _ => .statement
  | expression _ => .expression
  | pattern _ => .pattern

/-- The name of the shape of a node. -/
def tag : Node → String
  | declaration d => d.tag
  | statement s => s.tag
  | expression e => e.tag
  | pattern p => p.tag

/-- The range that a node was read from. -/
def range : Node → Range
  | declaration d => d.range
  | statement s => s.range
  | expression e => e.range
  | pattern p => p.range

/-- The bindings or parameters of a declaration, the conditions of a statement,
the text of an expression, or the outline of a pattern. -/
def detail : Node → NodeDetail
  | declaration (.bindings _ _ _ items) => .several (items.map Binding.text)
  | declaration (.function _ _ signature _) => .several (signature.parameters.map Parameter.text)
  | declaration _ => .nothing
  | statement (.choice _ conditions ..) | statement (.guarding _ conditions ..)
  | statement (.looping _ conditions ..) => .several (conditions.map Condition.text)
  | statement _ => .nothing
  | expression e => .one e.text
  | pattern p => .one (Text.unlines p.outline)

/-- A node, and what is below it if the visit goes on there. -/
def visit (goesBelow : Node → Bool) (node : Node) (below : List Node) : List Node :=
  node :: if goesBelow node then below else []

end Node

section

variable (goesBelow : Node → Bool)

/-! ### Expressions -/

mutual

/-- The nodes below an expression. -/
def Expression.inside : Expression → List Node
  | .identifier .. | .nil .. | .boolean .. | .integer .. | .floating .. | .string ..
  | .selfReference .. | .implicitMember .. | .wildcard .. => []
  | .array _ elements => Expression.visitAll elements
  | .dictionary _ entries => Entry.visitAll entries
  | .parenthesized _ inner | .forced _ inner | .unary _ _ inner | .attempt _ _ inner
  | .member _ inner _ => (Node.expression inner).visit goesBelow inner.inside
  | .tuple _ elements => Argument.visitAll elements
  | .binary _ _ left right | .assignment _ left right =>
    (Node.expression left).visit goesBelow left.inside ++
      (Node.expression right).visit goesBelow right.inside
  | .call _ base arguments | .subscript _ base arguments =>
    (Node.expression base).visit goesBelow base.inside ++ Argument.visitAll arguments

/-- The nodes of several expressions. -/
def Expression.visitAll : List Expression → List Node
  | [] => []
  | e :: rest => (Node.expression e).visit goesBelow e.inside ++ Expression.visitAll rest

/-- The nodes of arguments. -/
def Argument.visitAll : List Argument → List Node
  | [] => []
  | ⟨_, e⟩ :: rest => (Node.expression e).visit goesBelow e.inside ++ Argument.visitAll rest

/-- The nodes of the entries of a dictionary. -/
def Entry.visitAll : List Entry → List Node
  | [] => []
  | ⟨key, value⟩ :: rest =>
    (Node.expression key).visit goesBelow key.inside ++
      (Node.expression value).visit goesBelow value.inside ++ Entry.visitAll rest

end

/-- The nodes of an expression. -/
def Expression.visit (e : Expression) : List Node :=
  (Node.expression e).visit goesBelow (e.inside goesBelow)

/-- The nodes of an expression that may be missing. -/
def Expression.visitOptional : Option Expression → List Node
  | none => []
  | some e => e.visit goesBelow

/-! ### Patterns -/

mutual

/-- The nodes below a pattern. -/
def Pattern.inside : Pattern → List Node
  | .wildcard _ | .identifier .. | .enumCase _ _ _ none => []
  | .binding _ _ inner | .optional _ inner | .annotated _ inner _
  | .enumCase _ _ _ (some inner) => (Node.pattern inner).visit goesBelow inner.inside
  | .tuple _ elements => Pattern.visitAll elements
  | .expression _ value => value.visit goesBelow

/-- The nodes of several patterns. -/
def Pattern.visitAll : List Pattern → List Node
  | [] => []
  | p :: rest => (Node.pattern p).visit goesBelow p.inside ++ Pattern.visitAll rest

end

/-- The nodes of a pattern. -/
def Pattern.visit (p : Pattern) : List Node :=
  (Node.pattern p).visit goesBelow (p.inside goesBelow)

/-! ### Declarations and statements -/

/-- The nodes of a binding. -/
def Binding.visit (b : Binding) : List Node :=
  b.pattern.visit goesBelow ++ Expression.visitOptional goesBelow b.value

/-- The nodes of a condition. -/
def Condition.visit : Condition → List Node
  | .expression value => value.visit goesBelow
  | .matching pattern value | .binding _ pattern value =>
    pattern.visit goesBelow ++ value.visit goesBelow

/-- The nodes of one pattern of a `case`. -/
def CaseItem.visit (item : CaseItem) : List Node :=
  item.pattern.visit goesBelow ++ Expression.visitOptional goesBelow item.guarding

/-- The nodes of the default values of parameters. -/
def Signature.visit (s : Signature) : List Node :=
  s.parameters.flatMap fun p => Expression.visitOptional goesBelow p.default

mutual

/-- The nodes below a declaration. -/
def Declaration.inside : Declaration → List Node
  | .importing .. | .typeAlias .. | .cases .. => []
  | .bindings _ _ _ items => items.flatMap (Binding.visit goesBelow)
  | .function _ _ signature none => signature.visit goesBelow
  | .function _ _ signature (some body) => signature.visit goesBelow ++ body.visit
  | .type _ _ _ _ _ members => Declaration.visitAll members

/-- The nodes of several declarations. -/
def Declaration.visitAll : List Declaration → List Node
  | [] => []
  | d :: rest => (Node.declaration d).visit goesBelow d.inside ++ Declaration.visitAll rest

/-- The nodes of the statements of a block. -/
def Block.visit : Block → List Node
  | ⟨_, statements⟩ => Statement.visitAll statements

/-- The nodes of several statements. -/
def Statement.visitAll : List Statement → List Node
  | [] => []
  | s :: rest => (Node.statement s).visit goesBelow s.inside ++ Statement.visitAll rest

/-- The nodes below a statement. -/
def Statement.inside : Statement → List Node
  | .jump .. | .directive .. | .fallthrough .. | .returning _ none => []
  | .declaration d => (Node.declaration d).visit goesBelow d.inside
  | .deferred _ body => body.visit
  | .doing _ body handlers => body.visit ++ Handler.visitAll handlers
  | .expression value | .throwing _ value | .returning _ (some value) => value.visit goesBelow
  | .forIn _ _ pattern collection guarding body =>
    pattern.visit goesBelow ++ collection.visit goesBelow ++
      Expression.visitOptional goesBelow guarding ++ body.visit
  | .guarding _ conditions body | .looping _ conditions body | .choice _ conditions body none =>
    conditions.flatMap (Condition.visit goesBelow) ++ body.visit
  | .choice _ conditions body (some alternative) =>
    conditions.flatMap (Condition.visit goesBelow) ++ body.visit ++ alternative.visit
  | .labeled _ _ statement => (Node.statement statement).visit goesBelow statement.inside
  | .repeating _ body condition => body.visit ++ condition.visit goesBelow
  | .switch _ subject arms => subject.visit goesBelow ++ Arm.visitAll arms

/-- The nodes of what follows `else`. -/
def Alternative.visit : Alternative → List Node
  | .block body => body.visit
  | .choice statement => (Node.statement statement).visit goesBelow statement.inside

/-- The nodes of handlers. -/
def Handler.visitAll : List Handler → List Node
  | [] => []
  | ⟨none, guarding, body⟩ :: rest =>
    Expression.visitOptional goesBelow guarding ++ body.visit ++ Handler.visitAll rest
  | ⟨some pattern, guarding, body⟩ :: rest =>
    pattern.visit goesBelow ++ Expression.visitOptional goesBelow guarding ++ body.visit ++
      Handler.visitAll rest

/-- The nodes of the arms of a `switch`. -/
def Arm.visitAll : List Arm → List Node
  | [] => []
  | .case items statements :: rest =>
    items.flatMap (CaseItem.visit goesBelow) ++ Statement.visitAll statements ++
      Arm.visitAll rest
  | .default statements :: rest => Statement.visitAll statements ++ Arm.visitAll rest

end

/-- The nodes of a declaration. -/
def Declaration.visit (d : Declaration) : List Node :=
  (Node.declaration d).visit goesBelow (d.inside goesBelow)

/-- The nodes of a statement. -/
def Statement.visit (s : Statement) : List Node :=
  (Node.statement s).visit goesBelow (s.inside goesBelow)

/-- The nodes of a text. -/
def Root.visit (root : Root) : List Node :=
  root.declarations.flatMap (Declaration.visit goesBelow)

end

end FrontEnd
