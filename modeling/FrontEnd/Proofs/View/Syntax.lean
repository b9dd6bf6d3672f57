/-
Syntax trees through a view.

A view shows places and the texts of directives in a certain way, and everything else as it
is.  Two trees are the same but for their ranges if they look alike through the view that
shows all places as one, `View.placeless`.
-/
import Mathlib.Tactic.Common
import FrontEnd.Syntax.Declaration

namespace FrontEnd

/-- What is shown for a place, and for the text of a directive. -/
structure View where
  place : Location → Location
  text : String → String

/-- All places look the same. -/
def View.placeless : View :=
  ⟨fun _ => .origin, id⟩

/-- A range through a view. -/
def Range.view (v : View) (r : Range) : Range :=
  ⟨v.place r.start, v.place r.stop⟩

variable (v : View)

/-! ### Expressions -/

mutual

/-- An expression through a view. -/
def Expression.view (v : View) : Expression → Expression
  | .identifier r name => .identifier (r.view v) name
  | .nil r => .nil (r.view v)
  | .boolean r value => .boolean (r.view v) value
  | .integer r digits => .integer (r.view v) digits
  | .floating r digits => .floating (r.view v) digits
  | .string r content => .string (r.view v) content
  | .array r elements => .array (r.view v) (Expression.views v elements)
  | .dictionary r entries => .dictionary (r.view v) (Entry.views v entries)
  | .selfReference r => .selfReference (r.view v)
  | .implicitMember r name => .implicitMember (r.view v) name
  | .parenthesized r inner => .parenthesized (r.view v) (inner.view v)
  | .tuple r elements => .tuple (r.view v) (Argument.views v elements)
  | .unary r operator operand => .unary (r.view v) operator (operand.view v)
  | .binary r operator left right => .binary (r.view v) operator (left.view v) (right.view v)
  | .assignment r target value => .assignment (r.view v) (target.view v) (value.view v)
  | .call r callee arguments => .call (r.view v) (callee.view v) (Argument.views v arguments)
  | .member r base name => .member (r.view v) (base.view v) name
  | .subscript r base arguments =>
    .subscript (r.view v) (base.view v) (Argument.views v arguments)
  | .forced r base => .forced (r.view v) (base.view v)
  | .attempt r kind body => .attempt (r.view v) kind (body.view v)
  | .wildcard r => .wildcard (r.view v)

/-- Several expressions through a view. -/
def Expression.views (v : View) : List Expression → List Expression
  | [] => []
  | e :: later => e.view v :: Expression.views v later

/-- Arguments through a view. -/
def Argument.views (v : View) : List Argument → List Argument
  | [] => []
  | ⟨label, value⟩ :: later => ⟨label, value.view v⟩ :: Argument.views v later

/-- The entries of a dictionary through a view. -/
def Entry.views (v : View) : List Entry → List Entry
  | [] => []
  | ⟨key, value⟩ :: later => ⟨key.view v, value.view v⟩ :: Entry.views v later

end

@[simp] lemma Expression.range_view (e : Expression) : (e.view v).range = e.range.view v := by
  cases e <;> simp [Expression.view, Expression.range]

/-! ### Patterns -/

mutual

/-- A pattern through a view. -/
def Pattern.view (v : View) : Pattern → Pattern
  | .wildcard r => .wildcard (r.view v)
  | .identifier r name => .identifier (r.view v) name
  | .binding r isMutable inner => .binding (r.view v) isMutable (inner.view v)
  | .tuple r elements => .tuple (r.view v) (Pattern.views v elements)
  | .enumCase r type name none => .enumCase (r.view v) type name none
  | .enumCase r type name (some payload) =>
    .enumCase (r.view v) type name (some (payload.view v))
  | .optional r inner => .optional (r.view v) (inner.view v)
  | .annotated r inner type => .annotated (r.view v) (inner.view v) type
  | .expression r value => .expression (r.view v) (value.view v)

/-- Several patterns through a view. -/
def Pattern.views (v : View) : List Pattern → List Pattern
  | [] => []
  | p :: later => p.view v :: Pattern.views v later

end

/-! ### Parts without statements -/

/-- A binding through a view. -/
def Binding.view (b : Binding) : Binding :=
  ⟨b.pattern.view v, b.value.map (·.view v)⟩

/-- A parameter through a view. -/
def Parameter.view (p : Parameter) : Parameter :=
  { p with default := p.default.map (·.view v) }

/-- A signature through a view. -/
def Signature.view (s : Signature) : Signature :=
  { s with parameters := s.parameters.map (·.view v) }

/-- A condition through a view. -/
def Condition.view : Condition → Condition
  | .expression value => .expression (value.view v)
  | .matching pattern value => .matching (pattern.view v) (value.view v)
  | .binding isMutable pattern value => .binding isMutable (pattern.view v) (value.view v)

/-- One pattern of a `case` through a view. -/
def CaseItem.view (item : CaseItem) : CaseItem :=
  ⟨item.pattern.view v, item.guarding.map (·.view v)⟩

/-- A directive through a view. -/
def Directive.view : Directive → Directive
  | .ifTrue condition => .ifTrue (v.text condition)
  | .elseIfTrue condition => .elseIfTrue (v.text condition)
  | directive => directive

/-! ### Declarations and statements -/

mutual

/-- A declaration through a view. -/
def Declaration.view (v : View) : Declaration → Declaration
  | .importing r header kind module submodules =>
    .importing (r.view v) header kind module submodules
  | .bindings r header isMutable items =>
    .bindings (r.view v) header isMutable (items.map (·.view v))
  | .typeAlias r header name type => .typeAlias (r.view v) header name type
  | .function r header signature none => .function (r.view v) header (signature.view v) none
  | .function r header signature (some body) =>
    .function (r.view v) header (signature.view v) (some (body.view v))
  | .type r header family name inherits members =>
    .type (r.view v) header family name inherits (Declaration.views v members)
  | .cases r header names => .cases (r.view v) header names

/-- Several declarations through a view. -/
def Declaration.views (v : View) : List Declaration → List Declaration
  | [] => []
  | d :: later => d.view v :: Declaration.views v later

/-- A block through a view. -/
def Block.view (v : View) : Block → Block
  | ⟨r, statements⟩ => ⟨r.view v, Statement.views v statements⟩

/-- A statement through a view. -/
def Statement.view (v : View) : Statement → Statement
  | .jump r kind label => .jump (r.view v) kind label
  | .directive r directive => .directive (r.view v) (directive.view v)
  | .declaration d => .declaration (d.view v)
  | .deferred r body => .deferred (r.view v) (body.view v)
  | .doing r body handlers => .doing (r.view v) (body.view v) (Handler.views v handlers)
  | .expression value => .expression (value.view v)
  | .fallthrough r => .fallthrough (r.view v)
  | .forIn r isMatching pattern collection guarding body =>
    .forIn (r.view v) isMatching (pattern.view v) (collection.view v)
      (guarding.map (·.view v)) (body.view v)
  | .guarding r conditions body =>
    .guarding (r.view v) (conditions.map (·.view v)) (body.view v)
  | .choice r conditions body none =>
    .choice (r.view v) (conditions.map (·.view v)) (body.view v) none
  | .choice r conditions body (some alternative) =>
    .choice (r.view v) (conditions.map (·.view v)) (body.view v) (some (alternative.view v))
  | .labeled r label statement => .labeled (r.view v) label (statement.view v)
  | .repeating r body condition => .repeating (r.view v) (body.view v) (condition.view v)
  | .returning r value => .returning (r.view v) (value.map (·.view v))
  | .switch r subject arms => .switch (r.view v) (subject.view v) (Arm.views v arms)
  | .throwing r value => .throwing (r.view v) (value.view v)
  | .looping r conditions body =>
    .looping (r.view v) (conditions.map (·.view v)) (body.view v)

/-- Several statements through a view. -/
def Statement.views (v : View) : List Statement → List Statement
  | [] => []
  | s :: later => s.view v :: Statement.views v later

/-- What follows `else` through a view. -/
def Alternative.view (v : View) : Alternative → Alternative
  | .block body => .block (body.view v)
  | .choice statement => .choice (statement.view v)

/-- Handlers through a view. -/
def Handler.views (v : View) : List Handler → List Handler
  | [] => []
  | ⟨pattern, guarding, body⟩ :: later =>
    ⟨pattern.map (·.view v), guarding.map (·.view v), body.view v⟩ :: Handler.views v later

/-- Arms through a view. -/
def Arm.views (v : View) : List Arm → List Arm
  | [] => []
  | .case items statements :: later =>
    .case (items.map (·.view v)) (Statement.views v statements) :: Arm.views v later
  | .default statements :: later => .default (Statement.views v statements) :: Arm.views v later

end

end FrontEnd
