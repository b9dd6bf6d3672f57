/-
Visitors.

A visitor meets the nodes of a tree one after the other.  What it makes of a node may hang on all
that it met before, and so may its decision whether the visit goes below the node.  A recorder is a
visitor that writes down what it meets.
-/
import FrontEnd.Syntax.Visit

namespace FrontEnd

/-- A visitor with a state. -/
structure Visitor (σ : Type) where
  /-- The state after a node is met, and whether the visit goes below the node. -/
  meet : σ → Node → σ × Bool

namespace Visitor

variable {σ : Type} (v : Visitor σ)

/-- The state after a node and, if the visit goes there, what is below it. -/
def enter (node : Node) (below : σ → σ) (s : σ) : σ :=
  let (s, goesBelow) := v.meet s node
  if goesBelow then below s else s

/-- The visitor that writes down the nodes it meets and decides on what it has written. -/
def recorder (goesBelow : List Node → Node → Bool) : Visitor (List Node) where
  meet met node := (met ++ [node], goesBelow met node)

end Visitor

section

variable {σ : Type} (v : Visitor σ)

/-! ### Expressions -/

mutual

/-- The state behind what is below an expression. -/
def Expression.walk : Expression → σ → σ
  | .identifier .., s | .nil .., s | .boolean .., s | .integer .., s | .floating .., s
  | .string .., s | .selfReference .., s | .implicitMember .., s | .wildcard .., s => s
  | .array _ elements, s => Expression.walkAll elements s
  | .dictionary _ entries, s => Entry.walkAll entries s
  | .parenthesized _ inner, s | .forced _ inner, s | .unary _ _ inner, s | .attempt _ _ inner, s
  | .member _ inner _, s => v.enter (.expression inner) inner.walk s
  | .tuple _ elements, s => Argument.walkAll elements s
  | .binary _ _ left right, s | .assignment _ left right, s =>
    v.enter (.expression right) right.walk (v.enter (.expression left) left.walk s)
  | .call _ base arguments, s | .subscript _ base arguments, s =>
    Argument.walkAll arguments (v.enter (.expression base) base.walk s)

/-- The state behind several expressions. -/
def Expression.walkAll : List Expression → σ → σ
  | [], s => s
  | e :: rest, s => Expression.walkAll rest (v.enter (.expression e) e.walk s)

/-- The state behind arguments. -/
def Argument.walkAll : List Argument → σ → σ
  | [], s => s
  | ⟨_, e⟩ :: rest, s => Argument.walkAll rest (v.enter (.expression e) e.walk s)

/-- The state behind the entries of a dictionary. -/
def Entry.walkAll : List Entry → σ → σ
  | [], s => s
  | ⟨key, value⟩ :: rest, s =>
    Entry.walkAll rest
      (v.enter (.expression value) value.walk (v.enter (.expression key) key.walk s))

end

/-- The state behind an expression. -/
def Expression.accept (e : Expression) : σ → σ :=
  v.enter (.expression e) (e.walk v)

/-- The state behind an expression that may be missing. -/
def Expression.acceptOptional : Option Expression → σ → σ
  | none, s => s
  | some e, s => e.accept v s

/-! ### Patterns -/

mutual

/-- The state behind what is below a pattern. -/
def Pattern.walk : Pattern → σ → σ
  | .wildcard _, s | .identifier .., s | .enumCase _ _ _ none, s => s
  | .binding _ _ inner, s | .optional _ inner, s | .annotated _ inner _, s
  | .enumCase _ _ _ (some inner), s => v.enter (.pattern inner) inner.walk s
  | .tuple _ elements, s => Pattern.walkAll elements s
  | .expression _ value, s => value.accept v s

/-- The state behind several patterns. -/
def Pattern.walkAll : List Pattern → σ → σ
  | [], s => s
  | p :: rest, s => Pattern.walkAll rest (v.enter (.pattern p) p.walk s)

end

/-- The state behind a pattern. -/
def Pattern.accept (p : Pattern) : σ → σ :=
  v.enter (.pattern p) (p.walk v)

/-! ### Declarations and statements -/

/-- The state behind bindings. -/
def Binding.walkAll (items : List Binding) (s : σ) : σ :=
  items.foldl (fun s b => Expression.acceptOptional v b.value (b.pattern.accept v s)) s

/-- The state behind a condition. -/
def Condition.walk : Condition → σ → σ
  | .expression value, s => value.accept v s
  | .matching pattern value, s | .binding _ pattern value, s =>
    value.accept v (pattern.accept v s)

/-- The state behind conditions. -/
def Condition.walkAll (conditions : List Condition) (s : σ) : σ :=
  conditions.foldl (fun s c => c.walk v s) s

/-- The state behind the patterns of a `case`. -/
def CaseItem.walkAll (items : List CaseItem) (s : σ) : σ :=
  items.foldl (fun s i => Expression.acceptOptional v i.guarding (i.pattern.accept v s)) s

/-- The state behind the default values of parameters. -/
def Signature.walk (f : Signature) (s : σ) : σ :=
  f.parameters.foldl (fun s p => Expression.acceptOptional v p.default s) s

mutual

/-- The state behind what is below a declaration. -/
def Declaration.walk : Declaration → σ → σ
  | .importing .., s | .typeAlias .., s | .cases .., s => s
  | .bindings _ _ _ items, s => Binding.walkAll v items s
  | .function _ _ signature none, s => signature.walk v s
  | .function _ _ signature (some body), s => body.walk (signature.walk v s)
  | .type _ _ _ _ _ members, s => Declaration.walkAll members s

/-- The state behind several declarations. -/
def Declaration.walkAll : List Declaration → σ → σ
  | [], s => s
  | d :: rest, s => Declaration.walkAll rest (v.enter (.declaration d) d.walk s)

/-- The state behind the statements of a block. -/
def Block.walk : Block → σ → σ
  | ⟨_, statements⟩, s => Statement.walkAll statements s

/-- The state behind several statements. -/
def Statement.walkAll : List Statement → σ → σ
  | [], s => s
  | statement :: rest, s =>
    Statement.walkAll rest (v.enter (.statement statement) statement.walk s)

/-- The state behind what is below a statement. -/
def Statement.walk : Statement → σ → σ
  | .jump .., s | .directive .., s | .fallthrough .., s | .returning _ none, s => s
  | .declaration d, s => v.enter (.declaration d) d.walk s
  | .deferred _ body, s => body.walk s
  | .doing _ body handlers, s => Handler.walkAll handlers (body.walk s)
  | .expression value, s | .throwing _ value, s | .returning _ (some value), s =>
    value.accept v s
  | .forIn _ _ pattern collection guarding body, s =>
    body.walk (Expression.acceptOptional v guarding (collection.accept v (pattern.accept v s)))
  | .guarding _ conditions body, s | .looping _ conditions body, s
  | .choice _ conditions body none, s => body.walk (Condition.walkAll v conditions s)
  | .choice _ conditions body (some alternative), s =>
    alternative.walk (body.walk (Condition.walkAll v conditions s))
  | .labeled _ _ statement, s => v.enter (.statement statement) statement.walk s
  | .repeating _ body condition, s => condition.accept v (body.walk s)
  | .switch _ subject arms, s => Arm.walkAll arms (subject.accept v s)

/-- The state behind what follows `else`. -/
def Alternative.walk : Alternative → σ → σ
  | .block body, s => body.walk s
  | .choice statement, s => v.enter (.statement statement) statement.walk s

/-- The state behind handlers. -/
def Handler.walkAll : List Handler → σ → σ
  | [], s => s
  | ⟨none, guarding, body⟩ :: rest, s =>
    Handler.walkAll rest (body.walk (Expression.acceptOptional v guarding s))
  | ⟨some pattern, guarding, body⟩ :: rest, s =>
    Handler.walkAll rest (body.walk (Expression.acceptOptional v guarding (pattern.accept v s)))

/-- The state behind the arms of a `switch`. -/
def Arm.walkAll : List Arm → σ → σ
  | [], s => s
  | .case items statements :: rest, s =>
    Arm.walkAll rest (Statement.walkAll statements (CaseItem.walkAll v items s))
  | .default statements :: rest, s => Arm.walkAll rest (Statement.walkAll statements s)

end

/-- The state behind a text. -/
def Root.accept (root : Root) (s : σ) : σ :=
  Declaration.walkAll v root.declarations s

end

end FrontEnd
