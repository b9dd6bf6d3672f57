/-
A visit is what a recorder writes down.

`Root.accept_recorder`: a recorder that goes below a node by what the node is writes down the nodes
that a visit lists.
-/
import Mathlib.Tactic.Common
import FrontEnd.Syntax.Visitor

namespace FrontEnd

namespace Visitor

/-- The recorder that goes below a node by what the node is. -/
def recorderBy (goesBelow : Node → Bool) : Visitor (List Node) :=
  recorder fun _ node => goesBelow node

variable {goesBelow : Node → Bool}

/-- What stands below a node is written down behind the node if the visit goes there. -/
lemma enter_recorderBy {node : Node} {walk : List Node → List Node} {below : List Node}
    (h : ∀ met, walk met = met ++ below) (met : List Node) :
    (recorderBy goesBelow).enter node walk met = met ++ node.visit goesBelow below := by
  by_cases hgoes : goesBelow node
  · simp [enter, recorderBy, recorder, Node.visit, hgoes, h]
  · simp [enter, recorderBy, recorder, Node.visit, hgoes]

end Visitor

open Visitor

variable (goesBelow : Node → Bool)

/-! ### Expressions -/

mutual

theorem Expression.walk_recorderBy : ∀ (e : Expression) (met : List Node),
    e.walk (recorderBy goesBelow) met = met ++ e.inside goesBelow
  | .identifier .., met | .nil .., met | .boolean .., met | .integer .., met | .floating .., met
  | .string .., met | .selfReference .., met | .implicitMember .., met | .wildcard .., met =>
    (List.append_nil met).symm
  | .array _ elements, met => Expression.walkAll_recorderBy elements met
  | .dictionary _ entries, met => Entry.walkAll_recorderBy entries met
  | .parenthesized _ inner, met | .forced _ inner, met | .unary _ _ inner, met
  | .attempt _ _ inner, met | .member _ inner _, met =>
    enter_recorderBy (Expression.walk_recorderBy inner) met
  | .tuple _ elements, met => Argument.walkAll_recorderBy elements met
  | .binary _ _ left right, met | .assignment _ left right, met => by
    rw [Expression.walk, Expression.inside, enter_recorderBy (Expression.walk_recorderBy left),
      enter_recorderBy (Expression.walk_recorderBy right), List.append_assoc]
  | .call _ base arguments, met | .subscript _ base arguments, met => by
    rw [Expression.walk, Expression.inside, enter_recorderBy (Expression.walk_recorderBy base),
      Argument.walkAll_recorderBy arguments, List.append_assoc]

theorem Expression.walkAll_recorderBy : ∀ (elements : List Expression) (met : List Node),
    Expression.walkAll (recorderBy goesBelow) elements met =
      met ++ Expression.visitAll goesBelow elements
  | [], met => (List.append_nil met).symm
  | e :: later, met => by
    rw [Expression.walkAll, Expression.visitAll, enter_recorderBy (Expression.walk_recorderBy e),
      Expression.walkAll_recorderBy later, List.append_assoc]

theorem Argument.walkAll_recorderBy : ∀ (arguments : List Argument) (met : List Node),
    Argument.walkAll (recorderBy goesBelow) arguments met =
      met ++ Argument.visitAll goesBelow arguments
  | [], met => (List.append_nil met).symm
  | ⟨_, e⟩ :: later, met => by
    rw [Argument.walkAll, Argument.visitAll, enter_recorderBy (Expression.walk_recorderBy e),
      Argument.walkAll_recorderBy later, List.append_assoc]

theorem Entry.walkAll_recorderBy : ∀ (entries : List Entry) (met : List Node),
    Entry.walkAll (recorderBy goesBelow) entries met = met ++ Entry.visitAll goesBelow entries
  | [], met => (List.append_nil met).symm
  | ⟨key, value⟩ :: later, met => by
    rw [Entry.walkAll, Entry.visitAll, enter_recorderBy (Expression.walk_recorderBy key),
      enter_recorderBy (Expression.walk_recorderBy value), Entry.walkAll_recorderBy later]
    simp only [List.append_assoc]

end

lemma Expression.accept_recorderBy (e : Expression) (met : List Node) :
    e.accept (recorderBy goesBelow) met = met ++ e.visit goesBelow :=
  enter_recorderBy (Expression.walk_recorderBy goesBelow e) met

lemma Expression.acceptOptional_recorderBy (e : Option Expression) (met : List Node) :
    Expression.acceptOptional (recorderBy goesBelow) e met =
      met ++ Expression.visitOptional goesBelow e := by
  cases e with
  | none => exact (List.append_nil met).symm
  | some e => exact Expression.accept_recorderBy goesBelow e met

/-! ### Patterns -/

mutual

theorem Pattern.walk_recorderBy : ∀ (p : Pattern) (met : List Node),
    p.walk (recorderBy goesBelow) met = met ++ p.inside goesBelow
  | .wildcard _, met | .identifier .., met | .enumCase _ _ _ none, met =>
    (List.append_nil met).symm
  | .binding _ _ inner, met | .optional _ inner, met | .annotated _ inner _, met
  | .enumCase _ _ _ (some inner), met => enter_recorderBy (Pattern.walk_recorderBy inner) met
  | .tuple _ elements, met => Pattern.walkAll_recorderBy elements met
  | .expression _ value, met => Expression.accept_recorderBy goesBelow value met

theorem Pattern.walkAll_recorderBy : ∀ (elements : List Pattern) (met : List Node),
    Pattern.walkAll (recorderBy goesBelow) elements met = met ++ Pattern.visitAll goesBelow elements
  | [], met => (List.append_nil met).symm
  | p :: later, met => by
    rw [Pattern.walkAll, Pattern.visitAll, enter_recorderBy (Pattern.walk_recorderBy p),
      Pattern.walkAll_recorderBy later, List.append_assoc]

end

lemma Pattern.accept_recorderBy (p : Pattern) (met : List Node) :
    p.accept (recorderBy goesBelow) met = met ++ p.visit goesBelow :=
  enter_recorderBy (Pattern.walk_recorderBy goesBelow p) met

/-! ### Declarations and statements -/

/-- Parts in a row are written down in a row. -/
lemma foldl_recorder {α : Type} {walk : List Node → α → List Node} {visit : α → List Node}
    (h : ∀ met a, walk met a = met ++ visit a) (parts : List α) (met : List Node) :
    parts.foldl walk met = met ++ parts.flatMap visit := by
  induction parts generalizing met with
  | nil => exact (List.append_nil met).symm
  | cons part later ih => rw [List.foldl_cons, h, ih, List.flatMap_cons, List.append_assoc]

lemma Binding.walkAll_recorderBy (items : List Binding) (met : List Node) :
    Binding.walkAll (recorderBy goesBelow) items met =
      met ++ items.flatMap (Binding.visit goesBelow) :=
  foldl_recorder (fun met b => by
    rw [Pattern.accept_recorderBy, Expression.acceptOptional_recorderBy, List.append_assoc,
      Binding.visit]) items met

lemma Condition.walkAll_recorderBy (conditions : List Condition) (met : List Node) :
    Condition.walkAll (recorderBy goesBelow) conditions met =
      met ++ conditions.flatMap (Condition.visit goesBelow) := by
  refine foldl_recorder (fun met c => ?_) conditions met
  cases c with
  | expression value => exact Expression.accept_recorderBy goesBelow value met
  | matching pattern value | binding _ pattern value =>
    rw [Condition.walk, Pattern.accept_recorderBy, Expression.accept_recorderBy, List.append_assoc,
      Condition.visit]

lemma CaseItem.walkAll_recorderBy (items : List CaseItem) (met : List Node) :
    CaseItem.walkAll (recorderBy goesBelow) items met =
      met ++ items.flatMap (CaseItem.visit goesBelow) :=
  foldl_recorder (fun met i => by
    rw [Pattern.accept_recorderBy, Expression.acceptOptional_recorderBy, List.append_assoc,
      CaseItem.visit]) items met

lemma Signature.walk_recorderBy (f : Signature) (met : List Node) :
    f.walk (recorderBy goesBelow) met = met ++ f.visit goesBelow :=
  foldl_recorder (fun met p => Expression.acceptOptional_recorderBy goesBelow p.default met)
    f.parameters met

mutual

theorem Declaration.walk_recorderBy : ∀ (d : Declaration) (met : List Node),
    d.walk (recorderBy goesBelow) met = met ++ d.inside goesBelow
  | .importing .., met | .typeAlias .., met | .cases .., met => (List.append_nil met).symm
  | .bindings _ _ _ items, met => Binding.walkAll_recorderBy goesBelow items met
  | .function _ _ signature none, met => Signature.walk_recorderBy goesBelow signature met
  | .function _ _ signature (some body), met => by
    rw [Declaration.walk, Declaration.inside, Signature.walk_recorderBy, Block.walk_recorderBy body,
      List.append_assoc]
  | .type _ _ _ _ _ members, met => Declaration.walkAll_recorderBy members met

theorem Declaration.walkAll_recorderBy : ∀ (declarations : List Declaration) (met : List Node),
    Declaration.walkAll (recorderBy goesBelow) declarations met =
      met ++ Declaration.visitAll goesBelow declarations
  | [], met => (List.append_nil met).symm
  | d :: later, met => by
    rw [Declaration.walkAll, Declaration.visitAll, enter_recorderBy (Declaration.walk_recorderBy d),
      Declaration.walkAll_recorderBy later, List.append_assoc]

theorem Block.walk_recorderBy : ∀ (b : Block) (met : List Node),
    b.walk (recorderBy goesBelow) met = met ++ b.visit goesBelow
  | ⟨_, statements⟩, met => Statement.walkAll_recorderBy statements met

theorem Statement.walkAll_recorderBy : ∀ (statements : List Statement) (met : List Node),
    Statement.walkAll (recorderBy goesBelow) statements met =
      met ++ Statement.visitAll goesBelow statements
  | [], met => (List.append_nil met).symm
  | statement :: later, met => by
    rw [Statement.walkAll, Statement.visitAll, enter_recorderBy (Statement.walk_recorderBy statement),
      Statement.walkAll_recorderBy later, List.append_assoc]

theorem Statement.walk_recorderBy : ∀ (statement : Statement) (met : List Node),
    statement.walk (recorderBy goesBelow) met = met ++ statement.inside goesBelow
  | .jump .., met | .directive .., met | .fallthrough .., met | .returning _ none, met =>
    (List.append_nil met).symm
  | .declaration d, met => enter_recorderBy (Declaration.walk_recorderBy d) met
  | .deferred _ body, met => Block.walk_recorderBy body met
  | .doing _ body handlers, met => by
    rw [Statement.walk, Statement.inside, Block.walk_recorderBy body,
      Handler.walkAll_recorderBy handlers, List.append_assoc]
  | .expression value, met | .throwing _ value, met | .returning _ (some value), met =>
    Expression.accept_recorderBy goesBelow value met
  | .forIn _ _ pattern collection guard body, met => by
    rw [Statement.walk, Statement.inside, Pattern.accept_recorderBy, Expression.accept_recorderBy,
      Expression.acceptOptional_recorderBy, Block.walk_recorderBy body]
    simp only [List.append_assoc]
  | .guarding _ conditions body, met | .looping _ conditions body, met
  | .choice _ conditions body none, met => by
    rw [Statement.walk, Statement.inside, Condition.walkAll_recorderBy, Block.walk_recorderBy body,
      List.append_assoc]
  | .choice _ conditions body (some alternative), met => by
    rw [Statement.walk, Statement.inside, Condition.walkAll_recorderBy, Block.walk_recorderBy body,
      Alternative.walk_recorderBy alternative]
    simp only [List.append_assoc]
  | .labeled _ _ statement, met => enter_recorderBy (Statement.walk_recorderBy statement) met
  | .repeating _ body condition, met => by
    rw [Statement.walk, Statement.inside, Block.walk_recorderBy body, Expression.accept_recorderBy,
      List.append_assoc]
  | .switch _ subject arms, met => by
    rw [Statement.walk, Statement.inside, Expression.accept_recorderBy, Arm.walkAll_recorderBy arms,
      List.append_assoc]

theorem Alternative.walk_recorderBy : ∀ (a : Alternative) (met : List Node),
    a.walk (recorderBy goesBelow) met = met ++ a.visit goesBelow
  | .block body, met => Block.walk_recorderBy body met
  | .choice statement, met => enter_recorderBy (Statement.walk_recorderBy statement) met

theorem Handler.walkAll_recorderBy : ∀ (handlers : List Handler) (met : List Node),
    Handler.walkAll (recorderBy goesBelow) handlers met =
      met ++ Handler.visitAll goesBelow handlers
  | [], met => (List.append_nil met).symm
  | ⟨none, guard, body⟩ :: later, met => by
    rw [Handler.walkAll, Handler.visitAll, Expression.acceptOptional_recorderBy,
      Block.walk_recorderBy body, Handler.walkAll_recorderBy later]
    simp only [List.append_assoc]
  | ⟨some pattern, guard, body⟩ :: later, met => by
    rw [Handler.walkAll, Handler.visitAll, Pattern.accept_recorderBy,
      Expression.acceptOptional_recorderBy, Block.walk_recorderBy body,
      Handler.walkAll_recorderBy later]
    simp only [List.append_assoc]

theorem Arm.walkAll_recorderBy : ∀ (arms : List Arm) (met : List Node),
    Arm.walkAll (recorderBy goesBelow) arms met = met ++ Arm.visitAll goesBelow arms
  | [], met => (List.append_nil met).symm
  | .case items statements :: later, met => by
    rw [Arm.walkAll, Arm.visitAll, CaseItem.walkAll_recorderBy,
      Statement.walkAll_recorderBy statements, Arm.walkAll_recorderBy later]
    simp only [List.append_assoc]
  | .default statements :: later, met => by
    rw [Arm.walkAll, Arm.visitAll, Statement.walkAll_recorderBy statements,
      Arm.walkAll_recorderBy later, List.append_assoc]

end

/-- A visit of a text lists what a recorder writes down. -/
theorem Root.accept_recorderBy (root : Root) :
    root.accept (recorderBy goesBelow) [] = root.visit goesBelow := by
  rw [Root.accept, Declaration.walkAll_recorderBy, List.nil_append, Root.visit]
  induction root.declarations with
  | nil => rfl
  | cons d later ih => rw [Declaration.visitAll, ih, List.flatMap_cons, Declaration.visit]

end FrontEnd
