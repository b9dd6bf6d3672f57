/-
How operators group.

Where an operand of an operator is an operation itself, it binds more tightly, or equally
tightly on the side to which the level associates.  `Expression.Grouped` says so of the
operator at the top of an expression.  Operators of one level all associate to the same side,
so of two neighbours one may always take the other as an operand, and only one
(`Precedence.leftFloor_le_iff`).
-/
import Mathlib.Tactic.Common
import FrontEnd.Grammar.Expression
import FrontEnd.Proofs.Nodes.Reading

namespace FrontEnd

/-! ### Neighbouring operators -/

namespace Precedence

/-- An operation may be the left operand of an operator. -/
def AdmitsLeft (p q : Precedence) : Prop :=
  p.level < q.level ∨ q.level = p.level ∧ p.toTheRight = false

/-- An operation may be the right operand of an operator. -/
def AdmitsRight (p q : Precedence) : Prop :=
  p.level < q.level ∨ q.level = p.level ∧ p.toTheRight = true

instance (p q : Precedence) : Decidable (p.AdmitsLeft q) :=
  inferInstanceAs (Decidable (_ ∨ _))

instance (p q : Precedence) : Decidable (p.AdmitsRight q) :=
  inferInstanceAs (Decidable (_ ∨ _))

lemma ofOperator_mem (operator : String) :
    ofOperator operator ∈ ⟨100, false⟩ :: table.map (·.1) := by
  unfold ofOperator
  split
  next p operators hfind =>
    exact List.mem_cons_of_mem _ (List.mem_map.mpr ⟨_, List.mem_of_find?_eq_some hfind, rfl⟩)
  next => exact List.mem_cons_self

/-- Operators of one level associate to one side. -/
lemma toTheRight_eq_of_level_eq {operator other : String}
    (h : (ofOperator operator).level = (ofOperator other).level) :
    (ofOperator operator).toTheRight = (ofOperator other).toTheRight := by
  have huniform : ∀ p ∈ ⟨100, false⟩ :: table.map (·.1), ∀ q ∈ ⟨100, false⟩ :: table.map (·.1),
      p.level = q.level → p.toTheRight = q.toTheRight := by decide
  exact huniform _ (ofOperator_mem operator) _ (ofOperator_mem other) h

/-- The least level of an operation in the left operand. -/
def leftFloor (p : Precedence) : Nat :=
  if p.toTheRight then p.level + 1 else p.level

lemma level_le_leftFloor (p : Precedence) : p.level ≤ p.leftFloor := by
  unfold leftFloor
  split <;> omega

lemma level_le_rightFloor (p : Precedence) : p.level ≤ p.rightFloor := by
  unfold rightFloor
  split <;> omega

lemma admitsRight_iff {p q : Precedence} : p.AdmitsRight q ↔ p.rightFloor ≤ q.level := by
  unfold AdmitsRight rightFloor
  cases p.toTheRight with
  | false =>
    simp only [Bool.false_eq_true, and_false, or_false, if_false]
    exact Nat.lt_iff_add_one_le
  | true =>
    simp only [and_true, if_true]
    omega

lemma admitsLeft_iff {p q : Precedence} : p.AdmitsLeft q ↔ p.leftFloor ≤ q.level := by
  unfold AdmitsLeft leftFloor
  cases p.toTheRight with
  | false =>
    simp only [Bool.false_eq_true, and_true, if_false]
    omega
  | true =>
    simp only [Bool.true_eq_false, and_false, or_false, if_true]
    exact Nat.lt_iff_add_one_le

/-- Of two operators one takes the other: the second one as its left operand, or the first one
as its right operand, and not both. -/
lemma leftFloor_le_iff {operator next : String} :
    (ofOperator next).leftFloor ≤ (ofOperator operator).level ↔
      (ofOperator next).level < (ofOperator operator).rightFloor := by
  unfold leftFloor rightFloor
  rcases Nat.lt_trichotomy (ofOperator next).level (ofOperator operator).level with h | h | h
  · constructor <;> intro <;> split <;> omega
  · rw [toTheRight_eq_of_level_eq h, h]
    split <;> omega
  · constructor <;> intro hle <;> split at hle <;> omega

end Precedence

/-! ### Operations in an expression -/

namespace Expression

/-- The operator at the top of an expression, with its operands. -/
def infix? : Expression → Option (Expression × String × Expression)
  | binary _ operator left right => some (left, operator, right)
  | assignment _ target value => some (target, "=", value)
  | _ => none

/-- The operator at the top of an expression. -/
def operator? (e : Expression) : Option String :=
  e.infix?.map (·.2.1)

/-- The operator at the top of an expression admits those at the tops of its operands. -/
def Grouped (e : Expression) : Prop :=
  ∀ left operator right, e.infix? = some (left, operator, right) →
    (∀ other, left.operator? = some other →
      (Precedence.ofOperator operator).AdmitsLeft (.ofOperator other)) ∧
    ∀ other, right.operator? = some other →
      (Precedence.ofOperator operator).AdmitsRight (.ofOperator other)

lemma grouped_of_infix?_eq_none {e : Expression} (h : e.infix? = none) : e.Grouped := by
  intro left operator right he
  rw [h] at he
  cases he

/-- All operators in an expression are grouped. -/
abbrev WellGrouped (e : Expression) : Prop :=
  Node.Hold Grouped (e.visit fun _ => true)

lemma wellGrouped_iff (e : Expression) :
    e.WellGrouped ↔ e.Grouped ∧ Node.Hold Grouped (e.inside fun _ => true) :=
  hold_expression _ _

/-- An expression without an operator of its own is grouped if what is inside is. -/
lemma wellGrouped_of_infix?_eq_none {e : Expression} (h : e.infix? = none)
    (hinside : Node.Hold Grouped (e.inside fun _ => true)) : e.WellGrouped :=
  e.wellGrouped_iff.mpr ⟨grouped_of_infix?_eq_none h, hinside⟩

end Expression

lemma Operation.infix?_apply (start : Location) (left : Expression) (op : Operation) :
    (op.apply start left).infix? = some (left, op.operator, op.operand) := by
  unfold apply
  split
  case isTrue heq => rw [Expression.infix?, heq]
  case isFalse => rfl

lemma Operation.inside_apply (start : Location) (left : Expression) (op : Operation) :
    (op.apply start left).inside (fun _ => true) =
      left.visit (fun _ => true) ++ op.operand.visit fun _ => true := by
  unfold apply
  split <;> rfl

end FrontEnd
