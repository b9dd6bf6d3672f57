/-
Chains of operators.

A chain is what an expression of names and operators shows from left to right, without its
grouping.  The table of operators leaves one way to group a chain: of the operators that bind
least tightly it is the first or the last one, as their level associates, that stands at the
top.  The main result is `Expression.view_eq_of_chain?_eq`.
-/
import FrontEnd.Proofs.Grouping.Basic
import FrontEnd.Proofs.View.Syntax

namespace FrontEnd

/-- A name, and operators with a name behind each. -/
structure Chain where
  first : String
  links : List (String × String)
deriving DecidableEq, Repr

/-- Two chains with an operator between them. -/
def Chain.join (c : Chain) (operator : String) (d : Chain) : Chain :=
  ⟨c.first, c.links ++ (operator, d.first) :: d.links⟩

namespace Expression

/-- The names and operators of an expression from left to right, if it has no other parts; an
equals sign between two operands is an assignment. -/
def chain? : Expression → Option Chain
  | identifier _ name => some ⟨name, []⟩
  | binary _ operator left right =>
    if operator = "=" then none
    else do
      let c ← left.chain?
      let d ← right.chain?
      return c.join operator d
  | assignment _ target value => do
    let c ← target.chain?
    let d ← value.chain?
    return c.join "=" d
  | _ => none

/-- An expression that is a chain is a name or an operation on chains. -/
lemma chain?_cases {e : Expression} {c : Chain} (h : e.chain? = some c) :
    (∃ range name, e = .identifier range name ∧ c = ⟨name, []⟩) ∨
      ∃ start left op d d', e = Operation.apply start left op ∧
        left.chain? = some d ∧ op.operand.chain? = some d' ∧ c = d.join op.operator d' := by
  cases e <;> simp only [chain?, Option.bind_eq_bind, Option.bind_eq_some_iff, Option.pure_def,
    Option.some.injEq, reduceCtorEq, Option.ite_none_left_eq_some] at h
  case identifier range name => exact .inl ⟨range, name, rfl, h.symm⟩
  case binary range operator left right =>
    obtain ⟨hne, d, hleft, d', hright, rfl⟩ := h
    refine .inr ⟨range.start, left, ⟨operator, right, range.stop⟩, d, d', ?_, hleft, hright, rfl⟩
    rw [Operation.apply, if_neg hne]
  case assignment range left right =>
    obtain ⟨d, hleft, d', hright, rfl⟩ := h
    exact .inr ⟨range.start, left, ⟨"=", right, range.stop⟩, d, d', rfl, hleft, hright, rfl⟩

/-- An operation on chains is a chain. -/
lemma chain?_apply {left : Expression} {op : Operation} {c d : Chain} (start : Location)
    (hleft : left.chain? = some c) (hoperand : op.operand.chain? = some d) :
    (op.apply start left).chain? = some (c.join op.operator d) := by
  unfold Operation.apply
  split
  case isTrue heq => simp [chain?, hleft, hoperand, heq]
  case isFalse hne => simp [chain?, hleft, hoperand, hne]

/-- An operation is grouped if its operands are, and if it admits the operators at their
tops. -/
lemma wellGrouped_apply_iff (start : Location) (left : Expression) (op : Operation) :
    (op.apply start left).WellGrouped ↔
      ((∀ other, left.operator? = some other →
        (Precedence.ofOperator op.operator).AdmitsLeft (.ofOperator other)) ∧
      ∀ other, op.operand.operator? = some other →
        (Precedence.ofOperator op.operator).AdmitsRight (.ofOperator other)) ∧
      left.WellGrouped ∧ op.operand.WellGrouped := by
  rw [wellGrouped_iff, op.inside_apply, hold_append]
  refine and_congr_left fun _ => ⟨fun h => h _ _ _ (op.infix?_apply start left), fun h => ?_⟩
  intro left' operator' right' he
  rw [op.infix?_apply] at he
  cases he
  exact h

/-! ### The operator at the top -/

/-- In a grouped chain no operator binds less tightly than the one at the top. -/
lemma WellGrouped.le_level {e : Expression} {c : Chain} {floor : Nat} (h : e.WellGrouped)
    (hc : e.chain? = some c)
    (hfloor : ∀ operator, e.operator? = some operator →
      floor ≤ (Precedence.ofOperator operator).level) :
    ∀ link ∈ c.links, floor ≤ (Precedence.ofOperator link.1).level := by
  induction hn : c.links.length using Nat.strong_induction_on generalizing e c floor with
  | _ n ih =>
    obtain ⟨range, name, rfl, rfl⟩ | ⟨start, left, op, d, d', rfl, hleft, hright, rfl⟩ :=
      chain?_cases hc
    · exact fun _ hmem => nomatch hmem
    · obtain ⟨⟨hadmitsLeft, hadmitsRight⟩, hwellLeft, hwellRight⟩ :=
        (wellGrouped_apply_iff start left op).mp h
      have htop : floor ≤ (Precedence.ofOperator op.operator).level := by
        refine hfloor _ ?_
        rw [operator?, op.infix?_apply]
        rfl
      simp only [Chain.join, List.length_append, List.length_cons] at hn
      intro link hmem
      rcases List.mem_append.mp hmem with hmem | hmem
      · refine ih _ (by omega) hwellLeft hleft (fun other hother => ?_) rfl link hmem
        have hle := Precedence.admitsLeft_iff.mp (hadmitsLeft other hother)
        exact (htop.trans (Precedence.level_le_leftFloor _)).trans hle
      · rcases List.mem_cons.mp hmem with rfl | hmem
        · exact htop
        · refine ih _ (by omega) hwellRight hright (fun other hother => ?_) rfl link hmem
          have hle := Precedence.admitsRight_iff.mp (hadmitsRight other hother)
          exact (htop.trans (Precedence.level_le_rightFloor _)).trans hle

/-- Two grouped expressions that show one chain have the same operator at the top: none of them
can have its own operator in the left operand of the other. -/
lemma not_length_lt {left left' : Expression} {op op' : Operation} {start start' : Location}
    {c d c' d' : Chain} (h : (op.apply start left).WellGrouped)
    (h' : (op'.apply start' left').WellGrouped) (hright : op.operand.chain? = some d)
    (hleft' : left'.chain? = some c')
    (hlinks : c.links ++ (op.operator, d.first) :: d.links =
      c'.links ++ (op'.operator, d'.first) :: d'.links) :
    ¬ c.links.length < c'.links.length := by
  intro hlt
  obtain ⟨⟨-, hadmitsRight⟩, -, hwellRight⟩ := (wellGrouped_apply_iff start left op).mp h
  obtain ⟨⟨hadmitsLeft, -⟩, hwellLeft, -⟩ := (wellGrouped_apply_iff start' left' op').mp h'
  -- the chain of the longer left operand goes on with the operator of the shorter one
  obtain ⟨between, hbetween, hbehind⟩ : ∃ between,
      c'.links = c.links ++ (op.operator, d.first) :: between ∧
        d.links = between ++ (op'.operator, d'.first) :: d'.links := by
    rcases List.append_eq_append_iff.mp hlinks with ⟨later, hc', hrest⟩ | ⟨later, hc, hrest⟩
    · cases later with
      | nil => simp [hc'] at hlt
      | cons link between =>
        simp only [List.cons_append, List.cons.injEq] at hrest
        obtain ⟨rfl, hrest⟩ := hrest
        exact ⟨between, hc', hrest⟩
    · rw [hc, List.length_append] at hlt
      omega
  have hle := hwellLeft.le_level hleft'
    (fun other hother => Precedence.admitsLeft_iff.mp (hadmitsLeft other hother))
    (op.operator, d.first) (by rw [hbetween]; simp)
  have hle' := hwellRight.le_level hright
    (fun other hother => Precedence.admitsRight_iff.mp (hadmitsRight other hother))
    (op'.operator, d'.first) (by rw [hbehind]; simp)
  exact absurd (Precedence.leftFloor_le_iff.mp hle) (Nat.not_lt.mpr hle')

lemma view_apply (v : View) (start : Location) (left : Expression) (op : Operation) :
    (op.apply start left).view v =
      Operation.apply (v.place start) (left.view v) ⟨op.operator, op.operand.view v, v.place op.stop⟩ := by
  unfold Operation.apply
  split <;> rfl

/-- A chain is grouped in one way. -/
theorem view_eq_of_chain?_eq {e e' : Expression} {c : Chain} (h : e.WellGrouped)
    (h' : e'.WellGrouped) (hc : e.chain? = some c) (hc' : e'.chain? = some c) :
    e.view .placeless = e'.view .placeless := by
  -- on the number of links: both expressions split their chain at the same operator
  induction hn : c.links.length using Nat.strong_induction_on generalizing e e' c with
  | _ n ih =>
    obtain ⟨range, name, rfl, rfl⟩ | ⟨start, left, op, d, d', rfl, hleft, hright, rfl⟩ :=
      chain?_cases hc
    · obtain ⟨range', name', rfl, heq⟩ | ⟨start', left', op', b, b', rfl, -, -, heq⟩ :=
        chain?_cases hc'
      · cases heq
        rfl
      · have hlinks := congrArg Chain.links heq
        simp [Chain.join] at hlinks
    · obtain ⟨range', name', rfl, heq⟩ | ⟨start', left', op', b, b', rfl, hleft', hright', heq⟩ :=
        chain?_cases hc'
      · have hlinks := congrArg Chain.links heq
        simp [Chain.join] at hlinks
      · simp only [Chain.join, Chain.mk.injEq] at heq
        obtain ⟨hfirst, hlinks⟩ := heq
        -- neither left operand can have more links than the other
        have hlength : d.links.length = b.links.length := by
          have hle := not_length_lt h h' hright hleft' hlinks
          have hle' := not_length_lt h' h hright' hleft hlinks.symm
          omega
        obtain ⟨hd, hrest⟩ := List.append_inj hlinks hlength
        simp only [List.cons.injEq, Prod.mk.injEq] at hrest
        obtain ⟨⟨hoperator, hfirst'⟩, hd'⟩ := hrest
        obtain rfl : b = d := by cases b; cases d; simp_all
        obtain rfl : b' = d' := by cases b'; cases d'; simp_all
        simp only [Chain.join, List.length_append, List.length_cons] at hn
        obtain ⟨-, hwellLeft, hwellRight⟩ := (wellGrouped_apply_iff start left op).mp h
        obtain ⟨-, hwellLeft', hwellRight'⟩ := (wellGrouped_apply_iff start' left' op').mp h'
        rw [view_apply, view_apply, hoperator,
          ih _ (by omega) hwellLeft hwellLeft' hleft hleft' rfl,
          ih _ (by omega) hwellRight hwellRight' hright hright' rfl]
        rfl

end Expression

end FrontEnd
