/-
What is read groups as the table of operators says.

An expression is read down to a floor: its operators bind at least as tightly as the floor, and
the operator behind it does not.  Of a chain of operations with a common floor each right
operand was read down to the floor that its operator sets, so the operator behind it is one
that takes all before it as its left operand.

The main results are `Goal.Reads.groups` and `Parser.readTokens_grouped`.
-/
import FrontEnd.Proofs.Grouping.Basic

namespace FrontEnd

/-- The operator behind a cursor binds less tightly than a floor. -/
def Cursor.EndsAt (floor : Nat) (c : Cursor) : Prop :=
  ∀ operator, c.binaryAhead? = some operator → (Precedence.ofOperator operator).level < floor

/-- An expression whose operators are grouped, and whose own one binds at least as tightly as
a floor. -/
structure Expression.Above (floor : Nat) (e : Expression) : Prop where
  wellGrouped : e.WellGrouped
  le_level : ∀ operator, e.operator? = some operator → floor ≤ (Precedence.ofOperator operator).level

/-- Operations one behind the other, each with an operand that goes as far as the operator
allows. -/
inductive Operation.Chained (floor : Nat) : List Operation → Prop where
  | nil : Chained floor []
  | cons {op : Operation} {later : List Operation}
      (hle : floor ≤ (Precedence.ofOperator op.operator).level)
      (hoperand : op.operand.Above (Precedence.ofOperator op.operator).rightFloor)
      (hnext : ∀ next ∈ later.head?, (Precedence.ofOperator next.operator).level <
        (Precedence.ofOperator op.operator).rightFloor)
      (hlater : Chained floor later) : Chained floor (op :: later)

/-- The expressions in a suffix. -/
def Suffix.nodes : Suffix → List Node
  | .call arguments | .subscript arguments => Argument.visitAll (fun _ => true) arguments
  | .member _ | .forced => []

/-- How what is read is grouped. -/
@[simp] def Goal.Groups (s s' : State) : (g : Goal) → g.Result → Prop
  | expression floor, e => e.Above floor ∧ s'.cursor.EndsAt floor
  | operations floor, ops =>
    Operation.Chained floor ops ∧ s'.cursor.EndsAt floor ∧
      ∀ op ∈ ops.head?, s.cursor.binaryAhead? = some op.operator
  | operand, e => e.WellGrouped ∧ e.operator? = none
  | suffixes, glued => ∀ p ∈ glued, Node.Hold Expression.Grouped p.suffix.nodes
  | arguments _, inner =>
    Node.Hold Expression.Grouped (Argument.visitAll (fun _ => true) inner)
  | elements, later => Node.Hold Expression.Grouped (Expression.visitAll (fun _ => true) later)
  | entries, (value, later) =>
    value.WellGrouped ∧ Node.Hold Expression.Grouped (Entry.visitAll (fun _ => true) later)
  | _, _ => True

/-- What is read is grouped. -/
def grouping : Contract where
  enter _ _ := True
  value g s a s' := g.Groups s s' a
  error _ _ _ _ := True

/-- What the goals that are called promise. -/
abbrev groupedIn : Contract :=
  grouping.given fun _ _ _ => True

section

variable (g : Goal) (s : State)

@[simp] lemma grouping_enter : grouping.enter g s ↔ True := Iff.rfl

@[simp] lemma grouping_value (a : g.Result) (s' : State) :
    grouping.value g s a s' ↔ g.Groups s s' a := Iff.rfl

@[simp] lemma grouping_error (e : ParseError) (s' : State) :
    grouping.error g s e s' ↔ True := Iff.rfl

end

/-! ### Putting operations together -/

/-- Chained operations behind an operand that the first of them takes. -/
lemma Operation.Chained.above_foldl {floor : Nat} {ops : List Operation} (h : Chained floor ops)
    (start : Location) {first : Expression} (hfirst : first.Above floor)
    (hhead : ∀ op ∈ ops.head?, ∀ other, first.operator? = some other →
      (Precedence.ofOperator op.operator).AdmitsLeft (.ofOperator other)) :
    (ops.foldl (Operation.apply start) first).Above floor := by
  induction h generalizing first with
  | nil => exact hfirst
  | @cons op later hle hoperand hnext hlater ih =>
    have hoperator : (op.apply start first).operator? = some op.operator := by
      rw [Expression.operator?, op.infix?_apply, Option.map_some]
    refine ih ⟨?_, ?_⟩ ?_
    · rw [Expression.wellGrouped_iff, op.inside_apply, hold_append]
      refine ⟨?_, hfirst.wellGrouped, hoperand.wellGrouped⟩
      intro left operator right he
      rw [op.infix?_apply] at he
      cases he
      exact ⟨hhead op rfl, fun other hother =>
        Precedence.admitsRight_iff.mpr (hoperand.le_level other hother)⟩
    · rw [hoperator]
      rintro _ ⟨⟩
      exact hle
    · intro next hmem other hother
      rw [hoperator] at hother
      cases hother
      exact Precedence.admitsLeft_iff.mpr (Precedence.leftFloor_le_iff.mpr (hnext next hmem))

/-! ### Putting suffixes together -/

lemma PlacedSuffix.infix?_apply (base : Expression) (p : PlacedSuffix) :
    (p.apply base).infix? = none := by
  unfold apply
  cases p.suffix <;> rfl

lemma PlacedSuffix.inside_apply (base : Expression) (p : PlacedSuffix) :
    (p.apply base).inside (fun _ => true) = base.visit (fun _ => true) ++ p.suffix.nodes := by
  unfold apply
  cases p.suffix <;> simp [Expression.inside, Suffix.nodes, Expression.visit]

/-- An operand with suffixes is one without an operator of its own. -/
lemma PlacedSuffix.wellGrouped_foldl {glued : List PlacedSuffix} {base : Expression}
    (hglued : ∀ p ∈ glued, Node.Hold Expression.Grouped p.suffix.nodes)
    (hbase : base.WellGrouped ∧ base.infix? = none) :
    (glued.foldl PlacedSuffix.apply base).WellGrouped ∧
      (glued.foldl PlacedSuffix.apply base).infix? = none := by
  induction glued generalizing base with
  | nil => exact hbase
  | cons p glued ih =>
    obtain ⟨hp, hglued⟩ := List.forall_mem_cons.mp hglued
    have hnone := p.infix?_apply base
    refine ih hglued ⟨Expression.wellGrouped_of_infix?_eq_none hnone ?_, hnone⟩
    rw [p.inside_apply, hold_append]
    exact ⟨hbase.1, hp⟩

/-! ### The goals that make up expressions -/

namespace Grammar

open Procedure

variable {way : List Event} {s : State}

/-- A procedure that builds an expression without an operator of its own from its range. -/
abbrev BuildsOperand (p : Procedure (Range → Expression)) : Prop :=
  ∀ way s, p.Meets groupedIn way s
    (fun _ build _ => ∀ r, (build r).infix? = none ∧
      Node.Hold Expression.Grouped ((build r).inside fun _ => true)) fun _ _ _ => True

lemma keywordOperand_groups (word : String) : BuildsOperand (keywordOperand word) := by
  intro way s
  unfold keywordOperand
  split <;> simp [Expression.infix?, Expression.inside]

lemma collectionLiteral_groups : BuildsOperand collectionLiteral := by
  intro way s
  simp [collectionLiteral, Expression.infix?, Expression.inside, Expression.visitAll,
    Entry.visitAll]
  intro _ _ first t hfirst _
  have hfirst := first.wellGrouped_iff.mp hfirst.wellGrouped
  simp [hfirst]
  simp +contextual [Expression.wellGrouped_iff]

lemma primary_groups : primary.Meets groupedIn way s
    (fun _ e _ => e.infix? = none ∧ e.WellGrouped) fun _ _ _ => True := by
  have hbuilds : ∀ node : Procedure (Range → Expression), BuildsOperand node →
      (ranged node).Meets groupedIn way s
        (fun _ e _ => e.infix? = none ∧ e.WellGrouped) fun _ _ _ => True := by
    intro node hnode
    rw [meets_ranged]
    refine (hnode way s).imp (fun way build t hbuild => ?_) fun _ _ _ _ => trivial
    obtain ⟨hnone, hinside⟩ := hbuild ⟨s.cursor.startLocation, t.cursor.stopLocation⟩
    exact ⟨hnone, Expression.wellGrouped_of_infix?_eq_none hnone hinside⟩
  refine hbuilds _ fun way s => ?_
  simp
  rcases s.cursor.here? with _ | kind
  · simp
  cases kind with
  | keyword word role =>
    cases role with
    | contextual => simp [Expression.infix?, Expression.inside]
    | _ => exact keywordOperand_groups _ _ _
  | punctuator mark =>
    cases mark with
    | leftParen =>
      simp
      intro inner t hinner r
      unfold parenthesized
      split <;> simpa [Expression.infix?, Expression.inside, Argument.visitAll] using hinner
    | leftSquare => exact collectionLiteral_groups _ _
    | _ => simp [Expression.infix?, Expression.inside]
  | _ => simp [Expression.infix?, Expression.inside]

lemma operand_groups : operand.Meets groupedIn way s
    (fun _ e _ => e.WellGrouped ∧ e.infix? = none) fun _ _ _ => True := by
  have hattempt : ∀ way s, attemptKind.Meets groupedIn way s (fun _ _ _ => True) fun _ _ _ => True :=
    fun way s => meets_of_forall (fun _ _ => trivial) _ _ _ (by simp) (by simp)
  simp [operand]
  refine ⟨fun _ => (hattempt _ _).imp (fun way kind t _ => ?_) (by simp), fun _ => ?_⟩
  · simp [Expression.infix?]
    intro body u habove _
    refine Expression.wellGrouped_of_infix?_eq_none rfl ?_
    exact habove.wellGrouped
  · split
    next symbol hsymbol =>
      simp [Expression.infix?]
      intro _ inner u hinner _
      refine Expression.wellGrouped_of_infix?_eq_none rfl ?_
      exact hinner
    next =>
      simp
      refine primary_groups.imp (fun way base t hbase => ?_) (by simp)
      exact fun glued u hglued => PlacedSuffix.wellGrouped_foldl hglued hbase.symm

lemma expression_groups (floor : Nat) :
    (expression floor).Meets groupedIn way s
      (fun _ e s' => (Goal.expression floor).Groups s s' e) fun _ _ _ => True := by
  simp [expression]
  refine operand_groups.imp (fun way first t hfirst => ?_) (by simp)
  intro ops u hchained hends _
  obtain ⟨hwell, hnone⟩ := hfirst
  have hoperator : first.operator? = none := by rw [Expression.operator?, hnone]; rfl
  refine ⟨hchained.above_foldl _ ⟨hwell, ?_⟩ ?_, hends⟩
  · simp [hoperator]
  · simp [hoperator]

lemma operations_groups (floor : Nat) :
    (operations floor).Meets groupedIn way s
      (fun _ ops s' => (Goal.operations floor).Groups s s' ops) fun _ _ _ => True := by
  simp [operations]
  split
  next hnone => simp [Cursor.EndsAt, hnone, Operation.Chained.nil]
  next operator hsome =>
    simp
    refine ⟨fun hlt => ?_, fun hle => ?_⟩
    · simp [Cursor.EndsAt, hsome, hlt, Operation.Chained.nil]
    · intro right t habove hends later u hchained hends' hhead
      refine ⟨.cons hle habove (fun next hnext => ?_) hchained, hends', hsome⟩
      exact hends _ (hhead next hnext)

lemma suffixes_groups : suffixes.Meets groupedIn way s
    (fun _ glued s' => Goal.suffixes.Groups s s' glued) fun _ _ _ => True := by
  simp [suffixes, suffixThen]
  rcases s.cursor.glued? 0 with _ | kind
  · simp
  cases kind with
  | punctuator mark =>
    cases mark with
    | period =>
      simp
      split <;> simp [Suffix.nodes]
    | _ => simp +contextual [Suffix.nodes]
  | _ => simp

lemma arguments_groups (closer : Punctuator) : (arguments closer).Meets groupedIn way s
    (fun _ inner s' => (Goal.arguments closer).Groups s s' inner) fun _ _ _ => True := by
  have hlabel : ∀ way s, argumentLabel.Meets groupedIn way s (fun _ _ _ => True)
      fun _ _ _ => True :=
    fun way s => meets_of_forall (fun _ _ => trivial) _ _ _ (by simp) (by simp)
  simp [arguments, Argument.visitAll]
  refine fun _ => (hlabel _ _).imp (fun way label t _ => ?_) (by simp)
  have hvalue : ∀ value : Expression, value.Above 0 → value.Grouped ∧
      Node.Hold Expression.Grouped (value.inside fun _ => true) :=
    fun value habove => value.wellGrouped_iff.mp habove.wellGrouped
  exact ⟨fun _ value u habove _ => ⟨fun _ later v hlater => ⟨hvalue value habove, hlater⟩,
      fun _ _ => hvalue value habove⟩,
    fun _ value u habove _ => ⟨fun _ later v hlater => ⟨hvalue value habove, hlater⟩,
      fun _ _ => hvalue value habove⟩⟩

lemma elements_groups : elements.Meets groupedIn way s
    (fun _ later s' => Goal.elements.Groups s s' later) fun _ _ _ => True := by
  simp [elements, Expression.visitAll]
  intro _ _ e t habove _ later u hlater
  exact ⟨e.wellGrouped_iff.mp habove.wellGrouped, hlater⟩

lemma entries_groups : entries.Meets groupedIn way s
    (fun _ entries s' => Goal.entries.Groups s s' entries) fun _ _ _ => True := by
  simp [entries, Entry.visitAll]
  intro value t hvalue _
  refine ⟨fun _ => ⟨fun _ => hvalue.wellGrouped, fun _ key u hkey _ _ next later v hnext hlater => ?_⟩,
    fun _ _ => hvalue.wellGrouped⟩
  exact ⟨hvalue.wellGrouped, key.wellGrouped_iff.mp hkey.wellGrouped,
    next.wellGrouped_iff.mp hnext, hlater⟩

end Grammar

/-! ### Readings -/

open Grammar in
lemma Goal.procedure_groups (g : Goal) (way : List Event) (s : State) :
    g.procedure.Meets groupedIn way s (fun _ a s' => g.Groups s s' a) fun _ _ _ => True := by
  cases g with
  | expression floor => exact expression_groups floor
  | operations floor => exact operations_groups floor
  | operand =>
    refine operand_groups.imp (fun way e t he => ⟨he.1, ?_⟩) (by simp)
    rw [Expression.operator?, he.2]
    rfl
  | suffixes => exact suffixes_groups
  | arguments closer => exact arguments_groups closer
  | elements => exact elements_groups
  | entries => exact entries_groups
  | _ => exact Procedure.meets_of_forall (fun _ _ => trivial) _ _ _ (by simp) (by simp)

lemma grouping_kept :
    Contract.Family.Kept (fun _ _ _ => True) fun _ _ => grouping where
  procedure _ _ _ g s _ _ :=
    (g.procedure_groups [] s).imp (fun _ _ _ ha _ _ => ha) fun _ _ _ _ _ _ => trivial
  noRoom _ _ _ _ _ _ := trivial

/-- How what a goal reads is grouped. -/
theorem Goal.Reads.groups {room : Nat} {g : Goal} {s s' : State} {a : g.Result}
    (h : g.Reads room s (.ok a) s') : g.Groups s s' a := by
  obtain ⟨bound, hr⟩ := h
  exact (grouping_kept.finished known_true bound room g s trivial).1 a s' hr

/-- The operators of every expression that is read are grouped. -/
theorem Parser.readTokens_grouped (p : Parser) (tokens : List Token) :
    Node.Hold Expression.Grouped ((p.readTokens tokens).root.visit fun _ => true) :=
  p.readTokens_holds (fun _ _ _ _ _ h => h.groups.1.wellGrouped) tokens

end FrontEnd
