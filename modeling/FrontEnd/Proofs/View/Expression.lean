/-
Types, expressions and patterns are read whatever the places are.
-/
import FrontEnd.Proofs.View.Natural

namespace FrontEnd

/-- What comes of a goal through a view is what comes of it with the answers through the
view. -/
def Goal.Natural (v : View) (g : Goal) : Prop :=
  Procedure.Natural v (fun a b => b = g.view v a) g.procedure g.procedure

namespace Procedure

variable {α : Type} (v : View)

/-- What comes of a procedure has no places. -/
def Steady (p : Procedure α) : Prop :=
  p.Natural v (fun a b => b = a) p

/-- A procedure builds a node, which lacks its range only. -/
def Rebuilds (show? : α → α) (p : Procedure (Range → α)) : Prop :=
  p.Natural v (fun build build' => ∀ r, build' (r.view v) = show? (build r)) p

variable {v}

lemma Rebuilds.ranged {show? : α → α} {p : Procedure (Range → α)} (h : Rebuilds v show? p) :
    p.ranged.Natural v (fun a b => b = show? a) p.ranged :=
  Natural.ranged h

end Procedure

namespace Grammar

open Procedure

variable {v : View}

/-! ### Types -/

lemma collectionType_steady : Steady v collectionType := by
  simp [Steady, collectionType]

lemma tupleOrFunctionType_steady : Steady v tupleOrFunctionType := by
  simp [Steady, tupleOrFunctionType, tupleTypeElements, bind_bind, ite_bind, done_bind]

lemma unmarkedType_steady : Steady v unmarkedType := by
  simp [Steady, unmarkedType]
  intro kind
  split
  · exact collectionType_steady
  · exact tupleOrFunctionType_steady
  · simp
  · simp

lemma type_natural : Goal.type.Natural v := by
  simp only [Goal.Natural, Goal.procedure, type]
  refine unmarkedType_steady.bind fun base _ h => ?_
  simp [h]

lemma types_natural : Goal.types.Natural v := by
  simp [Goal.Natural, Goal.procedure, types]

lemma typeMarks_natural : Goal.typeMarks.Natural v := by
  simp [Goal.Natural, Goal.procedure, typeMarks]
  intro kind
  split <;> simp

lemma typePath_natural : Goal.typePath.Natural v := by
  simp [Goal.Natural, Goal.procedure, typePath]
  intro kind
  split
  · simp
  · simp [genericArguments, pathContinues, bind_bind, ite_bind, done_bind, raise_bind]

/-! ### Expressions -/

lemma view_parenthesized (inner : List Argument) (r : Range) :
    parenthesized (Argument.views v inner) (r.view v) = (parenthesized inner r).view v := by
  rcases inner with _ | ⟨⟨_ | label, value⟩, _ | ⟨⟨label', value'⟩, later⟩⟩ <;>
    simp [parenthesized, Argument.views, Expression.view]

lemma collectionLiteral_rebuilds : Rebuilds v (Expression.view v) collectionLiteral := by
  simp [Rebuilds, collectionLiteral, Expression.view, Expression.views, Entry.views]

lemma keywordOperand_rebuilds (word : String) :
    Rebuilds v (Expression.view v) (keywordOperand word) := by
  unfold keywordOperand
  split <;> simp [Rebuilds, Expression.view]

lemma primary_natural : primary.Natural v (fun a b => b = a.view v) primary := by
  refine Natural.ranged ?_
  simp
  rintro (_ | kind)
  · simp
  cases kind with
  | keyword word role =>
    cases role with
    | contextual => simp [Expression.view]
    | _ => exact keywordOperand_rebuilds _
  | punctuator mark =>
    cases mark with
    | leftSquare => exact collectionLiteral_rebuilds
    | _ => simp [Expression.view, view_parenthesized]
  | _ => simp [Expression.view]

lemma argumentLabel_steady : Steady v argumentLabel := by
  simp [Steady, argumentLabel]
  intro kind
  split <;> simp

lemma arguments_natural (closer : Punctuator) : (Goal.arguments closer).Natural v := by
  simp [Goal.Natural, Goal.procedure, arguments]
  refine ⟨argumentLabel_steady.bind fun label _ h => ?_, by simp [Argument.views]⟩
  subst h
  split <;> simp [Argument.views]

lemma elements_natural : Goal.elements.Natural v := by
  simp [Goal.Natural, Goal.procedure, elements, Expression.views]

lemma entries_natural : Goal.entries.Natural v := by
  simp [Goal.Natural, Goal.procedure, entries, Entry.views]

lemma suffixThen_natural {suffix suffix' : Suffix} (h : suffix' = suffix.view v) :
    (suffixThen suffix).Natural v (fun a b => b = a.map (PlacedSuffix.view v))
      (suffixThen suffix') := by
  simp [suffixThen, h, PlacedSuffix.view]

lemma suffixes_natural : Goal.suffixes.Natural v := by
  simp [Goal.Natural, Goal.procedure, suffixes]
  intro kind
  split
  · simp
    exact fun inner => suffixThen_natural rfl
  · simp
    exact fun inner => suffixThen_natural rfl
  · simp
    intro kind
    split
    · exact suffixThen_natural rfl
    · simp
  · simp
    exact suffixThen_natural rfl
  · simp

lemma view_foldl_suffix (glued : List PlacedSuffix) (base : Expression) :
    (glued.map (PlacedSuffix.view v)).foldl PlacedSuffix.apply (base.view v) =
      (glued.foldl PlacedSuffix.apply base).view v := by
  induction glued generalizing base with
  | nil => rfl
  | cons s later ih =>
    have hstep : (s.view v).apply (base.view v) = (s.apply base).view v := by
      obtain ⟨suffix, stop⟩ := s
      cases suffix <;>
        simp [PlacedSuffix.view, PlacedSuffix.apply, Suffix.view, Expression.view, Range.view]
    rw [List.map_cons, List.foldl_cons, List.foldl_cons, hstep, ih]

lemma attemptKind_steady : Steady v attemptKind := by
  simp [Steady, attemptKind]

lemma operand_natural : operand.Natural v (fun a b => b = a.view v) operand := by
  simp [operand]
  refine ⟨fun kind => ?_, ?_⟩
  · split
    · refine Natural.ranged ?_
      simp [Expression.view]
    · refine primary_natural.bind fun base _ h => ?_
      simp [h, view_foldl_suffix]
  · refine Natural.ranged (attemptKind_steady.bind fun kind _ h => ?_)
    simp [h, Expression.view]

lemma view_foldl_operation (later : List Operation) (start : Location) (first : Expression) :
    (later.map (Operation.view v)).foldl (Operation.apply (v.place start)) (first.view v) =
      (later.foldl (Operation.apply start) first).view v := by
  induction later generalizing first with
  | nil => rfl
  | cons op later ih =>
    have hstep : (op.view v).apply (v.place start) (first.view v) =
        (op.apply start first).view v := by
      unfold Operation.apply
      by_cases h : op.operator = "=" <;>
        simp [h, Operation.view, Expression.view, Range.view]
    rw [List.map_cons, List.foldl_cons, List.foldl_cons, hstep, ih]

lemma operations_natural (floor : Nat) : (Goal.operations floor).Natural v := by
  simp [Goal.Natural, Goal.procedure, operations]
  intro operator
  split <;> simp [Operation.view]

lemma expression_natural (floor : Nat) : (Goal.expression floor).Natural v := by
  simp [Goal.Natural, Goal.procedure, expression]
  refine fun start => operand_natural.bind fun first _ h => ?_
  simp [h, view_foldl_operation]

/-! ### Patterns -/

lemma patterns_natural (mode : PatternMode) : (Goal.patterns mode).Natural v := by
  simp [Goal.Natural, Goal.procedure, patterns, Pattern.views]

lemma tuplePattern_rebuilds (mode : PatternMode) :
    Rebuilds v (Pattern.view v) (tuplePattern mode) := by
  simp [Rebuilds, tuplePattern, tupleElements, bind_bind, ite_bind, done_bind, Pattern.view,
    Pattern.views]

lemma untypedPattern_rebuilds : Rebuilds v (Pattern.view v) untypedPattern := by
  simp [Rebuilds, untypedPattern]
  intro kind
  split
  · simp [Pattern.view]
  · exact tuplePattern_rebuilds .declared
  · split <;> simp [Pattern.view]

lemma declaredPattern_natural :
    declaredPattern.Natural v (fun a b => b = a.view v) declaredPattern := by
  simp [declaredPattern]
  refine fun start => untypedPattern_rebuilds.bind fun node node' h => ?_
  have hnode (stop : Location) : node' ⟨v.place start, v.place stop⟩ =
      (node ⟨start, stop⟩).view v := h ⟨start, stop⟩
  simp [hnode, Pattern.view, Range.view]

lemma enumCase_rebuilds (mode : PatternMode) (type : Option String) (name : String) :
    Rebuilds v (Pattern.view v) (enumCase mode type name) := by
  simp [Rebuilds, enumCase, Pattern.view]
  refine (tuplePattern_rebuilds mode).ranged.bind fun payload _ h => ?_
  simp [h, Pattern.view]

lemma comparedValueOrError_rebuilds : Rebuilds v (Pattern.view v) comparedValueOrError := by
  simp [Rebuilds, comparedValueOrError]
  rintro (e | value)
  · by_cases h : e.kind = .expectedExpression <;> simp [Goal.viewEnd, h]
  · simp [Goal.viewEnd, Pattern.view]

lemma caseFollows_steady : Steady v caseFollows := by
  simp [Steady, caseFollows]
  intro kind
  split <;> simp

lemma unmarkedPattern_rebuilds (mode : PatternMode) :
    Rebuilds v (Pattern.view v) (unmarkedPattern mode) := by
  simp [Rebuilds, unmarkedPattern]
  intro kind
  split
  · simp
  simp [Pattern.view]
  intro _ _
  split
  · simp [Pattern.view]
  · exact tuplePattern_rebuilds mode
  · simp
    exact fun name => enumCase_rebuilds mode none name
  · refine caseFollows_steady.bind fun follows _ h => ?_
    subst h
    simp [comparedValue, Pattern.view]
    exact fun _ case => enumCase_rebuilds mode _ case
  · refine caseFollows_steady.bind fun follows _ h => ?_
    subst h
    simp [comparedValue, Pattern.view]
    exact fun _ case => enumCase_rebuilds mode _ case
  · split
    · simp [Pattern.view]
      exact fun _ => comparedValueOrError_rebuilds
    · exact comparedValueOrError_rebuilds

lemma patternMarks_natural : Goal.patternMarks.Natural v := by
  simp [Goal.Natural, Goal.procedure, patternMarks]

lemma view_foldl_marks (marks : List Location) (start : Location) (inner : Pattern) :
    (marks.map v.place).foldl (fun inner stop => .optional ⟨v.place start, stop⟩ inner)
        (inner.view v) =
      (marks.foldl (fun inner stop => .optional ⟨start, stop⟩ inner) inner).view v := by
  induction marks generalizing inner with
  | nil => rfl
  | cons stop later ih =>
    rw [List.map_cons, List.foldl_cons, List.foldl_cons, ← ih]
    simp [Pattern.view, Range.view]

lemma testedPattern_natural (mode : PatternMode) :
    (testedPattern mode).Natural v (fun a b => b = a.view v) (testedPattern mode) := by
  simp [testedPattern]
  refine fun start => (unmarkedPattern_rebuilds mode).bind fun node node' h => ?_
  have hnode (stop : Location) : node' ⟨v.place start, v.place stop⟩ =
      (node ⟨start, stop⟩).view v := h ⟨start, stop⟩
  simp [hnode, view_foldl_marks]

lemma pattern_natural (mode : PatternMode) : (Goal.pattern mode).Natural v := by
  simp only [Goal.Natural, Goal.procedure, pattern]
  split
  · exact declaredPattern_natural
  · exact testedPattern_natural mode

end Grammar

end FrontEnd
