/-
Types, expressions and patterns lead onward.
-/
import FrontEnd.Grammar.Expression
import FrontEnd.Grammar.Pattern
import FrontEnd.Grammar.Type
import FrontEnd.Proofs.Progress.Basic

namespace FrontEnd

namespace Grammar

open Procedure

variable {below : Nat} {s : State}

/-! ### Types -/

lemma collectionType_progresses (hleft : 0 < s.cursor.left)
    (hbound : 16 * s.cursor.left + 1 ≤ below) : collectionType.Progresses below s := by
  intro room way
  simp [collectionType]
  grind -ring -linarith

lemma tupleTypeElements_progresses (hleft : 0 < s.cursor.left)
    (hbound : 16 * s.cursor.left + 1 ≤ below) : tupleTypeElements.Progresses below s := by
  intro room way
  simp [tupleTypeElements]
  grind -ring -linarith

lemma tupleOrFunctionType_progresses (hleft : 0 < s.cursor.left)
    (hbound : 16 * s.cursor.left + 1 ≤ below) : tupleOrFunctionType.Progresses below s := by
  intro room way
  simp [tupleOrFunctionType]
  refine (tupleTypeElements_progresses hleft hbound).imp (fun way elements t ht => ?_) ?_
  · refine ⟨fun _ => ?_, fun _ => ?_⟩ <;> grind -ring -linarith
  · grind -ring -linarith

lemma unmarkedType_progresses (hbound : 16 * s.cursor.left + 1 ≤ below) :
    unmarkedType.Progresses below s := by
  intro room way
  simp [unmarkedType]
  split
  · exact collectionType_progresses (by grind -ring -linarith) hbound room way
  · exact tupleOrFunctionType_progresses (by grind -ring -linarith) hbound room way
  · simp
    grind -ring -linarith
  · simp
    grind -ring -linarith

lemma type_progresses (hbound : 16 * s.cursor.left + 1 ≤ below) : type.Progresses below s := by
  intro room way
  simp [type]
  refine (unmarkedType_progresses hbound).imp ?_ ?_ <;> grind -ring -linarith

lemma typeMarks_progresses (hbound : 16 * s.cursor.left ≤ below) :
    typeMarks.Progresses below s := by
  intro room way
  simp [typeMarks]
  split <;> simp <;> grind -ring -linarith

lemma types_progresses (hbound : 16 * s.cursor.left + 2 ≤ below) : types.Progresses below s := by
  intro room way
  simp [types]
  grind -ring -linarith

lemma genericArguments_progresses (hbound : 16 * s.cursor.left ≤ below) :
    genericArguments.Progresses below s := by
  intro room way
  simp [genericArguments]
  grind -ring -linarith

lemma typePath_progresses (hbound : 16 * s.cursor.left ≤ below) :
    typePath.Progresses below s := by
  intro room way
  simp [typePath, pathContinues]
  split
  · simp
    grind -ring -linarith
  · simp
    refine (genericArguments_progresses hbound).imp (fun way a t ht => ?_) ?_ <;> grind -ring -linarith

/-! ### Expressions -/

lemma collectionLiteral_progresses (hleft : 0 < s.cursor.left)
    (hbound : 16 * s.cursor.left + 1 ≤ below) : collectionLiteral.Progresses below s := by
  intro room way
  simp [collectionLiteral]
  refine ⟨?_, fun _ => ⟨?_, fun _ => ?_⟩⟩ <;> grind -ring -linarith

lemma elements_progresses (hbound : 16 * s.cursor.left ≤ below) :
    elements.Progresses below s := by
  intro room way
  simp [elements]
  refine ⟨fun _ => ?_, fun _ => ?_⟩ <;> grind -ring -linarith

lemma entries_progresses (hbound : 16 * s.cursor.left + 2 ≤ below) :
    entries.Progresses below s := by
  intro room way
  simp [entries]
  refine ⟨?_, fun a t ht => ⟨fun _ => ?_, fun _ => ?_⟩, ?_⟩ <;> grind -ring -linarith

lemma keywordOperand_progresses (word : String) : (keywordOperand word).Progresses below s := by
  intro room way
  unfold keywordOperand
  split <;> simp <;> grind -ring -linarith

lemma primary_progresses (hbound : 16 * s.cursor.left + 1 ≤ below) :
    primary.Progresses below s := by
  intro room way
  simp [primary]
  rcases hhere : s.cursor.here? with _ | kind
  · simp
    grind -ring -linarith
  cases kind with
  | keyword word role =>
    cases role with
    | contextual =>
      simp
      grind -ring -linarith
    | _ =>
      exact (keywordOperand_progresses _).imp (by grind -ring -linarith) (by grind -ring -linarith)
  | punctuator mark =>
    cases mark with
    | leftSquare =>
      exact (collectionLiteral_progresses (by grind -ring -linarith) hbound).imp
        (by grind -ring -linarith) (by grind -ring -linarith)
    | _ =>
      simp
      grind -ring -linarith
  | _ =>
    simp
    grind -ring -linarith

lemma arguments_progresses (closer : Punctuator) (hbound : 16 * s.cursor.left + 2 ≤ below) :
    (arguments closer).Progresses below s := by
  intro room way
  simp [arguments, argumentLabel]
  refine ⟨by grind -ring -linarith, fun _ => ?_⟩
  split
  · simp
    grind -ring -linarith
  · simp
    refine ⟨fun _ => ?_, fun _ => ?_⟩ <;> grind -ring -linarith

lemma suffixes_progresses (hbound : 16 * s.cursor.left ≤ below) :
    suffixes.Progresses below s := by
  intro room way
  simp [suffixes, suffixThen]
  rcases hglued : s.cursor.glued? 0 with _ | kind
  · simp
    grind -ring -linarith
  cases kind with
  | punctuator mark =>
    cases mark with
    | period =>
      simp
      split <;> simp <;> grind -ring -linarith
    | _ =>
      simp
      grind -ring -linarith
  | _ =>
    simp
    grind -ring -linarith

lemma attemptKind_progresses : attemptKind.Progresses below s := by
  intro room way
  simp [attemptKind]
  grind -ring -linarith

lemma operand_progresses (hbound : 16 * s.cursor.left + 1 ≤ below) :
    operand.Progresses below s := by
  intro room way
  simp [operand]
  refine ⟨fun _ => (attemptKind_progresses).imp ?_ ?_, fun _ => ?_⟩
  · grind -ring -linarith
  · grind -ring -linarith
  · split
    · simp
      refine ⟨fun _ => ?_, fun _ => ?_⟩ <;> grind -ring -linarith
    · simp
      refine (primary_progresses hbound).imp ?_ ?_ <;> grind -ring -linarith

lemma operations_progresses (floor : Nat) (hbound : 16 * s.cursor.left ≤ below) :
    (operations floor).Progresses below s := by
  intro room way
  simp [operations]
  split <;> simp <;> grind -ring -linarith

lemma expression_progresses (floor : Nat) (hbound : 16 * s.cursor.left + 1 ≤ below) :
    (expression floor).Progresses below s := by
  intro room way
  simp [expression]
  refine (operand_progresses hbound).imp ?_ ?_ <;> grind -ring -linarith

/-! ### Patterns -/

lemma patterns_progresses (mode : PatternMode) (hbound : 16 * s.cursor.left + 3 ≤ below) :
    (patterns mode).Progresses below s := by
  intro room way
  simp [patterns]
  grind -ring -linarith

lemma tuplePattern_progresses (mode : PatternMode) (hleft : 0 < s.cursor.left)
    (hbound : 16 * s.cursor.left + 2 ≤ below) : (tuplePattern mode).Progresses below s := by
  intro room way
  simp [tuplePattern, tupleElements]
  grind -ring -linarith

lemma untypedPattern_progresses (hbound : 16 * s.cursor.left + 2 ≤ below) :
    untypedPattern.Progresses below s := by
  intro room way
  simp [untypedPattern]
  split
  · simp
    grind -ring -linarith
  · exact tuplePattern_progresses .declared (by grind -ring -linarith) hbound room way
  · split <;> simp <;> grind -ring -linarith

lemma declaredPattern_progresses (hbound : 16 * s.cursor.left + 2 ≤ below) :
    declaredPattern.Progresses below s := by
  intro room way
  simp [declaredPattern]
  refine (untypedPattern_progresses hbound).imp ?_ ?_ <;> grind -ring -linarith

lemma enumCase_progresses (mode : PatternMode) (type : Option String) (name : String)
    (hbound : 16 * s.cursor.left + 2 ≤ below) :
    (enumCase mode type name).Progresses below s := by
  intro room way
  simp [enumCase]
  refine ⟨fun _ => (tuplePattern_progresses mode ?_ ?_).imp ?_ ?_, ?_⟩ <;> grind -ring -linarith

lemma caseFollows_progresses : caseFollows.Progresses below s := by
  intro room way
  simp [caseFollows]
  split <;> simp <;> grind -ring -linarith

lemma comparedValueOrError_progresses (hbound : 16 * s.cursor.left + 2 ≤ below) :
    comparedValueOrError.Progresses below s := by
  intro room way
  simp [comparedValueOrError]
  grind -ring -linarith

lemma unmarkedPattern_progresses (mode : PatternMode)
    (hbound : 16 * s.cursor.left + 2 ≤ below) : (unmarkedPattern mode).Progresses below s := by
  intro room way
  simp [unmarkedPattern, comparedValue]
  split
  · simp
    grind -ring -linarith
  simp
  refine ⟨fun _ => ?_, fun _ _ => ?_⟩
  · grind -ring -linarith
  split
  · simp
    grind -ring -linarith
  · refine (tuplePattern_progresses mode ?_ hbound).imp ?_ ?_ <;> grind -ring -linarith
  · simp
    refine ⟨fun name _ => (enumCase_progresses mode none name ?_).imp ?_ ?_, ?_⟩ <;> grind -ring -linarith
  · simp
    refine caseFollows_progresses.imp (fun way follows t ht => ⟨fun _ => ?_, fun _ => ?_⟩) ?_
    · refine ⟨fun case _ => (enumCase_progresses mode _ case ?_).imp ?_ ?_, ?_⟩
      all_goals grind -ring -linarith
    · grind -ring -linarith
    · grind -ring -linarith
  · simp
    refine caseFollows_progresses.imp (fun way follows t ht => ⟨fun _ => ?_, fun _ => ?_⟩) ?_
    · refine ⟨fun case _ => (enumCase_progresses mode _ case ?_).imp ?_ ?_, ?_⟩
      all_goals grind -ring -linarith
    · grind -ring -linarith
    · grind -ring -linarith
  · split
    · split
      · simp
        grind -ring -linarith
      · exact (comparedValueOrError_progresses hbound room way)
    · exact (comparedValueOrError_progresses hbound room way)

lemma patternMarks_progresses (hbound : 16 * s.cursor.left ≤ below) :
    patternMarks.Progresses below s := by
  intro room way
  simp [patternMarks]
  grind -ring -linarith

lemma testedPattern_progresses (mode : PatternMode) (hbound : 16 * s.cursor.left + 2 ≤ below) :
    (testedPattern mode).Progresses below s := by
  intro room way
  simp [testedPattern]
  refine (unmarkedPattern_progresses mode hbound).imp ?_ ?_ <;> grind -ring -linarith

lemma pattern_progresses (mode : PatternMode) (hbound : 16 * s.cursor.left + 2 ≤ below) :
    (pattern mode).Progresses below s := by
  cases mode with
  | declared => exact declaredPattern_progresses hbound
  | matching => exact testedPattern_progresses .matching hbound
  | binding => exact testedPattern_progresses .binding hbound

end Grammar

end FrontEnd
