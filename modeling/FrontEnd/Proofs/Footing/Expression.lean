/-
Types, expressions and patterns keep their footing.
-/
import FrontEnd.Proofs.Footing.Basic

namespace FrontEnd

namespace Grammar

open Procedure

variable {s : State}

/-! ### Types -/

lemma collectionType_stands : collectionType.Stands s := by
  simp [collectionType, Stands]

lemma tupleTypeElements_stands : tupleTypeElements.Stands s := by
  simp [tupleTypeElements, Stands]

lemma tupleOrFunctionType_stands : tupleOrFunctionType.Stands s := by
  simp [tupleOrFunctionType, Stands]
  refine tupleTypeElements_stands.imp ?_ ?_ <;> grind -ring -linarith

lemma unmarkedType_stands (hpos : 0 < s.cursor.position) (hclear : s.cursor.Clear) :
    unmarkedType.Stands s := by
  simp [unmarkedType, Stands]
  split
  · exact collectionType_stands
  · exact tupleOrFunctionType_stands
  · simp
    grind -ring -linarith
  · simp
    grind -ring -linarith

lemma type_stands (hpos : 0 < s.cursor.position) (hclear : s.cursor.Clear) : type.Stands s := by
  simp [type, Stands]
  refine (unmarkedType_stands hpos hclear).imp ?_ ?_ <;> grind -ring -linarith

lemma typeMarks_stands (hpos : 0 < s.cursor.position) (hclear : s.cursor.Clear) :
    typeMarks.Stands s := by
  simp [typeMarks, Stands]
  refine ⟨hclear, ?_⟩
  split <;> simp <;> grind -ring -linarith

lemma types_stands (hpos : 0 < s.cursor.position) (hclear : s.cursor.Clear) :
    types.Stands s := by
  simp [types, Stands]
  grind -ring -linarith

lemma genericArguments_stands (hpos : 0 < s.cursor.position) (hclear : s.cursor.Clear) :
    genericArguments.Stands s := by
  simp [genericArguments, Stands]
  grind -ring -linarith

lemma typePath_stands (hpos : 0 < s.cursor.position) (hclear : s.cursor.Clear) :
    typePath.Stands s := by
  simp [typePath, pathContinues, Stands]
  split
  · simp
    grind -ring -linarith
  · simp
    refine (genericArguments_stands hpos hclear).imp ?_ ?_ <;> grind -ring -linarith

/-! ### Expressions -/

lemma collectionLiteral_stands : collectionLiteral.Stands s := by
  simp [collectionLiteral, Stands]
  grind -ring -linarith

lemma elements_stands : elements.Stands s := by
  simp [elements, Stands]

lemma entries_stands : entries.Stands s := by
  simp [entries, Stands]
  grind -ring -linarith

lemma keywordOperand_stands (word : String) (hpos : 0 < s.cursor.position)
    (hclear : s.cursor.Clear) : (keywordOperand word).Stands s := by
  unfold keywordOperand
  split <;> simp [Stands] <;> grind -ring -linarith

lemma primary_stands (hpos : 0 < s.cursor.position) (hclear : s.cursor.Clear) :
    primary.Stands s := by
  simp [primary, Stands]
  refine ⟨hclear.onLine, ?_⟩
  rcases s.cursor.here? with _ | kind
  · simp
    grind -ring -linarith
  cases kind with
  | keyword word role =>
    cases role with
    | contextual =>
      simp
      grind -ring -linarith
    | _ =>
      exact (keywordOperand_stands _ hpos hclear).imp (by grind -ring -linarith)
        (by grind -ring -linarith)
  | punctuator mark =>
    cases mark with
    | leftSquare =>
      exact collectionLiteral_stands.imp (by grind -ring -linarith) (by grind -ring -linarith)
    | _ =>
      simp
      grind -ring -linarith
  | _ =>
    simp
    grind -ring -linarith

lemma arguments_stands (closer : Punctuator) (hpos : 0 < s.cursor.position)
    (hclear : s.cursor.Clear) : (arguments closer).Stands s := by
  simp [arguments, argumentLabel, Stands]
  refine ⟨by grind -ring -linarith, fun _ => ?_⟩
  split
  · simp
    grind -ring -linarith
  · simp
    grind -ring -linarith

lemma clear_of_memberName? {name : String} (h : s.cursor.here?.bind memberName? = some name) :
    s.cursor.Clear := by
  refine Cursor.clear_of_bind h fun kind hkind => ?_
  cases kind <;>
    simp_all [TokenKind.isBlank, TokenKind.isInlineBlank, TokenKind.isLineBreak, memberName?,
      TokenKind.anyName?]

lemma suffixes_stands (hpos : 0 < s.cursor.position) (hclear : s.cursor.Clear) :
    suffixes.Stands s := by
  simp [suffixes, suffixThen, Stands]
  refine ⟨hclear, ?_⟩
  rcases hglued : s.cursor.glued? 0 with _ | kind
  · simp
    grind -ring -linarith
  cases kind with
  | punctuator mark =>
    cases mark with
    | period =>
      simp
      split
      next name hname =>
        have hname := clear_of_memberName? (s := s.moveTo s.cursor.shift.shift) hname
        simp
        grind -ring -linarith
      next =>
        simp
        grind -ring -linarith
    | _ =>
      simp
      grind -ring -linarith
  | _ =>
    simp
    grind -ring -linarith

lemma attemptKind_stands (hpos : 0 < s.cursor.position) (hclear : s.cursor.Clear) :
    attemptKind.Stands s := by
  simp [attemptKind, Stands]
  grind -ring -linarith

lemma operand_stands (hpos : 0 < s.cursor.position) (hclear : s.cursor.Clear) :
    operand.Stands s := by
  simp [operand, Stands]
  refine ⟨fun _ => ⟨hclear.onLine, (attemptKind_stands hpos hclear).imp ?_ ?_⟩, fun _ => ?_⟩
  · grind -ring -linarith
  · grind -ring -linarith
  · split
    · simp
      have hglued := Cursor.clear_shift_of_glued?_ne_none (c := s.cursor)
      grind -ring -linarith
    · simp
      refine (primary_stands hpos hclear).imp ?_ ?_ <;> grind -ring -linarith

lemma operations_stands (floor : Nat) (hpos : 0 < s.cursor.position) (hclear : s.cursor.Clear) :
    (operations floor).Stands s := by
  simp [operations, Stands]
  refine ⟨hclear, ?_⟩
  split <;> simp <;> grind -ring -linarith

lemma expression_stands (floor : Nat) (hpos : 0 < s.cursor.position) (hclear : s.cursor.Clear) :
    (expression floor).Stands s := by
  simp [expression, Stands]
  refine ⟨hclear.onLine, (operand_stands hpos hclear).imp ?_ ?_⟩ <;> grind -ring -linarith

/-! ### Patterns -/

lemma patterns_stands (mode : PatternMode) (hpos : 0 < s.cursor.position)
    (hclear : s.cursor.Clear) : (patterns mode).Stands s := by
  simp [patterns, Stands]
  grind -ring -linarith

lemma tuplePattern_stands (mode : PatternMode) : (tuplePattern mode).Stands s := by
  simp [tuplePattern, tupleElements, Stands]

lemma untypedPattern_stands (hpos : 0 < s.cursor.position) (hclear : s.cursor.Clear) :
    untypedPattern.Stands s := by
  simp [untypedPattern, Stands]
  split
  · simp
    grind -ring -linarith
  · exact tuplePattern_stands .declared
  · split <;> simp <;> grind -ring -linarith

lemma declaredPattern_stands (hpos : 0 < s.cursor.position) (hclear : s.cursor.Clear) :
    declaredPattern.Stands s := by
  simp [declaredPattern, Stands]
  refine ⟨hclear.onLine, (untypedPattern_stands hpos hclear).imp ?_ ?_⟩ <;> grind -ring -linarith

lemma enumCase_stands (mode : PatternMode) (type : Option String) (name : String)
    (hpos : 0 < s.cursor.position) (hclear : s.cursor.Clear) :
    (enumCase mode type name).Stands s := by
  simp [enumCase, Stands]
  refine ⟨hclear, fun _ => ⟨?_, ?_, (tuplePattern_stands mode).imp ?_ ?_⟩, ?_⟩ <;> grind -ring -linarith

lemma comparedValueOrError_stands (hpos : 0 < s.cursor.position) (hclear : s.cursor.Clear) :
    comparedValueOrError.Stands s := by
  simp [comparedValueOrError, Stands]
  grind -ring -linarith

lemma unmarkedPattern_stands (mode : PatternMode) (hpos : 0 < s.cursor.position)
    (hclear : s.cursor.Clear) : (unmarkedPattern mode).Stands s := by
  simp [unmarkedPattern, comparedValue, Stands]
  split
  · simp
    grind -ring -linarith
  next kind hkind =>
  simp
  refine fun _ _ => ?_
  cases kind with
  | identifier name | quotedIdentifier name =>
    simp [caseFollows]
    refine ⟨hclear, fun hdot => ⟨⟨hclear, by simp [hdot]⟩, ?_⟩, fun _ => by grind -ring -linarith⟩
    split
    · simp
      refine ⟨hclear, by grind -ring -linarith, fun case _ => ?_, by grind -ring -linarith⟩
      exact enumCase_stands mode _ case (by simp) (by grind -ring -linarith)
    · simp
      refine ⟨hclear, by grind -ring -linarith, fun case _ => ?_, by grind -ring -linarith⟩
      exact enumCase_stands mode _ case (by simp) (by grind -ring -linarith)
    · simp
      grind -ring -linarith
  | keyword word role =>
    by_cases hwildcard : word = "_" ∧ role = .pattern
    · obtain ⟨rfl, rfl⟩ := hwildcard
      simp
      grind -ring -linarith
    · simp [hwildcard]
      split
      · split
        · simp
          grind -ring -linarith
        · exact comparedValueOrError_stands hpos hclear
      · exact comparedValueOrError_stands hpos hclear
  | punctuator mark =>
    cases mark with
    | leftParen => exact tuplePattern_stands mode
    | period =>
      simp
      refine ⟨hclear, fun name _ => ?_, ?_⟩
      · exact enumCase_stands mode none name (by simp) (by grind -ring -linarith)
      · grind -ring -linarith
    | _ => exact comparedValueOrError_stands hpos hclear
  | _ => exact comparedValueOrError_stands hpos hclear

lemma patternMarks_stands (hpos : 0 < s.cursor.position) (hclear : s.cursor.Clear) :
    patternMarks.Stands s := by
  simp [patternMarks, Stands]
  grind -ring -linarith

lemma testedPattern_stands (mode : PatternMode) (hpos : 0 < s.cursor.position)
    (hclear : s.cursor.Clear) : (testedPattern mode).Stands s := by
  simp [testedPattern, Stands]
  refine ⟨hclear.onLine, (unmarkedPattern_stands mode hpos hclear).imp ?_ ?_⟩ <;> grind -ring -linarith

lemma pattern_stands (mode : PatternMode) (hpos : 0 < s.cursor.position)
    (hclear : s.cursor.Clear) : (pattern mode).Stands s := by
  cases mode with
  | declared => exact declaredPattern_stands hpos hclear
  | matching => exact testedPattern_stands .matching hpos hclear
  | binding => exact testedPattern_stands .binding hpos hclear

end Grammar

end FrontEnd
