/-
Types, expressions and patterns match their brackets.
-/
import FrontEnd.Grammar.Expression
import FrontEnd.Grammar.Pattern
import FrontEnd.Grammar.Type
import FrontEnd.Proofs.Brackets.Basic

namespace FrontEnd

namespace Grammar

open Procedure

variable {tokens : List Token} {s : State}

/-! ### Types -/

lemma collectionType_settles (hlist : s.cursor.toList = tokens)
    (hhere : s.cursor.here? = some (.punctuator .leftSquare)) :
    collectionType.Settles tokens s.cursor.unmatched s := by
  simp [collectionType, Settles]
  grind -ring -linarith

lemma tupleTypeElements_settles (hlist : s.cursor.toList = tokens)
    (hhere : s.cursor.here? = some (.punctuator .leftParen)) :
    tupleTypeElements.Settles tokens s.cursor.unmatched s := by
  simp [tupleTypeElements, Settles]
  grind -ring -linarith

lemma tupleOrFunctionType_settles (hlist : s.cursor.toList = tokens)
    (hhere : s.cursor.here? = some (.punctuator .leftParen)) :
    tupleOrFunctionType.Settles tokens s.cursor.unmatched s := by
  simp [tupleOrFunctionType, Settles]
  refine (tupleTypeElements_settles hlist hhere).imp fun elements t ht hleft => ?_
  grind -ring -linarith

lemma unmarkedType_settles (hlist : s.cursor.toList = tokens) :
    unmarkedType.Settles tokens s.cursor.unmatched s := by
  simp [unmarkedType, Settles]
  split
  next hhere => exact collectionType_settles hlist hhere
  next hhere => exact tupleOrFunctionType_settles hlist hhere
  · simp
    grind -ring -linarith
  · simp

lemma type_settles (hlist : s.cursor.toList = tokens) :
    type.Settles tokens s.cursor.unmatched s := by
  simp [type, Settles]
  refine (unmarkedType_settles hlist).imp ?_
  grind -ring -linarith

lemma typeMarks_settles (hlist : s.cursor.toList = tokens) :
    typeMarks.Settles tokens s.cursor.shift.unmatched s := by
  simp [typeMarks, Settles]
  split <;> simp <;> grind -ring -linarith

lemma types_settles (hlist : s.cursor.toList = tokens) :
    types.Settles tokens s.cursor.unmatched s := by
  simp [types, Settles]
  grind -ring -linarith

lemma genericArguments_settles (hlist : s.cursor.toList = tokens) :
    genericArguments.Settles tokens s.cursor.shift.unmatched s := by
  simp [genericArguments, Settles]
  grind -ring -linarith

lemma typePath_settles (hlist : s.cursor.toList = tokens) :
    typePath.Settles tokens s.cursor.unmatched s := by
  simp [typePath, pathContinues, Settles]
  split
  · simp
  next hname =>
    simp
    refine (genericArguments_settles hlist).imp ?_
    grind -ring -linarith

/-! ### Expressions -/

lemma collectionLiteral_settles (hlist : s.cursor.toList = tokens)
    (hhere : s.cursor.here? = some (.punctuator .leftSquare)) :
    collectionLiteral.Settles tokens s.cursor.unmatched s := by
  simp [collectionLiteral, Settles]
  grind -ring -linarith

/-- Elements behind the first one end before the bracket that closes them. -/
lemma elements_yields (hlist : s.cursor.toList = tokens) :
    elements.Yields (matching tokens) s fun a s' => Goal.elements.Matches tokens s.cursor a s'.cursor := by
  simp [elements]
  grind -ring -linarith

lemma entries_yields (hlist : s.cursor.toList = tokens)
    (hhere : s.cursor.following? .anyLine = some (.punctuator .colon)) :
    entries.Yields (matching tokens) s fun a s' => Goal.entries.Matches tokens s.cursor a s'.cursor := by
  simp [entries]
  grind -ring -linarith

lemma keywordOperand_settles (word : String) (hlist : s.cursor.toList = tokens)
    (hword : s.cursor.shift.unmatched = s.cursor.unmatched) :
    (keywordOperand word).Settles tokens s.cursor.unmatched s := by
  unfold keywordOperand
  split <;> simp [Settles] <;> grind -ring -linarith

lemma primary_settles (hlist : s.cursor.toList = tokens) :
    primary.Settles tokens s.cursor.unmatched s := by
  simp [primary, Settles]
  rcases hhere : s.cursor.here? with _ | kind
  · simp
  cases kind with
  | identifier | quotedIdentifier | integer | floating | string =>
    simp
    grind -ring -linarith
  | keyword word role =>
    cases role with
    | contextual =>
      simp
      grind -ring -linarith
    | _ =>
      exact (keywordOperand_settles _ hlist (by grind -ring -linarith)).imp
        (by grind -ring -linarith)
  | punctuator mark =>
    cases mark with
    | period | leftParen =>
      simp
      grind -ring -linarith
    | leftSquare =>
      exact (collectionLiteral_settles hlist (by grind -ring -linarith)).imp
        (by grind -ring -linarith)
    | _ => simp
  | _ => simp

lemma arguments_yields (closer : Punctuator) (hlist : s.cursor.toList = tokens) :
    (arguments closer).Yields (matching tokens) s
      fun a s' => (Goal.arguments closer).Matches tokens s.cursor a s'.cursor := by
  simp [arguments, argumentLabel]
  refine ⟨by grind -ring -linarith, fun _ => ?_⟩
  split
  · simp
    grind -ring -linarith
  · simp
    grind -ring -linarith

lemma unmatched_shift_of_memberName? {c : Cursor} {name : String}
    (h : c.here?.bind memberName? = some name) : c.shift.unmatched = c.unmatched := by
  refine Cursor.unmatched_shift_of_bind h fun kind hkind => ?_
  cases kind <;> simp_all [TokenKind.isNeutral, memberName?, TokenKind.anyName?]

lemma suffixes_settles (hlist : s.cursor.toList = tokens) :
    suffixes.Settles tokens s.cursor.shift.unmatched s := by
  simp [suffixes, suffixThen, Settles]
  rcases hglued : s.cursor.glued? 0 with _ | kind
  · simp
    exact ⟨hlist, rfl⟩
  cases kind with
  | punctuator mark =>
    cases mark with
    | period =>
      simp
      split
      next name hname =>
        have hname := unmatched_shift_of_memberName? hname
        simp
        grind -ring -linarith
      · simp
    | _ =>
      simp
      grind -ring -linarith
  | _ =>
    simp
    exact ⟨hlist, rfl⟩

lemma attemptKind_settles (hlist : s.cursor.toList = tokens) :
    attemptKind.Settles tokens s.cursor.shift.unmatched s := by
  simp [attemptKind, Settles]
  grind -ring -linarith

lemma unmatched_shift_of_unaryOperator? {c : Cursor} {operator : String}
    (h : c.here?.bind unaryOperator? = some operator) : c.shift.unmatched = c.unmatched := by
  refine Cursor.unmatched_shift_of_bind h fun kind hkind => ?_
  cases kind with
  | punctuator mark =>
    cases mark <;>
      simp_all [TokenKind.isNeutral, Punctuator.closer?, Punctuator.isCloser, unaryOperator?]
  | _ => simp_all [TokenKind.isNeutral, unaryOperator?]

lemma operand_settles (hlist : s.cursor.toList = tokens) :
    operand.Settles tokens s.cursor.unmatched s := by
  simp [operand, Settles]
  refine ⟨fun _ => (attemptKind_settles hlist).imp (by grind -ring -linarith), fun _ => ?_⟩
  split
  next operator hoperator =>
    have hoperator := unmatched_shift_of_unaryOperator? hoperator
    simp
    grind -ring -linarith
  · simp
    refine (primary_settles hlist).imp ?_
    grind -ring -linarith

lemma operations_settles (floor : Nat) (hlist : s.cursor.toList = tokens) :
    (operations floor).Settles tokens s.cursor.shift.unmatched s := by
  simp [operations, Settles]
  split <;> simp <;> grind -ring -linarith

lemma expression_settles (floor : Nat) (hlist : s.cursor.toList = tokens) :
    (expression floor).Settles tokens s.cursor.unmatched s := by
  simp [expression, Settles]
  refine (operand_settles hlist).imp ?_
  grind -ring -linarith

/-! ### Patterns -/

lemma patterns_settles (mode : PatternMode) (hlist : s.cursor.toList = tokens) :
    (patterns mode).Settles tokens s.cursor.unmatched s := by
  simp [patterns, Settles]
  grind -ring -linarith

lemma tuplePattern_settles (mode : PatternMode) (hlist : s.cursor.toList = tokens)
    (hhere : s.cursor.here? = some (.punctuator .leftParen)) :
    (tuplePattern mode).Settles tokens s.cursor.unmatched s := by
  simp [tuplePattern, tupleElements, Settles]
  grind -ring -linarith

lemma untypedPattern_settles (hlist : s.cursor.toList = tokens) :
    untypedPattern.Settles tokens s.cursor.unmatched s := by
  simp [untypedPattern, Settles]
  split
  · simp
    grind -ring -linarith
  next hhere => exact tuplePattern_settles .declared hlist hhere
  · split
    · simp
      grind -ring -linarith
    · simp

lemma declaredPattern_settles (hlist : s.cursor.toList = tokens) :
    declaredPattern.Settles tokens s.cursor.unmatched s := by
  simp [declaredPattern, Settles]
  refine (untypedPattern_settles hlist).imp ?_
  grind -ring -linarith

lemma enumCase_settles (mode : PatternMode) (type : Option String) (name : String)
    (hlist : s.cursor.toList = tokens) :
    (enumCase mode type name).Settles tokens s.cursor.shift.unmatched s := by
  simp [enumCase, Settles]
  refine ⟨fun hhere => ?_, fun _ => ⟨hlist, rfl⟩⟩
  refine (tuplePattern_settles mode (by simpa) (by grind -ring -linarith)).imp ?_
  grind -ring -linarith

lemma comparedValueOrError_settles (hlist : s.cursor.toList = tokens) :
    comparedValueOrError.Settles tokens s.cursor.unmatched s := by
  simp [comparedValueOrError, Settles]
  grind -ring -linarith

lemma unmarkedPattern_settles (mode : PatternMode) (hlist : s.cursor.toList = tokens) :
    (unmarkedPattern mode).Settles tokens s.cursor.unmatched s := by
  simp [unmarkedPattern, comparedValue, Settles]
  split
  · simp
  next kind hkind =>
  simp
  refine ⟨fun hword => ?_, fun _ _ => ?_⟩
  · have hneutral : kind.isNeutral = true := by
      cases kind <;> simp_all [TokenKind.isKeyword, TokenKind.isNeutral]
    grind -ring -linarith
  cases kind with
  | identifier name | quotedIdentifier name =>
    simp [caseFollows]
    refine ⟨fun _ => ?_, fun _ => by grind -ring -linarith⟩
    split
    · simp
      exact fun case _ => (enumCase_settles mode _ case (by simpa)).imp (by grind -ring -linarith)
    · simp
      exact fun case _ => (enumCase_settles mode _ case (by simpa)).imp (by grind -ring -linarith)
    · simp
      grind -ring -linarith
  | keyword word role =>
    by_cases hwildcard : word = "_" ∧ role = .pattern
    · obtain ⟨rfl, rfl⟩ := hwildcard
      simp
      grind -ring -linarith
    · simp [hwildcard]
      split
      next name hname =>
        have hnamed : s.cursor.here?.bind (·.name? true) = some name := by
          simpa [hkind] using hname
        have hneutral := Cursor.unmatched_shift_of_name? hnamed
        split
        · simp
          grind -ring -linarith
        · exact comparedValueOrError_settles hlist
      · exact comparedValueOrError_settles hlist
  | punctuator mark =>
    cases mark with
    | leftParen => exact tuplePattern_settles mode hlist hkind
    | period =>
      simp
      exact fun name _ =>
        (enumCase_settles mode none name (by simpa)).imp (by grind -ring -linarith)
    | _ => exact comparedValueOrError_settles hlist
  | _ => exact comparedValueOrError_settles hlist

lemma patternMarks_settles (hlist : s.cursor.toList = tokens) :
    patternMarks.Settles tokens s.cursor.shift.unmatched s := by
  simp [patternMarks, Settles]
  grind -ring -linarith

lemma testedPattern_settles (mode : PatternMode) (hlist : s.cursor.toList = tokens) :
    (testedPattern mode).Settles tokens s.cursor.unmatched s := by
  simp [testedPattern, Settles]
  refine (unmarkedPattern_settles mode hlist).imp ?_
  grind -ring -linarith

lemma pattern_settles (mode : PatternMode) (hlist : s.cursor.toList = tokens) :
    (pattern mode).Settles tokens s.cursor.unmatched s := by
  cases mode with
  | declared => exact declaredPattern_settles hlist
  | matching => exact testedPattern_settles .matching hlist
  | binding => exact testedPattern_settles .binding hlist

end Grammar

end FrontEnd
