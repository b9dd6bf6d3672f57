/-
Types, patterns and expressions keep abreast.

What types read ends on a token of the list, or not at all.  An expression may have to end before an
operator that is the last token of the list, for it cannot be told there what comes behind the operator.
-/
import FrontEnd.Proofs.Sequel.Abreast

namespace FrontEnd

namespace Grammar

open Procedure

variable {q : Sequel} {s : State}

/-! ### Types -/

lemma collectionType_paces (hs : s.cursor.here? ≠ none) :
    collectionType.Paces q s fun _ _ => False := by
  simp +contextual [collectionType, Paces, hs, Cursor.here?_advance]

lemma tupleTypeElements_paces (hs : s.cursor.here? ≠ none) :
    tupleTypeElements.Paces q s fun _ _ => False := by
  simp +contextual [tupleTypeElements, Paces, hs, Cursor.here?_advance]

lemma tupleOrFunctionType_paces (hs : s.cursor.here? ≠ none) :
    tupleOrFunctionType.Paces q s fun _ _ => False := by
  simp only [tupleOrFunctionType, Paces]
  refine (tupleTypeElements_paces hs).bind (fun elements s' hs' => ?_) fun _ _ h => h.elim
  simp +contextual [hs', Cursor.here?_advance]

lemma unmarkedType_paces (hs : s.cursor.here? ≠ none) :
    unmarkedType.Paces q s fun _ _ => False := by
  simp only [unmarkedType, Paces, abreast_here_bind _ hs]
  split
  · exact collectionType_paces hs
  · exact tupleOrFunctionType_paces hs
  · simp [hs]
  · simp

lemma type_paces (hs : s.cursor.here? ≠ none) : type.Paces q s fun _ _ => False := by
  simp only [type, Paces]
  refine (unmarkedType_paces hs).bind (fun base s' hs' => ?_) fun _ _ h => h.elim
  simp [hs']

lemma typeMarks_paces (hs : s.cursor.here? ≠ none) : typeMarks.Paces q s fun _ _ => False := by
  simp [typeMarks, Paces, hs]
  split
  next h => simp [hs, h]
  next h => simp [hs, h]
  · simp [hs]

lemma types_paces (hs : s.cursor.here? ≠ none) : types.Paces q s fun _ _ => False := by
  simp +contextual [types, Paces, hs, Cursor.here?_advance]

lemma genericArguments_paces (hs : s.cursor.here? ≠ none) :
    genericArguments.Paces q s fun _ _ => False := by
  simp +contextual [genericArguments, Paces, hs, Cursor.here?_advance]

lemma typePath_paces (hs : s.cursor.here? ≠ none) : typePath.Paces q s fun _ _ => False := by
  simp only [typePath, Paces, abreast_here_bind _ hs]
  split
  · simp
  · refine (genericArguments_paces hs).bind (fun arguments s' hs' => ?_) fun _ _ h => h.elim
    have hmark : TokenKind.name? true (.punctuator .semicolon) = none := rfl
    simp +contextual [pathContinues, hs', hmark]
    intro hglued hname _
    have hnext : s'.cursor.glued? 1 ≠ none := fun h => by simp [h] at hname
    simp [hnext]

/-! ### Patterns -/

lemma tupleElements_paces (mode : PatternMode) (hs : s.cursor.here? ≠ none) :
    (tupleElements mode).Paces q s fun _ _ => False := by
  simp +contextual [tupleElements, Paces, hs, Cursor.here?_advance, Cursor.OperatorLast.dying]

lemma patterns_paces (mode : PatternMode) (hs : s.cursor.here? ≠ none) :
    (patterns mode).Paces q s fun _ s' => mode ≠ .declared ∧ s'.cursor.OperatorLast := by
  simp +contextual [patterns, Paces, hs, Cursor.here?_advance, Cursor.OperatorLast.dying]

lemma tuplePattern_paces (mode : PatternMode) (hs : s.cursor.here? ≠ none) :
    (tuplePattern mode).Paces q s fun _ _ => False :=
  (tupleElements_paces mode hs).bind (fun elements s' hs' => by simp [hs']) fun _ _ h => h.elim

lemma untypedPattern_paces (hs : s.cursor.here? ≠ none) :
    untypedPattern.Paces q s fun _ _ => False := by
  simp only [untypedPattern, Paces, abreast_here_bind _ hs]
  split
  · simp [hs]
  · exact tuplePattern_paces .declared hs
  · split <;> simp [hs]

lemma declaredPattern_paces (hs : s.cursor.here? ≠ none) :
    declaredPattern.Paces q s fun _ _ => False := by
  simp only [declaredPattern, Paces, abreast_startLocation_bind _ hs]
  refine (untypedPattern_paces hs).bind (fun node s' hs' => ?_) fun _ _ h => h.elim
  simp +contextual [hs', Cursor.here?_advance]

lemma enumCase_paces (mode : PatternMode) (type : Option String) (name : String)
    (hs : s.cursor.here? ≠ none) : (enumCase mode type name).Paces q s fun _ _ => False := by
  simp only [enumCase, Paces]
  simp +contextual [hs]
  intro hglued
  have hpayload : (ranged (tuplePattern mode)).Paces q (s.moveTo s.cursor.shift) fun _ _ => False :=
    Paces.ranged (by simp [hglued]) ((tuplePattern_paces mode (by simp [hglued])).imp
      (fun _ _ h => h) fun _ _ h => h.elim)
  refine hpayload.bind (fun payload s' hs' => ?_) fun _ _ h => h.elim
  simp [hs']

lemma caseFollows_abreast (hs : s.cursor.here? ≠ none) :
    caseFollows.Abreast q s
      (fun follows s' => s' = s ∧
        (follows = true → s.cursor.glued? 0 ≠ none ∧ s.cursor.glued? 1 ≠ none))
      fun _ _ => False := by
  simp only [caseFollows, abreast_isGlued_bind _ hs (show Punctuator.period ≠ .semicolon by simp)]
  refine ⟨fun hglued => ?_, fun _ => by simp⟩
  have hsome : s.cursor.glued? 0 ≠ none := by simp [hglued]
  rw [if_true, abreast_glued_one_bind _ hs hsome rfl]
  split
  next h => simp [h, hglued]
  next h => simp [h, hglued]
  · simp

/-- A name in a pattern: a case of a type, a name that is bound, or a value to compare with. -/
lemma namedPattern_abreast (mode : PatternMode) (name : String) (hs : s.cursor.here? ≠ none) :
    (do
      if ← caseFollows then
        shift
        shift
        let case ← expectName
        enumCase mode (some name) case
      else if mode = .binding then
        return (.identifier · name)
      else
        comparedValue : Procedure (Range → Pattern)).Paces q s fun _ s' => s'.cursor.OperatorLast := by
  refine (caseFollows_abreast hs).bind (fun follows s' hfollows => ?_) fun _ _ h => h.elim
  obtain ⟨rfl, hglued⟩ := hfollows
  simp only [abreast_ite]
  refine ⟨fun hcase => ?_, fun _ => ⟨fun _ => by simp [hs], fun _ => ?_⟩⟩
  · obtain ⟨hperiod, hname⟩ := hglued hcase
    simp [hs, hperiod, hname]
    refine fun case _ => (enumCase_paces mode _ case ?_).imp (fun _ _ h => h) fun _ _ h => h.elim
    rwa [State.cursor_moveTo, Cursor.here?_shift_shift_of_glued?_ne_none hname]
  · simp +contextual [comparedValue, hs]

lemma comparedValueOrError_paces (hs : s.cursor.here? ≠ none) :
    comparedValueOrError.Paces q s fun _ s' => s'.cursor.OperatorLast := by
  simp +contextual [comparedValueOrError, Paces, hs]

lemma unmarkedPattern_paces (mode : PatternMode) (hs : s.cursor.here? ≠ none) :
    (unmarkedPattern mode).Paces q s fun _ s' => s'.cursor.OperatorLast := by
  simp only [unmarkedPattern, Paces, abreast_here_bind _ hs]
  split
  · simp
  next kind hkind =>
    simp only [abreast_ite]
    refine ⟨fun _ => by simp +contextual [hs, Cursor.here?_advance], fun _ => ?_⟩
    split
    · simp [hs]
    · exact (tuplePattern_paces mode hs).imp (fun _ _ h => h) fun _ _ h => h.elim
    · rw [abreast_shift_bind _ hs]
      refine ⟨fun hname => ?_, fun hnone => by simp [hnone]⟩
      rw [abreast_expectName_bind _ hname]
      exact fun name _ => (enumCase_paces mode none name hname).imp (fun _ _ h => h) fun _ _ h => h.elim
    · exact namedPattern_abreast mode _ hs
    · exact namedPattern_abreast mode _ hs
    · split
      · rw [abreast_ite]
        exact ⟨fun _ => by simp [hs], fun _ => comparedValueOrError_paces hs⟩
      · exact comparedValueOrError_paces hs

lemma patternMarks_paces (hs : s.cursor.here? ≠ none) :
    patternMarks.Paces q s fun _ _ => False := by
  simp +contextual [patternMarks, Paces, hs]

lemma testedPattern_paces (mode : PatternMode) (hs : s.cursor.here? ≠ none) :
    (testedPattern mode).Paces q s fun _ s' => s'.cursor.OperatorLast := by
  simp only [testedPattern, Paces, abreast_startLocation_bind _ hs]
  refine (unmarkedPattern_paces mode hs).bind (fun node s' hs' => ?_) fun node s' hlast => ?_
  · simp +contextual [hs']
  · simp +contextual [hlast]

lemma pattern_paces (mode : PatternMode) (hs : s.cursor.here? ≠ none) :
    (pattern mode).Paces q s fun _ s' => mode ≠ .declared ∧ s'.cursor.OperatorLast := by
  cases mode with
  | declared => exact (declaredPattern_paces hs).imp (fun _ _ h => h) fun _ _ h => h.elim
  | matching | binding => exact (testedPattern_paces _ hs).imp (fun _ _ h => h) fun _ _ h => ⟨by simp, h⟩

/-! ### Expressions -/

lemma collectionLiteral_paces (hs : s.cursor.here? ≠ none) :
    collectionLiteral.Paces q s fun _ _ => False := by
  simp +contextual [collectionLiteral, Paces, hs, Cursor.here?_advance, Cursor.OperatorLast.dying]

lemma elements_paces (hs : s.cursor.here? ≠ none) : elements.Paces q s fun _ _ => False := by
  simp +contextual [elements, Paces, hs, Cursor.here?_advance, Cursor.OperatorLast.dying]

lemma entries_paces (hs : s.cursor.here? ≠ none) : entries.Paces q s fun _ _ => False := by
  simp +contextual [entries, Paces, hs, Cursor.here?_advance, Cursor.OperatorLast.dying]

/-- A label leaves the cursor where it is. -/
lemma argumentLabel_abreast (hs : s.cursor.here? ≠ none) :
    argumentLabel.Abreast q s (fun _ s' => s' = s) fun _ _ => False := by
  simp only [argumentLabel, abreast_here_bind _ hs]
  split
  · simp
  · simp [hs]

lemma arguments_paces (closer : Punctuator) (hs : s.cursor.here? ≠ none) :
    (arguments closer).Paces q s fun _ _ => closer = .equal := by
  by_cases hcloser : closer = .equal
  · exact ((yields_true fun _ _ => trivial).imp fun _ _ _ => hcloser).abreast
  simp only [arguments, Paces, abreast_isHere_bind _ _ hs]
  refine ⟨fun _ => by simp [hs], fun _ => ?_⟩
  refine (argumentLabel_abreast hs).bind (fun label s' hs' => ?_) fun _ _ h => h.elim
  subst hs'
  simp +contextual [hs, hcloser, Cursor.here?_advance, Cursor.OperatorLast.dying]

lemma suffixThen_paces (suffix : Suffix) (hs : s.cursor.here? ≠ none) :
    (suffixThen suffix).Paces q s fun _ _ => False := by
  simp +contextual [suffixThen, Paces, hs]

lemma suffixes_paces (hs : s.cursor.here? ≠ none) : suffixes.Paces q s fun _ _ => False := by
  simp only [suffixes, Paces]
  rw [abreast_glued_zero_bind _ hs rfl]
  split
  next h => simp +contextual [suffixThen, hs, h, Cursor.here?_advance]
  next h => simp +contextual [suffixThen, hs, h, Cursor.here?_advance]
  next h =>
    simp +contextual [hs, h]
    intro hname
    rw [abreast_here_bind _ hname]
    split
    · exact suffixThen_paces _ hname
    · simp
  next h => simp +contextual [suffixThen, hs, h]
  · simp [hs]

lemma keywordOperand_paces (word : String) (hs : s.cursor.here? ≠ none) :
    (keywordOperand word).Paces q s fun _ _ => False := by
  unfold keywordOperand
  split <;> simp [Paces, hs]

lemma primary_paces (hs : s.cursor.here? ≠ none) : primary.Paces q s fun _ _ => False := by
  refine Paces.ranged hs ?_
  simp only [Paces, abreast_here_bind _ hs]
  rcases s.cursor.here? with _ | kind
  · simp
  cases kind with
  | keyword word role =>
    cases role with
    | contextual => simp [hs]
    | _ => exact (keywordOperand_paces _ hs).imp (fun _ _ h => h) fun _ _ h => h.elim
  | punctuator mark =>
    cases mark with
    | period =>
      simp +contextual [hs]
      intro hname
      rw [abreast_expectName_bind _ hname]
      simp [hname]
    | leftParen => simp +contextual [hs, Cursor.here?_advance]
    | leftSquare => exact (collectionLiteral_paces hs).imp (fun _ _ h => h) fun _ _ h => h.elim
    | _ => simp
  | _ => simp [hs]

lemma attemptKind_paces (hs : s.cursor.here? ≠ none) : attemptKind.Paces q s fun _ _ => False := by
  simp +contextual [attemptKind, Paces, hs]

lemma operand_paces (hs : s.cursor.here? ≠ none) :
    operand.Paces q s fun _ s' => s'.cursor.OperatorLast := by
  simp only [operand, Paces, abreast_isWordHere_bind _ _ hs, abreast_ite]
  refine ⟨fun _ => Paces.ranged hs ?_, fun _ => ?_⟩
  · refine (attemptKind_paces hs).bind (fun kind s' hs' => ?_) fun _ _ h => h.elim
    simp +contextual [hs', Cursor.here?_advance]
  rw [abreast_here_bind _ hs]
  split
  · refine Paces.ranged hs (Abreast.glued hs (fun hglued => ?_) fun hglued => by simp)
    simp +contextual [hs, hglued]
  · refine (primary_paces hs).bind (fun base s' hs' => ?_) fun _ _ h => h.elim
    simp +contextual [hs']

lemma operations_paces (floor : Nat) (hs : s.cursor.here? ≠ none) :
    (operations floor).Paces q s fun _ s' => s'.cursor.OperatorLast := by
  refine Abreast.binaryAhead hs (fun _ => ?_) fun hlast => ?_
  · split
    · simp [hs]
    next operator hahead =>
      simp +contextual [hs, Cursor.here?_advance]
  · exact operations_yields floor hlast

lemma expression_paces (floor : Nat) (hs : s.cursor.here? ≠ none) :
    (expression floor).Paces q s fun _ s' => s'.cursor.OperatorLast := by
  simp only [expression, Paces, abreast_startLocation_bind _ hs]
  refine (operand_paces hs).bind (fun first s' hs' => ?_) fun first s' hlast => ?_
  · simp +contextual [hs']
  · simp +contextual [hlast]

end Grammar

end FrontEnd
