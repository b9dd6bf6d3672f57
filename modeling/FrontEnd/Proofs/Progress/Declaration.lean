/-
Declarations lead onward.
-/
import FrontEnd.Grammar.Declaration
import FrontEnd.Proofs.Keyword
import FrontEnd.Proofs.Progress.Statement

namespace FrontEnd

namespace Grammar

open Procedure

variable {below : Nat} {s : State}

/-! ### What stands in front -/

lemma attributes_progresses (hbound : 16 * s.cursor.left ≤ below) :
    attributes.Progresses below s := by
  intro room way
  simp [attributes]
  refine ⟨fun _ => ?_, ?_⟩
  · split <;> simp <;> grind -ring -linarith
  · grind -ring -linarith

lemma modifiers_progresses (hbound : 16 * s.cursor.left ≤ below) :
    modifiers.Progresses below s := by
  intro room way
  simp [modifiers]
  split <;> simp <;> grind -ring -linarith

/-! ### Imports -/

lemma importKind_progresses : importKind.Progresses below s := by
  intro room way
  simp [importKind]
  split
  · split <;> simp <;> grind -ring -linarith
  · simp
    grind -ring -linarith

/-- The names behind a module give back the token behind them. -/
lemma submodules_meets {room : Nat} {way : List Event} (hbound : 16 * s.cursor.left ≤ below) :
    submodules.Meets ((progress below room).given fun _ _ _ => True) way s
      (fun _ _ s' => s.cursor.Onward 1 s'.cursor)
      (fun _ _ s' => s.cursor.Onward 1 s'.cursor) := by
  simp [submodules]
  split
  · simp
    grind -ring -linarith
  · simp
    split <;> simp <;> grind -ring -linarith
  · simp
    grind -ring -linarith

lemma importEnd_progresses (context : Context) (kind : ImportKind) (names : List String) :
    (importEnd context kind names).Progresses below s := by
  intro room way
  simp [importEnd]
  refine ⟨fun _ _ => ?_, fun _ => separator_progresses context room way⟩
  grind -ring -linarith

lemma importing_progresses (context : Context) (start : Location) (header : Header)
    (hbound : 16 * s.cursor.left + 4 ≤ below) :
    (importing context start header).Progresses below s := by
  intro room way
  simp [importing]
  refine importKind_progresses.imp (fun way kind t ht => ?_) ?_
  · refine ⟨fun name _ => ⟨?_, fun names u hu => ?_, ?_⟩, ?_⟩
    · grind -ring -linarith
    · refine (importEnd_progresses context kind names).imp ?_ ?_ <;> grind -ring -linarith
    · grind -ring -linarith
    · grind -ring -linarith
  · grind -ring -linarith

/-! ### Bindings, aliases and functions -/

lemma initializer_progresses (hbound : 16 * s.cursor.left ≤ below) :
    initializer.Progresses below s := by
  intro room way
  simp [initializer]
  grind -ring -linarith

lemma bindings_progresses (hbound : 16 * s.cursor.left + 3 ≤ below) :
    bindings.Progresses below s := by
  intro room way
  simp [bindings]
  refine ⟨?_, fun pattern t ht => ?_, ?_⟩
  · grind -ring -linarith
  · refine (initializer_progresses ?_).imp ?_ ?_ <;> grind -ring -linarith
  · grind -ring -linarith

lemma typeAlias_progresses (header : Header) (hbound : 16 * s.cursor.left + 4 ≤ below) :
    (typeAlias header).Progresses below s := by
  intro room way
  simp [typeAlias]
  grind -ring -linarith

lemma parameterName_progresses : parameterName.Progresses below s := by
  intro room way
  simp [parameterName]
  split <;> simp <;> grind -ring -linarith

lemma parameterNames_progresses : parameterNames.Progresses below s := by
  intro room way
  simp [parameterNames]
  refine parameterName_progresses.imp (fun way first t ht => ⟨fun _ => ht, fun _ => ?_⟩) ?_
  · refine parameterName_progresses.imp ?_ ?_ <;> grind -ring -linarith
  · grind -ring -linarith

lemma parameterDefault_progresses (hbound : 16 * s.cursor.left ≤ below) :
    parameterDefault.Progresses below s := by
  intro room way
  simp [parameterDefault]
  grind -ring -linarith

lemma parameter_progresses (hbound : 16 * s.cursor.left + 2 ≤ below) :
    parameter.Progresses below s := by
  intro room way
  simp [parameter]
  refine parameterNames_progresses.imp (fun way names t ht => ?_) ?_
  · refine ⟨fun _ => ⟨?_, fun u hu => ?_, ?_⟩, ?_⟩
    · grind -ring -linarith
    · refine (parameterDefault_progresses ?_).imp ?_ ?_ <;> grind -ring -linarith
    · grind -ring -linarith
    · grind -ring -linarith
  · grind -ring -linarith

lemma parameters_progresses (hbound : 16 * s.cursor.left + 2 ≤ below) :
    parameters.Progresses below s := by
  intro room way
  simp [parameters]
  refine (parameter_progresses hbound).imp ?_ ?_ <;> grind -ring -linarith

lemma parameterClause_progresses (hbound : 16 * s.cursor.left + 3 ≤ below) :
    parameterClause.Progresses below s := by
  intro room way
  simp [parameterClause]
  grind -ring -linarith

lemma throwsClause_progresses : throwsClause.Progresses below s := by
  intro room way
  simp [throwsClause]
  grind -ring -linarith

lemma resultClause_progresses (hbound : 16 * s.cursor.left ≤ below) :
    resultClause.Progresses below s := by
  intro room way
  simp [resultClause]
  grind -ring -linarith

lemma signature_progresses (hbound : 16 * s.cursor.left + 4 ≤ below) :
    signature.Progresses below s := by
  intro room way
  simp [signature]
  refine ⟨fun name _ => ?_, fun _ => ?_⟩
  · refine (parameterClause_progresses ?_).imp (fun way parameters t ht => ?_) ?_
    · grind -ring -linarith
    · refine throwsClause_progresses.imp (fun way throws u hu => ?_) ?_
      · refine (resultClause_progresses ?_).imp ?_ ?_ <;> grind -ring -linarith
      · grind -ring -linarith
    · grind -ring -linarith
  · grind -ring -linarith

lemma function_progresses (header : Header) (hbound : 16 * s.cursor.left + 4 ≤ below) :
    (function header).Progresses below s := by
  intro room way
  simp [function]
  refine (signature_progresses hbound).imp ?_ ?_ <;> grind -ring -linarith

/-! ### Types -/

lemma typeName_progresses (hbound : 16 * s.cursor.left + 2 ≤ below) :
    typeName.Progresses below s := by
  intro room way
  simp [typeName]
  split <;> simp <;> grind -ring -linarith

lemma inheritanceClause_progresses (hbound : 16 * s.cursor.left ≤ below) :
    inheritanceClause.Progresses below s := by
  intro room way
  simp [inheritanceClause]
  grind -ring -linarith

lemma typeDeclaration_progresses (header : Header) (family : TypeFamily)
    (hbound : 16 * s.cursor.left + 4 ≤ below) :
    (typeDeclaration header family).Progresses below s := by
  intro room way
  simp [typeDeclaration]
  refine (typeName_progresses ?_).imp (fun way name t ht => ?_) ?_
  · grind -ring -linarith
  · refine (inheritanceClause_progresses ?_).imp ?_ ?_ <;> grind -ring -linarith
  · grind -ring -linarith

lemma members_progresses (context : Context) (hbound : 16 * s.cursor.left ≤ below) :
    (members context).Progresses below s := by
  intro room way
  simp [members]
  split
  · simp
    grind -ring -linarith
  next kind hkind =>
    simp
    refine ⟨fun _ => ?_, fun hkindne => ⟨fun _ => ?_, fun _ => ⟨fun _ => ?_, fun _ => ?_⟩⟩⟩
    · grind -ring -linarith
    · grind -ring -linarith
    all_goals
      have hbrace : (s.cursor.advance .anyLine).here? ≠ some (.punctuator .rightBrace) := by
        rw [hkind]
        rintro ⟨⟩
        exact hkindne rfl
    · refine ⟨?_, fun kept t ht => ?_, fun e t ht => ?_⟩
      · grind -ring -linarith
      all_goals
        refine itemThen_meets _ _ ht hbrace
          fun way later u _ hlist hleft => ?_
        simp
        grind -ring -linarith
    · have hleft := Cursor.left_resynchronize_le_of_onward ⟨rfl, Nat.le_refl _⟩ hbrace
      simp [recoverThen]
      grind -ring -linarith

/-- If the loop over members goes on, it looks at a later token. -/
lemma members_meets_later {room : Nat} (context : Context)
    (hbound : 16 * s.cursor.left ≤ below) :
    let later := fun way => ∀ context' t, .called (.members context') t ∈ way →
      (s.cursor.advance .anyLine).position < (t.cursor.advance .anyLine).position
    (members context).Meets ((progress below room).given fun _ _ _ => True) [] s
      (fun way _ _ => later way) (fun way _ _ => later way) := by
  simp [members]
  split
  · simp
  next kind hkind =>
    have hpos := Cursor.left_pos_of_here? hkind
    simp
    refine fun hkindne => ⟨fun _ => ?_, fun _ => ⟨fun _ => ?_, fun _ => ?_⟩⟩
    · have hlater := Cursor.position_lt_of_left_le rfl (Nat.le_refl _) hpos .anyLine
      grind -ring -linarith
    all_goals
      have hbrace : (s.cursor.advance .anyLine).here? ≠ some (.punctuator .rightBrace) := by
        rw [hkind]
        rintro ⟨⟩
        exact hkindne rfl
    · refine ⟨?_, fun kept t ht => ?_, fun e t ht => ?_⟩
      · grind -ring -linarith
      all_goals
        refine itemThen_meets _ _ ht hbrace fun way later u hway hlist hleft => ?_
        have hlater := Cursor.position_lt_of_left_le hlist hleft hpos .anyLine
        simp
        grind -ring -linarith
    · have hleft := Cursor.left_resynchronize_le_of_onward ⟨rfl, Nat.le_refl _⟩ hbrace
      have hlater := Cursor.position_lt_of_left_le (Cursor.toList_resynchronize _) hleft hpos
        .anyLine
      simp [recoverThen]
      grind -ring -linarith

lemma typeBody_progresses (context : Context) (hbound : 16 * s.cursor.left + 1 ≤ below) :
    (typeBody context).Progresses below s := by
  intro room way
  simp [typeBody]
  grind -ring -linarith

lemma caseNames_progresses (hbound : 16 * s.cursor.left ≤ below) :
    caseNames.Progresses below s := by
  intro room way
  simp [caseNames]
  grind -ring -linarith

/-! ### All declarations -/

lemma declarationNamed_progresses (header : Header) (word : String)
    (hbound : 16 * s.cursor.left + 4 ≤ below) :
    (declarationNamed header word).Progresses below s := by
  intro room way
  cases DeclarationWord.of word with
  | typeAlias => exact typeAlias_progresses header hbound room way
  | function => exact function_progresses header hbound room way
  | structType | classType | enumType | protocol | extension =>
    exact typeDeclaration_progresses header _ hbound room way
  | letBinding | varBinding | enumCases =>
    simp [declarationNamed]
    grind -ring -linarith
  | other h =>
    simp [declarationNamed_of_other header h]
    grind -ring -linarith

lemma declarationFrom_progresses (context : Context) (start : Location) (header : Header)
    (word : String) (hbound : 16 * s.cursor.left + 4 ≤ below) :
    (declarationFrom context start header word).Progresses below s := by
  intro room way
  simp [declarationFrom]
  refine ⟨fun _ => importing_progresses context start header hbound room way, fun _ => ?_⟩
  refine (declarationNamed_progresses header word hbound).imp (fun way node t ht => ?_) ?_
  · refine (separator_progresses context).imp ?_ ?_ <;> grind -ring -linarith
  · grind -ring -linarith

lemma declaration_progresses (context : Context) (hbound : 16 * s.cursor.left + 4 ≤ below) :
    (declaration context).Progresses below s := by
  intro room way
  simp [declaration]
  refine ⟨?_, fun attributes t ht => ⟨?_, fun modifiers u hu => ?_, ?_⟩, ?_⟩
  case refine_3 =>
    split
    · refine (declarationFrom_progresses context _ _ _ ?_).imp ?_ ?_ <;> grind -ring -linarith
    · simp
      grind -ring -linarith
  all_goals grind -ring -linarith

end Grammar

end FrontEnd
