/-
Declarations are read whatever the places are, and so is every goal.
-/
import FrontEnd.Proofs.Keyword
import FrontEnd.Proofs.View.Statement

namespace FrontEnd

namespace Grammar

open Procedure

variable {v : View}

/-! ### What stands in front -/

lemma attributes_natural : Goal.attributes.Natural v := by
  simp [Goal.Natural, Goal.procedure, attributes]
  intro kind
  split
  · simp
  · exact read_natural .attributes

lemma modifiers_natural : Goal.modifiers.Natural v := by
  simp [Goal.Natural, Goal.procedure, modifiers]
  intro kind
  split <;> simp

/-! ### Imports -/

lemma importKind_steady : Steady v importKind := by
  simp [Steady, importKind]
  intro kind
  split
  · split <;> simp
  · simp

lemma submodules_natural : Goal.submodules.Natural v := by
  simp [Goal.Natural, Goal.procedure, submodules]
  intro kind
  split
  · simp
  · simp
    intro name
    split
    · simp
    · exact read_natural .submodules
  · simp

lemma importEnd_natural (context : Context) (kind : ImportKind) (names : List String) :
    (importEnd context kind names).Natural v (fun a b => b = a.map (·.view v))
      (importEnd context kind names) := by
  unfold importEnd
  split
  · simp
  · exact separator_natural context

lemma importing_natural (context : Context) (start : Location) (header : Header) :
    (importing context start header).Natural v (fun a b => b = a.view v (Declaration.view v))
      (importing context (v.place start) header) := by
  simp [importing]
  refine importKind_steady.bind fun _ kind h => ?_
  subst h
  simp
  refine fun module names stop => (importEnd_natural context kind names).bind fun _ _ h => ?_
  simp [h, Kept.view, Declaration.view, Range.view]

/-! ### Bindings, aliases and functions -/

lemma initializer_natural :
    initializer.Natural v (fun a b => b = a.map (·.view v)) initializer := by
  simp [initializer]

lemma bindings_natural : Goal.bindings.Natural v := by
  simp [Goal.Natural, Goal.procedure, bindings]
  refine fun pattern => initializer_natural.bind fun value _ h => ?_
  simp [h, Binding.view]

lemma typeAlias_rebuilds (header : Header) : Rebuilds v (Declaration.view v) (typeAlias header) := by
  simp [Rebuilds, typeAlias, Declaration.view]

lemma parameterName_steady : Steady v parameterName := by
  simp [Steady, parameterName]
  intro kind
  split <;> simp

lemma parameterNames_steady : Steady v parameterNames := by
  refine parameterName_steady.bind fun first _ h => ?_
  subst h
  simp
  exact parameterName_steady.bind fun second _ h => by simp [h]

lemma parameterDefault_natural :
    parameterDefault.Natural v (fun a b => b = a.map (·.view v)) parameterDefault := by
  simp [parameterDefault]

lemma parameter_natural : parameter.Natural v (fun a b => b = a.view v) parameter := by
  refine parameterNames_steady.bind fun names _ h => ?_
  subst h
  simp
  exact fun type => parameterDefault_natural.bind fun default _ h => by simp [h, Parameter.view]

lemma parameters_natural : Goal.parameters.Natural v := by
  refine parameter_natural.bind fun first _ h => ?_
  simp [h]

lemma parameterClause_natural :
    parameterClause.Natural v (fun a b => b = a.map (·.view v)) parameterClause := by
  simp [parameterClause]
  exact read_natural .parameters

lemma throwsClause_steady : Steady v throwsClause := by
  simp [Steady, throwsClause]

lemma resultClause_steady : Steady v resultClause := by
  simp [Steady, resultClause]

lemma signature_natural : signature.Natural v (fun a b => b = a.view v) signature := by
  simp [signature]
  refine fun name => parameterClause_natural.bind fun parameters _ hparameters =>
    throwsClause_steady.bind fun throws _ hthrows =>
      resultClause_steady.bind fun result _ hresult => ?_
  simp [hparameters, hthrows, hresult, Signature.view]

lemma function_rebuilds (header : Header) : Rebuilds v (Declaration.view v) (function header) := by
  refine signature_natural.bind fun signature _ h => ?_
  simp [h, Declaration.view]

/-! ### Types -/

lemma typeName_steady : Steady v typeName := by
  simp [Steady, typeName]
  intro kind
  split <;> simp [expectName]
  intro kind
  split <;> simp

lemma inheritanceClause_steady : Steady v inheritanceClause := by
  simp [Steady, inheritanceClause]
  exact read_natural .types

lemma typeDeclaration_rebuilds (header : Header) (family : TypeFamily) :
    Rebuilds v (Declaration.view v) (typeDeclaration header family) := by
  simp [Rebuilds, typeDeclaration]
  refine typeName_steady.bind fun name _ hname =>
    inheritanceClause_steady.bind fun inherits _ hinherits => ?_
  simp [hname, hinherits, Declaration.view]

lemma members_natural (context : Context) : (Goal.members context).Natural v := by
  simp [Goal.Natural, Goal.procedure, members]
  intro kind
  split
  · simp
  · simp [Declaration.views]
    have hitem (r : Except ParseError (Kept Declaration)) :
        (itemThen r (read (.members context))).Natural v (fun a b => b = Declaration.views v a)
          (itemThen (Goal.viewEnd v (.declaration context) r) (read (.members context))) := by
      refine itemThen_natural (fun _ _ => rfl) ?_ (read_natural (.members context))
      cases r <;> rfl
    refine fun _ _ => ⟨⟨fun _ _ => hitem, fun _ e => ?_⟩, hitem⟩
    exact natural_recover.mpr ⟨rfl, read_natural (.members context)⟩

lemma typeBody_natural (context : Context) : (Goal.typeBody context).Natural v :=
  read_natural (.members context)

lemma caseNames_natural : Goal.caseNames.Natural v := by
  simp [Goal.Natural, Goal.procedure, caseNames]

/-! ### All declarations -/

lemma declarationNamed_rebuilds (header : Header) (word : String) :
    Rebuilds v (Declaration.view v) (declarationNamed header word) := by
  cases DeclarationWord.of word with
  | typeAlias => exact typeAlias_rebuilds header
  | function => exact function_rebuilds header
  | structType | classType | enumType | protocol | extension =>
    exact typeDeclaration_rebuilds header _
  | letBinding | varBinding | enumCases => simp [declarationNamed, Rebuilds, Declaration.view]
  | other h => simp [declarationNamed_of_other header h, Rebuilds]

lemma declarationFrom_natural (context : Context) (start : Location) (header : Header)
    (word : String) :
    (declarationFrom context start header word).Natural v
      (fun a b => b = a.view v (Declaration.view v))
      (declarationFrom context (v.place start) header word) := by
  unfold declarationFrom
  split
  · exact importing_natural context start header
  · refine (declarationNamed_rebuilds header word).bind fun node node' hnode => ?_
    simp
    refine fun stop => (separator_natural context).bind fun complaint _ h => ?_
    have hnode := hnode ⟨start, stop⟩
    rw [Range.view] at hnode
    simp [h, hnode, Kept.view]

lemma declaration_natural (context : Context) : (Goal.declaration context).Natural v := by
  simp [Goal.Natural, Goal.procedure, declaration]
  intro start attributes modifiers kind
  split
  · exact declarationFrom_natural context start _ _
  · exact natural_raise

end Grammar

open Grammar in
/-- Every goal is read whatever the places are. -/
theorem Goal.natural (v : View) : ∀ g : Goal, g.Natural v
  | .type => type_natural
  | .types => types_natural
  | .typePath => typePath_natural
  | .typeMarks => typeMarks_natural
  | .expression floor => expression_natural floor
  | .operations floor => operations_natural floor
  | .operand => operand_natural
  | .suffixes => suffixes_natural
  | .arguments closer => arguments_natural closer
  | .elements => elements_natural
  | .entries => entries_natural
  | .pattern mode => pattern_natural mode
  | .patterns mode => patterns_natural mode
  | .patternMarks => patternMarks_natural
  | .block => block_natural
  | .statements stop => statements_natural stop
  | .item => item_natural
  | .statement => statement_natural
  | .elseIf => elseIf_natural
  | .conditions => conditions_natural
  | .handlers => handlers_natural
  | .switchBody => switchBody_natural
  | .arms => arms_natural
  | .caseItems => caseItems_natural
  | .declaration context => declaration_natural context
  | .attributes => attributes_natural
  | .modifiers => modifiers_natural
  | .submodules => submodules_natural
  | .bindings => bindings_natural
  | .parameters => parameters_natural
  | .typeBody context => typeBody_natural context
  | .members context => members_natural context
  | .caseNames => caseNames_natural

end FrontEnd
