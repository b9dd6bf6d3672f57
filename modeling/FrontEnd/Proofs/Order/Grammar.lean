/-
Every procedure of the grammar is prompt.

The walk is one over the procedures alone.  A procedure that only goes on and reads other
goals keeps a reserve (`Procedure.Keeps`); the loops over statements and members start without
one, and take it from their first step.
-/
import FrontEnd.Grammar.Rules
import FrontEnd.Proofs.Keyword
import FrontEnd.Proofs.Order.Basic

namespace FrontEnd

/-- The procedure of a goal is prompt from the reserve of the goal on, and what it complains of
is at the place where it ends. -/
def Goal.Prompt (g : Goal) : Prop :=
  g.procedure.Prompt g.reserve none fun reserve held a =>
    0 < reserve ∧ ∀ e, g.complaint? a = some e → held = some e

namespace Grammar

open Procedure Goal

/-! ### Types -/

lemma type_prompt : Goal.type.Prompt := by
  simp [Goal.Prompt, procedure, type, unmarkedType]
  intro kind
  split
  · simp [collectionType]
  · simp [tupleOrFunctionType, tupleTypeElements]
  · simp
  · simp

lemma types_prompt : Goal.types.Prompt := by
  simp [Goal.Prompt, procedure, types]

lemma typePath_prompt : Goal.typePath.Prompt := by
  simp [Goal.Prompt, procedure, typePath, genericArguments, pathContinues]
  intro kind
  split <;> simp

lemma typeMarks_prompt : Goal.typeMarks.Prompt := by
  simp [Goal.Prompt, procedure, typeMarks]
  intro kind
  split <;> simp

/-! ### Expressions -/

lemma keywordOperand_keeps (word : String) : (keywordOperand word).Keeps := by
  intro reserve held
  unfold keywordOperand
  split <;> simp

lemma primary_keeps : primary.Keeps := by
  intro reserve held
  simp [primary]
  rintro (_ | kind)
  · simp
  cases kind with
  | keyword word role =>
    cases role with
    | contextual => simp
    | _ => exact (keywordOperand_keeps _).imp (Nat.succ_pos _) (by simp)
  | punctuator mark => cases mark <;> simp [collectionLiteral]
  | _ => simp

lemma operand_keeps : operand.Keeps := by
  intro reserve held
  simp [operand, attemptKind]
  intro kind _ kind
  split
  · simp
  · simp
    exact primary_keeps.imp (Nat.succ_pos _) (by simp)

lemma operand_prompt : Goal.operand.Prompt := by
  simp only [Goal.Prompt, procedure]
  exact operand_keeps.imp (by simp) (by simp)

lemma expression_prompt (floor : Nat) : (Goal.expression floor).Prompt := by
  simp [Goal.Prompt, procedure, expression]
  exact operand_keeps.imp Nat.one_pos (by simp)

lemma operations_prompt (floor : Nat) : (Goal.operations floor).Prompt := by
  simp [Goal.Prompt, procedure, operations]
  intro operator
  split <;> simp

lemma suffixes_prompt : Goal.suffixes.Prompt := by
  simp [Goal.Prompt, procedure, suffixes, suffixThen]
  intro glued
  rcases glued with _ | kind
  · simp
  cases kind with
  | punctuator mark =>
    cases mark with
    | period =>
      simp
      intro kind
      split <;> simp
    | _ => simp
  | _ => simp

lemma arguments_prompt (closer : Punctuator) : (Goal.arguments closer).Prompt := by
  simp [Goal.Prompt, procedure, arguments, argumentLabel]
  intro _ _ kind
  split <;> simp

lemma elements_prompt : Goal.elements.Prompt := by
  simp [Goal.Prompt, procedure, elements]

lemma entries_prompt : Goal.entries.Prompt := by
  simp [Goal.Prompt, procedure, entries]

/-! ### Patterns -/

lemma tuplePattern_keeps (mode : PatternMode) : (tuplePattern mode).Keeps := by
  intro reserve held
  simp [tuplePattern, tupleElements]

lemma enumCase_keeps (mode : PatternMode) (type : Option String) (name : String) :
    (enumCase mode type name).Keeps := by
  intro reserve held
  simp [enumCase]
  exact (tuplePattern_keeps mode).imp (Nat.succ_pos _) (by simp)

lemma comparedValueOrError_keeps : comparedValueOrError.Keeps := by
  intro reserve held
  simp [comparedValueOrError]

lemma unmarkedPattern_keeps (mode : PatternMode) : (unmarkedPattern mode).Keeps := by
  intro reserve held
  simp [unmarkedPattern]
  intro kind
  split
  · simp
  simp
  intro _ _
  split
  · simp
  · exact tuplePattern_keeps mode reserve held
  · simp
    exact fun name => (enumCase_keeps mode none name).imp (Nat.succ_pos _) (by simp)
  · simp [caseFollows, comparedValue]
    intro kind
    split <;> simp
    all_goals exact fun case => (enumCase_keeps mode _ case).imp (Nat.succ_pos _) (by simp)
  · simp [caseFollows, comparedValue]
    intro kind
    split <;> simp
    all_goals exact fun case => (enumCase_keeps mode _ case).imp (Nat.succ_pos _) (by simp)
  · split
    · simp
      exact fun _ => comparedValueOrError_keeps reserve held
    · exact comparedValueOrError_keeps reserve held

lemma untypedPattern_keeps : untypedPattern.Keeps := by
  intro reserve held
  simp [untypedPattern]
  intro kind
  split
  · simp
  · exact tuplePattern_keeps .declared reserve held
  · split <;> simp

lemma pattern_prompt (mode : PatternMode) : (Goal.pattern mode).Prompt := by
  simp only [Goal.Prompt, procedure, pattern]
  split
  · simp [declaredPattern]
    exact untypedPattern_keeps.imp Nat.one_pos (by simp)
  · simp [testedPattern]
    exact (unmarkedPattern_keeps mode).imp Nat.one_pos (by simp)

lemma patterns_prompt (mode : PatternMode) : (Goal.patterns mode).Prompt := by
  simp [Goal.Prompt, procedure, patterns]

lemma patternMarks_prompt : Goal.patternMarks.Prompt := by
  simp [Goal.Prompt, procedure, patternMarks]

/-! ### Statements -/

/-- A separator gives back what it took, and complains of that place. -/
lemma separator_prompt (context : Context) {reserve : Nat} {held : Option ParseError}
    {ok : Nat → Option ParseError → Option ParseError → Prop} (hreserve : 0 < reserve)
    (hnone : ∀ reserve, ok (reserve + 1) none none)
    (hsome : ∀ reserve e, ok (reserve + 1) (some e) (some e)) :
    (separator context).Prompt reserve held ok := by
  obtain ⟨n, rfl⟩ := Nat.exists_eq_succ_of_ne_zero hreserve.ne'
  simp [separator]
  intro here
  split
  · simpa using hnone _
  · simpa using hnone _
  · simpa using hnone _
  · simp
    exact ⟨fun _ _ => hnone _, fun _ => hsome _⟩

/-- The items of a list are read on from one that was read, or from an error; what is noted is
the complaint of it, or that error. -/
lemma itemThen_prompt {α : Type} {tried : Except ParseError (Kept α)} {next : Procedure (List α)}
    {held : Option ParseError} {ok : Nat → Option ParseError → List α → Prop}
    (hvalue : ∀ kept, tried = .ok kept → held = kept.complaint)
    (herror : ∀ e, tried = .error e → held = some e)
    (hnext : ∀ reserve held, next.Prompt reserve held fun reserve _ _ => 0 < reserve)
    (hok : ∀ reserve held later, 0 < reserve → ok reserve held later) :
    (itemThen tried next).Prompt 1 held ok := by
  have hread : ∀ reserve held, next.Prompt reserve held ok := fun reserve held =>
    (hnext reserve held).imp fun _ _ _ => hok _ _ _
  have hcons : ∀ value reserve held, next.Prompt reserve held fun reserve held later =>
      ok reserve held (value :: later) := fun value reserve held =>
    (hnext reserve held).imp fun _ _ _ => hok _ _ _
  rcases tried with e | ⟨value, _ | e⟩
  · simp [itemThen, recoverThen, herror e rfl, hread]
  · simp [itemThen, hcons]
  · simp [itemThen, recoverThen, hvalue _ rfl, hcons]

lemma item_prompt : Goal.item.Prompt := by
  simp [Goal.Prompt, procedure, item]
  exact fun _ => separator_prompt .block Nat.one_pos (by simp) (by simp)

lemma statements_prompt (stop : BlockEnd) : (Goal.statements stop).Prompt := by
  simp [Goal.Prompt, procedure, statements]
  intro kind
  split
  · simp
  · simp
    refine fun _ _ => ⟨fun kept => ?_, fun e => ?_⟩
    · exact itemThen_prompt (by simp) nofun (by simp) (by simp)
    · exact itemThen_prompt nofun (by simp) (by simp) (by simp)

lemma block_prompt : Goal.block.Prompt := by
  simp [Goal.Prompt, procedure, block]

lemma condition_keeps : condition.Keeps := by
  intro reserve held
  simp [condition, conditionValue]

lemma conditions_prompt : Goal.conditions.Prompt := by
  simp only [Goal.Prompt, procedure, conditions, prompt_bind]
  exact condition_keeps.imp Nat.one_pos (by simp)

lemma choice_keeps : choice.Keeps := by
  intro reserve held
  simp [choice, blockNext, alternative]

lemma elseIf_prompt : Goal.elseIf.Prompt := by
  simp [Goal.Prompt, procedure, elseIf]
  exact choice_keeps.imp Nat.one_pos (by simp)

lemma handlerPattern_keeps : handlerPattern.Keeps := by
  intro reserve held
  simp [handlerPattern]
  intro kind
  split <;> simp

lemma handlers_prompt : Goal.handlers.Prompt := by
  simp [Goal.Prompt, procedure, handlers]
  exact fun _ _ => handlerPattern_keeps.imp (Nat.succ_pos _) (by simp [guardingCondition, blockNext])

lemma caseItems_prompt : Goal.caseItems.Prompt := by
  simp [Goal.Prompt, procedure, caseItems, guardingCondition]

lemma arms_prompt : Goal.arms.Prompt := by
  simp [Goal.Prompt, procedure, arms]
  intro kind
  split <;> simp

lemma switchBody_prompt : Goal.switchBody.Prompt := by
  simp [Goal.Prompt, procedure, switchBody]

lemma locationFile_keeps : locationFile.Keeps := by
  intro reserve held
  simp [locationFile, expectLabel]
  intro _ _ kind
  split <;> simp

lemma locationLine_keeps : locationLine.Keeps := by
  intro reserve held
  simp [locationLine, expectLabel]
  intro _ _ kind
  split <;> simp

lemma sourceLocation_keeps : sourceLocation.Keeps := by
  intro reserve held
  simp [sourceLocation]
  refine fun _ _ => locationFile_keeps.imp (Nat.succ_pos _) fun _ _ file => ?_
  exact locationLine_keeps.imp (Nat.succ_pos _) (by simp)

lemma directiveNamed_keeps (name : String) : (directiveNamed name).Keeps := by
  intro reserve held
  cases DirectiveWord.of name with
  | sourceLocation => exact sourceLocation_keeps reserve held
  | ifTrue | elseIfTrue | otherwise | endIf => simp [directiveNamed]
  | other h => simp [directiveNamed_of_other h]

lemma directive_keeps : directive.Keeps := by
  intro reserve held
  simp [directive]
  intro kind
  split
  · exact (directiveNamed_keeps _).imp (Nat.succ_pos _) (by simp)
  · simp

lemma jumpLabel_keeps : jumpLabel.Keeps := by
  intro reserve held
  simp [jumpLabel]
  intro kind
  split <;> simp

lemma returnValue_keeps : returnValue.Keeps := by
  intro reserve held
  simp [returnValue]
  intro kind
  split <;> simp

lemma loopPattern_keeps (isMatching : Bool) : (loopPattern isMatching).Keeps := by
  intro reserve held
  cases isMatching <;> simp [loopPattern]

lemma unlabeled_keeps (word : Option String) : (unlabeled word).Keeps := by
  intro reserve held
  cases StatementWord.of word with
  | breaking | continuing =>
    simp [unlabeled]
    exact jumpLabel_keeps.imp (Nat.succ_pos _) (by simp)
  | returning =>
    simp [unlabeled]
    exact returnValue_keeps.imp (Nat.succ_pos _) (by simp)
  | choice => exact choice_keeps reserve held
  | forIn =>
    simp [unlabeled, Grammar.forIn]
    intro kind
    exact (loopPattern_keeps _).imp (Nat.succ_pos _) (by simp [guardingCondition, blockNext])
  | fallthrough | throwing | deferring | doing | guarding | looping | repeating | switch =>
    simp [unlabeled, Grammar.doing, Grammar.guarding, Grammar.looping, Grammar.repeating,
      Grammar.switch, blockHere, blockNext]
  | other h => simp [unlabeled_of_other h]

lemma statementLabel_keeps : statementLabel.Keeps := by
  intro reserve held
  simp [statementLabel]
  intro kind
  split <;> simp

lemma statement_prompt : Goal.statement.Prompt := by
  simp [Goal.Prompt, procedure, statement]
  refine fun _ => ⟨fun _ => directive_keeps.imp Nat.one_pos (by simp), fun _ => ?_⟩
  refine statementLabel_keeps.imp Nat.one_pos fun _ _ label => ?_
  split
  · simp
  · simp
    exact fun kind => (unlabeled_keeps _).imp (Nat.succ_pos _) (by simp)

/-! ### Declarations -/

lemma attributes_prompt : Goal.attributes.Prompt := by
  simp [Goal.Prompt, procedure, attributes]
  intro kind
  split <;> simp

lemma modifiers_prompt : Goal.modifiers.Prompt := by
  simp [Goal.Prompt, procedure, modifiers]
  intro kind
  split <;> simp

lemma submodules_prompt : Goal.submodules.Prompt := by
  simp [Goal.Prompt, procedure, submodules]
  intro kind
  split
  · simp
  · simp
    intro kind
    split <;> simp
  · simp

lemma importKind_keeps : importKind.Keeps := by
  intro reserve held
  simp [importKind]
  intro kind
  split
  · split <;> simp
  · simp

lemma importing_prompt (context : Context) (start : Location) (header : Header) :
    (importing context start header).Prompt 1 none fun reserve held a =>
      0 < reserve ∧ ∀ e, a.complaint = some e → held = some e := by
  simp [importing]
  refine importKind_keeps.imp (Nat.succ_pos _) fun reserve held kind => ?_
  simp [importEnd]
  exact fun _ _ => separator_prompt context Nat.one_pos (by simp) (by simp)

lemma bindings_prompt : Goal.bindings.Prompt := by
  simp [Goal.Prompt, procedure, bindings, initializer]

lemma parameterName_keeps : parameterName.Keeps := by
  intro reserve held
  simp [parameterName]
  intro kind
  split <;> simp

lemma parameters_prompt : Goal.parameters.Prompt := by
  simp [Goal.Prompt, procedure, parameters, parameter, parameterNames]
  refine parameterName_keeps.imp Nat.one_pos fun reserve held first => ?_
  simp [parameterDefault]
  exact fun _ _ => parameterName_keeps.imp (Nat.succ_pos _) (by simp)

lemma function_keeps (header : Header) : (function header).Keeps := by
  intro reserve held
  simp [function, signature, parameterClause, throwsClause, resultClause]

lemma typeName_keeps : typeName.Keeps := by
  intro reserve held
  simp [typeName]
  intro kind
  split <;> simp

lemma typeDeclaration_keeps (header : Header) (family : TypeFamily) :
    (typeDeclaration header family).Keeps := by
  intro reserve held
  simp [typeDeclaration]
  exact typeName_keeps.imp (Nat.succ_pos _) (by simp [inheritanceClause])

lemma members_prompt (context : Context) : (Goal.members context).Prompt := by
  simp [Goal.Prompt, procedure, members]
  intro kind
  split
  · simp
  · have htried : (∀ kept : (Goal.declaration context).Result,
        (itemThen (.ok kept) (Procedure.read (Goal.members context))).Prompt 1 kept.complaint
          fun reserve _ _ => 0 < reserve) ∧
        ∀ e, (itemThen (.error e) (Procedure.read (Goal.members context))).Prompt 1 (some e)
          fun reserve _ _ => 0 < reserve := by
      refine ⟨fun kept => ?_, fun e => ?_⟩
      · exact itemThen_prompt (by simp) nofun (by simp) (by simp)
      · exact itemThen_prompt nofun (by simp) (by simp) (by simp)
    simp
    refine fun _ _ => ⟨⟨fun _ _ => htried, fun _ e => ?_⟩, htried⟩
    simp [recoverThen]

lemma typeBody_prompt (context : Context) : (Goal.typeBody context).Prompt := by
  simp [Goal.Prompt, procedure, typeBody]

lemma caseNames_prompt : Goal.caseNames.Prompt := by
  simp [Goal.Prompt, procedure, caseNames]

lemma declarationNamed_keeps (header : Header) (word : String) :
    (declarationNamed header word).Keeps := by
  intro reserve held
  cases DeclarationWord.of word with
  | function => exact function_keeps header reserve held
  | structType | classType | enumType | protocol | extension =>
    exact typeDeclaration_keeps header _ reserve held
  | letBinding | varBinding | typeAlias | enumCases => simp [declarationNamed, Grammar.typeAlias]
  | other h => simp [declarationNamed_of_other header h]

lemma declaration_prompt (context : Context) : (Goal.declaration context).Prompt := by
  simp [Goal.Prompt, procedure, declaration]
  intro start attributes modifiers kind
  split
  · simp [declarationFrom]
    refine ⟨fun _ => importing_prompt context _ _, fun _ => ?_⟩
    refine (declarationNamed_keeps _ _).imp Nat.one_pos fun reserve held node => ?_
    exact separator_prompt context (Nat.succ_pos _) (by simp) (by simp)
  · simp

end Grammar

open Grammar in
/-- Every procedure is prompt. -/
theorem Goal.prompt (g : Goal) : g.Prompt := by
  cases g with
  | type => exact type_prompt
  | types => exact types_prompt
  | typePath => exact typePath_prompt
  | typeMarks => exact typeMarks_prompt
  | expression floor => exact expression_prompt floor
  | operations floor => exact operations_prompt floor
  | operand => exact operand_prompt
  | suffixes => exact suffixes_prompt
  | arguments closer => exact arguments_prompt closer
  | elements => exact elements_prompt
  | entries => exact entries_prompt
  | pattern mode => exact pattern_prompt mode
  | patterns mode => exact patterns_prompt mode
  | patternMarks => exact patternMarks_prompt
  | block => exact block_prompt
  | statements stop => exact statements_prompt stop
  | item => exact item_prompt
  | statement => exact statement_prompt
  | elseIf => exact elseIf_prompt
  | conditions => exact conditions_prompt
  | handlers => exact handlers_prompt
  | switchBody => exact switchBody_prompt
  | arms => exact arms_prompt
  | caseItems => exact caseItems_prompt
  | declaration context => exact declaration_prompt context
  | attributes => exact attributes_prompt
  | modifiers => exact modifiers_prompt
  | submodules => exact submodules_prompt
  | bindings => exact bindings_prompt
  | parameters => exact parameters_prompt
  | typeBody context => exact typeBody_prompt context
  | members context => exact members_prompt context
  | caseNames => exact caseNames_prompt

end FrontEnd
