/-
No procedure of the grammar loses an error for want of room.
-/
import FrontEnd.Grammar.Rules
import FrontEnd.Proofs.Keyword
import FrontEnd.Proofs.Limit.Basic

namespace FrontEnd

/-- The procedure of a goal is candid, and calls goals that the goal admits. -/
def Goal.Candid (g : Goal) : Prop :=
  g.procedure.Candid g.Admits False fun deep a => ¬ deep ∧ g.Plain a

namespace Grammar

open Procedure Goal

variable {may : Goal → Prop}

/-! ### Types -/

lemma type_candid : Goal.type.Candid := by
  simp [Goal.Candid, procedure, type, unmarkedType]
  intro kind
  split
  · simp [collectionType, isLevel, rank]
  · simp [tupleOrFunctionType, tupleTypeElements, isLevel, rank, ErrorKind.expectedMark]
  · simp [isLevel, rank]
  · simp

lemma types_candid : Goal.types.Candid := by
  simp [Goal.Candid, procedure, types, isLevel, rank]

lemma typePath_candid : Goal.typePath.Candid := by
  simp [Goal.Candid, procedure, typePath, genericArguments, pathContinues]
  intro kind
  split
  · simp
  · simp [isLevel, rank, ErrorKind.expectedWord]

lemma typeMarks_candid : Goal.typeMarks.Candid := by
  simp [Goal.Candid, procedure, typeMarks]
  intro kind
  split <;> simp [isLevel, rank]

/-! ### Expressions -/

lemma keywordOperand_tells (word : String) : (keywordOperand word).Tells may := by
  unfold keywordOperand
  split <;> simp [Tells]

/-- What an operand calls. -/
lemma primary_tells (hexpression : may (.expression 0)) (hentries : may .entries)
    (helements : may .elements) (harguments : may (.arguments .rightParen)) :
    primary.Tells may := by
  simp [primary, Tells]
  rintro (_ | kind)
  · simp
  cases kind with
  | keyword word role =>
    cases role with
    | contextual => simp
    | _ => exact (keywordOperand_tells _).imp (by simp)
  | punctuator mark =>
    cases mark <;> simp [collectionLiteral, hexpression, hentries, helements, harguments]
  | _ => simp

lemma operand_tells (hexpression : may (.expression 0)) (hentries : may .entries)
    (helements : may .elements) (harguments : may (.arguments .rightParen))
    (hoperand : may .operand) (hsuffixes : may .suffixes) : operand.Tells may := by
  simp [operand, attemptKind, Tells, hexpression]
  intro kind _ kind
  split
  · simp [hoperand]
  · simp
    exact (primary_tells hexpression hentries helements harguments).imp (by simp [hsuffixes])

lemma operand_candid : Goal.operand.Candid := by
  simp only [Goal.Candid, procedure]
  refine (operand_tells ?_ ?_ ?_ ?_ ?_ ?_).imp ?_ <;> simp [isLevel, rank]

lemma expression_candid (floor : Nat) : (Goal.expression floor).Candid := by
  simp [Goal.Candid, procedure, expression]
  refine (operand_tells ?_ ?_ ?_ ?_ ?_ ?_).imp ?_ <;> simp [isLevel, rank]

lemma operations_candid (floor : Nat) : (Goal.operations floor).Candid := by
  simp [Goal.Candid, procedure, operations]
  intro operator
  split <;> simp [isLevel, rank]

lemma suffixes_candid : Goal.suffixes.Candid := by
  simp [Goal.Candid, procedure, suffixes, suffixThen]
  intro glued
  rcases glued with _ | kind
  · simp
  cases kind with
  | punctuator mark =>
    cases mark with
    | period =>
      simp
      intro kind
      split <;> simp [isLevel, rank]
    | _ => simp [isLevel, rank]
  | _ => simp

lemma arguments_candid (closer : Punctuator) : (Goal.arguments closer).Candid := by
  simp [Goal.Candid, procedure, arguments, argumentLabel]
  intro _ _ kind
  split <;> simp [isLevel, rank]

lemma elements_candid : Goal.elements.Candid := by
  simp [Goal.Candid, procedure, elements, isLevel, rank]

lemma entries_candid : Goal.entries.Candid := by
  simp [Goal.Candid, procedure, entries, isLevel, rank, ErrorKind.expectedMark]

/-! ### Patterns -/

lemma tuplePattern_tells (mode : PatternMode) (hpatterns : may (.patterns mode)) :
    (tuplePattern mode).Tells may := by
  simp [tuplePattern, tupleElements, Tells, hpatterns]

lemma enumCase_tells (mode : PatternMode) (type : Option String) (name : String)
    (hpatterns : may (.patterns mode)) : (enumCase mode type name).Tells may := by
  simp [enumCase, Tells]
  exact (tuplePattern_tells mode hpatterns).imp (by simp)

lemma comparedValueOrError_tells (hexpression : may (.expression Precedence.aboveAssignment)) :
    comparedValueOrError.Tells may := by
  simp +contextual [comparedValueOrError, Tells, hexpression]

lemma unmarkedPattern_tells (mode : PatternMode) (hpattern : may (.pattern .binding))
    (hpatterns : may (.patterns mode)) (hexpression : may (.expression Precedence.aboveAssignment)) :
    (unmarkedPattern mode).Tells may := by
  simp [unmarkedPattern, Tells]
  intro kind
  split
  · simp
  simp [hpattern]
  intro _ _
  split
  · simp
  · exact tuplePattern_tells mode hpatterns
  · simp
    exact fun name => enumCase_tells mode none name hpatterns
  · simp [caseFollows, comparedValue, hexpression]
    intro kind
    split <;> simp
    · exact fun case => enumCase_tells mode _ case hpatterns
    · exact fun case => enumCase_tells mode _ case hpatterns
  · simp [caseFollows, comparedValue, hexpression]
    intro kind
    split <;> simp
    · exact fun case => enumCase_tells mode _ case hpatterns
    · exact fun case => enumCase_tells mode _ case hpatterns
  · split
    · simp
      exact fun _ => comparedValueOrError_tells hexpression
    · exact comparedValueOrError_tells hexpression

lemma untypedPattern_tells (hpatterns : may (.patterns .declared)) :
    untypedPattern.Tells may := by
  simp [untypedPattern, Tells]
  intro kind
  split
  · simp
  · exact tuplePattern_tells .declared hpatterns
  · split <;> simp

lemma pattern_candid (mode : PatternMode) : (Goal.pattern mode).Candid := by
  simp only [Goal.Candid, procedure, pattern]
  split
  · simp [declaredPattern]
    refine (untypedPattern_tells ?_).imp ?_ <;> simp [isLevel, rank]
  · simp [testedPattern]
    refine (unmarkedPattern_tells mode ?_ ?_ ?_).imp ?_ <;> simp [isLevel, rank]

lemma patterns_candid (mode : PatternMode) : (Goal.patterns mode).Candid := by
  simp [Goal.Candid, procedure, patterns, isLevel, rank]

lemma patternMarks_candid : Goal.patternMarks.Candid := by
  simp [Goal.Candid, procedure, patternMarks, isLevel, rank]

/-! ### Statements -/

lemma separator_candid (context : Context) {ok : Prop → Option ParseError → Prop}
    (hnone : ok False none) (hsome : ∀ e, ¬ e.IsLimit → ok False (some e)) :
    (separator context).Candid may False ok := by
  simp [separator]
  intro here
  split
  · simpa
  · simpa
  · simpa
  · simp
    refine ⟨fun _ _ => hnone, fun _ e he => hsome e ?_⟩
    simp [he]

section

variable {α : Type} {next : Procedure (List α)}

/-- The items of a list behind one that was read. -/
lemma itemThen_ok_tells {kept : Kept α} (hplain : ∀ e, kept.complaint = some e → ¬ e.IsLimit)
    (hnext : next.Tells may) : (itemThen (.ok kept) next).Tells may := by
  obtain ⟨value, _ | e⟩ := kept
  · simp [itemThen, Tells]
    exact hnext.imp (by simp)
  · simp [itemThen, recoverThen, Tells, hplain e rfl]
    exact hnext.imp (by simp)

/-- The items of a list behind an error, which is noted. -/
lemma itemThen_error_candid (e : ParseError) (hnext : next.Tells may) :
    (itemThen (.error e) next).Candid may e.IsLimit fun deep _ => ¬ deep := by
  simp [itemThen, recoverThen]
  exact hnext

end

lemma item_candid : Goal.item.Candid := by
  simp [Goal.Candid, procedure, item, isLevel, rank]
  refine fun _ => separator_candid .block ?_ fun e he => ?_
  · simp
  · simpa using he

lemma statements_candid (stop : BlockEnd) : (Goal.statements stop).Candid := by
  simp [Goal.Candid, procedure, statements]
  intro kind
  split
  · simp [ErrorKind.expectedMark]
  · have hnext : (Procedure.read (Goal.statements stop)).Tells (Goal.statements stop).Admits := by
      simp [Tells, isLevel, rank]
    simp [isLevel, rank]
    exact fun _ _ => ⟨fun kept hkept => itemThen_ok_tells hkept hnext,
      fun e => itemThen_error_candid e hnext⟩

lemma block_candid : Goal.block.Candid := by
  simp [Goal.Candid, procedure, block, isLevel, rank]

lemma condition_tells (hexpression : may (.expression 0)) (hmatching : may (.pattern .matching))
    (hdeclared : may (.pattern .declared)) : condition.Tells may := by
  simp [condition, conditionValue, Tells, hexpression, hmatching, hdeclared]

lemma conditions_candid : Goal.conditions.Candid := by
  simp only [Goal.Candid, procedure, conditions, candid_bind]
  refine (condition_tells ?_ ?_ ?_).imp ?_ <;> simp [isLevel, rank]

lemma choice_tells (hconditions : may .conditions) (hblock : may .block) (helse : may .elseIf) :
    choice.Tells may := by
  simp [choice, blockNext, alternative, Tells, hconditions, hblock, helse]

lemma elseIf_candid : Goal.elseIf.Candid := by
  simp [Goal.Candid, procedure, elseIf]
  refine (choice_tells ?_ ?_ ?_).imp ?_ <;> simp [isLevel, rank]

lemma handlerPattern_tells (hpattern : may (.pattern .matching)) : handlerPattern.Tells may := by
  simp [handlerPattern, Tells]
  intro kind
  split <;> simp [hpattern]

lemma handlers_candid : Goal.handlers.Candid := by
  simp [Goal.Candid, procedure, handlers, isLevel, rank]
  refine fun _ _ => (handlerPattern_tells ?_).imp ?_ <;>
    simp [guardingCondition, blockNext, isLevel, rank]

lemma caseItems_candid : Goal.caseItems.Candid := by
  simp [Goal.Candid, procedure, caseItems, guardingCondition, isLevel, rank]

lemma arms_candid : Goal.arms.Candid := by
  simp [Goal.Candid, procedure, arms]
  intro kind
  split
  · simp [ErrorKind.expectedMark]
  · simp [isLevel, rank]

lemma switchBody_candid : Goal.switchBody.Candid := by
  simp [Goal.Candid, procedure, switchBody, isLevel, rank]

lemma locationFile_tells : locationFile.Tells may := by
  simp [locationFile, expectLabel, Tells, ErrorKind.expectedWord]
  intro _ _ kind
  split <;> simp

lemma locationLine_tells : locationLine.Tells may := by
  simp [locationLine, expectLabel, Tells, ErrorKind.expectedWord]
  intro _ _ kind
  split <;> simp

lemma directiveNamed_tells (name : String) : (directiveNamed name).Tells may := by
  cases DirectiveWord.of name with
  | sourceLocation =>
    simp [directiveNamed, Grammar.sourceLocation, Tells]
    intro _ _
    refine locationFile_tells.imp fun file => ?_
    simp
    exact locationLine_tells.imp (by simp)
  | ifTrue | elseIfTrue | otherwise | endIf => simp [directiveNamed, Tells]
  | other h => simp [directiveNamed_of_other h, Tells]

lemma directive_tells : directive.Tells may := by
  simp [directive, Tells]
  intro kind
  split
  · exact directiveNamed_tells _
  · simp

lemma jumpLabel_tells : jumpLabel.Tells may := by
  simp [jumpLabel, Tells]
  intro kind
  split <;> simp

lemma returnValue_tells (hexpression : may (.expression 0)) : returnValue.Tells may := by
  simp [returnValue, Tells]
  intro kind
  split <;> simp [hexpression]

lemma loopPattern_tells (isMatching : Bool) (hmatching : may (.pattern .matching))
    (hdeclared : may (.pattern .declared)) : (loopPattern isMatching).Tells may := by
  cases isMatching <;> simp [loopPattern, Tells, hmatching, hdeclared]

/-- What a statement calls. -/
lemma unlabeled_tells (word : Option String) :
    (unlabeled word).Tells Goal.statement.Admits := by
  cases StatementWord.of word with
  | breaking | continuing =>
    simp [unlabeled, Tells]
    exact jumpLabel_tells.imp (by simp)
  | returning =>
    simp [unlabeled, Tells]
    refine (returnValue_tells ?_).imp ?_ <;> simp [isLevel, rank]
  | choice => refine choice_tells ?_ ?_ ?_ <;> simp [isLevel, rank]
  | forIn =>
    simp [unlabeled, Grammar.forIn, Tells]
    intro kind
    refine (loopPattern_tells _ ?_ ?_).imp ?_ <;>
      simp [guardingCondition, blockNext, isLevel, rank]
  | fallthrough | throwing | deferring | doing | guarding | looping | repeating | switch =>
    simp [unlabeled, Grammar.doing, Grammar.guarding, Grammar.looping, Grammar.repeating,
      Grammar.switch, blockHere, blockNext, Tells, isLevel, rank]
  | other h => simp [unlabeled_of_other h, Tells, isLevel, rank]

lemma statementLabel_tells : statementLabel.Tells may := by
  simp [statementLabel, Tells]
  intro kind
  split <;> simp

lemma statement_candid : Goal.statement.Candid := by
  simp [Goal.Candid, procedure, statement]
  refine fun _ => ⟨fun _ => directive_tells.imp (by simp), fun _ => ?_⟩
  refine statementLabel_tells.imp fun label => ?_
  split
  · simp [isLevel, rank]
  · simp
    exact fun kind => (unlabeled_tells _).imp (by simp)

/-! ### Declarations -/

lemma attributes_candid : Goal.attributes.Candid := by
  simp [Goal.Candid, procedure, attributes]
  intro kind
  split <;> simp [isLevel, rank]

lemma modifiers_candid : Goal.modifiers.Candid := by
  simp [Goal.Candid, procedure, modifiers]
  intro kind
  split <;> simp [isLevel, rank]

lemma submodules_candid : Goal.submodules.Candid := by
  simp [Goal.Candid, procedure, submodules]
  intro kind
  split
  · simp
  · simp
    intro kind
    split <;> simp [isLevel, rank]
  · simp

lemma importKind_tells : importKind.Tells may := by
  simp [importKind, Tells]
  intro kind
  split
  · split <;> simp
  · simp

lemma importing_candid (context : Context) (start : Location) (header : Header)
    (hsubmodules : may .submodules) :
    (importing context start header).Candid may False fun deep a =>
      ¬ deep ∧ (Goal.declaration context).Plain a := by
  simp [importing]
  refine importKind_tells.imp fun kind => ?_
  simp [importEnd, hsubmodules]
  intro names
  refine ⟨fun _ _ e he => by simp [he], fun _ => separator_candid context ?_ fun e he => ?_⟩
  · simp
  · simpa using he

lemma bindings_candid : Goal.bindings.Candid := by
  simp [Goal.Candid, procedure, bindings, initializer, isLevel, rank]

lemma parameterName_tells : parameterName.Tells may := by
  simp [parameterName, Tells]
  intro kind
  split <;> simp

lemma parameters_candid : Goal.parameters.Candid := by
  simp [Goal.Candid, procedure, parameters, parameter, parameterNames]
  refine parameterName_tells.imp fun first => ?_
  simp [parameterDefault, isLevel, rank]
  exact fun _ _ => parameterName_tells.imp (by simp)

lemma function_tells (header : Header) (hparameters : may .parameters) (htype : may .type)
    (hblock : may .block) : (function header).Tells may := by
  simp [function, signature, parameterClause, throwsClause, resultClause, Tells, hparameters,
    htype, hblock]

lemma typeName_tells (htype : may .type) : typeName.Tells may := by
  simp [typeName, Tells]
  intro kind
  split <;> simp [htype]

lemma typeDeclaration_tells (header : Header) (family : TypeFamily) (htype : may .type)
    (htypes : may .types) (hbody : may (.typeBody (.ofFamily family))) :
    (typeDeclaration header family).Tells may := by
  simp [typeDeclaration, Tells]
  refine (typeName_tells htype).imp fun name => ?_
  simp [inheritanceClause, htypes, hbody]

lemma members_candid (context : Context) : (Goal.members context).Candid := by
  simp [Goal.Candid, procedure, members]
  intro kind
  split
  · simp [ErrorKind.expectedMark]
  · have hnext : (Procedure.read (Goal.members context)).Tells (Goal.members context).Admits := by
      simp [Tells, isLevel, rank]
    have htried : (∀ kept : (Goal.declaration context).Result, (Goal.declaration context).Plain kept →
        (itemThen (.ok kept) (Procedure.read (Goal.members context))).Tells
          (Goal.members context).Admits) ∧
        ∀ e, (itemThen (.error e) (Procedure.read (Goal.members context))).Candid
          (Goal.members context).Admits e.IsLimit fun deep _ => ¬ deep :=
      ⟨fun kept hkept => itemThen_ok_tells hkept hnext, fun e => itemThen_error_candid e hnext⟩
    simp [isLevel, rank]
    refine fun _ _ => ⟨⟨fun _ _ => htried, fun _ e he => ?_⟩, htried⟩
    simp [recoverThen, he, isLevel, rank]

lemma typeBody_candid (context : Context) : (Goal.typeBody context).Candid := by
  simp [Goal.Candid, procedure, typeBody, isLevel, rank]

lemma caseNames_candid : Goal.caseNames.Candid := by
  simp [Goal.Candid, procedure, caseNames, isLevel, rank]

/-- What a declaration calls. -/
lemma declarationNamed_tells (context : Context) (header : Header) (word : String) :
    (declarationNamed header word).Tells (Goal.declaration context).Admits := by
  cases DeclarationWord.of word with
  | function => refine function_tells header ?_ ?_ ?_ <;> simp [isLevel, rank]
  | structType | classType | enumType | protocol | extension =>
    refine typeDeclaration_tells header _ ?_ ?_ ?_ <;> simp [isLevel, rank]
  | letBinding | varBinding | typeAlias | enumCases =>
    simp [declarationNamed, Grammar.typeAlias, Tells, isLevel, rank]
  | other h => simp [declarationNamed_of_other header h, Tells]

lemma declaration_candid (context : Context) : (Goal.declaration context).Candid := by
  simp [Goal.Candid, procedure, declaration, isLevel, rank]
  intro start attributes modifiers kind
  split
  · simp [declarationFrom]
    refine ⟨fun _ => ?_, fun _ => (declarationNamed_tells context _ _).imp fun node => ?_⟩
    · exact importing_candid context _ _ (by simp [isLevel, rank])
    · refine separator_candid context ?_ fun e he => ?_
      · simp
      · simpa using he
  · split <;> simp

end Grammar

open Grammar in
/-- Every procedure is candid, and its goal has the weight of the goals that it calls. -/
theorem Goal.candid (g : Goal) : g.Candid := by
  cases g with
  | type => exact type_candid
  | types => exact types_candid
  | typePath => exact typePath_candid
  | typeMarks => exact typeMarks_candid
  | expression floor => exact expression_candid floor
  | operations floor => exact operations_candid floor
  | operand => exact operand_candid
  | suffixes => exact suffixes_candid
  | arguments closer => exact arguments_candid closer
  | elements => exact elements_candid
  | entries => exact entries_candid
  | pattern mode => exact pattern_candid mode
  | patterns mode => exact patterns_candid mode
  | patternMarks => exact patternMarks_candid
  | block => exact block_candid
  | statements stop => exact statements_candid stop
  | item => exact item_candid
  | statement => exact statement_candid
  | elseIf => exact elseIf_candid
  | conditions => exact conditions_candid
  | handlers => exact handlers_candid
  | switchBody => exact switchBody_candid
  | arms => exact arms_candid
  | caseItems => exact caseItems_candid
  | declaration context => exact declaration_candid context
  | attributes => exact attributes_candid
  | modifiers => exact modifiers_candid
  | submodules => exact submodules_candid
  | bindings => exact bindings_candid
  | parameters => exact parameters_candid
  | typeBody context => exact typeBody_candid context
  | members context => exact members_candid context
  | caseNames => exact caseNames_candid

end FrontEnd
