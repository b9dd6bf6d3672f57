/-
All expressions of a tree are read as expressions.

What holds of every expression in what the goal of expressions reads holds of every
expression in every tree: patterns, statements and declarations only hold expressions that
were read for that goal.  The expressions are those that a visit of the tree meets.

* `Goal.Reads.holds`: for the readings of the other goals;
* `Parser.readTokens_holds`: for the reading of a list of tokens.
-/
import FrontEnd.Proofs.Contract.Words
import FrontEnd.Proofs.Keyword
import FrontEnd.Proofs.Progress.Termination
import FrontEnd.Syntax.Visit

namespace FrontEnd

/-- Every expression among some nodes has a property. -/
def Node.Hold (P : Expression → Prop) (nodes : List Node) : Prop :=
  ∀ e, .expression e ∈ nodes → P e

section

variable {P : Expression → Prop} (node : Node) (nodes later : List Node)

@[simp] lemma hold_nil : Node.Hold P [] :=
  fun _ he => nomatch he

@[simp] lemma hold_append : Node.Hold P (nodes ++ later) ↔ Node.Hold P nodes ∧ Node.Hold P later := by
  simp only [Node.Hold, List.mem_append, or_imp, forall_and]

@[simp] lemma hold_flatMap {α : Type} (f : α → List Node) (items : List α) :
    Node.Hold P (items.flatMap f) ↔ ∀ a ∈ items, Node.Hold P (f a) := by
  simp only [Node.Hold, List.mem_flatMap]
  exact ⟨fun h a ha e he => h e ⟨a, ha, he⟩, fun h e ⟨a, ha, he⟩ => h a ha e he⟩

@[simp] lemma hold_expression (e : Expression) :
    Node.Hold P ((Node.expression e).visit (fun _ => true) nodes) ↔ P e ∧ Node.Hold P nodes := by
  simp [Node.Hold, Node.visit, or_imp, forall_and]

@[simp] lemma hold_pattern (p : Pattern) :
    Node.Hold P ((Node.pattern p).visit (fun _ => true) nodes) ↔ Node.Hold P nodes := by
  simp [Node.Hold, Node.visit]

@[simp] lemma hold_statement (a : Statement) :
    Node.Hold P ((Node.statement a).visit (fun _ => true) nodes) ↔ Node.Hold P nodes := by
  simp [Node.Hold, Node.visit]

@[simp] lemma hold_declaration (d : Declaration) :
    Node.Hold P ((Node.declaration d).visit (fun _ => true) nodes) ↔ Node.Hold P nodes := by
  simp [Node.Hold, Node.visit]

@[simp] lemma hold_patternVisit (p : Pattern) :
    Node.Hold P (p.visit fun _ => true) ↔ Node.Hold P (p.inside fun _ => true) :=
  hold_pattern _ _

@[simp] lemma hold_declarationVisit (d : Declaration) :
    Node.Hold P (d.visit fun _ => true) ↔ Node.Hold P (d.inside fun _ => true) :=
  hold_declaration _ _

end

namespace Goal

/-- The nodes of an expression, and those inside of what was read for a goal that makes up
none. -/
@[simp] def nodes : (g : Goal) → g.Result → List Node
  | expression _, e => e.visit fun _ => true
  | pattern _, p => p.inside fun _ => true
  | patterns _, ps => Pattern.visitAll (fun _ => true) ps
  | block, b => b.visit fun _ => true
  | statements _, items => Statement.visitAll (fun _ => true) items
  | item, kept => kept.value.inside fun _ => true
  | statement, a | elseIf, a => a.inside fun _ => true
  | conditions, cs => cs.flatMap (Condition.visit fun _ => true)
  | handlers, hs => Handler.visitAll (fun _ => true) hs
  | switchBody, found => Arm.visitAll (fun _ => true) found
  | arms, found => Arm.visitAll (fun _ => true) found
  | caseItems, items => items.flatMap (CaseItem.visit fun _ => true)
  | declaration _, kept => kept.value.inside fun _ => true
  | bindings, items => items.flatMap (Binding.visit fun _ => true)
  | parameters, ps => ps.flatMap fun p => Expression.visitOptional (fun _ => true) p.default
  | typeBody _, found => Declaration.visitAll (fun _ => true) found
  | members _, found => Declaration.visitAll (fun _ => true) found
  | _, _ => []

end Goal

/-- Every expression in what is read has a property. -/
def holding (P : Expression → Prop) : Contract where
  enter _ _ := True
  value g _ a _ := Node.Hold P (g.nodes a)
  error _ _ _ _ := True

/-- What the goals that are called promise. -/
abbrev heldIn (P : Expression → Prop) : Contract :=
  (holding P).given fun _ _ _ => True

section

variable (P : Expression → Prop) (g : Goal) (s : State)

@[simp] lemma holding_enter : (holding P).enter g s ↔ True := Iff.rfl

@[simp] lemma holding_value (a : g.Result) (s' : State) :
    (holding P).value g s a s' ↔ Node.Hold P (g.nodes a) := Iff.rfl

@[simp] lemma holding_error (e : ParseError) (s' : State) :
    (holding P).error g s e s' ↔ True := Iff.rfl

end

namespace Procedure

variable {α : Type} {P : Expression → Prop} {K : Contract}

/-- What a procedure ends in is as wanted, if every expression in what it reads has a
property. -/
def Holds (P : Expression → Prop) (p : Procedure α) (good : α → Prop) : Prop :=
  ∀ way s, p.Meets (heldIn P) way s (fun _ a _ => good a) fun _ _ _ => True

lemma Holds.imp {p : Procedure α} {good : α → Prop} (h : p.Holds P good) {way : List Event}
    {s : State} {ok : List Event → α → State → Prop} (hok : ∀ way a s, good a → ok way a s) :
    p.Meets (heldIn P) way s ok fun _ _ _ => True :=
  (h way s).imp hok fun _ _ _ _ => trivial

/-- All ways through a procedure end as wanted, if all ends are wanted. -/
lemma meets_of_forall (henter : ∀ g s, K.enter g s) (p : Procedure α) (way : List Event) (s : State)
    {ok : List Event → α → State → Prop} {err : List Event → ParseError → State → Prop}
    (hok : ∀ way a s, ok way a s) (herr : ∀ way e s, err way e s) :
    p.Meets K way s ok err := by
  induction p generalizing way s with
  | done a => exact hok _ _ _
  | fail e => exact herr _ _ _
  | ask i next ih => exact ih _ _ _
  | call g next ih => exact ⟨henter _ _, fun a s' _ => ih _ _ _, fun e s' _ => ih _ _ _⟩
  | note e next ih => exact ih _ _

end Procedure

lemma Procedure.holds_true {α : Type} {P : Expression → Prop} (p : Procedure α) :
    p.Holds P fun _ => True :=
  fun _ _ => meets_of_forall (fun _ _ => trivial) _ _ _ (fun _ _ _ => trivial) fun _ _ _ => trivial

namespace Grammar

open Procedure

variable {P : Expression → Prop}

/-! ### Patterns -/

/-- A procedure that builds a pattern from its range. -/
abbrev BuildsPattern (P : Expression → Prop) (p : Procedure (Range → Pattern)) : Prop :=
  p.Holds P fun build => ∀ r, Node.Hold P ((build r).inside fun _ => true)

lemma tuplePattern_holds (mode : PatternMode) : BuildsPattern P (tuplePattern mode) := by
  intro way s
  simp +contextual [tuplePattern, tupleElements, Pattern.inside, Pattern.visitAll]

lemma enumCase_holds (mode : PatternMode) (type : Option String) (name : String) :
    BuildsPattern P (enumCase mode type name) := by
  intro way s
  simp [enumCase, Pattern.inside]
  refine fun _ => (tuplePattern_holds mode).imp fun _ build _ hbuild => ?_
  simpa using hbuild _

lemma comparedValueOrError_holds : BuildsPattern P comparedValueOrError := by
  intro way s
  simp +contextual [comparedValueOrError, Pattern.inside]

lemma unmarkedPattern_holds (mode : PatternMode) : BuildsPattern P (unmarkedPattern mode) := by
  intro way s
  simp [unmarkedPattern]
  split
  · simp
  next kind hkind =>
    simp +contextual [Pattern.inside]
    intro _ _
    split
    · simp [Pattern.inside]
    · exact tuplePattern_holds mode _ _
    · simp
      exact fun name _ => enumCase_holds mode none name _ _
    · simp [caseFollows, comparedValue]
      split <;> simp +contextual [Pattern.inside]
      all_goals exact fun _ case _ => enumCase_holds mode _ case _ _
    · simp [caseFollows, comparedValue]
      split <;> simp +contextual [Pattern.inside]
      all_goals exact fun _ case _ => enumCase_holds mode _ case _ _
    · split
      · simp [Pattern.inside]
        exact fun _ => comparedValueOrError_holds _ _
      · exact comparedValueOrError_holds _ _

lemma untypedPattern_holds : BuildsPattern P untypedPattern := by
  intro way s
  simp [untypedPattern]
  split
  · simp [Pattern.inside]
  · exact tuplePattern_holds .declared _ _
  · split <;> simp [Pattern.inside]

lemma pattern_holds (mode : PatternMode) :
    (pattern mode).Holds P fun p => Node.Hold P (p.inside fun _ => true) := by
  intro way s
  unfold pattern
  split
  · simp [declaredPattern]
    refine untypedPattern_holds.imp fun way build t hbuild => ?_
    simp [Pattern.inside]
    exact ⟨fun _ _ => hbuild _, fun _ => hbuild _⟩
  · simp [testedPattern]
    refine (unmarkedPattern_holds mode).imp fun way build t hbuild => ?_
    intro marks
    -- each mark wraps the pattern before it
    suffices hfold : ∀ p : Pattern, Node.Hold P (p.inside fun _ => true) →
        Node.Hold P ((marks.foldl (fun inner stop => Pattern.optional ⟨s.cursor.startLocation, stop⟩
          inner) p).inside fun _ => true) from fun _ => hfold _ (hbuild _)
    induction marks with
    | nil => exact fun p hp => hp
    | cons stop marks ih => exact fun p hp => ih _ (by simpa [Pattern.inside] using hp)

lemma patterns_holds (mode : PatternMode) :
    (patterns mode).Holds P fun ps => Node.Hold P (Pattern.visitAll (fun _ => true) ps) := by
  intro way s
  simp +contextual [patterns, Pattern.visitAll]

/-! ### Statements -/

/-- A procedure that builds a statement from its range. -/
abbrev BuildsStatement (P : Expression → Prop) (p : Procedure (Range → Statement)) : Prop :=
  p.Holds P fun build => ∀ r, Node.Hold P ((build r).inside fun _ => true)

/-- The items of a list are the one that was read and those behind it. -/
lemma itemThen_holds {α : Type} {r : Except ParseError (Kept α)} {next : Procedure (List α)}
    {nodes : List α → List Node} {f : α → List Node}
    (hcons : ∀ a later, Node.Hold P (f a) → Node.Hold P (nodes later) →
      Node.Hold P (nodes (a :: later)))
    (htried : ∀ kept, r = .ok kept → Node.Hold P (f kept.value))
    (hnext : next.Holds P fun later => Node.Hold P (nodes later)) :
    (itemThen r next).Holds P fun items => Node.Hold P (nodes items) := by
  intro way s
  rcases r with e | ⟨value, _ | e⟩
  · simp [itemThen, recoverThen]
    exact hnext _ _
  · simp [itemThen]
    exact hnext.imp fun _ later _ hlater => hcons _ _ (htried _ rfl) hlater
  · simp [itemThen, recoverThen]
    exact hnext.imp fun _ later _ hlater => hcons _ _ (htried _ rfl) hlater

lemma item_holds : item.Holds P fun kept => Node.Hold P (kept.value.inside fun _ => true) := by
  intro way s
  simp +contextual [item, Statement.inside]
  exact fun _ a _ _ => holds_true _ _ _

lemma statements_holds (stop : BlockEnd) :
    (statements stop).Holds P fun items =>
      Node.Hold P (Statement.visitAll (fun _ => true) items) := by
  intro way s
  simp [statements]
  split
  · simp
  · have hnext : (Procedure.read (Goal.statements stop)).Holds P fun items =>
        Node.Hold P (Statement.visitAll (fun _ => true) items) := by
      intro way s
      simp
    have hitem := fun tried htried => itemThen_holds (P := P) (r := tried)
      (f := fun a : Statement => a.inside fun _ => true)
      (by simp +contextual [Statement.visitAll]) htried hnext
    simp [Statement.visitAll]
    exact fun _ _ => ⟨fun kept _ hkept => hitem (.ok kept) (by simpa using hkept) _ _,
      fun e _ => hitem (.error e) (by simp) _ _⟩

lemma block_holds : block.Holds P fun b => Node.Hold P (b.visit fun _ => true) := by
  intro way s
  simp [block, Block.visit]

lemma condition_holds : condition.Holds P fun c => Node.Hold P (c.visit fun _ => true) := by
  intro way s
  simp +contextual [condition, conditionValue, Condition.visit]

lemma conditions_holds :
    conditions.Holds P fun cs => Node.Hold P (cs.flatMap (Condition.visit fun _ => true)) := by
  intro way s
  simp only [conditions, meets_bind]
  exact condition_holds.imp (by simp +contextual)

lemma choice_holds : BuildsStatement P choice := by
  intro way s
  simp +contextual [choice, blockNext, alternative, Statement.inside, Alternative.visit]

lemma handlerPattern_holds :
    handlerPattern.Holds P fun p => ∀ inner, p = some inner →
      Node.Hold P (inner.inside fun _ => true) := by
  intro way s
  simp [handlerPattern]
  split <;> simp

lemma handlers_holds :
    handlers.Holds P fun hs => Node.Hold P (Handler.visitAll (fun _ => true) hs) := by
  intro way s
  simp [handlers, Handler.visitAll]
  refine fun _ => handlerPattern_holds.imp fun way p t hp => ?_
  rcases p with _ | p <;>
    simp +contextual [guardingCondition, blockNext, Handler.visitAll, Expression.visitOptional, hp]

lemma caseItems_holds :
    caseItems.Holds P fun items =>
      Node.Hold P (items.flatMap (CaseItem.visit fun _ => true)) := by
  intro way s
  simp +contextual [caseItems, guardingCondition, CaseItem.visit, Expression.visitOptional]

lemma arms_holds : arms.Holds P fun found => Node.Hold P (Arm.visitAll (fun _ => true) found) := by
  intro way s
  simp [arms]
  split
  · simp
  · simp +contextual [Arm.visitAll]

lemma returnValue_holds :
    returnValue.Holds P fun value => Node.Hold P (Expression.visitOptional (fun _ => true) value) := by
  intro way s
  simp [returnValue]
  split <;> simp [Expression.visitOptional]

lemma loopPattern_holds (isMatching : Bool) :
    (loopPattern isMatching).Holds P fun p => Node.Hold P (p.inside fun _ => true) := by
  intro way s
  cases isMatching <;> simp [loopPattern]

lemma unlabeled_holds (word : Option String) : BuildsStatement P (unlabeled word) := by
  intro way s
  cases StatementWord.of word with
  | breaking | continuing =>
    simp [unlabeled, Statement.inside]
    exact (holds_true _).imp (by simp)
  | returning =>
    simp [unlabeled]
    refine returnValue_holds.imp fun way value t hvalue => ?_
    cases value <;> simp_all [Statement.inside, Expression.visitOptional]
  | choice => exact choice_holds _ _
  | forIn =>
    simp [unlabeled, Grammar.forIn]
    refine (loopPattern_holds _).imp fun way p t hp => ?_
    simp +contextual [guardingCondition, blockNext, Statement.inside, Expression.visitOptional, hp]
  | fallthrough | throwing | deferring | doing | guarding | looping | repeating | switch =>
    simp +contextual [unlabeled, Grammar.doing, Grammar.guarding, Grammar.looping,
      Grammar.repeating, Grammar.switch, blockHere, blockNext, Statement.inside]
  | other h => simp +contextual [unlabeled_of_other h, Statement.inside]

lemma statement_holds :
    statement.Holds P fun a => Node.Hold P (a.inside fun _ => true) := by
  intro way s
  simp [statement]
  refine ⟨fun _ => (holds_true _).imp (by simp [Statement.inside]), fun _ => ?_⟩
  refine (holds_true _).imp fun way label t _ => ?_
  split
  · simp [Statement.inside]
  · simp
    exact (unlabeled_holds _).imp fun _ _ _ hbuild => hbuild _

/-! ### Declarations -/

/-- A procedure that builds a declaration from its range. -/
abbrev BuildsDeclaration (P : Expression → Prop) (p : Procedure (Range → Declaration)) : Prop :=
  p.Holds P fun build => ∀ r, Node.Hold P ((build r).inside fun _ => true)

lemma initializer_holds :
    initializer.Holds P fun value => Node.Hold P (Expression.visitOptional (fun _ => true) value) := by
  intro way s
  simp [initializer, Expression.visitOptional]

lemma bindings_holds :
    bindings.Holds P fun items => Node.Hold P (items.flatMap (Binding.visit fun _ => true)) := by
  intro way s
  simp [bindings]
  refine fun p t hp => initializer_holds.imp fun way value u hvalue => ?_
  simp +contextual [Binding.visit, hp, hvalue]

lemma parameter_holds :
    parameter.Holds P fun p => Node.Hold P (Expression.visitOptional (fun _ => true) p.default) := by
  intro way s
  simp [parameter]
  refine (holds_true _).imp fun way names t _ => ?_
  simp [parameterDefault, Expression.visitOptional]

lemma parameters_holds :
    parameters.Holds P fun ps => Node.Hold P
      (ps.flatMap fun p => Expression.visitOptional (fun _ => true) p.default) := by
  intro way s
  simp [parameters]
  exact parameter_holds.imp fun way p t hp => by simp +contextual [hp]

lemma signature_holds :
    signature.Holds P fun f => Node.Hold P (f.visit fun _ => true) := by
  intro way s
  simp +contextual [signature, parameterClause, throwsClause, resultClause, Signature.visit]

lemma function_holds (header : Header) : BuildsDeclaration P (function header) := by
  intro way s
  simp [function]
  refine signature_holds.imp fun way f t hf => ?_
  simp [Declaration.inside, hf]

lemma typeDeclaration_holds (header : Header) (family : TypeFamily) :
    BuildsDeclaration P (typeDeclaration header family) := by
  intro way s
  simp [typeDeclaration]
  refine (holds_true _).imp fun way name t _ => ?_
  simp [inheritanceClause, Declaration.inside]

lemma members_holds (context : Context) :
    (members context).Holds P fun found =>
      Node.Hold P (Declaration.visitAll (fun _ => true) found) := by
  intro way s
  simp [members]
  split
  · simp
  · have hnext : (Procedure.read (Goal.members context)).Holds P fun items =>
        Node.Hold P (Declaration.visitAll (fun _ => true) items) := by
      intro way s
      simp
    have hmember := fun tried htried => itemThen_holds (P := P) (r := tried)
      (f := fun d : Declaration => d.inside fun _ => true)
      (by simp +contextual [Declaration.visitAll]) htried hnext
    simp [Declaration.visitAll, recoverThen]
    exact fun _ _ _ => ⟨fun kept _ hkept => hmember (.ok kept) (by simpa using hkept) _ _,
      fun e _ => hmember (.error e) (by simp) _ _⟩

lemma declarationNamed_holds (header : Header) (word : String) :
    BuildsDeclaration P (declarationNamed header word) := by
  intro way s
  cases DeclarationWord.of word with
  | function => exact function_holds header _ _
  | structType | classType | enumType | protocol | extension =>
    exact typeDeclaration_holds header _ _ _
  | letBinding | varBinding | typeAlias | enumCases =>
    simp [declarationNamed, Grammar.typeAlias, Declaration.inside]
  | other h => simp [declarationNamed_of_other header h]

lemma importing_holds (context : Context) (start : Location) (header : Header) :
    (importing context start header).Holds P fun kept =>
      Node.Hold P (kept.value.inside fun _ => true) := by
  intro way s
  simp [importing]
  refine (holds_true _).imp fun way kind t _ => ?_
  exact fun _ _ names u => (holds_true _).imp (by simp [Declaration.inside])

lemma declaration_holds (context : Context) :
    (declaration context).Holds P fun kept => Node.Hold P (kept.value.inside fun _ => true) := by
  intro way s
  simp [declaration]
  intro attributes t modifiers u
  split
  · simp [declarationFrom]
    refine ⟨fun _ => importing_holds context _ _ _ _, fun _ => ?_⟩
    refine (declarationNamed_holds _ _).imp fun way build v hbuild => ?_
    exact (holds_true _).imp fun _ _ _ _ => hbuild _
  · simp

end Grammar

/-! ### Readings -/

open Grammar Procedure in
/-- Every expression in what a goal reads has a property, if those have it that are read
as expressions. -/
lemma Goal.procedure_holds {P : Expression → Prop} (g : Goal) (hg : ∀ floor, g ≠ .expression floor) :
    g.procedure.Holds P fun a => Node.Hold P (g.nodes a) := by
  cases g with
  | expression floor => exact absurd rfl (hg floor)
  | pattern mode => exact pattern_holds mode
  | patterns mode => exact patterns_holds mode
  | block => exact block_holds
  | statements stop => exact statements_holds stop
  | item => exact item_holds
  | statement => exact statement_holds
  | elseIf =>
    intro way s
    simp [procedure, Grammar.elseIf]
    exact choice_holds.imp fun _ _ _ hbuild => hbuild _
  | conditions => exact conditions_holds
  | handlers => exact handlers_holds
  | switchBody =>
    intro way s
    simp [procedure, Grammar.switchBody]
  | arms => exact arms_holds
  | caseItems => exact caseItems_holds
  | declaration context => exact declaration_holds context
  | bindings => exact bindings_holds
  | parameters => exact parameters_holds
  | typeBody context =>
    intro way s
    simp [procedure, Grammar.typeBody]
  | members context => exact members_holds context
  | _ =>
    simp only [nodes, hold_nil]
    exact holds_true _

/-- What holds of every expression that is read as one holds of every expression in what any
goal reads. -/
theorem Goal.Reads.holds {P : Expression → Prop} {room : Nat}
    (hP : ∀ room floor s e s', (expression floor).Reads room s (.ok e) s' →
      Node.Hold P (e.visit fun _ => true))
    {g : Goal} {s s' : State} {a : g.Result} (h : g.Reads room s (.ok a) s') :
    Node.Hold P (g.nodes a) := by
  obtain ⟨bound, hr⟩ := h
  have hkept : Contract.Family.Kept (fun _ _ _ => True) fun _ _ => holding P := by
    refine ⟨fun below room inside g s hroom _ => ?_, fun _ _ _ _ _ _ => trivial⟩
    by_cases hg : ∃ floor, g = .expression floor
    · obtain ⟨floor, rfl⟩ := hg
      refine Procedure.meets_of_forall (fun _ _ => trivial) _ _ _ (fun way e s' _ he => ?_)
        fun _ _ _ _ _ => trivial
      refine hP room floor s e s' ⟨below + 1, ?_⟩
      rw [run, hroom]
      exact he
    · have hne : ∀ floor, g ≠ .expression floor := fun floor hg' => hg ⟨floor, hg'⟩
      refine ((g.procedure_holds hne) [] s).imp (fun _ _ _ ha _ _ => ha) fun _ _ _ _ _ _ => trivial
  exact (hkept.finished known_true bound room g s trivial).1 a s' hr

/-- What holds of every expression that is read as one holds of every expression in the
declarations of a list of tokens. -/
theorem Parser.readTokens_holds {P : Expression → Prop}
    (hP : ∀ room floor s e s', (Goal.expression floor).Reads room s (.ok e) s' →
      Node.Hold P (e.visit fun _ => true)) (p : Parser) (tokens : List Token) :
    Node.Hold P ((p.readTokens tokens).root.visit fun _ => true) := by
  obtain ⟨found, s, hrun, -, heq⟩ := p.exists_steps tokens
  have hfound : ∀ d ∈ found, Node.Hold P (d.inside fun _ => true) := by
    have hlast : ∀ q, Relation.ReflTransGen (TopLevel.Step p.maxDepth)
        ([], ⟨(Cursor.start tokens).shift, []⟩) q →
        ∀ d ∈ q.1, Node.Hold P (d.inside fun _ => true) := by
      intro q hq
      induction hq with
      | refl => exact fun d hd => nomatch hd
      | tail _ hstep ih =>
        cases hstep with
        | @declaration found s t r hcurrent hstarts hreads =>
          rcases r with e | ⟨d, _ | e⟩
          · exact ih
          · exact List.forall_mem_cons.mpr ⟨hreads.holds hP, ih⟩
          · exact List.forall_mem_cons.mpr ⟨hreads.holds hP, ih⟩
        | pass hcurrent hstarts => exact ih
    exact hlast _ hrun
  rw [heq, Root.visit, hold_flatMap]
  exact fun d hd => (hold_declarationVisit d).mpr (hfound d (List.mem_reverse.mp hd))

end FrontEnd
