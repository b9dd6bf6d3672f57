/-
Statements are read whatever the places are.
-/
import FrontEnd.Proofs.Keyword
import FrontEnd.Proofs.View.Expression

namespace FrontEnd

namespace Grammar

open Procedure

variable {v : View}

/-! ### Separators and lists -/

lemma separator_natural (context : Context) :
    (separator context).Natural v (fun a b => b = a.map (·.view v)) (separator context) := by
  simp [separator]
  intro kind
  split <;> simp

/-- The items of a list behind the one just tried. -/
lemma itemThen_natural {α : Type} {show? : α → α} {views : List α → List α}
    (hcons : ∀ a later, views (a :: later) = show? a :: views later)
    {tried tried' : Except ParseError (Kept α)}
    (htried : tried' = match tried with
      | .ok kept => .ok (kept.view v show?)
      | .error e => .error (e.view v))
    {next : Procedure (List α)} (hnext : next.Natural v (fun a b => b = views a) next) :
    (itemThen tried next).Natural v (fun a b => b = views a) (itemThen tried' next) := by
  subst htried
  obtain e | ⟨value, _ | e⟩ := tried
  · simp [itemThen, recoverThen]
    exact hnext
  · simp only [itemThen, Kept.view, Option.map_none]
    exact hnext.bind fun later _ h => by simp [h, hcons]
  · have hrecover : (recoverThen e next).Natural v (fun a b => b = views a)
        (recoverThen (e.view v) next) := by
      simp [recoverThen]
      exact hnext
    simp only [itemThen, Kept.view, Option.map_some]
    exact hrecover.bind fun later _ h => by simp [h, hcons]

lemma item_natural : Goal.item.Natural v := by
  simp [Goal.Natural, Goal.procedure, item]
  refine ⟨fun statement => (separator_natural _).bind fun complaint _ h => ?_, fun kept => ?_⟩
  · simp [h, Kept.view]
  · simp [Kept.view, Statement.view]

lemma statements_natural (stop : BlockEnd) : (Goal.statements stop).Natural v := by
  simp [Goal.Natural, Goal.procedure, statements]
  intro kind
  split
  · simp
  · simp [Statement.views]
    refine fun _ _ r => itemThen_natural (fun _ _ => rfl) ?_ (read_natural (.statements stop))
    cases r <;> rfl

lemma block_natural : Goal.block.Natural v :=
  Natural.ranged (natural_read.mpr fun _ => natural_pure.mpr fun _ => rfl)

lemma blockHere_natural : blockHere.Natural v (fun a b => b = a.view v) blockHere :=
  natural_expectHere.mpr (read_natural .block)

lemma blockNext_natural : blockNext.Natural v (fun a b => b = a.view v) blockNext :=
  natural_expectNext.mpr (read_natural .block)

/-! ### Conditions -/

lemma condition_natural : condition.Natural v (fun a b => b = a.view v) condition := by
  simp [condition, conditionValue, bind_bind, Condition.view]

lemma conditions_natural : Goal.conditions.Natural v := by
  refine condition_natural.bind fun first _ h => ?_
  simp [h]

lemma guardingCondition_natural :
    guardingCondition.Natural v (fun a b => b = a.map (·.view v)) guardingCondition := by
  simp [guardingCondition]

/-! ### Statements with blocks -/

/-- What follows `else` through a view. -/
lemma alternative_natural :
    alternative.Natural v (fun a b => b = a.map (·.view v)) alternative := by
  simp [alternative, Alternative.view]

lemma choice_rebuilds : Rebuilds v (Statement.view v) choice := by
  simp [Rebuilds, choice]
  refine fun conditions => blockNext_natural.bind fun body _ hbody =>
    alternative_natural.bind fun other _ hother => ?_
  subst hbody hother
  rcases other with _ | other <;> simp [Statement.view]

lemma elseIf_natural : Goal.elseIf.Natural v :=
  choice_rebuilds.ranged

lemma guarding_rebuilds : Rebuilds v (Statement.view v) guarding := by
  simp [Rebuilds, guarding]
  refine fun conditions => blockNext_natural.bind fun body _ h => natural_pure.mpr fun _ => ?_
  rw [h]
  rfl

lemma looping_rebuilds : Rebuilds v (Statement.view v) looping := by
  simp [Rebuilds, looping]
  refine fun conditions => blockNext_natural.bind fun body _ h => natural_pure.mpr fun _ => ?_
  rw [h]
  rfl

lemma repeating_rebuilds : Rebuilds v (Statement.view v) repeating := by
  simp [Rebuilds, repeating]
  refine blockHere_natural.bind fun body _ h => ?_
  simp [h]
  exact fun _ _ => rfl

lemma loopPattern_natural (isMatching : Bool) :
    (loopPattern isMatching).Natural v (fun a b => b = a.view v) (loopPattern isMatching) := by
  cases isMatching
  · exact read_natural (.pattern .declared)
  · exact natural_advance.mpr (read_natural (.pattern .matching))

lemma forIn_rebuilds : Rebuilds v (Statement.view v) forIn := by
  simp only [Rebuilds, forIn, natural_advance, natural_isWordHere]
  refine fun isMatching => (loopPattern_natural isMatching).bind fun pattern _ hpattern => ?_
  simp
  refine fun collection => guardingCondition_natural.bind fun condition _ hcondition =>
    blockNext_natural.bind fun body _ hbody => ?_
  exact natural_pure.mpr fun _ => by rw [hpattern, hcondition, hbody]; rfl

lemma handlerPattern_natural :
    handlerPattern.Natural v (fun a b => b = a.map (·.view v)) handlerPattern := by
  simp [handlerPattern]
  intro kind
  split <;> simp

lemma handlers_natural : Goal.handlers.Natural v := by
  simp [Goal.Natural, Goal.procedure, handlers, Handler.views]
  refine handlerPattern_natural.bind fun pattern _ hpattern =>
    guardingCondition_natural.bind fun condition _ hcondition =>
      blockNext_natural.bind fun body _ hbody => ?_
  simp [hpattern, hcondition, hbody, Handler.views]

lemma doing_rebuilds : Rebuilds v (Statement.view v) doing := by
  simp [Rebuilds, doing]
  refine blockHere_natural.bind fun body _ h => ?_
  simp [h]
  exact fun _ _ => rfl

lemma caseItems_natural : Goal.caseItems.Natural v := by
  simp [Goal.Natural, Goal.procedure, caseItems]
  refine fun pattern => guardingCondition_natural.bind fun condition _ h => ?_
  simp [h, CaseItem.view]

lemma arms_natural : Goal.arms.Natural v := by
  simp [Goal.Natural, Goal.procedure, arms]
  intro kind
  split <;> simp [Arm.views]

lemma switchBody_natural : Goal.switchBody.Natural v :=
  natural_advance.mpr (read_natural .arms)

lemma switch_rebuilds : Rebuilds v (Statement.view v) switch := by
  simp [Rebuilds, switch, Statement.view]

/-! ### Statements without blocks -/

lemma jumpLabel_steady : Steady v jumpLabel := by
  simp [Steady, jumpLabel]
  intro kind
  split <;> simp

lemma returnValue_natural :
    returnValue.Natural v (fun a b => b = a.map (·.view v)) returnValue := by
  simp [returnValue]
  intro kind
  split <;> simp

lemma expectLabel_steady (label : String) : Steady v (expectLabel label) := by
  simp [Steady, expectLabel]

lemma locationFile_steady : Steady v locationFile := by
  simp only [Steady, locationFile]
  refine (expectLabel_steady _).bind fun _ _ _ => ?_
  simp
  intro kind
  split <;> simp

lemma locationLine_steady : Steady v locationLine := by
  simp only [Steady, locationLine]
  refine (expectLabel_steady _).bind fun _ _ _ => ?_
  simp
  intro kind
  split <;> simp

lemma sourceLocation_natural :
    sourceLocation.Natural v (fun a b => b = a.view v) sourceLocation := by
  simp [sourceLocation, Directive.view]
  refine locationFile_steady.bind fun file _ hfile => ?_
  simp
  refine locationLine_steady.bind fun line _ hline => ?_
  simp [hfile, hline]

lemma directiveNamed_natural (name : String) :
    (directiveNamed name).Natural v (fun a b => b = a.view v) (directiveNamed name) := by
  cases DirectiveWord.of name with
  | sourceLocation => exact sourceLocation_natural
  | ifTrue | elseIfTrue | otherwise | endIf => simp [directiveNamed, Directive.view]
  | other h => simp [directiveNamed_of_other h]

lemma directive_natural : directive.Natural v (fun a b => b = a.view v) directive := by
  simp [directive]
  intro kind
  split
  · exact directiveNamed_natural _
  · simp

/-! ### All statements -/

lemma unlabeled_rebuilds (word : Option String) :
    Rebuilds v (Statement.view v) (unlabeled word) := by
  cases StatementWord.of word with
  | breaking | continuing =>
    refine jumpLabel_steady.bind fun label _ h => ?_
    simp [h, Statement.view]
  | returning =>
    refine returnValue_natural.bind fun value _ h => ?_
    simp [h, Statement.view]
  | deferring =>
    simp [unlabeled, Rebuilds]
    refine blockHere_natural.bind fun body _ h => ?_
    simp [h, Statement.view]
  | doing => exact doing_rebuilds
  | choice => exact choice_rebuilds
  | guarding => exact guarding_rebuilds
  | looping => exact looping_rebuilds
  | repeating => exact repeating_rebuilds
  | forIn => exact forIn_rebuilds
  | switch => exact switch_rebuilds
  | fallthrough | throwing => simp [unlabeled, Rebuilds, Statement.view]
  | other h => simp [unlabeled_of_other h, Rebuilds, Statement.view]

lemma statementLabel_steady : Steady v statementLabel := by
  simp [Steady, statementLabel]
  intro kind
  split <;> simp

lemma statement_natural : Goal.statement.Natural v := by
  refine Natural.ranged ?_
  simp
  refine ⟨statementLabel_steady.bind fun label _ h => ?_, directive_natural.bind fun d _ h => ?_⟩
  · subst h
    split
    · simp [Statement.view]
    · simp
      exact fun kind => unlabeled_rebuilds _
  · simp [h, Statement.view]

end Grammar

end FrontEnd
