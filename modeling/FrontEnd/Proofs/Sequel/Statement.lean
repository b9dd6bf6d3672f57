/-
Statements keep abreast.

A statement may end with the list where the longer one goes on: with the line of a directive, or where
a search for what may follow looks into the sequel.  But then no block around it is closed, so none of
this comes out of a block.
-/
import FrontEnd.Proofs.Keyword
import FrontEnd.Proofs.Sequel.Expression

namespace FrontEnd

namespace Grammar

open Procedure

variable {q : Sequel} {s : State}

/-! ### Separators and blocks -/

lemma separator_paces (context : Context) (hs : s.cursor.here? ≠ none) :
    (separator context).Paces q s fun complaint s' => complaint ≠ none ∨ s'.cursor.Barren := by
  simp only [separator, Paces, abreast_advance_bind _ _ hs]
  refine ⟨fun hnext => ?_, fun hnone => by simp [hnone, Cursor.here?_advance]⟩
  have hhere : (s.cursor.advance .sameLine).here? ≠ none := by rwa [Cursor.here?_advance]
  have hback := Cursor.here?_unshift_advance hs hnext
  rw [abreast_here_bind _ hhere]
  split
  · simp [hhere]
  · simp [hhere]
  · simp [hhere]
  · rw [abreast_stepBack_bind _ hhere]
    refine ⟨fun _ => ?_, fun hnone => absurd hnone hback⟩
    rw [abreast_ite]
    refine ⟨fun _ => by simp [hback], fun _ => ?_⟩
    rw [abreast_errorHere_bind _ _ hback]
    simp

/-- Where nothing can be read any more a separator is complained of, or nothing can be read behind it
either. -/
lemma separator_yields_of_dying (context : Context) (h : s.cursor.Dying) :
    (separator context).Yields feedingOnward s fun complaint s' =>
      complaint ≠ none ∨ s'.cursor.Barren := by
  simp [separator]
  obtain h' | h' | h' | ⟨symbol, h'⟩ | h' := (h.advance .sameLine).here?_cases <;> simp [h', h]

/-- Where an operator ends the list a separator is complained of. -/
lemma separator_yields_of_operatorLast (context : Context) (h : s.cursor.OperatorLast) :
    (separator context).Yields feedingOnward s fun complaint _ => complaint ≠ none := by
  obtain ⟨kind, hkind, hbinary⟩ := h.exists_following? .sameLine
  rw [← Cursor.here?_advance] at hkind
  simp [separator, hkind]
  cases kind with
  | operator symbol => simp
  | punctuator mark => cases mark <;> simp [TokenKind.binary?] at hbinary ⊢
  | _ => simp [TokenKind.binary?] at hbinary

lemma itemThen_paces {α : Type} {out : List α → State → Prop} (tried : Except ParseError (Kept α)) (next : Procedure (List α))
    (hnext : ∀ value, tried = .ok ⟨value, none⟩ →
      next.Paces q s fun later s' => out (value :: later) s') :
    (itemThen tried next).Paces q s out := by
  rcases tried with e | ⟨value, _ | e⟩
  · trivial
  · refine (hnext value rfl).bind (fun later s' hs' => ?_) fun later s' hout => ?_
    · exact .inl hs'
    · exact hout
  · trivial

lemma item_paces (hs : s.cursor.here? ≠ none)
    (hsign : s.cursor.here? ≠ some (.punctuator .atSign)) :
    item.Paces q s fun kept s' => kept.complaint ≠ none ∨ s'.cursor.Dying := by
  simp only [item, Paces, abreast_startsDeclaration_bind _ hs hsign, abreast_ite]
  refine ⟨fun _ => ?_, fun _ => ?_⟩
  · simp +contextual [hs, or_imp]
  · rw [abreast_read_bind _ _ hs]
    refine fun statement s' _ => ⟨fun hs' => ?_, fun hparts => ?_⟩
    · refine (separator_paces .block hs').bind (fun complaint s'' hs'' => .inl hs'') ?_
      exact fun complaint s'' h => h.imp_right Cursor.Barren.dying
    · rw [yields_bind]
      refine (separator_yields_of_dying .block hparts).imp fun complaint s'' h => ?_
      exact h.imp_right Cursor.Barren.dying

lemma statements_paces (stop : BlockEnd) (hs : s.cursor.here? ≠ none) :
    (statements stop).Paces q s fun _ _ => False := by
  simp only [statements, Paces, abreast_advance_bind _ _ hs]
  refine ⟨fun hnext => ?_, fun hnone => by simp [hnone, Cursor.here?_advance]⟩
  have hhere : (s.cursor.advance .anyLine).here? ≠ none := by rwa [Cursor.here?_advance]
  rw [abreast_here_bind _ hhere]
  split
  · simp
  simp only [abreast_ite]
  refine ⟨fun _ => by simp [hhere], fun _ => ⟨fun _ => ?_, fun _ => ?_⟩⟩
  · rw [abreast_read _ hhere]
    simp +contextual
  · rw [abreast_attempt_bind _ _ hhere]
    refine ⟨fun kept s' _ => ⟨fun hs' => ?_, fun hparts => ?_⟩, fun e s' => trivial⟩
    · refine itemThen_paces _ _ fun value hvalue => ?_
      simp +contextual [Paces, hs']
    · refine itemThen_yields _ _ fun value hvalue => ?_
      cases hvalue
      have hdying : s'.cursor.Dying := by simpa using hparts
      simp [hdying]

lemma block_paces (hs : s.cursor.here? ≠ none) : block.Paces q s fun _ _ => False := by
  refine Paces.ranged hs ?_
  simp +contextual [Paces, hs]

lemma blockNext_paces (hs : s.cursor.here? ≠ none) : blockNext.Paces q s fun _ _ => False := by
  simp +contextual [blockNext, Paces, hs, Cursor.here?_advance]

/-- A block that is to come cannot come where nothing can be read. -/
lemma blockNext_starves (h : s.cursor.Dying) : blockNext.Starves s := by
  simp [blockNext, Starves, h]

/-! ### Conditions -/

lemma conditionValue_paces (hs : s.cursor.here? ≠ none) :
    conditionValue.Paces q s fun _ s' => s'.cursor.OperatorLast := by
  simp +contextual [conditionValue, Paces, hs, Cursor.here?_advance]

/-- A condition that binds names, from its keyword on. -/
lemma bindingCondition_paces (isMutable : Bool) (hs : s.cursor.here? ≠ none) :
    (do
      advance .anyLine
      let pattern ← read (.pattern .declared)
      let value ← conditionValue
      return .binding isMutable pattern value : Procedure Condition).Paces q s
        fun _ s' => s'.cursor.Dying := by
  simp only [Paces, abreast_advance_bind _ _ hs]
  refine ⟨fun hnext => ?_, fun hnone => by simp [hnone]⟩
  rw [abreast_read_bind _ _ (by rwa [State.cursor_moveTo, Cursor.here?_advance])]
  refine fun pattern t _ => ⟨fun ht => ?_, fun hparts => absurd rfl hparts.1⟩
  exact (conditionValue_paces ht).bind (fun value u hu => .inl hu) fun value u h => h.dying

lemma condition_paces (hs : s.cursor.here? ≠ none) :
    condition.Paces q s fun _ s' => s'.cursor.Dying := by
  simp only [condition, Paces, abreast_isWordHere_bind _ _ hs, abreast_ite]
  refine ⟨fun _ => ?_, fun _ => ?_⟩
  · rw [abreast_advance_bind _ _ hs]
    refine ⟨fun hnext => ?_, fun hnone => by simp [hnone]⟩
    rw [abreast_read_bind _ _ (by rwa [State.cursor_moveTo, Cursor.here?_advance])]
    refine fun pattern t _ => ⟨fun ht => ?_, fun hparts => ?_⟩
    · exact (conditionValue_paces ht).bind (fun value u hu => .inl hu) fun value u h => h.dying
    · simp [conditionValue, hparts.2.dying]
  · refine ⟨fun _ => bindingCondition_paces _ hs, fun _ => ?_⟩
    rw [abreast_read_bind _ _ hs]
    exact fun value t _ => ⟨fun ht => .inl ht, fun hparts => hparts.dying⟩

lemma conditions_paces (hs : s.cursor.here? ≠ none) :
    conditions.Paces q s fun _ s' => s'.cursor.Dying := by
  refine (condition_paces hs).bind (fun first t ht => ?_) fun first t h => ?_
  · simp +contextual [ht, Cursor.here?_advance]
  · simp +contextual [h]

lemma guardingCondition_paces (hs : s.cursor.here? ≠ none) :
    guardingCondition.Paces q s fun _ s' => s'.cursor.Dying := by
  refine Abreast.isWordNext _ hs (fun hsome => ?_) fun hnone => ?_
  · simp +contextual [hs, hsome, Cursor.here?_advance, Cursor.OperatorLast.dying]
  · simp [hnone]

/-- Where nothing can be read any more there is no condition behind `where` either. -/
lemma guardingCondition_yields (h : s.cursor.Dying) :
    guardingCondition.Yields feedingOnward s fun _ s' => s'.cursor.Dying := by
  simp [guardingCondition, h]

/-! ### Statements with blocks -/

lemma alternative_paces (hs : s.cursor.here? ≠ none) :
    alternative.Paces q s fun _ s' => s'.cursor.Dying := by
  refine Abreast.isWordNext _ hs (fun hsome => ?_) fun hnone => ?_
  · simp +contextual [hs, hsome, Cursor.here?_advance]
  · simp [hnone]

lemma choice_paces (hs : s.cursor.here? ≠ none) : choice.Paces q s fun _ s' => s'.cursor.Dying := by
  simp only [choice, Paces, abreast_advance_bind _ _ hs]
  refine ⟨fun hnext => ?_, fun hnone => by simp [hnone]⟩
  rw [abreast_read_bind _ _ (by rwa [State.cursor_moveTo, Cursor.here?_advance])]
  refine fun conditions t _ => ⟨fun ht => ?_, fun hparts => ?_⟩
  · refine (blockNext_paces ht).bind (fun body u hu => ?_) fun _ _ h => h.elim
    exact (alternative_paces hu).bind (fun other v hv => .inl hv) fun _ _ h => h
  · rw [yields_bind]
    exact (blockNext_starves hparts).imp fun _ _ h => h.elim

lemma elseIf_paces (hs : s.cursor.here? ≠ none) : elseIf.Paces q s fun _ s' => s'.cursor.Dying :=
  Paces.ranged hs ((choice_paces hs).imp (fun _ _ h => h) fun _ _ h _ => h)

lemma guarding_paces (hs : s.cursor.here? ≠ none) : guarding.Paces q s fun _ _ => False := by
  simp only [guarding, Paces, abreast_advance_bind _ _ hs]
  refine ⟨fun hnext => ?_, fun hnone => by simp [hnone]⟩
  rw [abreast_read_bind _ _ (by rwa [State.cursor_moveTo, Cursor.here?_advance])]
  refine fun conditions t _ => ⟨fun ht => ?_, fun hparts => ?_⟩
  · rw [abreast_expectNextWord_bind _ _ ht]
    intro hnext _
    have hhere : (t.cursor.advance .anyLine).here? ≠ none := by rwa [Cursor.here?_advance]
    exact (blockNext_paces hhere).bind (fun body u hu => .inl hu) fun _ _ h => h.elim
  · have hdying : t.cursor.Dying := hparts
    simp [hdying, Cursor.here?_advance]

lemma looping_paces (hs : s.cursor.here? ≠ none) : looping.Paces q s fun _ _ => False := by
  simp only [looping, Paces, abreast_advance_bind _ _ hs]
  refine ⟨fun hnext => ?_, fun hnone => by simp [hnone]⟩
  rw [abreast_read_bind _ _ (by rwa [State.cursor_moveTo, Cursor.here?_advance])]
  refine fun conditions t _ => ⟨fun ht => ?_, fun hparts => ?_⟩
  · exact (blockNext_paces ht).bind (fun body u hu => .inl hu) fun _ _ h => h.elim
  · rw [yields_bind]
    exact (blockNext_starves hparts).imp fun _ _ h => h.elim

lemma repeating_paces (hs : s.cursor.here? ≠ none) :
    repeating.Paces q s fun _ s' => s'.cursor.OperatorLast := by
  simp +contextual [repeating, blockHere, Paces, hs, Cursor.here?_advance]

lemma handlerPattern_paces (hs : s.cursor.here? ≠ none) :
    handlerPattern.Paces q s fun _ s' => s'.cursor.Dying := by
  refine Abreast.following hs (fun hsome => ?_) fun hnone => by simp [hnone]
  split
  · simp [hs]
  · simp +contextual [hs, hsome, Cursor.here?_advance, Cursor.OperatorLast.dying]

lemma handlers_paces (hs : s.cursor.here? ≠ none) :
    handlers.Paces q s fun _ s' => s'.cursor.Dying := by
  refine Abreast.isWordNext _ hs (fun hsome => ?_) fun hnone => by simp [hnone]
  rw [abreast_ite]
  refine ⟨fun _ => ?_, fun _ => by simp [hs]⟩
  rw [abreast_advance_bind _ _ hs]
  refine ⟨fun _ => ?_, fun hnone => absurd hnone hsome⟩
  have hhere : (s.cursor.advance .anyLine).here? ≠ none := by rwa [Cursor.here?_advance]
  refine (handlerPattern_paces hhere).bind (fun pattern t ht => ?_) fun pattern t h => ?_
  · refine (guardingCondition_paces ht).bind (fun guarding u hu => ?_) fun guarding u h => ?_
    · refine (blockNext_paces hu).bind (fun body v hv => ?_) fun _ _ h => h.elim
      simp +contextual [hv]
    · rw [yields_bind]
      exact (blockNext_starves h).imp fun _ _ h => h.elim
  · simp only [yields_bind]
    refine (guardingCondition_yields h).imp fun guarding u h => ?_
    exact (blockNext_starves h).imp fun _ _ h => h.elim

lemma doing_paces (hs : s.cursor.here? ≠ none) : doing.Paces q s fun _ s' => s'.cursor.Dying := by
  simp +contextual [doing, blockHere, Paces, hs, Cursor.here?_advance]

lemma loopPattern_paces (isMatching : Bool) (hs : s.cursor.here? ≠ none) :
    (loopPattern isMatching).Paces q s fun _ s' => s'.cursor.OperatorLast := by
  cases isMatching <;> simp +contextual [loopPattern, Paces, hs, Cursor.here?_advance]

lemma forIn_paces (hs : s.cursor.here? ≠ none) : forIn.Paces q s fun _ _ => False := by
  simp only [forIn, Paces, abreast_advance_bind _ _ hs]
  refine ⟨fun hnext => ?_, fun hnone => ?_⟩
  · have hhere : (s.cursor.advance .anyLine).here? ≠ none := by rwa [Cursor.here?_advance]
    rw [abreast_isWordHere_bind _ _ hhere]
    refine (loopPattern_paces _ hhere).bind (fun pattern t ht => ?_) fun pattern t h => ?_
    · rw [abreast_expectNextWord_bind _ _ ht]
      intro hin _
      have hword : (t.cursor.advance .anyLine).here? ≠ none := by rwa [Cursor.here?_advance]
      rw [abreast_advance_bind _ _ hword]
      refine ⟨fun hvalue => ?_, fun hlast => ?_⟩
      swap
      · have hbarren := Cursor.barren_advance_of_none hlast
        rw [State.cursor_moveTo] at hbarren
        simp [hbarren]
      rw [abreast_read_bind _ _ (by rwa [State.cursor_moveTo, Cursor.here?_advance])]
      refine fun collection u _ => ⟨fun hu => ?_, fun hparts => ?_⟩
      · refine (guardingCondition_paces hu).bind (fun guarding v hv => ?_) fun guarding v h => ?_
        · exact (blockNext_paces hv).bind (fun body w hw => .inl hw) fun _ _ h => h.elim
        · rw [yields_bind]
          exact (blockNext_starves h).imp fun _ _ h => h.elim
      · rw [yields_bind]
        refine (guardingCondition_yields hparts.dying).imp fun guarding v h => ?_
        rw [yields_bind]
        exact (blockNext_starves h).imp fun _ _ h => h.elim
    · simp [h.dying, Cursor.here?_advance]
  · have hbarren := Cursor.barren_advance_of_none hnone
    simp [loopPattern, hbarren]

lemma caseItems_paces (hs : s.cursor.here? ≠ none) :
    caseItems.Paces q s fun _ s' => s'.cursor.Dying := by
  simp only [caseItems, Paces, abreast_advance_bind _ _ hs]
  refine ⟨fun hnext => ?_, fun hnone => by simp [hnone]⟩
  rw [abreast_read_bind _ _ (by rwa [State.cursor_moveTo, Cursor.here?_advance])]
  refine fun pattern t _ => ⟨fun ht => ?_, fun hparts => ?_⟩
  · refine (guardingCondition_paces ht).bind (fun guarding u hu => ?_) fun guarding u h => ?_
    · simp +contextual [hu, Cursor.here?_advance]
    · simp +contextual [h]
  · rw [yields_bind]
    refine (guardingCondition_yields hparts.2.dying).imp fun guarding u h => ?_
    simp +contextual [h]

lemma arms_paces (hs : s.cursor.here? ≠ none) : arms.Paces q s fun _ _ => False := by
  simp only [arms, Paces, abreast_here_bind _ hs]
  split
  · simp
  · simp +contextual [hs, Cursor.here?_advance]

lemma switchBody_paces (hs : s.cursor.here? ≠ none) : switchBody.Paces q s fun _ _ => False := by
  simp +contextual [switchBody, Paces, hs, Cursor.here?_advance]

lemma switch_paces (hs : s.cursor.here? ≠ none) : switch.Paces q s fun _ _ => False := by
  simp +contextual [switch, Paces, hs, Cursor.here?_advance, Cursor.OperatorLast.dying]

/-! ### Statements without blocks -/

lemma jumpLabel_paces (hs : s.cursor.here? ≠ none) : jumpLabel.Paces q s fun _ _ => False := by
  rw [jumpLabel, Paces, abreast_following_sameLine_bind _ hs rfl rfl]
  split
  next h => simp [hs, h, Cursor.here?_advance]
  · simp [hs]

lemma returnValue_paces (hs : s.cursor.here? ≠ none) :
    returnValue.Paces q s fun _ s' => s'.cursor.OperatorLast := by
  rw [returnValue, Paces, abreast_following_sameLine_bind _ hs rfl rfl]
  split
  · simp [hs]
  next h => simp +contextual [hs, h, Cursor.here?_advance]

/-! ### Directives -/

lemma expectLabel_paces (label : String) (hs : s.cursor.here? ≠ none) :
    (expectLabel label).Paces q s fun _ s' => s'.cursor.here? = none := by
  simp +contextual [expectLabel, Paces, hs, Cursor.here?_advance]

lemma locationFile_paces (hs : s.cursor.here? ≠ none) :
    locationFile.Paces q s fun _ _ => False := by
  refine (expectLabel_paces _ hs).bind (fun _ t ht => ?_) fun _ t h => ?_
  · rw [abreast_here_bind _ ht]
    split <;> simp [ht]
  · simp [h]

lemma locationLine_paces (hs : s.cursor.here? ≠ none) :
    locationLine.Paces q s fun _ _ => False := by
  refine (expectLabel_paces _ hs).bind (fun _ t ht => ?_) fun _ t h => ?_
  · rw [abreast_here_bind _ ht]
    split <;> simp [ht]
  · simp [h]

lemma sourceLocation_paces (hs : s.cursor.here? ≠ none) :
    sourceLocation.Paces q s fun _ _ => False := by
  simp only [sourceLocation, Paces, abreast_expectNext_bind _ _ hs]
  intro hparen
  have hhere : (s.cursor.advance .anyLine).here? ≠ none := by simp [Cursor.here?_advance, hparen]
  rw [abreast_advance_bind _ _ hhere]
  refine ⟨fun hnext => ?_, fun hnone => ?_⟩
  · rw [State.cursor_moveTo, ← Cursor.here?_advance] at hnext
    rw [abreast_isHere_bind _ _ hnext]
    refine ⟨fun _ => .inl hnext, fun _ => ?_⟩
    refine (locationFile_paces hnext).bind (fun file t ht => ?_) fun _ _ h => h.elim
    rw [abreast_expectNext_bind _ _ ht]
    intro hcomma
    have hhere : (t.cursor.advance .anyLine).here? ≠ none := by simp [Cursor.here?_advance, hcomma]
    rw [abreast_advance_bind _ _ hhere]
    refine ⟨fun hnext => ?_, fun hnone => ?_⟩
    · rw [State.cursor_moveTo, ← Cursor.here?_advance] at hnext
      refine (locationLine_paces hnext).bind (fun line u hu => ?_) fun _ _ h => h.elim
      simp +contextual [hu, Cursor.here?_advance]
    · rw [State.cursor_moveTo, ← Cursor.here?_advance] at hnone
      simp [locationLine, expectLabel, hnone]
  · rw [State.cursor_moveTo, ← Cursor.here?_advance] at hnone
    simp [locationFile, expectLabel, hnone]

/-- The line of a directive may end with the list. -/
lemma takeLine_paces (f : String → Directive) (hs : s.cursor.here? ≠ none) :
    (do
      let line ← takeLine
      return f line : Procedure Directive).Paces q s fun _ s' => s'.cursor.Dying := by
  refine Abreast.takeLine hs (fun _ => .inl (Cursor.here?_toEndOfLine hs)) fun hlast => ?_
  have hdying : s.cursor.toEndOfLine.Dying := Cursor.dying_toEndOfLine hlast
  simp [hdying]

lemma directiveNamed_paces (name : String) (hs : s.cursor.here? ≠ none) :
    (directiveNamed name).Paces q s fun _ s' => s'.cursor.Dying := by
  cases DirectiveWord.of name with
  | ifTrue | elseIfTrue => exact takeLine_paces _ hs
  | otherwise | endIf => exact .inl hs
  | sourceLocation => exact (sourceLocation_paces hs).imp (fun _ _ h => h) fun _ _ h => h.elim
  | other h =>
    rw [directiveNamed_of_other h]
    exact abreast_raise _

lemma directive_paces (hs : s.cursor.here? ≠ none) :
    directive.Paces q s fun _ s' => s'.cursor.Dying := by
  rw [directive, Paces, abreast_glued_zero_bind _ hs rfl]
  by_cases hglued : s.cursor.glued? 0 = none
  · simp [hglued, hs]
  · have hnext : s.cursor.shift.here? ≠ none := by
      rwa [Cursor.here?_shift_of_glued?_ne_none hglued]
    rw [abreast_shift_bind _ hs]
    refine ⟨fun _ => ?_, fun hnone => absurd hnone hnext⟩
    split
    · exact directiveNamed_paces _ hnext
    · exact abreast_raise _

/-! ### All statements -/

lemma unlabeled_paces (word : Option String) (hs : s.cursor.here? ≠ none) :
    (unlabeled word).Paces q s fun _ s' => s'.cursor.Dying := by
  have hcertain {p : Procedure (Range → Statement)} (h : p.Paces q s fun _ _ => False) :
      p.Paces q s fun _ s' => s'.cursor.Dying :=
    h.imp (fun _ _ h => h) fun _ _ h => h.elim
  have hoperator {p : Procedure (Range → Statement)}
      (h : p.Paces q s fun _ s' => s'.cursor.OperatorLast) :
      p.Paces q s fun _ s' => s'.cursor.Dying :=
    h.imp (fun _ _ h => h) fun _ _ h => h.dying
  cases StatementWord.of word with
  | breaking | continuing =>
    exact hcertain ((jumpLabel_paces hs).bind (fun _ _ h => .inl h) fun _ _ h => h)
  | fallthrough => exact .inl hs
  | returning => exact hoperator ((returnValue_paces hs).bind (fun _ _ h => .inl h) fun _ _ h => h)
  | throwing =>
    simp +contextual [unlabeled, Paces, hs, Cursor.here?_advance, Cursor.OperatorLast.dying]
  | deferring => simp +contextual [unlabeled, blockHere, Paces, hs, Cursor.here?_advance]
  | doing => exact doing_paces hs
  | choice => exact choice_paces hs
  | guarding => exact hcertain (guarding_paces hs)
  | looping => exact hcertain (looping_paces hs)
  | repeating => exact hoperator (repeating_paces hs)
  | forIn => exact hcertain (forIn_paces hs)
  | switch => exact hcertain (switch_paces hs)
  | other h => simp +contextual [unlabeled_of_other h, Paces, hs, Cursor.OperatorLast.dying]

lemma statementLabel_abreast (hs : s.cursor.here? ≠ none) :
    statementLabel.Abreast q s
      (fun label s' => s' = s ∧ (label ≠ none → s.cursor.following? .sameLine ≠ none))
      fun _ _ => False := by
  rw [statementLabel, abreast_here_bind _ hs]
  split
  · simp
  · simp +contextual [hs]

lemma statement_paces (hs : s.cursor.here? ≠ none) :
    statement.Paces q s fun _ s' => s'.cursor.Dying := by
  refine Paces.ranged hs ?_
  rw [Paces, abreast_isHere_bind _ _ hs]
  refine ⟨fun _ => ?_, fun _ => ?_⟩
  · exact (directive_paces hs).bind (fun _ _ h => .inl h) fun _ _ h _ => h
  · refine (statementLabel_abreast hs).bind (fun label s' hlabel => ?_) fun _ _ h => h.elim
    obtain ⟨rfl, hnext⟩ := hlabel
    split
    · have hhere := hnext (Option.some_ne_none _)
      simp +contextual [hs, hhere, Cursor.here?_advance]
    · rw [abreast_here_bind _ hs]
      exact (unlabeled_paces _ hs).imp (fun _ _ h => h) fun _ _ h _ => h

end Grammar

end FrontEnd
