/-
Statements match their brackets.

A separator leaves everything as it was, also where it steps back before a closing brace.
-/
import FrontEnd.Grammar.Statement
import FrontEnd.Proofs.Brackets.Expression
import FrontEnd.Proofs.Keyword

namespace FrontEnd

namespace Cursor

variable {c : Cursor}

lemma headings_shift (c : Cursor) :
    c.shift.headings = (c.current?.toList.filter (·.kind.isDeclarationKeyword)) ++ c.headings := by
  rw [headings, behind_shift, List.filter_append, headings]

/-- Past a token that is no keyword of a declaration. -/
lemma headings_shift_of_ne (h : ∀ kind, c.here? = some kind → kind.isDeclarationKeyword = false) :
    c.shift.headings = c.headings := by
  rw [headings_shift]
  rcases c with a | ⟨b, ⟨kind, span, range⟩, a⟩ | b
  · rfl
  · have hkind : kind.isDeclarationKeyword = false := by
      have hplain := h kind.plain rfl
      cases kind <;> simp_all [TokenKind.plain, TokenKind.isDeclarationKeyword, TokenKind.role?]
    simp [current?, hkind]
  · rfl

/-- The way to the next token of interest passes no keyword. -/
@[simp] lemma headings_advance (reach : Reach) (c : Cursor) :
    (c.advance reach).headings = c.shift.headings := by
  obtain ⟨passed, heq, hpassed⟩ := behind_advance reach c
  rw [headings, heq, List.filter_append, headings]
  suffices hnone : passed.filter (·.kind.isDeclarationKeyword) = [] by rw [hnone, List.nil_append]
  refine List.filter_eq_nil_iff.mpr fun t ht => ?_
  have hblank := isBlank_of_passes (hpassed t ht)
  cases hkind : t.kind <;>
    simp_all [TokenKind.isBlank, TokenKind.isInlineBlank, TokenKind.isLineBreak,
      TokenKind.isDeclarationKeyword, TokenKind.role?]

end Cursor

namespace Grammar

open Procedure

variable {tokens : List Token} {s : State}

/-! ### Separators and lists -/

/-- A separator that is not complained of leaves what was unmatched, and no keyword stands
before it. -/
lemma separator_yields {K : Contract} (context : Context) (hlist : s.cursor.toList = tokens) :
    (separator context).Yields K s fun complaint s' => complaint = none →
      s'.cursor.Settled tokens s.cursor.shift.unmatched ∧
        s'.cursor.shift.headings = s.cursor.shift.headings := by
  simp [separator]
  split
  next hnone =>
    simp
    refine ⟨⟨by simpa, ?_⟩, ?_⟩
    · rw [Cursor.unmatched_shift_of_here?_eq_none hnone, Cursor.unmatched_advance]
    · rw [Cursor.headings_shift_of_ne (by simp [hnone]), Cursor.headings_advance]
  next hsemicolon =>
    simp
    refine ⟨⟨by simpa, by grind -ring -linarith⟩, ?_⟩
    rw [Cursor.headings_shift_of_ne, Cursor.headings_advance]
    rw [hsemicolon]
    rintro _ ⟨⟩
    rfl
  next hbreak =>
    simp
    refine ⟨⟨by simpa, by grind -ring -linarith⟩, ?_⟩
    rw [Cursor.headings_shift_of_ne, Cursor.headings_advance]
    rw [hbreak]
    rintro _ ⟨⟩
    rfl
  · simp
    rintro hcurrent rfl _
    refine ⟨⟨by simpa, ?_⟩, ?_⟩
    · rw [Cursor.shift_unshift hcurrent, Cursor.unmatched_advance]
    · rw [Cursor.shift_unshift hcurrent, Cursor.headings_advance]

lemma item_yields (hlist : s.cursor.toList = tokens) :
    item.Yields (matching tokens) s fun a s' => Goal.item.Matches tokens s.cursor a s'.cursor := by
  simp [item]
  refine ⟨fun _ => ⟨hlist, fun kept t hkept hnone => ?_⟩, fun _ => ⟨hlist, fun statement t ht hleft => ?_⟩⟩
  · obtain ⟨last, hspans⟩ := hkept hnone
    exact hspans.settled
  · refine (separator_yields .block ht).imp fun complaint u hu hnone => ?_
    rw [← hleft]
    exact (hu hnone).1

/-- The statements of a block end before the token that ends them. -/
lemma statements_yields (stop : BlockEnd) (hlist : s.cursor.toList = tokens) :
    (statements stop).Yields (matching tokens) s
      fun a s' => (Goal.statements stop).Matches tokens s.cursor a s'.cursor := by
  simp [statements]
  split
  · simp
  next kind hkind =>
    simp
    refine ⟨fun hstop => ⟨by simpa, ?_⟩, fun _ => ⟨fun hsemicolon => ?_, fun _ => ?_⟩⟩
    · rintro rfl
      simpa [BlockEnd.holds, hkind] using hstop
    · subst hsemicolon
      grind -ring -linarith
    · refine ⟨by simpa, fun kept t hkept => ?_, fun e t => ?_⟩
      · refine itemThen_yields _ _ fun value hvalue => ?_
        obtain ⟨ht, hleft⟩ := hkept (by cases hvalue; rfl)
        simp
        grind -ring -linarith
      · exact itemThen_yields _ _ fun value hvalue => by cases hvalue

lemma block_settles (hlist : s.cursor.toList = tokens)
    (hhere : s.cursor.here? = some (.punctuator .leftBrace)) :
    block.Settles tokens s.cursor.unmatched s := by
  simp [block, Settles]
  grind -ring -linarith

lemma blockHere_settles (hlist : s.cursor.toList = tokens) :
    blockHere.Settles tokens s.cursor.unmatched s := by
  simp [blockHere, Settles]
  grind -ring -linarith

lemma blockNext_settles (hlist : s.cursor.toList = tokens) :
    blockNext.Settles tokens s.cursor.shift.unmatched s := by
  simp [blockNext, Settles]
  grind -ring -linarith

/-! ### Conditions -/

lemma conditionValue_settles (hlist : s.cursor.toList = tokens) :
    conditionValue.Settles tokens s.cursor.shift.unmatched s := by
  simp [conditionValue, Settles]
  grind -ring -linarith

lemma condition_settles (hlist : s.cursor.toList = tokens) :
    condition.Settles tokens s.cursor.unmatched s := by
  simp [condition, Settles]
  refine ⟨fun _ => ⟨hlist, fun pattern t ht hleft => ?_⟩, fun _ => ⟨fun _ => ⟨hlist, fun pattern t ht hleft => ?_⟩, fun _ => ?_⟩⟩
  · exact (conditionValue_settles ht).imp (by grind -ring -linarith)
  · exact (conditionValue_settles ht).imp (by grind -ring -linarith)
  · grind -ring -linarith

lemma conditions_settles (hlist : s.cursor.toList = tokens) :
    conditions.Settles tokens s.cursor.unmatched s := by
  simp [conditions, Settles]
  refine (condition_settles hlist).imp ?_
  grind -ring -linarith

lemma guardingCondition_settles (hlist : s.cursor.toList = tokens) :
    guardingCondition.Settles tokens s.cursor.shift.unmatched s := by
  simp [guardingCondition, Settles]
  grind -ring -linarith

/-! ### Statements with blocks -/

lemma alternative_settles (hlist : s.cursor.toList = tokens) :
    alternative.Settles tokens s.cursor.shift.unmatched s := by
  simp [alternative, Settles]
  grind -ring -linarith

lemma choice_settles (hlist : s.cursor.toList = tokens)
    (hword : s.cursor.shift.unmatched = s.cursor.unmatched) :
    choice.Settles tokens s.cursor.unmatched s := by
  simp [choice, Settles]
  refine ⟨hlist, fun t ht hleft => (blockNext_settles ht).imp fun body u hu hleft' => ?_⟩
  exact (alternative_settles hu).imp (by grind -ring -linarith)

lemma elseIf_settles (hlist : s.cursor.toList = tokens)
    (hword : s.cursor.shift.unmatched = s.cursor.unmatched) :
    elseIf.Settles tokens s.cursor.unmatched s := by
  simp [elseIf, Settles]
  exact (choice_settles hlist hword).imp (by grind -ring -linarith)

lemma guarding_settles (hlist : s.cursor.toList = tokens)
    (hword : s.cursor.shift.unmatched = s.cursor.unmatched) :
    guarding.Settles tokens s.cursor.unmatched s := by
  simp [guarding, Settles]
  exact ⟨hlist, fun t ht hleft _ => (blockNext_settles (by simpa)).imp (by grind -ring -linarith)⟩

lemma looping_settles (hlist : s.cursor.toList = tokens)
    (hword : s.cursor.shift.unmatched = s.cursor.unmatched) :
    looping.Settles tokens s.cursor.unmatched s := by
  simp [looping, Settles]
  exact ⟨hlist, fun t ht hleft => (blockNext_settles ht).imp (by grind -ring -linarith)⟩

lemma repeating_settles (hlist : s.cursor.toList = tokens)
    (hword : s.cursor.shift.unmatched = s.cursor.unmatched) :
    repeating.Settles tokens s.cursor.unmatched s := by
  simp [repeating, Settles]
  refine (blockHere_settles (by simpa)).imp fun body t ht hleft => ?_
  simp at hleft
  grind -ring -linarith

lemma loopPattern_settles (isMatching : Bool) (hlist : s.cursor.toList = tokens)
    (hword : isMatching = true → s.cursor.shift.unmatched = s.cursor.unmatched) :
    (loopPattern isMatching).Settles tokens s.cursor.unmatched s := by
  simp [loopPattern, Settles]
  grind -ring -linarith

lemma forIn_settles (hlist : s.cursor.toList = tokens)
    (hword : s.cursor.shift.unmatched = s.cursor.unmatched) :
    forIn.Settles tokens s.cursor.unmatched s := by
  simp [forIn, Settles]
  refine (loopPattern_settles _ (by simpa) (by grind -ring -linarith)).imp fun pattern t ht hleft hin => ?_
  refine ⟨by simpa, fun collection u hu hleft' => (guardingCondition_settles hu).imp fun guarding v hv hleft'' => ?_⟩
  exact (blockNext_settles hv).imp (by grind -ring -linarith)

lemma handlerPattern_settles (hlist : s.cursor.toList = tokens) :
    handlerPattern.Settles tokens s.cursor.shift.unmatched s := by
  simp [handlerPattern, Settles]
  split <;> simp <;> grind -ring -linarith

lemma handlers_settles (hlist : s.cursor.toList = tokens) :
    handlers.Settles tokens s.cursor.shift.unmatched s := by
  simp [handlers, Settles]
  refine ⟨fun hcatch => ?_, fun _ => ⟨hlist, rfl⟩⟩
  refine (handlerPattern_settles (by simpa)).imp fun pattern t ht hleft => ?_
  refine (guardingCondition_settles ht).imp fun guarding u hu hleft' => ?_
  exact (blockNext_settles hu).imp (by grind -ring -linarith)

lemma doing_settles (hlist : s.cursor.toList = tokens)
    (hword : s.cursor.shift.unmatched = s.cursor.unmatched) :
    doing.Settles tokens s.cursor.unmatched s := by
  simp [doing, Settles]
  exact (blockHere_settles (by simpa)).imp (by grind -ring -linarith)

lemma caseItems_settles (hlist : s.cursor.toList = tokens) :
    caseItems.Settles tokens s.cursor.shift.unmatched s := by
  simp [caseItems, Settles]
  exact ⟨hlist, fun pattern t ht hleft => (guardingCondition_settles ht).imp (by grind -ring -linarith)⟩

/-- The arms of a `switch` end before its closing brace. -/
lemma arms_yields (hlist : s.cursor.toList = tokens) :
    arms.Yields (matching tokens) s fun a s' => Goal.arms.Matches tokens s.cursor a s'.cursor := by
  simp [arms]
  split
  · simp
  next kind hkind =>
    have hword : kind.isKeyword "case" = true ∨ kind.isKeyword "default" = true →
        s.cursor.shift.unmatched = s.cursor.unmatched := by
      intro hword
      refine Cursor.unmatched_shift_of_neutral hkind ?_
      cases kind <;> simp_all [TokenKind.isKeyword, TokenKind.isNeutral]
    simp
    grind -ring -linarith

lemma switchBody_settles (hlist : s.cursor.toList = tokens)
    (hhere : s.cursor.here? = some (.punctuator .leftBrace)) :
    switchBody.Settles tokens s.cursor.unmatched s := by
  simp [switchBody, Settles]
  grind -ring -linarith

lemma switch_settles (hlist : s.cursor.toList = tokens)
    (hword : s.cursor.shift.unmatched = s.cursor.unmatched) :
    switch.Settles tokens s.cursor.unmatched s := by
  simp [switch, Settles]
  grind -ring -linarith

/-! ### Statements without blocks -/

lemma jumpLabel_settles (hlist : s.cursor.toList = tokens) :
    jumpLabel.Settles tokens s.cursor.shift.unmatched s := by
  simp [jumpLabel, Settles]
  split <;> simp <;> grind -ring -linarith

lemma returnValue_settles (hlist : s.cursor.toList = tokens) :
    returnValue.Settles tokens s.cursor.shift.unmatched s := by
  simp [returnValue, Settles]
  split <;> simp <;> grind -ring -linarith

/-! ### All statements -/

lemma unlabeled_settles (hlist : s.cursor.toList = tokens) :
    (unlabeled (s.cursor.here?.bind TokenKind.word?)).Settles tokens s.cursor.unmatched s := by
  have hword {word : String} (h : s.cursor.here?.bind TokenKind.word? = some word) :
      s.cursor.shift.unmatched = s.cursor.unmatched := by
    refine Cursor.unmatched_shift_of_bind h fun kind hkind => ?_
    cases kind <;> simp_all [TokenKind.isNeutral, TokenKind.word?]
  generalize h : s.cursor.here?.bind TokenKind.word? = word
  cases StatementWord.of word with
  | breaking | continuing =>
    simp [unlabeled, Settles]
    exact (jumpLabel_settles hlist).imp (by grind -ring -linarith)
  | fallthrough => simpa [unlabeled, Settles] using ⟨hlist, hword h⟩
  | returning =>
    simp [unlabeled, Settles]
    exact (returnValue_settles hlist).imp (by grind -ring -linarith)
  | throwing =>
    simp [unlabeled, Settles]
    grind -ring -linarith
  | deferring =>
    simp [unlabeled, Settles]
    exact (blockHere_settles (by simpa)).imp (by grind -ring -linarith)
  | doing => exact doing_settles hlist (hword h)
  | choice => exact choice_settles hlist (hword h)
  | guarding => exact guarding_settles hlist (hword h)
  | looping => exact looping_settles hlist (hword h)
  | repeating => exact repeating_settles hlist (hword h)
  | forIn => exact forIn_settles hlist (hword h)
  | switch => exact switch_settles hlist (hword h)
  | other hother =>
    simp [unlabeled_of_other hother, Settles]
    grind -ring -linarith

lemma here?_ne_hash {c : Cursor} (hhash : ∀ t ∈ c.toList, t.kind ≠ .punctuator .hash) :
    c.here? ≠ some (.punctuator .hash) := by
  rcases c with a | ⟨b, t, a⟩ | b
  · simp [Cursor.here?, Cursor.kind?, Cursor.current?]
  · have ht := hhash t (by simp)
    cases hkind : t.kind <;>
      simp_all [Cursor.here?, Cursor.kind?, Cursor.current?, TokenKind.plain]
  · simp [Cursor.here?, Cursor.kind?, Cursor.current?]

lemma statement_settles (hlist : s.cursor.toList = tokens)
    (hhash : ∀ t ∈ tokens, t.kind ≠ .punctuator .hash) :
    statement.Settles tokens s.cursor.unmatched s := by
  simp [statement, statementLabel, Settles]
  refine ⟨fun h => absurd h (here?_ne_hash (hlist ▸ hhash)), fun _ => ?_⟩
  split
  · simp
    exact (unlabeled_settles hlist).imp (by grind -ring -linarith)
  next name hname =>
    simp
    refine ⟨fun _ => by grind -ring -linarith, fun _ => ?_⟩
    exact (unlabeled_settles hlist).imp (by grind -ring -linarith)

end Grammar

end FrontEnd
