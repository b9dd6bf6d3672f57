/-
Statements lead onward.

In a list of statements an error takes the cursor back by a token where it was found
on a closing brace.  But the statement did not start on this brace, so something of
it was passed, and the next statement starts behind the one where the error was
found.
-/
import FrontEnd.Grammar.Statement
import FrontEnd.Proofs.Keyword
import FrontEnd.Proofs.Progress.Basic

namespace FrontEnd

namespace Cursor

/-- Where an item starts on a token that is no closing brace, the boundary behind
an error in it is not before that token. -/
lemma left_resynchronize_le_of_onward {c d : Cursor} (hcd : c.Onward 0 d)
    (hc : c.here? ≠ some (.punctuator .rightBrace)) : d.resynchronize.left ≤ c.left := by
  have hle := left_resynchronize_le d
  have hleft := hcd.left_le
  split at hle
  next hd =>
    have hne : d.left ≠ c.left := by
      intro h
      exact hc (eq_of_left_eq hcd.toList_eq h ▸ hd)
    omega
  next => omega

/-- Where the search for the next token of interest starts not before a token, what it
finds is behind that token. -/
lemma position_lt_of_left_le {c d : Cursor} (hlist : d.toList = c.toList)
    (hleft : d.left ≤ c.left) (hpos : 0 < c.left) (reach : Reach) :
    c.position < (d.advance reach).position := by
  have h₁ := c.position_add_left
  have h₂ := (d.advance reach).position_add_left
  have h₃ := left_advance_le reach d
  rw [toList_advance, hlist] at h₂
  omega

end Cursor

namespace Grammar

open Procedure

variable {below : Nat} {s : State}

/-! ### Separators and lists -/

lemma separator_progresses (context : Context) : (separator context).Progresses below s := by
  intro room way
  simp [separator]
  split <;> simp <;> grind -ring -linarith

/-- What follows an item in a list starts not before the item, whatever came of it. -/
lemma itemThen_meets {α : Type} {K : Contract} {way : List Event} {c : Cursor} {t : State}
    {ok : List Event → List α → State → Prop} {err : List Event → ParseError → State → Prop}
    (tried : Except ParseError (Kept α)) (next : Procedure (List α))
    (hct : c.Onward 0 t.cursor) (hc : c.here? ≠ some (.punctuator .rightBrace))
    (hnext : ∀ way' later u, (∀ g v, .called g v ∈ way' → .called g v ∈ way) →
      u.cursor.toList = c.toList → u.cursor.left ≤ c.left →
      next.Meets K way' u (fun way later' => ok way (later ++ later')) err) :
    (itemThen tried next).Meets K way t ok err := by
  have hlist : t.cursor.resynchronize.toList = c.toList := by
    rw [Cursor.toList_resynchronize, hct.toList_eq]
  have hleft := Cursor.left_resynchronize_le_of_onward hct hc
  rcases tried with e | ⟨value, _ | e⟩
  · simpa [itemThen, recoverThen] using hnext _ [] _ (by simp) hlist hleft
  · simpa [itemThen] using hnext _ [value] _ (by simp) hct.toList_eq hct.left_le
  · simpa [itemThen, recoverThen] using hnext _ [value] _ (by simp) hlist hleft

lemma item_progresses (hbound : 16 * s.cursor.left + 7 ≤ below) : item.Progresses below s := by
  intro room way
  simp [item]
  refine ⟨fun _ => ?_, fun _ => ⟨?_, fun statement t ht => ?_, ?_⟩⟩
  · grind -ring -linarith
  · grind -ring -linarith
  · refine (separator_progresses .block).imp ?_ ?_ <;> grind -ring -linarith
  · grind -ring -linarith

lemma statements_progresses (stop : BlockEnd) (hbound : 16 * s.cursor.left ≤ below) :
    (statements stop).Progresses below s := by
  intro room way
  simp [statements]
  split
  · simp
    grind -ring -linarith
  next kind hkind =>
    simp
    refine ⟨fun _ => ?_, fun hstop => ⟨fun _ => ?_, fun _ => ?_⟩⟩
    · grind -ring -linarith
    · grind -ring -linarith
    · have hbrace : (s.cursor.advance .anyLine).here? ≠ some (.punctuator .rightBrace) := by
        rw [hkind]
        rintro ⟨⟩
        simp [BlockEnd.holds] at hstop
      refine ⟨?_, fun kept t ht => ?_, fun e t ht => ?_⟩
      · grind -ring -linarith
      all_goals
        refine itemThen_meets _ _ ht hbrace
          fun way later u _ hlist hleft => ?_
        simp
        grind -ring -linarith

/-- If the loop over statements goes on, it looks at a later token. -/
lemma statements_meets_later {room : Nat} (stop : BlockEnd)
    (hbound : 16 * s.cursor.left ≤ below) :
    let later := fun way => ∀ stop' t, .called (.statements stop') t ∈ way →
      (s.cursor.advance .anyLine).position < (t.cursor.advance .anyLine).position
    (statements stop).Meets ((progress below room).given fun _ _ _ => True) [] s
      (fun way _ _ => later way) (fun way _ _ => later way) := by
  simp [statements]
  split
  · simp
  next kind hkind =>
    have hpos := Cursor.left_pos_of_here? hkind
    simp
    refine fun hstop => ⟨fun _ => ?_, fun _ => ?_⟩
    · have hlater := Cursor.position_lt_of_left_le rfl (Nat.le_refl _) hpos .anyLine
      grind -ring -linarith
    · have hbrace : (s.cursor.advance .anyLine).here? ≠ some (.punctuator .rightBrace) := by
        rw [hkind]
        rintro ⟨⟩
        simp [BlockEnd.holds] at hstop
      refine ⟨?_, fun kept t ht => ?_, fun e t ht => ?_⟩
      · grind -ring -linarith
      all_goals
        refine itemThen_meets _ _ ht hbrace fun way later u hway hlist hleft => ?_
        have hlater := Cursor.position_lt_of_left_le hlist hleft hpos .anyLine
        simp
        grind -ring -linarith

lemma block_progresses (hbound : 16 * s.cursor.left + 1 ≤ below) : block.Progresses below s := by
  intro room way
  simp [block]
  grind -ring -linarith

lemma blockHere_progresses (hbound : 16 * s.cursor.left + 2 ≤ below) :
    blockHere.Progresses below s := by
  intro room way
  simp [blockHere]
  grind -ring -linarith

lemma blockNext_progresses (hbound : 16 * s.cursor.left + 2 ≤ below) :
    blockNext.Progresses below s := by
  intro room way
  simp [blockNext]
  grind -ring -linarith

/-! ### Conditions -/

lemma conditionValue_progresses (hbound : 16 * s.cursor.left + 2 ≤ below) :
    conditionValue.Progresses below s := by
  intro room way
  simp [conditionValue]
  grind -ring -linarith

lemma condition_progresses (hbound : 16 * s.cursor.left + 3 ≤ below) :
    condition.Progresses below s := by
  intro room way
  simp [condition]
  refine ⟨fun _ => ⟨?_, fun pattern t ht => ?_, ?_⟩,
    fun _ => ⟨fun _ => ⟨?_, fun pattern t ht => ?_, ?_⟩, fun _ => ?_⟩⟩
  · grind -ring -linarith
  · refine (conditionValue_progresses ?_).imp ?_ ?_ <;> grind -ring -linarith
  · grind -ring -linarith
  · grind -ring -linarith
  · refine (conditionValue_progresses ?_).imp ?_ ?_ <;> grind -ring -linarith
  · grind -ring -linarith
  · grind -ring -linarith

lemma conditions_progresses (hbound : 16 * s.cursor.left + 3 ≤ below) :
    conditions.Progresses below s := by
  intro room way
  simp [conditions]
  refine (condition_progresses hbound).imp (fun way first t ht => ?_) ?_
  · grind -ring -linarith
  · grind -ring -linarith

lemma guardingCondition_progresses (hbound : 16 * s.cursor.left + 2 ≤ below) :
    guardingCondition.Progresses below s := by
  intro room way
  simp [guardingCondition]
  grind -ring -linarith

/-! ### Statements with blocks -/

/-- A block with a condition in front of it. -/
lemma guardedBlock_progresses {room : Nat} {way : List Event}
    {ok : List Event → Option Expression → Block → State → Prop}
    {err : List Event → ParseError → State → Prop}
    (hbound : 16 * s.cursor.left + 2 ≤ below)
    (hok : ∀ way guarding body t, s.cursor.Onward 0 t.cursor → ok way guarding body t)
    (herr : ∀ way e t, s.cursor.Onward 0 t.cursor → err way e t) :
    guardingCondition.Meets ((progress below room).given fun _ _ _ => True) way s
      (fun way guarding t =>
        blockNext.Meets ((progress below room).given fun _ _ _ => True) way t
          (fun way body u => ok way guarding body u) err) err := by
  refine (guardingCondition_progresses hbound).imp (fun way guarding t ht => ?_) herr
  refine (blockNext_progresses ?_).imp (fun way body u hu => hok way guarding body u ?_)
    fun way e u hu => herr way e u ?_
  all_goals grind -ring -linarith

lemma alternative_progresses (hbound : 16 * s.cursor.left + 2 ≤ below) :
    alternative.Progresses below s := by
  intro room way
  simp [alternative]
  refine ⟨fun _ => ⟨fun _ => ?_, fun _ => ?_⟩, ?_⟩ <;> grind -ring -linarith

lemma choice_progresses (hbound : 16 * s.cursor.left + 4 ≤ below) :
    choice.Progresses below s := by
  intro room way
  simp [choice]
  refine ⟨?_, fun t ht => ?_, ?_⟩
  · grind -ring -linarith
  · refine (blockNext_progresses ?_).imp (fun way body u hu => ?_) ?_
    · grind -ring -linarith
    · refine (alternative_progresses ?_).imp ?_ ?_ <;> grind -ring -linarith
    · grind -ring -linarith
  · grind -ring -linarith

lemma elseIf_progresses (hbound : 16 * s.cursor.left + 4 ≤ below) :
    elseIf.Progresses below s := by
  intro room way
  simp [elseIf]
  refine (choice_progresses hbound).imp ?_ ?_ <;> grind -ring -linarith

lemma guarding_progresses (hbound : 16 * s.cursor.left + 4 ≤ below) :
    guarding.Progresses below s := by
  intro room way
  simp [guarding]
  refine ⟨?_, fun t ht => ⟨fun _ => ?_, ?_⟩, ?_⟩
  · grind -ring -linarith
  · refine (blockNext_progresses ?_).imp ?_ ?_ <;> grind -ring -linarith
  · grind -ring -linarith
  · grind -ring -linarith

lemma looping_progresses (hbound : 16 * s.cursor.left + 4 ≤ below) :
    looping.Progresses below s := by
  intro room way
  simp [looping]
  refine ⟨?_, fun t ht => ?_, ?_⟩
  · grind -ring -linarith
  · refine (blockNext_progresses ?_).imp ?_ ?_ <;> grind -ring -linarith
  · grind -ring -linarith

lemma repeating_progresses (hbound : 16 * s.cursor.left + 4 ≤ below) :
    repeating.Progresses below s := by
  intro room way
  simp [repeating]
  refine (blockHere_progresses ?_).imp (fun way body t ht => ?_) ?_
  · grind -ring -linarith
  · simp at ht ⊢
    grind -ring -linarith
  · grind -ring -linarith

lemma loopPattern_progresses (isMatching : Bool) (hbound : 16 * s.cursor.left + 3 ≤ below) :
    (loopPattern isMatching).Progresses below s := by
  intro room way
  simp [loopPattern]
  grind -ring -linarith

lemma forIn_progresses (hbound : 16 * s.cursor.left + 4 ≤ below) :
    forIn.Progresses below s := by
  intro room way
  simp [forIn]
  refine (loopPattern_progresses _ ?_).imp (fun way pattern t ht => ?_) ?_
  · grind -ring -linarith
  · refine ⟨fun _ => ⟨?_, fun collection u hu => ?_, ?_⟩, ?_⟩
    · grind -ring -linarith
    · refine guardedBlock_progresses ?_ ?_ ?_ <;> grind -ring -linarith
    · grind -ring -linarith
    · grind -ring -linarith
  · grind -ring -linarith

lemma handlerPattern_progresses (hbound : 16 * s.cursor.left ≤ below) :
    handlerPattern.Progresses below s := by
  intro room way
  simp [handlerPattern]
  split <;> simp <;> grind -ring -linarith

lemma handlers_progresses (hbound : 16 * s.cursor.left ≤ below) :
    handlers.Progresses below s := by
  intro room way
  simp [handlers]
  refine ⟨fun _ => ?_, ?_⟩
  · refine (handlerPattern_progresses ?_).imp (fun way pattern t ht => ?_) ?_
    · grind -ring -linarith
    · refine guardedBlock_progresses ?_ (fun way guarding body u hu => ?_) ?_ <;> grind -ring -linarith
    · grind -ring -linarith
  · grind -ring -linarith

lemma doing_progresses (hbound : 16 * s.cursor.left + 4 ≤ below) :
    doing.Progresses below s := by
  intro room way
  simp [doing]
  refine (blockHere_progresses ?_).imp ?_ ?_ <;> grind -ring -linarith

lemma caseItems_progresses (hbound : 16 * s.cursor.left + 3 ≤ below) :
    caseItems.Progresses below s := by
  intro room way
  simp [caseItems]
  refine ⟨?_, fun pattern t ht => ?_, ?_⟩
  · grind -ring -linarith
  · refine (guardingCondition_progresses ?_).imp ?_ ?_ <;> grind -ring -linarith
  · grind -ring -linarith

lemma arms_progresses (hbound : 16 * s.cursor.left + 4 ≤ below) :
    arms.Progresses below s := by
  intro room way
  simp [arms]
  split
  · simp
    grind -ring -linarith
  · simp
    refine ⟨?_, fun _ => ⟨fun _ => ⟨?_, fun t ht => ?_, ?_⟩, fun _ => ⟨fun _ => ?_, ?_⟩⟩⟩
    all_goals grind -ring -linarith

lemma switchBody_progresses (hbound : 16 * s.cursor.left + 5 ≤ below) :
    switchBody.Progresses below s := by
  intro room way
  simp [switchBody]
  grind -ring -linarith

lemma switch_progresses (hbound : 16 * s.cursor.left + 6 ≤ below) :
    switch.Progresses below s := by
  intro room way
  simp [switch]
  grind -ring -linarith

/-! ### Statements without blocks -/

lemma jumpLabel_progresses : jumpLabel.Progresses below s := by
  intro room way
  simp [jumpLabel]
  split <;> simp <;> grind -ring -linarith

lemma returnValue_progresses (hbound : 16 * s.cursor.left + 2 ≤ below) :
    returnValue.Progresses below s := by
  intro room way
  simp [returnValue]
  split <;> simp <;> grind -ring -linarith

lemma expectLabel_progresses (label : String) : (expectLabel label).Progresses below s := by
  intro room way
  simp [expectLabel]
  grind -ring -linarith

lemma locationFile_progresses : locationFile.Progresses below s := by
  intro room way
  simp [locationFile]
  refine (expectLabel_progresses "file").imp (fun way _ t ht => ?_) ?_
  · split <;> simp <;> grind -ring -linarith
  · grind -ring -linarith

lemma locationLine_progresses : locationLine.Progresses below s := by
  intro room way
  simp [locationLine]
  refine (expectLabel_progresses "line").imp (fun way _ t ht => ?_) ?_
  · split <;> simp <;> grind -ring -linarith
  · grind -ring -linarith

lemma sourceLocation_progresses : sourceLocation.Progresses below s := by
  intro room way
  simp [sourceLocation]
  refine ⟨fun _ => ⟨?_, fun _ => ?_⟩, ?_⟩
  · grind -ring -linarith
  · refine locationFile_progresses.imp (fun way file t ht => ⟨fun _ => ?_, ?_⟩) ?_
    · refine locationLine_progresses.imp ?_ ?_ <;> grind -ring -linarith
    · grind -ring -linarith
    · grind -ring -linarith
  · grind -ring -linarith

lemma directiveNamed_progresses (name : String) : (directiveNamed name).Progresses below s := by
  intro room way
  cases DirectiveWord.of name with
  | sourceLocation => exact sourceLocation_progresses room way
  | ifTrue | elseIfTrue | otherwise | endIf =>
    simp [directiveNamed]
    grind -ring -linarith
  | other h =>
    simp [directiveNamed_of_other h]
    grind -ring -linarith

lemma directive_progresses : directive.Progresses below s := by
  intro room way
  simp [directive]
  split
  · refine (directiveNamed_progresses _).imp ?_ ?_ <;> grind -ring -linarith
  · simp
    grind -ring -linarith

/-! ### All statements -/

lemma unlabeled_progresses (word : Option String) (hbound : 16 * s.cursor.left + 6 ≤ below) :
    (unlabeled word).Progresses below s := by
  intro room way
  cases StatementWord.of word with
  | breaking | continuing =>
    simp [unlabeled]
    exact jumpLabel_progresses room way
  | fallthrough | throwing =>
    simp [unlabeled]
    grind -ring -linarith
  | returning =>
    simp [unlabeled]
    exact returnValue_progresses (by omega) room way
  | deferring =>
    simp [unlabeled]
    refine (blockHere_progresses ?_).imp ?_ ?_ <;> grind -ring -linarith
  | doing => exact doing_progresses (by omega) room way
  | choice => exact choice_progresses (by omega) room way
  | guarding => exact guarding_progresses (by omega) room way
  | looping => exact looping_progresses (by omega) room way
  | repeating => exact repeating_progresses (by omega) room way
  | forIn => exact forIn_progresses (by omega) room way
  | switch => exact switch_progresses hbound room way
  | other h =>
    simp [unlabeled_of_other h]
    grind -ring -linarith

lemma statement_progresses (hbound : 16 * s.cursor.left + 6 ≤ below) :
    statement.Progresses below s := by
  intro room way
  simp [statement, statementLabel]
  refine ⟨fun _ => directive_progresses room way, fun _ => ?_⟩
  split
  · refine (unlabeled_progresses _ hbound).imp ?_ ?_ <;> grind -ring -linarith
  · simp
    refine ⟨fun _ => ?_, fun _ => ?_⟩
    · grind -ring -linarith
    · exact unlabeled_progresses _ hbound room way

end Grammar

end FrontEnd
