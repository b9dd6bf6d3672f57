/-
Statements keep their footing.

A separator may leave the cursor anywhere, so the lists of statements and members go on from
anywhere.  The boundary behind an error in an item is not before the first token of the list,
since the item starts behind another token.
-/
import FrontEnd.Proofs.Footing.Expression
import FrontEnd.Proofs.Keyword

namespace FrontEnd

namespace Grammar

open Procedure

variable {s : State}

/-! ### Separators and lists -/

/-- A separator is complained of where the complaint can be placed. -/
lemma separator_treads (context : Context) (hpos : 0 < s.cursor.position)
    (hline : s.cursor.OnLine) {err : ParseError → State → Prop} :
    (separator context).Treads footingOnward s
      (fun complaint s' => 0 < s'.cursor.position ∧
        ∀ e, complaint = some e → e.kind ≠ .internal) err := by
  simp [separator]
  refine ⟨hline, ?_⟩
  split
  · simp
  · simp
  · simp
  next kind _ hbreak hkind =>
    have hcurrent := Cursor.current?_isSome_of_here? hkind
    have hpos := Cursor.one_lt_position_advance .sameLine hpos hcurrent
    have hclear : (s.cursor.advance .sameLine).Clear := by
      refine (Cursor.clear_advance_sameLine s.cursor).resolve_left fun h => hbreak ?_
      rwa [hkind, Option.some.injEq] at h
    have hback := hline.unshift_advance hcurrent
    have hposition := Cursor.position_unshift hcurrent
    simp
    grind -ring -linarith

/-- Behind a recovery the reading goes on from behind the first token. -/
lemma recoverThen_treads {α : Type} {K : Contract} {ok : α → State → Prop}
    {err : ParseError → State → Prop} {e : ParseError} {next : Procedure α}
    (hpos : 1 < s.cursor.position) (he : e.kind ≠ .internal)
    (hnext : ∀ u, 0 < u.cursor.position → next.Treads K u ok err) :
    (recoverThen e next).Treads K s ok err := by
  have hresynchronize : 0 < s.cursor.resynchronize.position := by
    have hleft := Cursor.left_resynchronize_le s.cursor
    have h₁ := s.cursor.position_add_left
    have h₂ := s.cursor.resynchronize.position_add_left
    rw [Cursor.toList_resynchronize] at h₂
    split at hleft <;> omega
  simpa [recoverThen] using ⟨he, fun _ => hpos, hnext _ hresynchronize⟩

/-- Behind an item of a list the reading goes on from behind the first token, whatever came of
the item. -/
lemma itemThen_treads {α : Type} {K : Contract} {ok : List α → State → Prop}
    {err : ParseError → State → Prop} (tried : Except ParseError (Kept α))
    (next : Procedure (List α)) (hpos : 1 < s.cursor.position)
    (hvalue : ∀ kept, tried = .ok kept → ∀ e, kept.complaint = some e → e.kind ≠ .internal)
    (herror : ∀ e, tried = .error e → e.kind ≠ .internal)
    (hnext : ∀ later u, 0 < u.cursor.position →
      next.Treads K u (fun later' => ok (later ++ later')) err) :
    (itemThen tried next).Treads K s ok err := by
  rcases tried with e | ⟨value, _ | e⟩
  · exact recoverThen_treads hpos (herror e rfl) (hnext [])
  · simpa [itemThen] using hnext [value] s (by omega)
  · rw [itemThen, treads_bind]
    refine recoverThen_treads hpos (hvalue _ rfl e rfl) fun u hu => ?_
    simpa using hnext [value] u hu

lemma item_treads (hpos : 0 < s.cursor.position) (hclear : s.cursor.Clear) :
    item.Treads footingOnward s
      (fun kept s' => 0 < s'.cursor.position ∧ ∀ e, kept.complaint = some e → e.kind ≠ .internal)
      fun e s' => 0 < s'.cursor.position ∧ e.kind ≠ .internal ∧ s'.cursor.Placeable := by
  simp [item]
  refine ⟨fun hstarts => ⟨hpos, hstarts⟩, fun _ => ⟨⟨hpos, hclear⟩, fun statement t _ ht hline => ?_⟩⟩
  exact separator_treads .block ht hline

lemma statements_stands (stop : BlockEnd) (hpos : 0 < s.cursor.position) :
    (statements stop).Stands s := by
  simp [statements, Stands]
  split
  · simp
  next kind hkind =>
    have hfirst := Cursor.one_lt_position_advance .anyLine hpos
      (Cursor.current?_isSome_of_here? hkind)
    simp
    refine fun _ _ => ⟨fun kept t ht _ hkept => ?_, fun e t ht _ he _ => ?_⟩
    · refine itemThen_treads _ _ (by omega) ?_ (by simp) fun later u hu => ?_
      · rintro _ ⟨⟩
        exact hkept
      · simpa using hu
    · refine itemThen_treads _ _ (by omega) (by simp) ?_ fun later u hu => ?_
      · rintro _ ⟨⟩
        exact he
      · simpa using hu

lemma block_stands (hpos : 0 < s.cursor.position) (hclear : s.cursor.Clear) :
    block.Stands s := by
  simp [block, Stands]
  grind -ring -linarith

lemma blockHere_stands (hpos : 0 < s.cursor.position) (hclear : s.cursor.Clear) :
    blockHere.Stands s := by
  simp [blockHere, Stands]
  grind -ring -linarith

lemma blockNext_stands : blockNext.Stands s := by
  simp [blockNext, Stands]

/-! ### Conditions -/

lemma conditionValue_stands : conditionValue.Stands s := by
  simp [conditionValue, Stands]

lemma condition_stands (hpos : 0 < s.cursor.position) (hclear : s.cursor.Clear) :
    condition.Stands s := by
  simp [condition, Stands]
  refine ⟨fun _ pattern t _ _ _ => conditionValue_stands, fun _ => ⟨fun _ => ?_, fun _ => ?_⟩⟩
  · exact fun pattern t _ _ _ => conditionValue_stands
  · grind -ring -linarith

lemma conditions_stands (hpos : 0 < s.cursor.position) (hclear : s.cursor.Clear) :
    conditions.Stands s := by
  simp [conditions, Stands]
  refine (condition_stands hpos hclear).imp ?_ ?_ <;> grind -ring -linarith

lemma guardingCondition_stands (hpos : 0 < s.cursor.position) (hclear : s.cursor.Clear) :
    guardingCondition.Stands s := by
  simp [guardingCondition, Stands]
  grind -ring -linarith

/-! ### Statements with blocks -/

lemma alternative_stands (hpos : 0 < s.cursor.position) (hclear : s.cursor.Clear) :
    alternative.Stands s := by
  simp [alternative, Stands]
  grind -ring -linarith

lemma choice_stands : choice.Stands s := by
  simp [choice, Stands]
  refine fun t _ _ _ => blockNext_stands.imp (fun body u hu huc => ?_) ?_
  · refine (alternative_stands hu huc).imp ?_ ?_ <;> grind -ring -linarith
  · grind -ring -linarith

lemma elseIf_stands (hclear : s.cursor.Clear) : elseIf.Stands s := by
  simp [elseIf, Stands]
  refine ⟨hclear.onLine, choice_stands.imp ?_ ?_⟩ <;> grind -ring -linarith

lemma guarding_stands : guarding.Stands s := by
  simp [guarding, Stands]
  refine fun t _ _ _ _ => blockNext_stands.imp ?_ ?_ <;> grind -ring -linarith

lemma looping_stands : looping.Stands s := by
  simp [looping, Stands]
  refine fun t _ _ _ => blockNext_stands.imp ?_ ?_ <;> grind -ring -linarith

lemma repeating_stands : repeating.Stands s := by
  simp [repeating, Stands]
  refine (blockHere_stands (by simp) (by simp)).imp ?_ ?_ <;> grind -ring -linarith

lemma loopPattern_stands (isMatching : Bool) (hpos : 0 < s.cursor.position)
    (hclear : s.cursor.Clear) : (loopPattern isMatching).Stands s := by
  simp [loopPattern, Stands]
  grind -ring -linarith

lemma forIn_stands : forIn.Stands s := by
  simp [forIn, Stands]
  refine (loopPattern_stands _ (by simp) (by simp)).imp (fun pattern t _ _ => ?_) ?_
  · refine fun _ collection u _ hu huc => (guardingCondition_stands hu huc).imp ?_ ?_
    · exact fun guarding v _ _ => blockNext_stands.imp (by grind -ring -linarith) (by grind -ring -linarith)
    · grind -ring -linarith
  · grind -ring -linarith

lemma handlerPattern_stands (hpos : 0 < s.cursor.position) (hclear : s.cursor.Clear) :
    handlerPattern.Stands s := by
  simp [handlerPattern, Stands]
  split <;> simp <;> grind -ring -linarith

lemma handlers_stands (hpos : 0 < s.cursor.position) (hclear : s.cursor.Clear) :
    handlers.Stands s := by
  simp [handlers, Stands]
  refine ⟨fun _ => ?_, fun _ => ⟨hpos, hclear⟩⟩
  refine (handlerPattern_stands (by simp) (by simp)).imp (fun pattern t ht htc => ?_) (by grind -ring -linarith)
  refine (guardingCondition_stands ht htc).imp (fun guarding u _ _ => ?_) (by grind -ring -linarith)
  refine blockNext_stands.imp ?_ ?_ <;> grind -ring -linarith

lemma doing_stands : doing.Stands s := by
  simp [doing, Stands]
  refine (blockHere_stands (by simp) (by simp)).imp ?_ ?_ <;> grind -ring -linarith

lemma caseItems_stands : caseItems.Stands s := by
  simp [caseItems, Stands]
  refine fun pattern t _ ht htc => (guardingCondition_stands ht htc).imp ?_ ?_ <;> grind -ring -linarith

lemma arms_stands (hpos : 0 < s.cursor.position) (hclear : s.cursor.Clear) : arms.Stands s := by
  simp [arms, Stands]
  split
  · simp
    grind -ring -linarith
  · simp
    grind -ring -linarith

lemma switchBody_stands : switchBody.Stands s := by
  simp [switchBody, Stands]

lemma switch_stands : switch.Stands s := by
  simp [switch, Stands]

/-! ### Statements without blocks -/

lemma jumpLabel_stands (hpos : 0 < s.cursor.position) (hclear : s.cursor.Clear) :
    jumpLabel.Stands s := by
  simp [jumpLabel, Stands]
  refine ⟨hclear.onLine, ?_⟩
  split <;> simp <;> grind -ring -linarith

lemma returnValue_stands (hpos : 0 < s.cursor.position) (hclear : s.cursor.Clear) :
    returnValue.Stands s := by
  simp [returnValue, Stands]
  refine ⟨hclear.onLine, ?_⟩
  split
  · simp
    grind -ring -linarith
  next kind hkind =>
    have hline : endsReturn kind = false → kind ≠ .lineFeed := by
      rintro h rfl
      simp [endsReturn, TokenKind.isLineBreak] at h
    simp
    grind -ring -linarith

lemma expectLabel_stands (label : String) (hpos : 0 < s.cursor.position)
    (hclear : s.cursor.Clear) : (expectLabel label).Stands s := by
  simp [expectLabel, Stands]
  grind -ring -linarith

lemma locationFile_stands (hpos : 0 < s.cursor.position) (hclear : s.cursor.Clear) :
    locationFile.Stands s := by
  simp [locationFile, Stands]
  refine (expectLabel_stands "file" hpos hclear).imp (fun _ t ht htc => ?_) ?_
  · split <;> simp <;> grind -ring -linarith
  · grind -ring -linarith

lemma locationLine_stands (hpos : 0 < s.cursor.position) (hclear : s.cursor.Clear) :
    locationLine.Stands s := by
  simp [locationLine, Stands]
  refine (expectLabel_stands "line" hpos hclear).imp (fun _ t ht htc => ?_) ?_
  · split <;> simp <;> grind -ring -linarith
  · grind -ring -linarith

lemma sourceLocation_stands : sourceLocation.Stands s := by
  simp [sourceLocation, Stands]
  refine fun _ _ => (locationFile_stands (by simp) (by simp)).imp (fun file t _ _ _ => ?_) ?_
  · refine (locationLine_stands (by simp) (by simp)).imp ?_ ?_ <;> simp
    grind -ring -linarith
  · grind -ring -linarith

/-- A directive may take its line, since a `#` is in the list. -/
lemma directiveNamed_treads (name : String) (hpos : 0 < s.cursor.position)
    (hclear : s.cursor.Clear) (hhash : ∃ t ∈ s.cursor.toList, t.kind = .punctuator .hash) :
    (directiveNamed name).Treads footingOnward s
      (fun _ s' => 0 < s'.cursor.position ∧ s'.cursor.OnLine)
      fun e s' => 0 < s'.cursor.position ∧ e.kind ≠ .internal ∧ s'.cursor.Placeable := by
  cases DirectiveWord.of name with
  | sourceLocation =>
    exact sourceLocation_stands.imp (by grind -ring -linarith) (by grind -ring -linarith)
  | ifTrue | elseIfTrue =>
    have hpos := hpos.trans_le s.cursor.position_le_toEndOfLine
    have hline := hclear.onLine.toEndOfLine
    simp [directiveNamed]
    grind -ring -linarith
  | otherwise | endIf =>
    simp [directiveNamed]
    grind -ring -linarith
  | other h =>
    simp [directiveNamed_of_other h]
    grind -ring -linarith

/-- A directive may end with its line. -/
lemma directive_treads (hclear : s.cursor.Clear)
    (hhash : ∃ t ∈ s.cursor.toList, t.kind = .punctuator .hash) :
    directive.Treads footingOnward s
      (fun _ s' => 0 < s'.cursor.position ∧ s'.cursor.OnLine)
      fun e s' => 0 < s'.cursor.position ∧ e.kind ≠ .internal ∧ s'.cursor.Placeable := by
  have hplaceable := hclear.placeable_shift
  simp [directive]
  refine ⟨hclear, ?_⟩
  rcases hglued : s.cursor.glued? 0 with _ | kind
  · simpa
  have hshift := Cursor.clear_shift_of_glued? hglued
  have hnamed (name : String) : (directiveNamed name).Treads footingOnward
      (s.moveTo s.cursor.shift) _ _ :=
    directiveNamed_treads name (by simp) (by simpa) (by simpa)
  split
  · exact hnamed _
  · simpa

/-! ### All statements -/

lemma unlabeled_stands (word : Option String) (hpos : 0 < s.cursor.position)
    (hclear : s.cursor.Clear) : (unlabeled word).Stands s := by
  cases StatementWord.of word with
  | breaking | continuing =>
    simp [unlabeled, Stands]
    exact jumpLabel_stands hpos hclear
  | fallthrough =>
    simp [unlabeled, Stands]
    grind -ring -linarith
  | returning =>
    simp [unlabeled, Stands]
    exact returnValue_stands hpos hclear
  | throwing => simp [unlabeled, Stands]
  | deferring => simpa [unlabeled, Stands] using blockHere_stands (by simp) (by simp)
  | doing => exact doing_stands
  | choice => exact choice_stands
  | guarding => exact guarding_stands
  | looping => exact looping_stands
  | repeating => exact repeating_stands
  | forIn => exact forIn_stands
  | switch => exact switch_stands
  | other h =>
    simp [unlabeled_of_other h, Stands]
    grind -ring -linarith

lemma exists_hash (h : s.cursor.here? = some (.punctuator .hash)) :
    ∃ t ∈ s.cursor.toList, t.kind = .punctuator .hash := by
  rcases hc : s.cursor with a | ⟨b, t, a⟩ | b
  · simp [hc, Cursor.here?, Cursor.kind?, Cursor.current?] at h
  · refine ⟨t, by simp, ?_⟩
    simp only [hc, Cursor.here?, Cursor.kind?, Cursor.current?, Option.map_some,
      Option.some.injEq] at h
    revert h
    cases t.kind <;> simp [TokenKind.plain]
  · simp [hc, Cursor.here?, Cursor.kind?, Cursor.current?] at h

lemma statement_treads (hpos : 0 < s.cursor.position) (hclear : s.cursor.Clear) :
    statement.Treads footingOnward s
      (fun _ s' => 0 < s'.cursor.position ∧ s'.cursor.OnLine)
      fun e s' => 0 < s'.cursor.position ∧ e.kind ≠ .internal ∧ s'.cursor.Placeable := by
  simp [statement, statementLabel]
  refine ⟨hclear.onLine, fun hhash => ?_, fun _ => ?_⟩
  · refine (directive_treads hclear (exists_hash hhash)).imp ?_ ?_ <;> grind -ring -linarith
  split
  · simp
    refine (unlabeled_stands _ hpos hclear).imp ?_ ?_ <;> grind -ring -linarith
  · simp
    refine ⟨hclear.onLine, fun _ => ⟨hclear.onLine, ?_⟩, fun _ => ?_⟩
    · grind -ring -linarith
    · refine (unlabeled_stands _ hpos hclear).imp ?_ ?_ <;> grind -ring -linarith

end Grammar

end FrontEnd
