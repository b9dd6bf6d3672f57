/-
What a contract makes of the words of the grammar.

Each word that procedures are built from has a rule here, which says when all
ways through it end as wanted.  With `Procedure.meets_bind` the rules turn the
condition on a procedure into one on the cursor and on the called goals.
-/
import FrontEnd.Proofs.Contract.Basic

namespace FrontEnd

namespace State

@[simp, grind =] lemma cursor_moveTo (s : State) (c : Cursor) : (s.moveTo c).cursor = c := rfl

@[simp, grind =] lemma cursor_note (s : State) (e : ParseError) : (s.note e).cursor = s.cursor := rfl

@[simp] lemma moveTo_cursor (s : State) : s.moveTo s.cursor = s := rfl

@[simp] lemma moveTo_moveTo (s : State) (c d : Cursor) : (s.moveTo c).moveTo d = s.moveTo d := rfl

end State

namespace Procedure

variable {α : Type} (K : Contract) (way : List Event) (s : State)

section

variable (ok : List Event → α → State → Prop) (err : List Event → ParseError → State → Prop)

@[simp] lemma meets_pure (a : α) : (pure a : Procedure α).Meets K way s ok err ↔ ok way a s := Iff.rfl

@[simp] lemma meets_done (a : α) : (done a).Meets K way s ok err ↔ ok way a s := Iff.rfl

@[simp] lemma meets_fail (e : ParseError) :
    (fail e : Procedure α).Meets K way s ok err ↔ err way e s := Iff.rfl

@[simp] lemma meets_ite (c : Prop) [Decidable c] (p q : Procedure α) :
    (if c then p else q).Meets K way s ok err ↔
      (c → p.Meets K way s ok err) ∧ (¬ c → q.Meets K way s ok err) := by
  by_cases hc : c <;> simp [hc]

@[simp] lemma meets_raise (kind : ErrorKind) :
    (raise kind : Procedure α).Meets K way s ok err ↔ err way (s.cursor.error kind) s := Iff.rfl

end

variable (err : List Event → ParseError → State → Prop)

/-! ### Questions -/

@[simp] lemma meets_here (ok : List Event → Option TokenKind → State → Prop) :
    here.Meets K way s ok err ↔ ok way s.cursor.here? s := Iff.rfl

@[simp] lemma meets_glued (n : Nat) (ok : List Event → Option TokenKind → State → Prop) :
    (glued n).Meets K way s ok err ↔ ok way (s.cursor.glued? n) s := Iff.rfl

@[simp] lemma meets_following (reach : Reach) (ok : List Event → Option TokenKind → State → Prop) :
    (following reach).Meets K way s ok err ↔ ok way (s.cursor.following? reach) s := Iff.rfl

@[simp] lemma meets_isHere (mark : Punctuator) (ok : List Event → Bool → State → Prop) :
    (isHere mark).Meets K way s ok err ↔
      ok way (s.cursor.here? = some (.punctuator mark)) s := Iff.rfl

@[simp] lemma meets_isWordHere (word : String) (ok : List Event → Bool → State → Prop) :
    (isWordHere word).Meets K way s ok err ↔
      ok way (s.cursor.here?.any (·.isKeyword word)) s := Iff.rfl

@[simp] lemma meets_isGlued (mark : Punctuator) (ok : List Event → Bool → State → Prop) :
    (isGlued mark).Meets K way s ok err ↔
      ok way (s.cursor.glued? 0 = some (.punctuator mark)) s := Iff.rfl

@[simp] lemma meets_isNext (mark : Punctuator) (reach : Reach) (ok : List Event → Bool → State → Prop) :
    (isNext mark reach).Meets K way s ok err ↔
      ok way (s.cursor.following? reach = some (.punctuator mark)) s := Iff.rfl

@[simp] lemma meets_isWordNext (word : String) (reach : Reach) (ok : List Event → Bool → State → Prop) :
    (isWordNext word reach).Meets K way s ok err ↔
      ok way ((s.cursor.following? reach).any (·.isKeyword word)) s := Iff.rfl

@[simp] lemma meets_startLocation (ok : List Event → Location → State → Prop) :
    startLocation.Meets K way s ok err ↔ ok way s.cursor.startLocation s := Iff.rfl

@[simp] lemma meets_stopLocation (ok : List Event → Location → State → Prop) :
    stopLocation.Meets K way s ok err ↔ ok way s.cursor.stopLocation s := Iff.rfl

@[simp] lemma meets_rangeFrom (start : Location) (ok : List Event → Range → State → Prop) :
    (rangeFrom start).Meets K way s ok err ↔ ok way ⟨start, s.cursor.stopLocation⟩ s := Iff.rfl

@[simp] lemma meets_binaryAhead (ok : List Event → Option String → State → Prop) :
    binaryAhead.Meets K way s ok err ↔ ok way s.cursor.binaryAhead? s := Iff.rfl

@[simp] lemma meets_startsDeclaration (ok : List Event → Bool → State → Prop) :
    startsDeclaration.Meets K way s ok err ↔ ok way s.cursor.startsDeclaration s := Iff.rfl

@[simp] lemma meets_errorHere (kind : ErrorKind) (ok : List Event → ParseError → State → Prop) :
    (errorHere kind).Meets K way s ok err ↔ ok way (s.cursor.error kind) s := Iff.rfl

/-! ### Moves -/

@[simp] lemma meets_shift (ok : List Event → Unit → State → Prop) :
    shift.Meets K way s ok err ↔ ok way () (s.moveTo s.cursor.shift) := Iff.rfl

@[simp] lemma meets_advance (reach : Reach) (ok : List Event → Unit → State → Prop) :
    (advance reach).Meets K way s ok err ↔ ok way () (s.moveTo (s.cursor.advance reach)) :=
  Iff.rfl

@[simp] lemma meets_advanceTwice (ok : List Event → Unit → State → Prop) :
    advanceTwice.Meets K way s ok err ↔
      ok way () (s.moveTo ((s.cursor.advance .anyLine).advance .anyLine)) := Iff.rfl

@[simp] lemma meets_takeLine (ok : List Event → String → State → Prop) :
    takeLine.Meets K way s ok err ↔
      ok way s.cursor.lineText (s.moveTo s.cursor.toEndOfLine) := Iff.rfl

@[simp] lemma meets_stepBack (ok : List Event → Unit → State → Prop) :
    stepBack.Meets K way s ok err ↔
      (s.cursor.current?.isSome → ok way () (s.moveTo s.cursor.unshift)) ∧
        (s.cursor.current? = none → err way (s.cursor.error .internal) s) := by
  rcases s with ⟨_ | ⟨_ | _, _, _⟩ | _, noted⟩ <;>
    simp [stepBack, Meets, Instruction.perform, Instruction.events, Cursor.current?,
      Cursor.unshift, Cursor.unshift?, raise, State.moveTo]

@[simp] lemma meets_recover (e : ParseError) (ok : List Event → Unit → State → Prop) :
    (recover e).Meets K way s ok err ↔
      ok (.recovered s.cursor :: way) () ((s.note e).moveTo s.cursor.resynchronize) := Iff.rfl

/-! ### Goals -/

@[simp] lemma meets_attempt (g : Goal) (ok : List Event → Except ParseError g.Result → State → Prop) :
    @Meets (no_index (Except ParseError g.Result)) K (attempt g) way s ok err ↔
      K.enter g s ∧ (∀ a s', K.value g s a s' → ok (.called g s :: way) (.ok a) s') ∧
        ∀ e s', K.error g s e s' → ok (.called g s :: way) (.error e) s' := Iff.rfl

@[simp] lemma meets_read (g : Goal) (ok : List Event → g.Result → State → Prop) :
    @Meets (no_index g.Result) K (read g) way s ok err ↔
      K.enter g s ∧ (∀ a s', K.value g s a s' → ok (.called g s :: way) a s') ∧
        ∀ e s', K.error g s e s' → err (.called g s :: way) e s' := Iff.rfl

/-! ### What must come -/

@[simp] lemma meets_expectHere (mark : Punctuator) (ok : List Event → Unit → State → Prop) :
    (expectHere mark).Meets K way s ok err ↔
      (s.cursor.here? = some (.punctuator mark) → ok way () s) ∧
        (s.cursor.here? ≠ some (.punctuator mark) →
          err way (s.cursor.error (.expectedMark mark)) s) := by
  simp only [expectHere, meets_bind, meets_isHere, meets_ite, meets_pure, meets_raise,
    decide_eq_true_eq, ne_eq]

@[simp] lemma meets_expectNext (mark : Punctuator) (ok : List Event → Unit → State → Prop) :
    (expectNext mark).Meets K way s ok err ↔
      ((s.cursor.advance .anyLine).here? = some (.punctuator mark) →
          ok way () (s.moveTo (s.cursor.advance .anyLine))) ∧
        ((s.cursor.advance .anyLine).here? ≠ some (.punctuator mark) →
          err way ((s.cursor.advance .anyLine).error (.expectedMark mark))
            (s.moveTo (s.cursor.advance .anyLine))) := by
  simp only [expectNext, meets_bind, meets_advance, meets_expectHere, State.cursor_moveTo]

@[simp] lemma meets_expectNextWord (word : String) (ok : List Event → Unit → State → Prop) :
    (expectNextWord word).Meets K way s ok err ↔
      ((s.cursor.advance .anyLine).here?.any (·.isKeyword word) = true →
          ok way () (s.moveTo (s.cursor.advance .anyLine))) ∧
        (¬ (s.cursor.advance .anyLine).here?.any (·.isKeyword word) = true →
          err way ((s.cursor.advance .anyLine).error (.expectedWord word))
            (s.moveTo (s.cursor.advance .anyLine))) := by
  simp only [expectNextWord, meets_bind, meets_advance, meets_isWordHere, meets_ite, meets_pure,
    meets_raise, State.cursor_moveTo]

@[simp] lemma meets_expectName (ok : List Event → String → State → Prop) :
    expectName.Meets K way s ok err ↔
      (∀ name, s.cursor.here?.bind (·.name? true) = some name → ok way name s) ∧
        (s.cursor.here?.bind (·.name? true) = none →
          err way (s.cursor.error .missingIdentifier) s) := by
  simp only [expectName, meets_bind, meets_here]
  rcases s.cursor.here?.bind (·.name? true) with _ | name
  · simp [meets_raise]
  · simp [meets_pure]

/-- A node with its range: it starts where its first token starts, and stops where
the reading of its parts ends. -/
@[simp] lemma meets_ranged {α : Type} (node : Procedure (Range → α))
    (ok : List Event → α → State → Prop) :
    (ranged node).Meets K way s ok err ↔
      node.Meets K way s
        (fun way build s' => ok way (build ⟨s.cursor.startLocation, s'.cursor.stopLocation⟩) s')
        err := by
  simp only [ranged, meets_bind, meets_startLocation, meets_rangeFrom, meets_pure]

end Procedure

end FrontEnd
