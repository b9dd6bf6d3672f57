/-
Procedures with a sure footing.

`Instruction.Fits` says from where an instruction may be given, and `Procedure.Treads` that
on every way through a procedure each instruction is given from such a place, whatever the
goals it calls do within their contract.  So `Treads` is `Procedure.Meets` with an
obligation for each instruction, and it has a rule for each word of the grammar too.
-/
import FrontEnd.Proofs.Contract.Words
import FrontEnd.Proofs.Footing.Cursor

namespace FrontEnd

/-- From where an instruction may be given.  Nobody ever asks for an internal error, and
nobody takes a line where no directive stands. -/
def Instruction.Fits (c : Cursor) : Instruction → Prop
  | .here | .startsDeclaration | .following .anyLine | .advance .anyLine => True
  | .following .sameLine | .advance .sameLine | .startLocation | .stopLocation => c.OnLine
  | .binaryAhead | .shift => c.Clear
  | .glued n => c.Clear ∧ ∀ m < n, (c.glued? m).isSome
  | .errorHere kind => kind ≠ .internal ∧ c.Placeable
  | .stepBack => c.current?.isSome ∧ 1 < c.position ∧ (c.Clear ∨ c.unshift.Clear)
  | .resynchronize => c.here? = some (.punctuator .rightBrace) → 1 < c.position
  | .takeLine => c.OnLine ∧ ∃ t ∈ c.toList, t.kind = .punctuator .hash

namespace Procedure

variable {α β : Type} {K : Contract} {s : State} {ok : α → State → Prop}
  {err : ParseError → State → Prop}

/-- Every way through a procedure gives its instructions from where they fit and notes no
internal error, and ends as wanted, if the goals keep a contract. -/
def Treads (K : Contract) : Procedure α → State → (α → State → Prop) →
    (ParseError → State → Prop) → Prop
  | done a, s, ok, _ => ok a s
  | fail e, s, _, err => err e s
  | ask i next, s, ok, err =>
    i.Fits s.cursor ∧
      (next (i.perform s.cursor).1).Treads K (s.moveTo (i.perform s.cursor).2) ok err
  | call g next, s, ok, err =>
    K.enter g s ∧
      (∀ a s', K.value g s a s' → (next (.ok a)).Treads K s' ok err) ∧
      ∀ e s', K.error g s e s' → (next (.error e)).Treads K s' ok err
  | note e next, s, ok, err => e.kind ≠ .internal ∧ next.Treads K (s.note e) ok err

/-- Two procedures in a row: what the first one reaches is where the second one
starts. -/
@[simp] lemma treads_bind (p : Procedure α) (f : α → Procedure β) (s : State)
    (ok : β → State → Prop) (err : ParseError → State → Prop) :
    (p >>= f).Treads K s ok err ↔ p.Treads K s (fun a s' => (f a).Treads K s' ok err) err := by
  change (p.bind f).Treads K s ok err ↔ _
  induction p generalizing s with
  | done a => rfl
  | fail e => rfl
  | ask i next ih => exact and_congr_right fun _ => ih _ _
  | call g next ih =>
    simp only [Procedure.bind, Treads]
    refine and_congr_right fun _ => and_congr ?_ ?_
    · exact forall₃_congr fun a s' _ => ih _ _
    · exact forall₃_congr fun e s' _ => ih _ _
  | note e next ih => exact and_congr_right fun _ => ih _

/-- Where more is wanted at the ends, more is wanted at the start. -/
lemma Treads.imp {ok' : α → State → Prop} {err' : ParseError → State → Prop}
    {p : Procedure α} (h : p.Treads K s ok err) (hok : ∀ a s, ok a s → ok' a s)
    (herr : ∀ e s, err e s → err' e s) : p.Treads K s ok' err' := by
  induction p generalizing s with
  | done a => exact hok _ _ h
  | fail e => exact herr _ _ h
  | ask i next ih => exact ⟨h.1, ih _ h.2⟩
  | call g next ih =>
    obtain ⟨henter, hvalue, herror⟩ := h
    exact ⟨henter, fun a s' ha => ih _ (hvalue a s' ha), fun e s' he => ih _ (herror e s' he)⟩
  | note e next ih => exact ⟨h.1, ih h.2⟩

section

variable (K) (s) (ok : α → State → Prop) (err : ParseError → State → Prop)

@[simp] lemma treads_pure (a : α) : (pure a : Procedure α).Treads K s ok err ↔ ok a s := Iff.rfl

@[simp] lemma treads_done (a : α) : (done a).Treads K s ok err ↔ ok a s := Iff.rfl

@[simp] lemma treads_fail (e : ParseError) :
    (fail e : Procedure α).Treads K s ok err ↔ err e s := Iff.rfl

@[simp] lemma treads_ite (c : Prop) [Decidable c] (p q : Procedure α) :
    (if c then p else q).Treads K s ok err ↔
      (c → p.Treads K s ok err) ∧ (¬ c → q.Treads K s ok err) := by
  by_cases hc : c <;> simp [hc]

@[simp] lemma treads_raise (kind : ErrorKind) :
    (raise kind : Procedure α).Treads K s ok err ↔
      (kind ≠ .internal ∧ s.cursor.Placeable) ∧ err (s.cursor.error kind) s := Iff.rfl

end

variable (K) (s) (err : ParseError → State → Prop)

/-! ### Questions -/

@[simp] lemma treads_here (ok : Option TokenKind → State → Prop) :
    here.Treads K s ok err ↔ ok s.cursor.here? s := iff_of_eq (true_and _)

@[simp] lemma treads_isHere (mark : Punctuator) (ok : Bool → State → Prop) :
    (isHere mark).Treads K s ok err ↔ ok (s.cursor.here? = some (.punctuator mark)) s :=
  iff_of_eq (true_and _)

@[simp] lemma treads_isWordHere (word : String) (ok : Bool → State → Prop) :
    (isWordHere word).Treads K s ok err ↔ ok (s.cursor.here?.any (·.isKeyword word)) s :=
  iff_of_eq (true_and _)

@[simp] lemma treads_glued_zero (ok : Option TokenKind → State → Prop) :
    (glued 0).Treads K s ok err ↔ s.cursor.Clear ∧ ok (s.cursor.glued? 0) s := by
  simp [glued, Treads, Instruction.Fits, Instruction.perform]

@[simp] lemma treads_glued_one (ok : Option TokenKind → State → Prop) :
    (glued 1).Treads K s ok err ↔
      (s.cursor.Clear ∧ (s.cursor.glued? 0).isSome) ∧ ok (s.cursor.glued? 1) s := by
  simp [glued, Treads, Instruction.Fits, Instruction.perform]

@[simp] lemma treads_isGlued (mark : Punctuator) (ok : Bool → State → Prop) :
    (isGlued mark).Treads K s ok err ↔
      s.cursor.Clear ∧ ok (s.cursor.glued? 0 = some (.punctuator mark)) s := by
  rw [isGlued, treads_bind, treads_glued_zero]
  rfl

@[simp] lemma treads_following_anyLine (ok : Option TokenKind → State → Prop) :
    (following .anyLine).Treads K s ok err ↔ ok (s.cursor.following? .anyLine) s := iff_of_eq (true_and _)

@[simp] lemma treads_following_sameLine (ok : Option TokenKind → State → Prop) :
    (following .sameLine).Treads K s ok err ↔
      s.cursor.OnLine ∧ ok (s.cursor.following? .sameLine) s := Iff.rfl

@[simp] lemma treads_isNext_anyLine (mark : Punctuator) (ok : Bool → State → Prop) :
    (isNext mark .anyLine).Treads K s ok err ↔
      ok (s.cursor.following? .anyLine = some (.punctuator mark)) s := iff_of_eq (true_and _)

@[simp] lemma treads_isNext_sameLine (mark : Punctuator) (ok : Bool → State → Prop) :
    (isNext mark .sameLine).Treads K s ok err ↔
      s.cursor.OnLine ∧ ok (s.cursor.following? .sameLine = some (.punctuator mark)) s := Iff.rfl

@[simp] lemma treads_isWordNext_anyLine (word : String) (ok : Bool → State → Prop) :
    (isWordNext word .anyLine).Treads K s ok err ↔
      ok ((s.cursor.following? .anyLine).any (·.isKeyword word)) s := iff_of_eq (true_and _)

@[simp] lemma treads_isWordNext_sameLine (word : String) (ok : Bool → State → Prop) :
    (isWordNext word .sameLine).Treads K s ok err ↔
      s.cursor.OnLine ∧ ok ((s.cursor.following? .sameLine).any (·.isKeyword word)) s := Iff.rfl

@[simp] lemma treads_startLocation (ok : Location → State → Prop) :
    startLocation.Treads K s ok err ↔ s.cursor.OnLine ∧ ok s.cursor.startLocation s := Iff.rfl

@[simp] lemma treads_stopLocation (ok : Location → State → Prop) :
    stopLocation.Treads K s ok err ↔ s.cursor.OnLine ∧ ok s.cursor.stopLocation s := Iff.rfl

@[simp] lemma treads_rangeFrom (start : Location) (ok : Range → State → Prop) :
    (rangeFrom start).Treads K s ok err ↔
      s.cursor.OnLine ∧ ok ⟨start, s.cursor.stopLocation⟩ s := Iff.rfl

@[simp] lemma treads_binaryAhead (ok : Option String → State → Prop) :
    binaryAhead.Treads K s ok err ↔ s.cursor.Clear ∧ ok s.cursor.binaryAhead? s := Iff.rfl

@[simp] lemma treads_startsDeclaration (ok : Bool → State → Prop) :
    startsDeclaration.Treads K s ok err ↔ ok s.cursor.startsDeclaration s := iff_of_eq (true_and _)

@[simp] lemma treads_errorHere (kind : ErrorKind) (ok : ParseError → State → Prop) :
    (errorHere kind).Treads K s ok err ↔
      (kind ≠ .internal ∧ s.cursor.Placeable) ∧ ok (s.cursor.error kind) s := Iff.rfl

/-! ### Moves -/

@[simp] lemma treads_shift (ok : Unit → State → Prop) :
    shift.Treads K s ok err ↔ s.cursor.Clear ∧ ok () (s.moveTo s.cursor.shift) := Iff.rfl

@[simp] lemma treads_advance_anyLine (ok : Unit → State → Prop) :
    (advance .anyLine).Treads K s ok err ↔ ok () (s.moveTo (s.cursor.advance .anyLine)) :=
  iff_of_eq (true_and _)

@[simp] lemma treads_advance_sameLine (ok : Unit → State → Prop) :
    (advance .sameLine).Treads K s ok err ↔
      s.cursor.OnLine ∧ ok () (s.moveTo (s.cursor.advance .sameLine)) := Iff.rfl

@[simp] lemma treads_advanceTwice (ok : Unit → State → Prop) :
    advanceTwice.Treads K s ok err ↔
      ok () (s.moveTo ((s.cursor.advance .anyLine).advance .anyLine)) := by
  simp [advanceTwice]

@[simp] lemma treads_takeLine (ok : String → State → Prop) :
    takeLine.Treads K s ok err ↔
      (s.cursor.OnLine ∧ ∃ t ∈ s.cursor.toList, t.kind = .punctuator .hash) ∧
        ok s.cursor.lineText (s.moveTo s.cursor.toEndOfLine) := Iff.rfl

@[simp] lemma treads_stepBack (ok : Unit → State → Prop) :
    stepBack.Treads K s ok err ↔
      (s.cursor.current?.isSome ∧ 1 < s.cursor.position ∧
        (s.cursor.Clear ∨ s.cursor.unshift.Clear)) ∧ ok () (s.moveTo s.cursor.unshift) := by
  refine and_congr_right fun hfits => ?_
  simp [Instruction.perform, hfits.1]

@[simp] lemma treads_recover (e : ParseError) (ok : Unit → State → Prop) :
    (recover e).Treads K s ok err ↔
      e.kind ≠ .internal ∧
        (s.cursor.here? = some (.punctuator .rightBrace) → 1 < s.cursor.position) ∧
          ok () ((s.note e).moveTo s.cursor.resynchronize) := Iff.rfl

/-! ### Goals -/

@[simp] lemma treads_attempt (g : Goal) (ok : Except ParseError g.Result → State → Prop) :
    @Treads (no_index (Except ParseError g.Result)) K (attempt g) s ok err ↔
      K.enter g s ∧ (∀ a s', K.value g s a s' → ok (.ok a) s') ∧
        ∀ e s', K.error g s e s' → ok (.error e) s' := Iff.rfl

@[simp] lemma treads_read (g : Goal) (ok : g.Result → State → Prop) :
    @Treads (no_index g.Result) K (read g) s ok err ↔
      K.enter g s ∧ (∀ a s', K.value g s a s' → ok a s') ∧
        ∀ e s', K.error g s e s' → err e s' := Iff.rfl

/-! ### What must come -/

@[simp] lemma expectedMark_ne_internal (mark : Punctuator) :
    ErrorKind.expectedMark mark ≠ .internal := by
  simp [ErrorKind.expectedMark]

@[simp] lemma expectedWord_ne_internal (word : String) :
    ErrorKind.expectedWord word ≠ .internal := by
  simp [ErrorKind.expectedWord]

@[simp] lemma treads_expectHere (mark : Punctuator) (ok : Unit → State → Prop) :
    (expectHere mark).Treads K s ok err ↔
      (s.cursor.here? = some (.punctuator mark) → ok () s) ∧
        (s.cursor.here? ≠ some (.punctuator mark) →
          s.cursor.Placeable ∧ err (s.cursor.error (.expectedMark mark)) s) := by
  simp [expectHere]

@[simp] lemma treads_expectNext (mark : Punctuator) (ok : Unit → State → Prop) :
    (expectNext mark).Treads K s ok err ↔
      ((s.cursor.advance .anyLine).here? = some (.punctuator mark) →
          ok () (s.moveTo (s.cursor.advance .anyLine))) ∧
        ((s.cursor.advance .anyLine).here? ≠ some (.punctuator mark) →
          err ((s.cursor.advance .anyLine).error (.expectedMark mark))
            (s.moveTo (s.cursor.advance .anyLine))) := by
  simp [expectNext]

@[simp] lemma treads_expectNextWord (word : String) (ok : Unit → State → Prop) :
    (expectNextWord word).Treads K s ok err ↔
      ((s.cursor.advance .anyLine).here?.any (·.isKeyword word) = true →
          ok () (s.moveTo (s.cursor.advance .anyLine))) ∧
        (¬ (s.cursor.advance .anyLine).here?.any (·.isKeyword word) = true →
          err ((s.cursor.advance .anyLine).error (.expectedWord word))
            (s.moveTo (s.cursor.advance .anyLine))) := by
  simp [expectNextWord]

@[simp] lemma treads_expectName (ok : String → State → Prop) :
    expectName.Treads K s ok err ↔
      (∀ name, s.cursor.here?.bind (·.name? true) = some name → ok name s) ∧
        (s.cursor.here?.bind (·.name? true) = none →
          s.cursor.Placeable ∧ err (s.cursor.error .missingIdentifier) s) := by
  simp only [expectName, treads_bind, treads_here]
  rcases s.cursor.here?.bind (·.name? true) with _ | name
  · simp [treads_raise]
  · simp [treads_pure]

/-- A node with its range: it starts where its first token starts, and stops where
the reading of its parts ends. -/
@[simp] lemma treads_ranged {α : Type} (node : Procedure (Range → α)) (ok : α → State → Prop) :
    (ranged node).Treads K s ok err ↔
      s.cursor.OnLine ∧ node.Treads K s
        (fun build s' => s'.cursor.OnLine ∧
          ok (build ⟨s.cursor.startLocation, s'.cursor.stopLocation⟩) s') err := by
  simp only [ranged, treads_bind, treads_startLocation, treads_rangeFrom, treads_pure]

end Procedure

end FrontEnd
