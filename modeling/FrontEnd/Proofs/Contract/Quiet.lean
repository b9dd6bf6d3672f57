/-
What a procedure yields without an error.

`Procedure.Yields` speaks of the ways through a procedure that note no error and end in a
value: each of them ends as wanted, if the goals it calls keep their contract as far as they
note no error and end in a value themselves.  Where an error is noted nothing is wanted any
more, so the recoveries and all errors drop out, and the rules for the words of the grammar
are short.
-/
import FrontEnd.Proofs.Contract.Words
import FrontEnd.Proofs.Reads

namespace FrontEnd

namespace Procedure

variable {α β : Type} {K : Contract} {s : State} {ok : α → State → Prop}

/-- Every way through a procedure that notes no error and ends in a value ends as wanted, if
the goals keep a contract. -/
def Yields (K : Contract) : Procedure α → State → (α → State → Prop) → Prop
  | done a, s, ok => ok a s
  | fail _, _, _ => True
  | ask i next, s, ok =>
    (next (i.perform s.cursor).1).Yields K (s.moveTo (i.perform s.cursor).2) ok
  | call g next, s, ok =>
    K.enter g s ∧ (∀ a s', K.value g s a s' → (next (.ok a)).Yields K s' ok) ∧
      ∀ e s', (next (.error e)).Yields K s' ok
  | note _ _, _, _ => True

/-- Two procedures in a row: what the first one reaches is where the second one
starts. -/
@[simp] lemma yields_bind (p : Procedure α) (f : α → Procedure β) (s : State)
    (ok : β → State → Prop) :
    (p >>= f).Yields K s ok ↔ p.Yields K s (fun a s' => (f a).Yields K s' ok) := by
  change (p.bind f).Yields K s ok ↔ _
  induction p generalizing s with
  | done a => rfl
  | fail e => rfl
  | ask i next ih => exact ih _ _
  | call g next ih =>
    simp only [Procedure.bind, Yields]
    refine and_congr_right fun _ => and_congr ?_ ?_
    · exact forall₃_congr fun a s' _ => ih _ _
    · exact forall₂_congr fun e s' => ih _ _
  | note e next ih => rfl

/-- Where more is wanted at the ends, more is wanted at the start. -/
lemma Yields.imp {ok' : α → State → Prop} {p : Procedure α} (h : p.Yields K s ok)
    (hok : ∀ a s, ok a s → ok' a s) : p.Yields K s ok' := by
  induction p generalizing s with
  | done a => exact hok _ _ h
  | fail e => trivial
  | ask i next ih => exact ih _ h
  | call g next ih =>
    obtain ⟨henter, hvalue, herror⟩ := h
    exact ⟨henter, fun a s' ha => ih _ (hvalue a s' ha), fun e s' => ih _ (herror e s')⟩
  | note e next ih => trivial

/-- Where the goals promise more, no more is needed. -/
lemma Yields.weaken {K' : Contract} {p : Procedure α} (h : p.Yields K s ok)
    (henter : ∀ g s, K.enter g s → K'.enter g s)
    (hvalue : ∀ g s a s', K'.value g s a s' → K.value g s a s') : p.Yields K' s ok := by
  induction p generalizing s with
  | done a => exact h
  | fail e => trivial
  | ask i next ih => exact ih _ h
  | call g next ih =>
    obtain ⟨hcall, hok, herror⟩ := h
    exact ⟨henter _ _ hcall, fun a s' ha => ih _ (hok a s' (hvalue _ _ _ _ ha)),
      fun e s' => ih _ (herror e s')⟩
  | note e next ih => trivial

/-- Where all goals may be called, nothing can go wrong. -/
lemma yields_true {p : Procedure α} (henter : ∀ g s, K.enter g s) :
    p.Yields K s fun _ _ => True := by
  induction p generalizing s with
  | done a => trivial
  | fail e => trivial
  | ask i next ih => exact ih _
  | call g next ih => exact ⟨henter _ _, fun a s' _ => ih _, fun e s' => ih _⟩
  | note e next ih => trivial

section

variable (K) (s) (ok : α → State → Prop)

@[simp] lemma yields_pure (a : α) : (pure a : Procedure α).Yields K s ok ↔ ok a s := Iff.rfl

@[simp] lemma yields_done (a : α) : (done a).Yields K s ok ↔ ok a s := Iff.rfl

@[simp] lemma yields_fail (e : ParseError) : (fail e : Procedure α).Yields K s ok ↔ True := Iff.rfl

@[simp] lemma yields_ite (c : Prop) [Decidable c] (p q : Procedure α) :
    (if c then p else q).Yields K s ok ↔ (c → p.Yields K s ok) ∧ (¬ c → q.Yields K s ok) := by
  by_cases hc : c <;> simp [hc]

@[simp] lemma yields_raise (kind : ErrorKind) :
    (raise kind : Procedure α).Yields K s ok ↔ True := Iff.rfl

end

section

variable (K) (s)

/-! ### Questions -/

@[simp] lemma yields_here (ok : Option TokenKind → State → Prop) :
    here.Yields K s ok ↔ ok s.cursor.here? s := Iff.rfl

@[simp] lemma yields_glued (n : Nat) (ok : Option TokenKind → State → Prop) :
    (glued n).Yields K s ok ↔ ok (s.cursor.glued? n) s := Iff.rfl

@[simp] lemma yields_following (reach : Reach) (ok : Option TokenKind → State → Prop) :
    (following reach).Yields K s ok ↔ ok (s.cursor.following? reach) s := Iff.rfl

@[simp] lemma yields_isHere (mark : Punctuator) (ok : Bool → State → Prop) :
    (isHere mark).Yields K s ok ↔ ok (s.cursor.here? = some (.punctuator mark)) s := Iff.rfl

@[simp] lemma yields_isWordHere (word : String) (ok : Bool → State → Prop) :
    (isWordHere word).Yields K s ok ↔ ok (s.cursor.here?.any (·.isKeyword word)) s := Iff.rfl

@[simp] lemma yields_isGlued (mark : Punctuator) (ok : Bool → State → Prop) :
    (isGlued mark).Yields K s ok ↔ ok (s.cursor.glued? 0 = some (.punctuator mark)) s := Iff.rfl

@[simp] lemma yields_isNext (mark : Punctuator) (reach : Reach) (ok : Bool → State → Prop) :
    (isNext mark reach).Yields K s ok ↔
      ok (s.cursor.following? reach = some (.punctuator mark)) s := Iff.rfl

@[simp] lemma yields_isWordNext (word : String) (reach : Reach) (ok : Bool → State → Prop) :
    (isWordNext word reach).Yields K s ok ↔
      ok ((s.cursor.following? reach).any (·.isKeyword word)) s := Iff.rfl

@[simp] lemma yields_startLocation (ok : Location → State → Prop) :
    startLocation.Yields K s ok ↔ ok s.cursor.startLocation s := Iff.rfl

@[simp] lemma yields_stopLocation (ok : Location → State → Prop) :
    stopLocation.Yields K s ok ↔ ok s.cursor.stopLocation s := Iff.rfl

@[simp] lemma yields_rangeFrom (start : Location) (ok : Range → State → Prop) :
    (rangeFrom start).Yields K s ok ↔ ok ⟨start, s.cursor.stopLocation⟩ s := Iff.rfl

@[simp] lemma yields_binaryAhead (ok : Option String → State → Prop) :
    binaryAhead.Yields K s ok ↔ ok s.cursor.binaryAhead? s := Iff.rfl

@[simp] lemma yields_startsDeclaration (ok : Bool → State → Prop) :
    startsDeclaration.Yields K s ok ↔ ok s.cursor.startsDeclaration s := Iff.rfl

@[simp] lemma yields_errorHere (kind : ErrorKind) (ok : ParseError → State → Prop) :
    (errorHere kind).Yields K s ok ↔ ok (s.cursor.error kind) s := Iff.rfl

/-! ### Moves -/

@[simp] lemma yields_shift (ok : Unit → State → Prop) :
    shift.Yields K s ok ↔ ok () (s.moveTo s.cursor.shift) := Iff.rfl

@[simp] lemma yields_advance (reach : Reach) (ok : Unit → State → Prop) :
    (advance reach).Yields K s ok ↔ ok () (s.moveTo (s.cursor.advance reach)) := Iff.rfl

@[simp] lemma yields_advanceTwice (ok : Unit → State → Prop) :
    advanceTwice.Yields K s ok ↔
      ok () (s.moveTo ((s.cursor.advance .anyLine).advance .anyLine)) := Iff.rfl

@[simp] lemma yields_takeLine (ok : String → State → Prop) :
    takeLine.Yields K s ok ↔ ok s.cursor.lineText (s.moveTo s.cursor.toEndOfLine) := Iff.rfl

@[simp] lemma yields_stepBack (ok : Unit → State → Prop) :
    stepBack.Yields K s ok ↔
      (s.cursor.current?.isSome → ok () (s.moveTo s.cursor.unshift)) := by
  rcases s with ⟨_ | ⟨_ | _, _, _⟩ | _, noted⟩ <;>
    simp [stepBack, Yields, Instruction.perform, Cursor.current?, Cursor.unshift,
      Cursor.unshift?, raise, State.moveTo]

@[simp] lemma yields_recover (e : ParseError) (ok : Unit → State → Prop) :
    (recover e).Yields K s ok ↔ True := Iff.rfl

/-! ### Goals -/

@[simp] lemma yields_attempt (g : Goal) (ok : Except ParseError g.Result → State → Prop) :
    @Yields (no_index (Except ParseError g.Result)) K (attempt g) s ok ↔
      K.enter g s ∧ (∀ a s', K.value g s a s' → ok (.ok a) s') ∧ ∀ e s', ok (.error e) s' :=
  Iff.rfl

@[simp] lemma yields_read (g : Goal) (ok : g.Result → State → Prop) :
    @Yields (no_index g.Result) K (read g) s ok ↔
      K.enter g s ∧ ∀ a s', K.value g s a s' → ok a s' := by
  simp [read, Yields]

/-! ### What must come -/

@[simp] lemma yields_expectHere (mark : Punctuator) (ok : Unit → State → Prop) :
    (expectHere mark).Yields K s ok ↔
      (s.cursor.here? = some (.punctuator mark) → ok () s) := by
  simp [expectHere]

@[simp] lemma yields_expectNext (mark : Punctuator) (ok : Unit → State → Prop) :
    (expectNext mark).Yields K s ok ↔
      ((s.cursor.advance .anyLine).here? = some (.punctuator mark) →
        ok () (s.moveTo (s.cursor.advance .anyLine))) := by
  simp [expectNext]

@[simp] lemma yields_expectNextWord (word : String) (ok : Unit → State → Prop) :
    (expectNextWord word).Yields K s ok ↔
      ((s.cursor.advance .anyLine).here?.any (·.isKeyword word) = true →
        ok () (s.moveTo (s.cursor.advance .anyLine))) := by
  simp [expectNextWord]

@[simp] lemma yields_expectName (ok : String → State → Prop) :
    expectName.Yields K s ok ↔
      ∀ name, s.cursor.here?.bind (·.name? true) = some name → ok name s := by
  simp only [expectName, yields_bind, yields_here]
  rcases s.cursor.here?.bind (·.name? true) with _ | name <;> simp

/-- A node with its range: it starts where its first token starts, and stops where
the reading of its parts ends. -/
@[simp] lemma yields_ranged {α : Type} (node : Procedure (Range → α)) (ok : α → State → Prop) :
    (ranged node).Yields K s ok ↔
      node.Yields K s fun build s' =>
        ok (build ⟨s.cursor.startLocation, s'.cursor.stopLocation⟩) s' := by
  simp only [ranged, yields_bind, yields_startLocation, yields_rangeFrom, yields_pure]

end

/-! ### Readings -/

variable {callee : (g : Goal) → State → Outcome g.Result} {p : Procedure α} {s' : State}
  {r : Except ParseError α}

/-- A procedure only adds to the errors noted so far. -/
lemma noted_suffix_of_perform
    (hcallee : ∀ g s r s', callee g s = .finished r s' → s.noted <:+ s'.noted)
    (hr : p.perform callee s = .finished r s') : s.noted <:+ s'.noted := by
  induction p generalizing s with
  | done a =>
    cases hr
    exact List.suffix_rfl
  | fail e =>
    cases hr
    exact List.suffix_rfl
  | ask i next ih =>
    have hnext := ih _ hr
    exact hnext
  | call g next ih =>
    simp only [perform] at hr
    rcases hc : callee g s with ⟨r', t⟩ | _
    · rw [hc] at hr
      exact (hcallee _ _ _ _ hc).trans (ih _ hr)
    · simp [hc] at hr
  | note e next ih => exact (List.suffix_cons e s.noted).trans (ih hr)

/-- Between two states with the same errors no error was noted. -/
lemma noted_eq_of_suffix {t : State} (hst : s.noted <:+ t.noted) (hts' : t.noted <:+ s'.noted)
    (hquiet : s'.noted = s.noted) : t.noted = s.noted := by
  rw [hquiet] at hts'
  exact hts'.eq_of_length (Nat.le_antisymm hts'.length_le hst.length_le)

/-- A procedure that notes no error and ends in a value ends as wanted, if the goals it calls
do so. -/
lemma Yields.perform (h : p.Yields K s ok)
    (hnoted : ∀ g s r s', callee g s = .finished r s' → s.noted <:+ s'.noted)
    (hvalue : ∀ g s a s', K.enter g s → callee g s = .finished (.ok a) s' →
      s'.noted = s.noted → K.value g s a s')
    {a : α} (hr : p.perform callee s = .finished (.ok a) s') (hquiet : s'.noted = s.noted) :
    ok a s' := by
  induction p generalizing s with
  | done b =>
    cases hr
    exact h
  | fail e => cases hr
  | ask i next ih => exact ih _ h hr hquiet
  | call g next ih =>
    obtain ⟨henter, hok, herr⟩ := h
    simp only [Procedure.perform] at hr
    rcases hc : callee g s with ⟨e | b, t⟩ | _
    all_goals rw [hc] at hr
    · have ht := noted_eq_of_suffix (hnoted _ _ _ _ hc) (noted_suffix_of_perform hnoted hr) hquiet
      exact ih _ (herr e t) hr (hquiet.trans ht.symm)
    · have ht := noted_eq_of_suffix (hnoted _ _ _ _ hc) (noted_suffix_of_perform hnoted hr) hquiet
      exact ih _ (hok b t (hvalue _ _ _ _ henter hc ht)) hr (hquiet.trans ht.symm)
    · cases hr
  | note e next ih =>
    have hnext : next.perform callee (s.note e) = .finished (.ok a) s' := hr
    have hlong := (noted_suffix_of_perform hnoted hnext).length_le
    rw [hquiet, State.note, List.length_cons] at hlong
    exact absurd hlong (Nat.not_succ_le_self _)

end Procedure

namespace Grammar

/-- Where an item of a list was read without an error, the list goes on behind it. -/
lemma itemThen_yields {α : Type} {K : Contract} {s : State} {ok : List α → State → Prop}
    (tried : Except ParseError (Kept α)) (next : Procedure (List α))
    (hnext : ∀ value, tried = .ok ⟨value, none⟩ →
      next.Yields K s fun later s' => ok (value :: later) s') :
    (itemThen tried next).Yields K s ok := by
  rcases tried with e | ⟨value, _ | e⟩
  · simp [itemThen, recoverThen]
  · simpa [itemThen] using hnext value rfl
  · simp [itemThen, recoverThen]

end Grammar

namespace Goal

/-- A reading only adds to the errors noted so far. -/
lemma noted_suffix_of_run (bound room : Nat) (g : Goal) (s : State)
    (r : Except ParseError g.Result) (s' : State) (hr : g.run bound room s = .finished r s') :
    s.noted <:+ s'.noted := by
  induction bound generalizing room g s r s' with
  | zero => simp [run] at hr
  | succ below ih =>
    rw [run] at hr
    rcases hroom : g.roomInside? room with _ | inside
    · rw [hroom] at hr
      cases hr
      exact List.suffix_rfl
    · rw [hroom] at hr
      exact Procedure.noted_suffix_of_perform (ih inside) hr

/-- If every procedure yields what a contract says, so does every reading that notes no error
and ends in a value.  What is known of all readings may be used of the called goals. -/
theorem Reads.quiet_given {K : Contract} {known : Goal → State → State → Prop}
    (hknown : Contract.Known known)
    (hK : ∀ g s, K.enter g s → g.procedure.Yields (K.given known) s (K.value g s)) {room : Nat}
    {g : Goal} {s s' : State} {a : g.Result} (h : g.Reads room s (.ok a) s') (henter : K.enter g s)
    (hquiet : s'.noted = s.noted) : K.value g s a s' := by
  obtain ⟨bound, hr⟩ := h
  induction bound generalizing room g s a s' with
  | zero => simp [run] at hr
  | succ below ih =>
    rw [run] at hr
    rcases hroom : g.roomInside? room with _ | inside
    · simp [hroom] at hr
    · rw [hroom] at hr
      exact (hK g s henter).perform (noted_suffix_of_run below inside)
        (fun g s a s' henter hr hquiet =>
          ⟨hknown _ _ _ _ _ _ hr, ih henter hquiet hr⟩) hr hquiet

/-- If every procedure yields what a contract says, so does every reading that notes no error
and ends in a value. -/
theorem Reads.quiet {K : Contract}
    (hK : ∀ g s, K.enter g s → g.procedure.Yields K s (K.value g s)) {room : Nat} {g : Goal}
    {s s' : State} {a : g.Result} (h : g.Reads room s (.ok a) s') (henter : K.enter g s)
    (hquiet : s'.noted = s.noted) : K.value g s a s' :=
  h.quiet_given (show Contract.Known fun _ _ _ => True from fun _ _ _ _ _ _ _ => trivial)
    (fun g s henter => (hK g s henter).weaken (fun _ _ h => h) fun _ _ _ _ h => h.2) henter hquiet

end Goal

end FrontEnd
