/-
Readings that keep abreast.

A list is read beside the longer one that goes on with a sequel.  As long as the cursor has not
come to the end of the list, both readings take the same way.  `Procedure.Abreast` says of a procedure
that on every way without an error it either ends abreast, or, from where the end of the list has
made a difference, ends in the list as `out` says.  It has a rule for each word of the grammar.
-/
import FrontEnd.Proofs.Contract.Run
import FrontEnd.Proofs.Sequel.Idle

namespace FrontEnd

/-- The same state in the list that goes on. -/
def State.followedBy (q : Sequel) (s : State) : State :=
  s.moveTo (s.cursor.followedBy q)

/-- Where the end of the list has made a difference to the reading of a goal. -/
@[simp] def Goal.Parts : (g : Goal) → g.Result → Cursor → Prop
  | expression _, _, c | operations _, _, c | operand, _, c | bindings, _, c => c.OperatorLast
  | pattern mode, _, c | patterns mode, _, c => mode ≠ .declared ∧ c.OperatorLast
  | statement, _, c | elseIf, _, c | conditions, _, c | handlers, _, c | caseItems, _, c => c.Dying
  | item, kept, c => kept.complaint ≠ none ∨ c.Dying
  | declaration _, kept, c => kept.complaint ≠ none ∨ c.Barren
  | modifiers, _, c => c.Barren
  | submodules, _, c => c.position = 0 ∨ c.Barren
  | arguments closer, _, _ => closer = .equal
  | _, _, _ => False

/-- An instruction makes no difference to what follows, and does not lead to the end of the
list. -/
structure Instruction.Alike {α : Type} (q : Sequel) (c : Cursor) (i : Instruction)
    (next : i.Answer → Procedure α) : Prop where
  inside : (i.perform c).2.here? ≠ none
  moved : (i.perform (c.followedBy q)).2 = (i.perform c).2.followedBy q
  answer : next (i.perform (c.followedBy q)).1 = next (i.perform c).1

namespace Procedure

variable {α β : Type} {q : Sequel} {s : State} {ok out : α → State → Prop}

/-- On every way through a procedure without an error the two readings end abreast, or the one
of the list ends apart. -/
def Abreast (q : Sequel) : Procedure α → State → (α → State → Prop) → (α → State → Prop) → Prop
  | done a, s, ok, out => ok a s ∨ out a s
  | fail _, _, _, _ => True
  | ask i next, s, ok, out =>
    (i.Alike q s.cursor next →
      (next (i.perform s.cursor).1).Abreast q (s.moveTo (i.perform s.cursor).2) ok out) ∧
    (¬ i.Alike q s.cursor next →
      (next (i.perform s.cursor).1).Yields feedingOnward (s.moveTo (i.perform s.cursor).2) out)
  | call g next, s, ok, out =>
    (s.cursor.here? ≠ none →
      (∀ a s', feedingOnward.value g s a s' →
        (s'.cursor.here? ≠ none → (next (.ok a)).Abreast q s' ok out) ∧
        (g.Parts a s'.cursor → (next (.ok a)).Yields feedingOnward s' out)) ∧
      ∀ e s', (next (.error e)).Yields feedingOnward s' out) ∧
    (s.cursor.here? = none → (call g next).Yields feedingOnward s out)
  | note _ _, _, _, _ => True

/-- Where the reading of the list goes apart it may as well do so later. -/
lemma Yields.abreast {p : Procedure α} (h : p.Yields feedingOnward s out) :
    p.Abreast q s ok out := by
  induction p generalizing s with
  | done a => exact .inr h
  | fail e => trivial
  | ask i next ih => exact ⟨fun _ => ih _ h, fun _ => h⟩
  | call g next ih =>
    exact ⟨fun _ => ⟨fun a s' ha => ⟨fun _ => ih _ (h.2.1 a s' ha), fun _ => h.2.1 a s' ha⟩, h.2.2⟩,
      fun _ => h⟩
  | note e next ih => trivial

/-- Two procedures in a row. -/
lemma Abreast.bind {p : Procedure α} {f : α → Procedure β} {ok' out' : β → State → Prop}
    (h : p.Abreast q s ok out)
    (hok : ∀ a s', ok a s' → (f a).Abreast q s' ok' out')
    (hout : ∀ a s', out a s' → (f a).Yields feedingOnward s' out') :
    (p >>= f).Abreast q s ok' out' := by
  have hyields {p : Procedure α} {s : State} (h : p.Yields feedingOnward s out) :
      (p >>= f).Yields feedingOnward s out' :=
    (yields_bind ..).mpr (h.imp hout)
  change (p.bind f).Abreast q s ok' out'
  induction p generalizing s with
  | done a =>
    rcases h with h | h
    · exact hok a s h
    · exact (hout a s h).abreast
  | fail e => trivial
  | ask i next ih =>
    by_cases halike : i.Alike q s.cursor next
    · have hnext := ih _ (h.1 halike)
      exact ⟨fun _ => hnext, fun hnot => absurd ⟨halike.inside, halike.moved,
        congrArg (Procedure.bind · f) halike.answer⟩ hnot⟩
    · have hnext := hyields (h.2 halike)
      exact ⟨fun _ => Yields.abreast hnext, fun _ => hnext⟩
  | call g next ih =>
    refine ⟨fun hhere => ?_, fun hnone => hyields (h.2 hnone)⟩
    obtain ⟨hvalue, herror⟩ := h.1 hhere
    exact ⟨fun a s' ha => ⟨fun hs' => ih _ ((hvalue a s' ha).1 hs'),
      fun hparts => hyields ((hvalue a s' ha).2 hparts)⟩, fun e s' => hyields (herror e s')⟩
  | note e next ih => trivial

lemma Abreast.imp {ok' out' : α → State → Prop} {p : Procedure α} (h : p.Abreast q s ok out)
    (hok : ∀ a s, ok a s → ok' a s) (hout : ∀ a s, out a s → out' a s) :
    p.Abreast q s ok' out' := by
  induction p generalizing s with
  | done a => exact h.imp (hok a s) (hout a s)
  | fail e => trivial
  | ask i next ih =>
    exact ⟨fun halike => ih _ (h.1 halike), fun hnot => (h.2 hnot).imp hout⟩
  | call g next ih =>
    refine ⟨fun hhere => ?_, fun hnone => (h.2 hnone).imp hout⟩
    obtain ⟨hvalue, herror⟩ := h.1 hhere
    exact ⟨fun a s' ha => ⟨fun hs' => ih _ ((hvalue a s' ha).1 hs'),
      fun hparts => ((hvalue a s' ha).2 hparts).imp hout⟩, fun e s' => (herror e s').imp hout⟩
  | note e next ih => trivial

/-! ### Words -/

attribute [simp] bind_bind done_bind ite_bind raise_bind

@[simp] lemma abreast_pure (a : α) : (pure a : Procedure α).Abreast q s ok out ↔ ok a s ∨ out a s :=
  Iff.rfl

@[simp] lemma abreast_raise (kind : ErrorKind) : (raise kind : Procedure α).Abreast q s ok out :=
  ⟨fun _ => trivial, fun _ => trivial⟩

@[simp] lemma abreast_ite (c : Prop) [Decidable c] (p p' : Procedure α) :
    (if c then p else p').Abreast q s ok out ↔
      (c → p.Abreast q s ok out) ∧ (¬ c → p'.Abreast q s ok out) := by
  by_cases hc : c <;> simp [hc]

/-- A question whose answer makes no difference. -/
lemma abreast_ask {i : Instruction} {next : i.Answer → Procedure α} (hs : s.cursor.here? ≠ none)
    (hmoved : ∀ c, (i.perform c).2 = c)
    (hnext : next (i.perform (s.cursor.followedBy q)).1 = next (i.perform s.cursor).1) :
    (ask i next).Abreast q s ok out ↔ (next (i.perform s.cursor).1).Abreast q s ok out := by
  have halike : i.Alike q s.cursor next :=
    ⟨by rwa [hmoved], by rw [hmoved, hmoved], hnext⟩
  have hstate : s.moveTo (i.perform s.cursor).2 = s := by rw [hmoved]; rfl
  rw [Abreast, hstate]
  exact ⟨fun h => h.1 halike, fun h => ⟨fun _ => h, fun hnot => absurd halike hnot⟩⟩

section

variable (f : Bool → Procedure α)

@[simp] lemma abreast_here_bind (f : Option TokenKind → Procedure α) (hs : s.cursor.here? ≠ none) :
    (here >>= f).Abreast q s ok out ↔ (f s.cursor.here?).Abreast q s ok out :=
  abreast_ask (i := .here) hs (fun _ => rfl) (congrArg f (Cursor.here?_followedBy q hs))

@[simp] lemma abreast_isHere_bind (mark : Punctuator) (hs : s.cursor.here? ≠ none) :
    (isHere mark >>= f).Abreast q s ok out ↔
      (s.cursor.here? = some (.punctuator mark) → (f true).Abreast q s ok out) ∧
      (s.cursor.here? ≠ some (.punctuator mark) → (f false).Abreast q s ok out) := by
  refine (abreast_here_bind (fun kind => f (kind = some (.punctuator mark))) hs).trans ?_
  by_cases h : s.cursor.here? = some (.punctuator mark) <;> simp [h]

@[simp] lemma abreast_isWordHere_bind (word : String) (hs : s.cursor.here? ≠ none) :
    (isWordHere word >>= f).Abreast q s ok out ↔
      (f (s.cursor.here?.any (·.isKeyword word))).Abreast q s ok out :=
  abreast_here_bind (fun kind => f (kind.any (·.isKeyword word))) hs

/-- No mark but the semicolon is what a search finds in a sequel. -/
@[simp] lemma abreast_isNext_bind {mark : Punctuator} (reach : Reach) (hs : s.cursor.here? ≠ none)
    (hmark : mark ≠ .semicolon) :
    (isNext mark reach >>= f).Abreast q s ok out ↔
      (s.cursor.following? reach = some (.punctuator mark) → (f true).Abreast q s ok out) ∧
      (s.cursor.following? reach ≠ some (.punctuator mark) → (f false).Abreast q s ok out) := by
  have hask : (isNext mark reach >>= f).Abreast q s ok out ↔
      (f (s.cursor.following? reach = some (.punctuator mark))).Abreast q s ok out := by
    refine abreast_ask (i := .following reach) hs (fun _ => rfl) (congrArg f ?_)
    by_cases hnext : s.cursor.following? reach = none
    · have hshown : (s.cursor.followedBy q).following? reach ≠ some (.punctuator mark) := by
        intro hkind
        cases Cursor.shows_of_following?_eq_none q hs hnext hkind
        exact hmark rfl
      simp [Instruction.perform, hnext, hshown]
    · exact congrArg (fun kind => decide (kind = some (.punctuator mark)))
        (Cursor.following?_followedBy q hs hnext)
  by_cases h : s.cursor.following? reach = some (.punctuator mark) <;> simp [hask, h]

/-- A search on the line that does not tell a sequel from the end of the list. -/
lemma abreast_following_sameLine_bind (f : Option TokenKind → Procedure α)
    (hs : s.cursor.here? ≠ none) (hlineFeed : f (some .lineFeed) = f none)
    (hsemicolon : f (some (.punctuator .semicolon)) = f none) :
    (Procedure.following .sameLine >>= f).Abreast q s ok out ↔
      (f (s.cursor.following? .sameLine)).Abreast q s ok out := by
  refine abreast_ask (i := .following .sameLine) hs (fun _ => rfl) ?_
  change f ((s.cursor.followedBy q).following? .sameLine) = f (s.cursor.following? .sameLine)
  by_cases hnext : s.cursor.following? .sameLine = none
  · rw [hnext]
    rcases hkind : (s.cursor.followedBy q).following? .sameLine with _ | kind
    · rfl
    · cases Cursor.shows_of_following?_eq_none q hs hnext hkind with
      | lineFeed => exact hlineFeed
      | semicolon => exact hsemicolon
      | keyword _ h => cases h
  · rw [Cursor.following?_followedBy q hs hnext]

@[simp] lemma abreast_isWordNext_sameLine_bind (word : String) (hs : s.cursor.here? ≠ none) :
    (isWordNext word .sameLine >>= f).Abreast q s ok out ↔
      (s.cursor.following? .sameLine ≠ none →
        (s.cursor.following? .sameLine).any (·.isKeyword word) = true →
        (f true).Abreast q s ok out) ∧
      ((s.cursor.following? .sameLine).any (·.isKeyword word) = false →
        (f false).Abreast q s ok out) := by
  refine (abreast_following_sameLine_bind (fun kind => f (kind.any (·.isKeyword word))) hs
    rfl rfl).trans ?_
  rcases h : s.cursor.following? .sameLine with _ | kind
  · simp
  · cases hword : kind.isKeyword word <;> simp [hword]

/-- A search that may go on in the sequel. -/
lemma Abreast.following {reach : Reach} {f : Option TokenKind → Procedure α}
    (hs : s.cursor.here? ≠ none)
    (hsome : s.cursor.following? reach ≠ none →
      (f (s.cursor.following? reach)).Abreast q s ok out)
    (hnone : s.cursor.following? reach = none → (f none).Yields feedingOnward s out) :
    (Procedure.following reach >>= f).Abreast q s ok out := by
  by_cases hnext : s.cursor.following? reach = none
  · refine Yields.abreast ?_
    simpa [hnext] using hnone hnext
  · refine (abreast_ask (i := .following reach) hs (fun _ => rfl) ?_).mpr (hsome hnext)
    exact congrArg f (Cursor.following?_followedBy q hs hnext)

lemma Abreast.isWordNext {word : String} {reach : Reach} (hs : s.cursor.here? ≠ none)
    (hsome : s.cursor.following? reach ≠ none →
      (f ((s.cursor.following? reach).any (·.isKeyword word))).Abreast q s ok out)
    (hnone : s.cursor.following? reach = none → (f false).Yields feedingOnward s out) :
    (Procedure.isWordNext word reach >>= f).Abreast q s ok out :=
  Abreast.following (f := fun kind => f (kind.any (·.isKeyword word))) hs hsome hnone

/-- Nothing but a semicolon is glued to the end of the list. -/
lemma abreast_glued {n : Nat} (f : Option TokenKind → Procedure α) (hs : s.cursor.here? ≠ none)
    (hn : n ≤ s.cursor.remaining.length) (hsemicolon : f (some (.punctuator .semicolon)) = f none) :
    (glued n >>= f).Abreast q s ok out ↔ (f (s.cursor.glued? n)).Abreast q s ok out := by
  refine abreast_ask (i := .glued n) hs (fun _ => rfl) ?_
  change f ((s.cursor.followedBy q).glued? n) = f (s.cursor.glued? n)
  rcases hn.eq_or_lt with rfl | hlt
  · have hglued : s.cursor.glued? s.cursor.remaining.length = none := by
      simp [Cursor.glued?]
    rw [hglued]
    rcases Cursor.glued?_length_followedBy q hs with h | h <;> rw [h]
    exact hsemicolon
  · rw [Cursor.glued?_followedBy q hs hlt]

/-- Where something must be glued to the current token. -/
lemma Abreast.glued {f : Option TokenKind → Procedure α} (hs : s.cursor.here? ≠ none)
    (hsome : s.cursor.glued? 0 ≠ none → (f (s.cursor.glued? 0)).Abreast q s ok out)
    (hnone : s.cursor.glued? 0 = none → (f none).Yields feedingOnward s out) :
    (Procedure.glued 0 >>= f).Abreast q s ok out := by
  by_cases hglued : s.cursor.glued? 0 = none
  · refine Yields.abreast ?_
    simpa [hglued] using hnone hglued
  · refine (abreast_ask (i := .glued 0) hs (fun _ => rfl) (congrArg f ?_)).mpr (hsome hglued)
    refine Cursor.glued?_followedBy q hs (List.length_pos_iff.mpr fun hnil => hglued ?_)
    simp [Cursor.glued?, hnil]

@[simp] lemma abreast_glued_zero_bind (f : Option TokenKind → Procedure α)
    (hs : s.cursor.here? ≠ none) (hsemicolon : f (some (.punctuator .semicolon)) = f none) :
    (glued 0 >>= f).Abreast q s ok out ↔ (f (s.cursor.glued? 0)).Abreast q s ok out :=
  abreast_glued f hs (Nat.zero_le _) hsemicolon

@[simp] lemma abreast_glued_one_bind (f : Option TokenKind → Procedure α)
    (hs : s.cursor.here? ≠ none) (hglued : s.cursor.glued? 0 ≠ none)
    (hsemicolon : f (some (.punctuator .semicolon)) = f none) :
    (glued 1 >>= f).Abreast q s ok out ↔ (f (s.cursor.glued? 1)).Abreast q s ok out := by
  refine abreast_glued f hs (List.length_pos_iff.mpr fun hnil => hglued ?_) hsemicolon
  simp [Cursor.glued?, hnil]

@[simp] lemma abreast_isGlued_bind {mark : Punctuator} (hs : s.cursor.here? ≠ none)
    (hmark : mark ≠ .semicolon) :
    (isGlued mark >>= f).Abreast q s ok out ↔
      (s.cursor.glued? 0 = some (.punctuator mark) → (f true).Abreast q s ok out) ∧
      (s.cursor.glued? 0 ≠ some (.punctuator mark) → (f false).Abreast q s ok out) := by
  refine (abreast_glued_zero_bind (fun kind => f (kind = some (.punctuator mark))) hs
    (by simp [hmark.symm])).trans ?_
  by_cases h : s.cursor.glued? 0 = some (.punctuator mark) <;> simp [h]

end

/-! ### Places -/

@[simp] lemma abreast_startLocation_bind (f : Location → Procedure α) (hs : s.cursor.here? ≠ none) :
    (startLocation >>= f).Abreast q s ok out ↔ (f s.cursor.startLocation).Abreast q s ok out :=
  abreast_ask (i := .startLocation) hs (fun _ => rfl)
    (congrArg (fun range : Range => f range.start) (Cursor.range_followedBy q hs))

@[simp] lemma abreast_stopLocation_bind (f : Location → Procedure α) (hs : s.cursor.here? ≠ none) :
    (stopLocation >>= f).Abreast q s ok out ↔ (f s.cursor.stopLocation).Abreast q s ok out :=
  abreast_ask (i := .stopLocation) hs (fun _ => rfl)
    (congrArg (fun range : Range => f range.stop) (Cursor.range_followedBy q hs))

@[simp] lemma abreast_rangeFrom_bind (start : Location) (f : Range → Procedure α)
    (hs : s.cursor.here? ≠ none) :
    (rangeFrom start >>= f).Abreast q s ok out ↔
      (f ⟨start, s.cursor.stopLocation⟩).Abreast q s ok out :=
  abreast_stopLocation_bind (fun stop => f ⟨start, stop⟩) hs

@[simp] lemma abreast_errorHere_bind (kind : ErrorKind) (f : ParseError → Procedure α)
    (hs : s.cursor.here? ≠ none) :
    (errorHere kind >>= f).Abreast q s ok out ↔ (f (s.cursor.error kind)).Abreast q s ok out :=
  abreast_ask (i := .errorHere kind) hs (fun _ => rfl)
    (congrArg f (Cursor.error_followedBy q hs kind))

@[simp] lemma abreast_startsDeclaration_bind (f : Bool → Procedure α) (hs : s.cursor.here? ≠ none)
    (hsign : s.cursor.here? ≠ some (.punctuator .atSign)) :
    (startsDeclaration >>= f).Abreast q s ok out ↔
      (f s.cursor.startsDeclaration).Abreast q s ok out :=
  abreast_ask (i := .startsDeclaration) hs (fun _ => rfl)
    (congrArg f (Cursor.startsDeclaration_followedBy q hs hsign))

/-- The binary operator ahead is the same, unless an operator ends the list. -/
lemma Abreast.binaryAhead {f : Option String → Procedure α} (hs : s.cursor.here? ≠ none)
    (hinside : ¬ s.cursor.OperatorLast → (f s.cursor.binaryAhead?).Abreast q s ok out)
    (hlast : s.cursor.OperatorLast → (f s.cursor.binaryAhead?).Yields feedingOnward s out) :
    (Procedure.binaryAhead >>= f).Abreast q s ok out := by
  by_cases h : s.cursor.OperatorLast
  · refine Yields.abreast ?_
    simpa using hlast h
  · refine (abreast_ask (i := .binaryAhead) hs (fun _ => rfl) ?_).mpr (hinside h)
    exact congrArg f (Cursor.binaryAhead?_followedBy q hs h)

/-! ### Moves -/

/-- A move that leads abreast as long as it does not lead to the end of the list. -/
lemma abreast_move {i : Instruction} {next : i.Answer → Procedure α}
    (halike : (i.perform s.cursor).2.here? ≠ none → i.Alike q s.cursor next) :
    (ask i next).Abreast q s ok out ↔
      ((i.perform s.cursor).2.here? ≠ none →
        (next (i.perform s.cursor).1).Abreast q (s.moveTo (i.perform s.cursor).2) ok out) ∧
      ((i.perform s.cursor).2.here? = none →
        (next (i.perform s.cursor).1).Yields feedingOnward (s.moveTo (i.perform s.cursor).2) out) := by
  have hiff : i.Alike q s.cursor next ↔ (i.perform s.cursor).2.here? ≠ none :=
    ⟨fun h => h.inside, halike⟩
  rw [Abreast, hiff, not_not]

@[simp] lemma abreast_advance_bind (reach : Reach) (f : Unit → Procedure α)
    (hs : s.cursor.here? ≠ none) :
    (advance reach >>= f).Abreast q s ok out ↔
      (s.cursor.following? reach ≠ none →
        (f ()).Abreast q (s.moveTo (s.cursor.advance reach)) ok out) ∧
      (s.cursor.following? reach = none →
        (f ()).Yields feedingOnward (s.moveTo (s.cursor.advance reach)) out) := by
  rw [← Cursor.here?_advance]
  refine abreast_move (i := .advance reach) fun hinside => ⟨hinside, ?_, rfl⟩
  exact Cursor.advance_followedBy q hs (by rwa [← Cursor.here?_advance])

@[simp] lemma abreast_advance (reach : Reach) {ok out : Unit → State → Prop}
    (hs : s.cursor.here? ≠ none) :
    (advance reach).Abreast q s ok out ↔
      (s.cursor.following? reach ≠ none →
        ok () (s.moveTo (s.cursor.advance reach)) ∨ out () (s.moveTo (s.cursor.advance reach))) ∧
      (s.cursor.following? reach = none → out () (s.moveTo (s.cursor.advance reach))) :=
  abreast_advance_bind reach pure hs

@[simp] lemma abreast_advanceTwice_bind (f : Unit → Procedure α) :
    (advanceTwice >>= f).Abreast q s ok out ↔
      (advance .anyLine >>= fun _ => advance .anyLine >>= f).Abreast q s ok out := Iff.rfl

@[simp] lemma abreast_shift_bind (f : Unit → Procedure α) (hs : s.cursor.here? ≠ none) :
    (shift >>= f).Abreast q s ok out ↔
      (s.cursor.shift.here? ≠ none → (f ()).Abreast q (s.moveTo s.cursor.shift) ok out) ∧
      (s.cursor.shift.here? = none →
        (f ()).Yields feedingOnward (s.moveTo s.cursor.shift) out) :=
  abreast_move (i := .shift) fun hinside => ⟨hinside, Cursor.shift_followedBy q hs, rfl⟩

@[simp] lemma abreast_stepBack_bind (f : Unit → Procedure α) (hs : s.cursor.here? ≠ none) :
    (stepBack >>= f).Abreast q s ok out ↔
      (s.cursor.unshift.here? ≠ none → (f ()).Abreast q (s.moveTo s.cursor.unshift) ok out) ∧
      (s.cursor.unshift.here? = none →
        (f ()).Yields feedingOnward (s.moveTo s.cursor.unshift) out) := by
  obtain ⟨b, t, a, hc⟩ := Cursor.exists_on_of_here? hs
  have hmoved : (s.cursor.followedBy q).current?.isSome = s.cursor.current?.isSome := by
    rw [hc]
    rfl
  have hsome : s.cursor.current?.isSome = true := by
    rw [hc]
    rfl
  change (ask .stepBack fun moved => Procedure.bind (if moved then done () else raise .internal) f).Abreast
    q s ok out ↔ _
  rw [abreast_move]
  · simp only [Instruction.perform, hsome, if_true]
    rfl
  · exact fun hinside => ⟨hinside, Cursor.unshift_followedBy q hs, by
      simp only [Instruction.perform, hmoved]
      rfl⟩

/-- The rest of a line is the same, unless the line does not end in the list. -/
lemma Abreast.takeLine {f : String → Procedure α} (hs : s.cursor.here? ≠ none)
    (hends : s.cursor.restOfLine ≠ s.cursor.remaining →
      (f s.cursor.lineText).Abreast q (s.moveTo s.cursor.toEndOfLine) ok out)
    (hlast : s.cursor.restOfLine = s.cursor.remaining →
      (f s.cursor.lineText).Yields feedingOnward (s.moveTo s.cursor.toEndOfLine) out) :
    (Procedure.takeLine >>= f).Abreast q s ok out := by
  by_cases h : s.cursor.restOfLine = s.cursor.remaining
  · refine Yields.abreast ?_
    simpa using hlast h
  · obtain ⟨htext, hmoved⟩ := Cursor.takeLine_followedBy q hs h
    have halike : Instruction.takeLine.Alike q s.cursor f :=
      ⟨Cursor.here?_toEndOfLine hs, hmoved, congrArg f htext⟩
    exact ⟨fun _ => hends h, fun hnot => absurd halike hnot⟩

/-! ### Goals -/

@[simp] lemma abreast_read_bind (g : Goal) (f : g.Result → Procedure α)
    (hs : s.cursor.here? ≠ none) :
    (@Bind.bind Procedure _ (no_index g.Result) α (read g) f).Abreast q s ok out ↔
      ∀ a s', feedingOnward.value g s a s' →
        (s'.cursor.here? ≠ none → (f a).Abreast q s' ok out) ∧
        (g.Parts a s'.cursor → (f a).Yields feedingOnward s' out) := by
  change ((read g).bind f).Abreast q s ok out ↔ _
  rw [read, Procedure.bind, Abreast]
  exact ⟨fun h => (h.1 hs).1, fun h => ⟨fun _ => ⟨h, fun _ _ => trivial⟩, fun hnone => absurd hnone hs⟩⟩

@[simp] lemma abreast_attempt_bind (g : Goal) (f : Except ParseError g.Result → Procedure α)
    (hs : s.cursor.here? ≠ none) :
    (@Bind.bind Procedure _ (no_index (Except ParseError g.Result)) α (attempt g) f).Abreast
        q s ok out ↔
      (∀ a s', feedingOnward.value g s a s' →
        (s'.cursor.here? ≠ none → (f (.ok a)).Abreast q s' ok out) ∧
        (g.Parts a s'.cursor → (f (.ok a)).Yields feedingOnward s' out)) ∧
      ∀ e s', (f (.error e)).Yields feedingOnward s' out := by
  change (call g f).Abreast q s ok out ↔ _
  rw [Abreast]
  exact ⟨fun h => h.1 hs, fun h => ⟨fun _ => h, fun hnone => absurd hnone hs⟩⟩

@[simp] lemma abreast_read (g : Goal) {ok out : g.Result → State → Prop}
    (hs : s.cursor.here? ≠ none) :
    @Abreast (no_index g.Result) q (read g) s ok out ↔
      ∀ a s', feedingOnward.value g s a s' →
        (s'.cursor.here? ≠ none → ok a s' ∨ out a s') ∧ (g.Parts a s'.cursor → out a s') := by
  rw [read, Abreast]
  exact ⟨fun h => (h.1 hs).1, fun h => ⟨fun _ => ⟨h, fun _ _ => trivial⟩, fun hnone => absurd hnone hs⟩⟩

/-! ### What must come -/

@[simp] lemma abreast_expectHere_bind (mark : Punctuator) (f : Unit → Procedure α)
    (hs : s.cursor.here? ≠ none) :
    (expectHere mark >>= f).Abreast q s ok out ↔
      (s.cursor.here? = some (.punctuator mark) → (f ()).Abreast q s ok out) := by
  simp [expectHere, hs]

@[simp] lemma abreast_expectNext_bind (mark : Punctuator) (f : Unit → Procedure α)
    (hs : s.cursor.here? ≠ none) :
    (expectNext mark >>= f).Abreast q s ok out ↔
      (s.cursor.following? .anyLine = some (.punctuator mark) →
        (f ()).Abreast q (s.moveTo (s.cursor.advance .anyLine)) ok out) := by
  simp +contextual [expectNext, hs, Cursor.here?_advance]
  cases s.cursor.following? .anyLine <;> simp

@[simp] lemma abreast_expectNextWord_bind (word : String) (f : Unit → Procedure α)
    (hs : s.cursor.here? ≠ none) :
    (expectNextWord word >>= f).Abreast q s ok out ↔
      (s.cursor.following? .anyLine ≠ none →
        (s.cursor.following? .anyLine).any (·.isKeyword word) = true →
        (f ()).Abreast q (s.moveTo (s.cursor.advance .anyLine)) ok out) := by
  simp +contextual [expectNextWord, hs, Cursor.here?_advance]

@[simp] lemma abreast_expectName_bind (f : String → Procedure α) (hs : s.cursor.here? ≠ none) :
    (expectName >>= f).Abreast q s ok out ↔
      ∀ name, s.cursor.here?.bind (·.name? true) = some name → (f name).Abreast q s ok out := by
  simp only [expectName, bind_bind, abreast_here_bind _ hs]
  rcases s.cursor.here?.bind (·.name? true) with _ | name
  · simp
  · simp

@[simp] lemma abreast_expectName {ok out : String → State → Prop} (hs : s.cursor.here? ≠ none) :
    expectName.Abreast q s ok out ↔
      ∀ name, s.cursor.here?.bind (·.name? true) = some name → ok name s ∨ out name s := by
  rw [expectName, abreast_here_bind _ hs]
  rcases s.cursor.here?.bind (·.name? true) with _ | name <;> simp

/-- Every way through a procedure without an error ends inside the list with both readings
abreast, or else apart. -/
def Paces (q : Sequel) (p : Procedure α) (s : State) (out : α → State → Prop) : Prop :=
  p.Abreast q s (fun _ s' => s'.cursor.here? ≠ none) out

/-- A node with its range. -/
lemma Paces.ranged {node : Procedure (Range → α)} {out : α → State → Prop}
    (hs : s.cursor.here? ≠ none) (h : node.Paces q s fun build s' => ∀ range, out (build range) s') :
    (Procedure.ranged node).Paces q s out := by
  simp only [Procedure.ranged, Paces, abreast_startLocation_bind _ hs]
  refine h.bind (fun build s' hs' => ?_) fun build s' hout => ?_
  · simp [hs']
  · simp [hout]

/-! ### Readings -/

variable {callee : (g : Goal) → State → Outcome g.Result} {inside : Nat} {tokens : List Token}

/-- A procedure that notes no error and ends in a value ends abreast or apart, if the goals it
calls do so. -/
lemma Abreast.perform {p : Procedure α} (h : p.Abreast q s ok out)
    (hnoted : ∀ g s r s', callee g s = .finished r s' → s.noted <:+ s'.noted)
    (hvalue : ∀ g s a s', callee g s = .finished (.ok a) s' → s'.noted = s.noted →
      feedingOnward.value g s a s')
    (hcallee : ∀ g s a s', s.cursor.toList = tokens → s.cursor.here? ≠ none →
      callee g s = .finished (.ok a) s' → s'.noted = s.noted →
      (g.Reads inside (s.followedBy q) (.ok a) (s'.followedBy q) ∧ s'.cursor.here? ≠ none) ∨
        g.Parts a s'.cursor)
    (hlist : s.cursor.toList = tokens) {a : α} {t : State}
    (hr : p.perform callee s = .finished (.ok a) t) (hquiet : t.noted = s.noted) (way : List Event) :
    (p.Meets (.reading inside) way (s.followedBy q) (fun _ b u => b = a ∧ u = t.followedBy q)
        (fun _ _ _ => False) ∧ ok a t) ∨ out a t := by
  have hyields {p : Procedure α} {s : State} (h : p.Yields feedingOnward s out)
      (hr : p.perform callee s = .finished (.ok a) t) (hquiet : t.noted = s.noted) : out a t :=
    h.perform hnoted (fun g s a s' _ => hvalue g s a s') hr hquiet
  -- the first part goes along with the longer list, until the two part ways: from there on what
  -- the list itself yields is all that is known
  induction p generalizing s way with
  | done b =>
    cases hr
    exact h.imp_left fun hok => ⟨⟨rfl, rfl⟩, hok⟩
  | fail e => cases hr
  | ask i next ih =>
    by_cases halike : i.Alike q s.cursor next
    · have hmoved : (i.perform s.cursor).2.toList = tokens := (i.toList_perform s.cursor).trans hlist
      refine (ih _ (h.1 halike) hmoved hr hquiet (i.events (s.cursor.followedBy q) ++ way)).imp_left
        fun hmeets => ⟨?_, hmeets.2⟩
      have hnext := hmeets.1
      rw [← halike.answer] at hnext
      rw [State.followedBy, State.cursor_moveTo, ← halike.moved] at hnext
      exact hnext
    · exact .inr (hyields (h.2 halike) hr hquiet)
  | call g next ih =>
    by_cases hhere : s.cursor.here? = none
    · exact .inr (hyields (h.2 hhere) hr hquiet)
    · obtain ⟨hok, herror⟩ := h.1 hhere
      simp only [Procedure.perform] at hr
      rcases hc : callee g s with ⟨e | b, u⟩ | _
      all_goals rw [hc] at hr
      · have hu := noted_eq_of_suffix (hnoted _ _ _ _ hc) (noted_suffix_of_perform hnoted hr) hquiet
        exact .inr (hyields (herror e u) hr (hquiet.trans hu.symm))
      · have hu := noted_eq_of_suffix (hnoted _ _ _ _ hc) (noted_suffix_of_perform hnoted hr) hquiet
        have hb := hok b u (hvalue _ _ _ _ hc hu)
        rcases hcallee g s b u hlist hhere hc hu with ⟨hreads, hs'⟩ | hparts
        · have hulist : u.cursor.toList = tokens :=
            (hvalue _ _ _ _ hc hu).1.toList_eq.trans hlist
          refine (ih _ (hb.1 hs') hulist hr (hquiet.trans hu.symm)
            (.called g (s.followedBy q) :: way)).imp_left fun hmeets => ⟨⟨trivial, ?_, ?_⟩, hmeets.2⟩
          · intro b' u' hreads'
            obtain ⟨heq, rfl⟩ := hreads.unique hreads'
            cases heq
            exact hmeets.1
          · intro e u' hreads'
            obtain ⟨heq, -⟩ := hreads.unique hreads'
            cases heq
        · exact .inr (hyields (hb.2 hparts) hr (hquiet.trans hu.symm))
      · cases hr
  | note e next ih =>
    have hnext : next.perform callee (s.note e) = .finished (.ok a) t := hr
    -- an error that was noted would still be there
    have hlong := (noted_suffix_of_perform hnoted hnext).length_le
    rw [hquiet, State.note, List.length_cons] at hlong
    exact absurd hlong (Nat.not_succ_le_self _)

end Procedure

end FrontEnd
