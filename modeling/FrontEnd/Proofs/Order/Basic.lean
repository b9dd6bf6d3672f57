/-
Errors are told where they were found.

An error is noted while the cursor still stands where the error was made, and the cursor does
not step back behind an error that was noted, but for the one token that a recovery gives back
before a closing brace.  `Procedure.Prompt` says so of a procedure, with a reserve: how many
tokens the cursor may step back.  A move onward adds to the reserve, a step back takes from it,
and an error may be noted while there is some.  None of this hangs on where the cursor stands
or on what it sees.

The main result is `Procedure.Prompt.perform`: if the procedure is prompt, the errors that were
noted stand in the order of their places at its end too (`State.InOrder`).
-/
import FrontEnd.Proofs.Contract.Words
import FrontEnd.Proofs.Cursor.Left

namespace FrontEnd

/-! ### Moves and the reserve -/

namespace Instruction

/-- The tokens that an instruction may step back. -/
@[simp] def stepsBack : Instruction → Nat
  | stepBack | resynchronize => 1
  | _ => 0

/-- The tokens that an instruction steps on at least. -/
@[simp] def stepsOn : Instruction → Nat
  | shift | advance _ => 1
  | _ => 0

/-- The error at the place of the cursor behind an instruction, from the one before it. -/
@[simp] def errorAfter (held : Option ParseError) : (i : Instruction) → i.Answer → Option ParseError
  | errorHere _, e => some e
  | shift, _ | advance _, _ | stepBack, _ | resynchronize, _ | takeLine, _ => none
  | here, _ | glued _, _ | following _, _ | binaryAhead, _ | startsDeclaration, _
  | startLocation, _ | stopLocation, _ => held

end Instruction

namespace Goal

/-- The reserve that a goal starts with.  The loops over statements and members go on before
anything else; the names behind a module are read from the token behind it, and may give that
one back. -/
@[simp] def reserve : Goal → Nat
  | statements _ | members _ => 0
  | submodules => 2
  | _ => 1

/-- The error that was found behind what was read. -/
@[simp] def complaint? : (g : Goal) → g.Result → Option ParseError
  | item, kept | declaration _, kept => kept.complaint
  | _, _ => none

end Goal

namespace Procedure

variable {α β : Type}

/-- Every error of a procedure is one at the place of the cursor, and is noted or ends the
procedure only while there is a reserve.  Whether there is an error at the place of the cursor,
to be noted still, is known on the way. -/
def Prompt : Procedure α → Nat → Option ParseError → (Nat → Option ParseError → α → Prop) → Prop
  | done a, reserve, held, ok => ok reserve held a
  | fail e, reserve, held, _ => 0 < reserve ∧ held = some e
  | ask i next, reserve, held, ok =>
    i.stepsBack ≤ reserve ∧
      ∀ a, (next a).Prompt (reserve + i.stepsOn - i.stepsBack) (i.errorAfter held a) ok
  | call g next, reserve, _, ok =>
    g.reserve ≤ reserve ∧ (∀ v, (next (.ok v)).Prompt 1 (g.complaint? v) ok) ∧
      ∀ e, (next (.error e)).Prompt 1 (some e) ok
  | note e next, reserve, held, ok => 0 < reserve ∧ held = some e ∧ next.Prompt 1 held ok

lemma prompt_ask (i : Instruction) (next : i.Answer → Procedure α) (reserve : Nat)
    (held : Option ParseError) (ok : Nat → Option ParseError → α → Prop) :
    (ask i next).Prompt reserve held ok ↔ i.stepsBack ≤ reserve ∧
      ∀ a, (next a).Prompt (reserve + i.stepsOn - i.stepsBack) (i.errorAfter held a) ok := Iff.rfl

lemma prompt_call (g : Goal) (next : Except ParseError g.Result → Procedure α) (reserve : Nat)
    (held : Option ParseError) (ok : Nat → Option ParseError → α → Prop) :
    (call g next).Prompt reserve held ok ↔ g.reserve ≤ reserve ∧
      (∀ v, (next (.ok v)).Prompt 1 (g.complaint? v) ok) ∧
      ∀ e, (next (.error e)).Prompt 1 (some e) ok := Iff.rfl

@[simp] lemma prompt_bind (p : Procedure α) (f : α → Procedure β) (reserve : Nat)
    (held : Option ParseError) (ok : Nat → Option ParseError → β → Prop) :
    (p >>= f).Prompt reserve held ok ↔
      p.Prompt reserve held fun reserve held a => (f a).Prompt reserve held ok := by
  change (p.bind f).Prompt reserve held ok ↔ _
  induction p generalizing reserve held with
  | done a => rfl
  | fail e => rfl
  | ask i next ih => exact and_congr_right fun _ => forall_congr' fun a => ih a _ _
  | call g next ih =>
    simp only [Procedure.bind, prompt_call]
    refine and_congr_right fun _ => and_congr ?_ ?_
    · exact forall_congr' fun v => ih _ _ _
    · exact forall_congr' fun e => ih _ _ _
  | note e next ih => exact and_congr_right fun _ => and_congr_right fun _ => ih _ _

/-- Where more is wanted at the end, more is wanted at the start. -/
lemma Prompt.imp {ok ok' : Nat → Option ParseError → α → Prop} {p : Procedure α} {reserve : Nat}
    {held : Option ParseError} (h : p.Prompt reserve held ok)
    (hok : ∀ reserve held a, ok reserve held a → ok' reserve held a) :
    p.Prompt reserve held ok' := by
  induction p generalizing reserve held with
  | done a => exact hok _ _ _ h
  | fail e => exact h
  | ask i next ih => exact ⟨h.1, fun a => ih a (h.2 a)⟩
  | call g next ih =>
    obtain ⟨hreserve, hvalue, herror⟩ := h
    exact ⟨hreserve, fun v => ih _ (hvalue v), fun e => ih _ (herror e)⟩
  | note e next ih => exact ⟨h.1, h.2.1, ih h.2.2⟩

/-- A procedure that is prompt from any place on where there is a reserve, and keeps one. -/
def Keeps (p : Procedure α) : Prop :=
  ∀ reserve held, p.Prompt (reserve + 1) held fun reserve _ _ => 0 < reserve

lemma Keeps.imp {p : Procedure α} (h : p.Keeps) {ok : Nat → Option ParseError → α → Prop}
    {reserve : Nat} {held : Option ParseError} (hreserve : 0 < reserve)
    (hok : ∀ reserve held a, ok (reserve + 1) held a) : p.Prompt reserve held ok := by
  obtain ⟨n, rfl⟩ := Nat.exists_eq_add_of_lt hreserve
  rw [Nat.zero_add]
  refine (h n held).imp fun reserve held a hpos => ?_
  obtain ⟨m, rfl⟩ := Nat.exists_eq_add_of_lt hpos
  rw [Nat.zero_add]
  exact hok m held a

/-! ### The words of the grammar -/

section

variable (reserve : Nat) (held : Option ParseError) (ok : Nat → Option ParseError → α → Prop)

@[simp] lemma prompt_pure (a : α) :
    (pure a : Procedure α).Prompt reserve held ok ↔ ok reserve held a := Iff.rfl

@[simp] lemma prompt_done (a : α) : (done a).Prompt reserve held ok ↔ ok reserve held a := Iff.rfl

@[simp] lemma prompt_fail (e : ParseError) :
    (fail e : Procedure α).Prompt reserve held ok ↔ 0 < reserve ∧ held = some e := Iff.rfl

@[simp] lemma prompt_ite (c : Prop) [Decidable c] (p q : Procedure α) :
    (if c then p else q).Prompt reserve held ok ↔
      (c → p.Prompt reserve held ok) ∧ (¬ c → q.Prompt reserve held ok) := by
  by_cases hc : c <;> simp [hc]

@[simp] lemma prompt_raise (kind : ErrorKind) :
    (raise kind : Procedure α).Prompt reserve held ok ↔ 0 < reserve := by
  simp [raise, prompt_ask]

end

section

variable (reserve : Nat) (held : Option ParseError)

@[simp] lemma prompt_here (ok : Nat → Option ParseError → Option TokenKind → Prop) :
    here.Prompt reserve held ok ↔ ∀ a, ok reserve held a := by
  simp [here, prompt_ask]

@[simp] lemma prompt_glued (n : Nat) (ok : Nat → Option ParseError → Option TokenKind → Prop) :
    (glued n).Prompt reserve held ok ↔ ∀ a, ok reserve held a := by
  simp [glued, prompt_ask]

@[simp] lemma prompt_following (reach : Reach)
    (ok : Nat → Option ParseError → Option TokenKind → Prop) :
    (following reach).Prompt reserve held ok ↔ ∀ a, ok reserve held a := by
  simp [following, prompt_ask]

@[simp] lemma prompt_binaryAhead (ok : Nat → Option ParseError → Option String → Prop) :
    binaryAhead.Prompt reserve held ok ↔ ∀ a, ok reserve held a := by
  simp [binaryAhead, prompt_ask]

@[simp] lemma prompt_startsDeclaration (ok : Nat → Option ParseError → Bool → Prop) :
    startsDeclaration.Prompt reserve held ok ↔ ∀ a, ok reserve held a := by
  simp only [startsDeclaration, prompt_ask, prompt_done, Instruction.stepsBack, Nat.zero_le, true_and,
    Instruction.stepsOn, Nat.add_zero, Nat.sub_zero, Instruction.errorAfter]

@[simp] lemma prompt_isHere (mark : Punctuator) (ok : Nat → Option ParseError → Bool → Prop) :
    (isHere mark).Prompt reserve held ok ↔
      ∀ kind : Option TokenKind, ok reserve held (kind = some (.punctuator mark)) := by
  simp [isHere]

@[simp] lemma prompt_isWordHere (word : String) (ok : Nat → Option ParseError → Bool → Prop) :
    (isWordHere word).Prompt reserve held ok ↔
      ∀ kind : Option TokenKind, ok reserve held (kind.any (·.isKeyword word)) := by
  simp [isWordHere]

@[simp] lemma prompt_isGlued (mark : Punctuator) (ok : Nat → Option ParseError → Bool → Prop) :
    (isGlued mark).Prompt reserve held ok ↔
      ∀ kind : Option TokenKind, ok reserve held (kind = some (.punctuator mark)) := by
  simp [isGlued]

@[simp] lemma prompt_isNext (mark : Punctuator) (reach : Reach)
    (ok : Nat → Option ParseError → Bool → Prop) :
    (isNext mark reach).Prompt reserve held ok ↔
      ∀ kind : Option TokenKind, ok reserve held (kind = some (.punctuator mark)) := by
  simp [isNext]

@[simp] lemma prompt_isWordNext (word : String) (reach : Reach)
    (ok : Nat → Option ParseError → Bool → Prop) :
    (isWordNext word reach).Prompt reserve held ok ↔
      ∀ kind : Option TokenKind, ok reserve held (kind.any (·.isKeyword word)) := by
  simp [isWordNext]

@[simp] lemma prompt_startLocation (ok : Nat → Option ParseError → Location → Prop) :
    startLocation.Prompt reserve held ok ↔ ∀ a, ok reserve held a := by
  simp [startLocation, prompt_ask]

@[simp] lemma prompt_stopLocation (ok : Nat → Option ParseError → Location → Prop) :
    stopLocation.Prompt reserve held ok ↔ ∀ a, ok reserve held a := by
  simp [stopLocation, prompt_ask]

@[simp] lemma prompt_rangeFrom (start : Location) (ok : Nat → Option ParseError → Range → Prop) :
    (rangeFrom start).Prompt reserve held ok ↔ ∀ stop, ok reserve held ⟨start, stop⟩ := by
  simp [rangeFrom, prompt_ask]

@[simp] lemma prompt_errorHere (kind : ErrorKind)
    (ok : Nat → Option ParseError → ParseError → Prop) :
    (errorHere kind).Prompt reserve held ok ↔ ∀ e, ok reserve (some e) e := by
  simp [errorHere, prompt_ask]

@[simp] lemma prompt_shift (ok : Nat → Option ParseError → Unit → Prop) :
    shift.Prompt reserve held ok ↔ ok (reserve + 1) none () :=
  ⟨fun h => h.2 (), fun h => ⟨Nat.zero_le _, fun _ => h⟩⟩

@[simp] lemma prompt_advance (reach : Reach) (ok : Nat → Option ParseError → Unit → Prop) :
    (advance reach).Prompt reserve held ok ↔ ok (reserve + 1) none () :=
  ⟨fun h => h.2 (), fun h => ⟨Nat.zero_le _, fun _ => h⟩⟩

@[simp] lemma prompt_advanceTwice (ok : Nat → Option ParseError → Unit → Prop) :
    advanceTwice.Prompt reserve held ok ↔ ok (reserve + 2) none () := by
  simp [advanceTwice]

@[simp] lemma prompt_takeLine (ok : Nat → Option ParseError → String → Prop) :
    takeLine.Prompt reserve held ok ↔ ∀ a, ok reserve none a := by
  simp [takeLine, prompt_ask]

@[simp] lemma prompt_stepBack (ok : Nat → Option ParseError → Unit → Prop) :
    stepBack.Prompt reserve held ok ↔ 1 < reserve ∧ ok (reserve - 1) none () := by
  simp only [stepBack, prompt_ask, Instruction.stepsBack, Instruction.stepsOn, Nat.add_zero,
    Instruction.errorAfter, Bool.forall_bool, Bool.false_eq_true, if_false, prompt_raise, if_true,
    prompt_done]
  rw [← and_assoc]
  exact and_congr_left fun _ => by omega

@[simp] lemma prompt_recover (e : ParseError) (ok : Nat → Option ParseError → Unit → Prop) :
    (recover e).Prompt reserve held ok ↔ 0 < reserve ∧ held = some e ∧ ok 0 none () :=
  and_congr_right fun _ => and_congr_right fun _ =>
    ⟨fun h => h.2 (), fun h => ⟨Nat.le_refl 1, fun _ => h⟩⟩

@[simp] lemma prompt_attempt (g : Goal)
    (ok : Nat → Option ParseError → Except ParseError g.Result → Prop) :
    @Prompt (no_index (Except ParseError g.Result)) (attempt g) reserve held ok ↔
      g.reserve ≤ reserve ∧ (∀ v, ok 1 (g.complaint? v) (.ok v)) ∧ ∀ e, ok 1 (some e) (.error e) :=
  Iff.rfl

@[simp] lemma prompt_read (g : Goal) (ok : Nat → Option ParseError → g.Result → Prop) :
    @Prompt (no_index g.Result) (read g) reserve held ok ↔
      g.reserve ≤ reserve ∧ ∀ v, ok 1 (g.complaint? v) v := by
  simp [read, prompt_call]

/-! ### What must come -/

@[simp] lemma prompt_expectHere (mark : Punctuator) (ok : Nat → Option ParseError → Unit → Prop) :
    (expectHere mark).Prompt reserve held ok ↔ ok reserve held () ∧ 0 < reserve := by
  simp only [expectHere, prompt_bind, prompt_isHere, prompt_ite, prompt_pure, prompt_raise,
    decide_eq_true_eq]
  refine ⟨fun h => ⟨(h (some (.punctuator mark))).1 rfl, (h none).2 (by simp)⟩, fun h _ => ?_⟩
  exact ⟨fun _ => h.1, fun _ => h.2⟩

@[simp] lemma prompt_expectNext (mark : Punctuator) (ok : Nat → Option ParseError → Unit → Prop) :
    (expectNext mark).Prompt reserve held ok ↔ ok (reserve + 1) none () := by
  simp [expectNext]

@[simp] lemma prompt_expectNextWord (word : String)
    (ok : Nat → Option ParseError → Unit → Prop) :
    (expectNextWord word).Prompt reserve held ok ↔ ok (reserve + 1) none () := by
  simp only [expectNextWord, prompt_bind, prompt_advance, prompt_isWordHere, prompt_ite,
    prompt_pure, prompt_raise]
  refine ⟨fun h => (h (some (.keyword word .contextual))).1 ?_, fun h _ => ?_⟩
  · simp [TokenKind.isKeyword]
  · exact ⟨fun _ => h, fun _ => Nat.succ_pos _⟩

@[simp] lemma prompt_expectName (ok : Nat → Option ParseError → String → Prop) :
    expectName.Prompt reserve held ok ↔ (∀ name, ok reserve held name) ∧ 0 < reserve := by
  simp only [expectName, prompt_bind, prompt_here]
  refine ⟨fun h => ⟨fun name => ?_, ?_⟩, fun h kind => ?_⟩
  · simpa [TokenKind.name?] using h (some (.identifier name))
  · simpa using h none
  · rcases kind.bind (·.name? true) with _ | name
    · simpa using h.2
    · exact h.1 name

@[simp] lemma prompt_ranged {α : Type} (node : Procedure (Range → α))
    (ok : Nat → Option ParseError → α → Prop) :
    (ranged node).Prompt reserve held ok ↔
      ∀ start, node.Prompt reserve held fun reserve held build =>
        ∀ stop, ok reserve held (build ⟨start, stop⟩) := by
  simp [ranged]

end

end Procedure

/-! ### The order of the errors -/

/-- Behind the last token there is nowhere to step back to. -/
lemma Cursor.unshift_eq_self (c : Cursor) (h : c.left = 0) : c.unshift = c := by
  rcases c with a | ⟨b, t, a⟩ | b
  · exact absurd h (Nat.succ_ne_zero _)
  · exact absurd h (Nat.succ_ne_zero _)
  · rfl

/-- An error is one at the place of a cursor. -/
def ParseError.StandsAt (e : ParseError) (c : Cursor) : Prop :=
  ∃ kind, e = c.error kind

/-- Errors at places of a list of tokens, the latest first; the latest one stands at the given
position, and none behind it. -/
inductive Told (tokens : List Token) : Nat → List ParseError → Prop where
  | none : Told tokens 1 []
  | next {position : Nat} {errors : List ParseError} (c : Cursor) (kind : ErrorKind)
      (earlier : Told tokens position errors) (hlist : c.toList = tokens)
      (hle : position ≤ c.position) : Told tokens c.position (c.error kind :: errors)

namespace Told

variable {tokens : List Token} {position : Nat} {errors : List ParseError}

lemma one_le (h : Told tokens position errors) : 1 ≤ position := by
  induction h with
  | none => exact Nat.le_refl 1
  | next c kind earlier hlist hle ih => exact ih.trans hle

lemma le_length (h : Told tokens position errors) : position ≤ tokens.length + 1 := by
  cases h with
  | none => exact Nat.le_add_left 1 _
  | next c kind earlier hlist hle =>
    have hc := c.position_add_left
    rw [hlist] at hc
    omega

end Told

namespace State

/-- The errors noted so far stand in the order of their places, and as long as tokens are left
the cursor may step back by the reserve, less one, without getting before the latest. -/
def InOrder (reserve : Nat) (s : State) : Prop :=
  ∃ position, Told s.cursor.toList position s.noted ∧
    (0 < s.cursor.left → position + reserve ≤ s.cursor.position + 1)

variable {reserve : Nat} {s : State} {e : ParseError}

lemma InOrder.weaken {less : Nat} (h : s.InOrder reserve) (hle : less ≤ reserve) :
    s.InOrder less := by
  obtain ⟨position, htold, hleft⟩ := h
  exact ⟨position, htold, fun hpos => by have := hleft hpos; omega⟩

/-- The order outlasts a move that takes no more tokens back than the reserve allows. -/
lemma InOrder.moveTo {c : Cursor} {m n : Nat} (h : s.InOrder reserve)
    (hback : n ≤ reserve) (hlist : c.toList = s.cursor.toList)
    (hmove : 0 < c.left → 0 < s.cursor.left ∧ c.left + m ≤ s.cursor.left + n) :
    (s.moveTo c).InOrder (reserve + m - n) := by
  obtain ⟨position, htold, hleft⟩ := h
  refine ⟨position, ?_, fun hpos => ?_⟩
  · rw [cursor_moveTo, hlist]
    exact htold
  · have hs := s.cursor.position_add_left
    have hc := c.position_add_left
    rw [hlist] at hc
    obtain ⟨hspos, hle⟩ := hmove hpos
    have := hleft hspos
    rw [cursor_moveTo]
    omega

/-- An error at the place of the cursor comes behind those noted before. -/
lemma InOrder.note (h : s.InOrder reserve) (hreserve : 0 < reserve)
    (he : e.StandsAt s.cursor) : (s.note e).InOrder 1 := by
  obtain ⟨position, htold, hleft⟩ := h
  obtain ⟨kind, rfl⟩ := he
  have hle : position ≤ s.cursor.position := by
    have hs := s.cursor.position_add_left
    have hlength := htold.le_length
    rcases Nat.eq_zero_or_pos s.cursor.left with hzero | hspos
    · omega
    · have := hleft hspos
      omega
  exact ⟨s.cursor.position, .next s.cursor kind htold rfl hle, fun _ => Nat.le_refl _⟩

end State

/-- Every instruction stays in the list, steps on and back as it says, and does not lose
the error at the place of the cursor. -/
lemma Instruction.perform_inOrder (i : Instruction) {reserve : Nat} {s : State}
    {held : Option ParseError} (hs : s.InOrder reserve) (hback : i.stepsBack ≤ reserve)
    (hheld : ∀ e, held = some e → e.StandsAt s.cursor) :
    (s.moveTo (i.perform s.cursor).2).InOrder (reserve + i.stepsOn - i.stepsBack) ∧
      ∀ e, i.errorAfter held (i.perform s.cursor).1 = some e →
        e.StandsAt (i.perform s.cursor).2 := by
  cases i with
  | errorHere kind =>
    refine ⟨hs, fun e he => ⟨kind, ?_⟩⟩
    exact (Option.some.inj he).symm
  | shift =>
    refine ⟨hs.moveTo hback (Cursor.toList_shift _) ?_, fun e he => by cases he⟩
    simp only [perform, Cursor.left_shift, stepsOn, stepsBack]
    omega
  | advance reach =>
    refine ⟨hs.moveTo hback (Cursor.toList_advance _ _) ?_, fun e he => by cases he⟩
    have := s.cursor.left_advance_le reach
    simp only [perform, stepsOn, stepsBack]
    omega
  | stepBack =>
    refine ⟨hs.moveTo hback (Cursor.toList_unshift _) fun hpos => ?_, fun e he => by cases he⟩
    refine ⟨Nat.pos_of_ne_zero fun hzero => ?_, s.cursor.left_unshift_le⟩
    -- with nothing left, a step back changes nothing
    change 0 < s.cursor.unshift.left at hpos
    rw [s.cursor.unshift_eq_self hzero, hzero] at hpos
    exact absurd hpos (Nat.lt_irrefl 0)
  | resynchronize =>
    refine ⟨hs.moveTo hback (Cursor.toList_resynchronize _) fun hpos => ?_, fun e he => by cases he⟩
    have hle := s.cursor.left_resynchronize_le
    simp only [perform] at hpos ⊢
    -- from a closing brace the boundary is one token back, else it lies ahead
    split at hle
    case isTrue hbrace => exact ⟨Cursor.left_pos_of_here? hbrace, hle⟩
    case isFalse => exact ⟨by omega, hle.trans (Nat.le_succ _)⟩
  | takeLine =>
    refine ⟨hs.moveTo hback (Cursor.toList_toEndOfLine _) fun hpos => ?_, fun e he => by cases he⟩
    have hle := s.cursor.left_toEndOfLine_le
    simp only [perform, stepsOn, stepsBack] at hpos ⊢
    omega
  | _ => exact ⟨hs, hheld⟩

/-- Where a reading ends, the errors noted so far stand in order, and so do the one that it
ends in and the one found behind what was read. -/
def Outcome.InOrder {α : Type} (complaint? : α → Option ParseError) : Outcome α → Prop
  | .finished (.ok a) s => s.InOrder 1 ∧ ∀ e, complaint? a = some e → e.StandsAt s.cursor
  | .finished (.error e) s => s.InOrder 1 ∧ e.StandsAt s.cursor
  | .stalled => True

/-- What a prompt procedure leaves in order, if the goals that it calls do so. -/
lemma Procedure.Prompt.perform {α : Type} {callee : (g : Goal) → State → Outcome g.Result}
    (hcallee : ∀ g s, s.InOrder g.reserve → (callee g s).InOrder g.complaint?)
    {complaint? : α → Option ParseError} {p : Procedure α} {reserve : Nat}
    {held : Option ParseError} {s : State}
    (h : p.Prompt reserve held fun reserve held a =>
      0 < reserve ∧ ∀ e, complaint? a = some e → held = some e)
    (hs : s.InOrder reserve) (hheld : ∀ e, held = some e → e.StandsAt s.cursor) :
    (p.perform callee s).InOrder complaint? := by
  induction p generalizing reserve held s with
  | done a =>
    obtain ⟨hreserve, hcomplaint⟩ := h
    exact ⟨hs.weaken hreserve, fun e he => hheld e (hcomplaint e he)⟩
  | fail e =>
    obtain ⟨hreserve, he⟩ := h
    exact ⟨hs.weaken hreserve, hheld e he⟩
  | ask i next ih =>
    obtain ⟨hback, hnext⟩ := h
    obtain ⟨hs', hheld'⟩ := i.perform_inOrder hs hback hheld
    exact ih _ (hnext _) hs' hheld'
  | call g next ih =>
    obtain ⟨hreserve, hvalue, herror⟩ := h
    have hg := hcallee g s (hs.weaken hreserve)
    simp only [Procedure.perform]
    rcases hc : callee g s with ⟨e | v, t⟩ | _
    · rw [hc] at hg
      obtain ⟨ht, he⟩ := hg
      refine ih _ (herror e) ht fun e' he' => ?_
      rw [← Option.some.inj he']
      exact he
    · rw [hc] at hg
      exact ih _ (hvalue v) hg.1 hg.2
    · trivial
  | note e next ih =>
    obtain ⟨hreserve, he, hnext⟩ := h
    exact ih hnext (hs.note hreserve (hheld e he)) hheld

end FrontEnd
