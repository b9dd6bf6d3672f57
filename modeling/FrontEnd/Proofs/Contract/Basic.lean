/-
Contracts.

A contract says of every goal in which states it may be called, and what holds
where its reading ends, in a value or in an error.  `Procedure.Meets` is what a
contract for the called goals makes of a procedure: the condition under which
every way through the procedure ends as wanted, whatever the goals it calls do
within the contract.  The ends may also speak of the events on the way, that is
of the goals that the procedure itself called and of the places from which it
went on to the next boundary.

A contract may hang on the bound on the depth of calls and on the room for
levels of nesting, so a fact about all readings is a family of contracts.  What
is already known of all readings may be used of the called goals.  The main
results are

* `Contract.Family.Kept.finished`: if every procedure meets the family, every
  reading that finishes keeps the contract;
* `Contract.Family.Kept.not_stalled`: if moreover nothing may be called with bound
  zero, every reading that may be called finishes.
-/
import Mathlib.Tactic.Common
import FrontEnd.Grammar.Rules

namespace FrontEnd

/-- What a procedure does on its way, apart from moves and questions. -/
inductive Event where
  /-- It calls a goal. -/
  | called (g : Goal) (s : State)
  /-- It goes on to the next boundary of the block. -/
  | recovered (c : Cursor)

/-- What the goals ask for and promise. -/
structure Contract where
  /-- The states in which a goal may be called. -/
  enter : Goal → State → Prop
  /-- What holds where a goal ends in a value. -/
  value : (g : Goal) → State → g.Result → State → Prop
  /-- What holds where a goal ends in an error. -/
  error : Goal → State → ParseError → State → Prop

/-- The events on the way of an instruction. -/
def Instruction.events (c : Cursor) : Instruction → List Event
  | .resynchronize => [.recovered c]
  | _ => []

namespace Procedure

variable {α β : Type} {K : Contract} {way : List Event} {s : State}
  {ok : List Event → α → State → Prop} {err : List Event → ParseError → State → Prop}

/-- Every way through a procedure ends as wanted, if the goals keep a contract.
The events so far stand with the latest first. -/
def Meets (K : Contract) : Procedure α → List Event → State →
    (List Event → α → State → Prop) → (List Event → ParseError → State → Prop) → Prop
  | done a, way, s, ok, _ => ok way a s
  | fail e, way, s, _, err => err way e s
  | ask i next, way, s, ok, err =>
    (next (i.perform s.cursor).1).Meets K (i.events s.cursor ++ way)
      (s.moveTo (i.perform s.cursor).2) ok err
  | call g next, way, s, ok, err =>
    K.enter g s ∧
      (∀ a s', K.value g s a s' → (next (.ok a)).Meets K (.called g s :: way) s' ok err) ∧
      ∀ e s', K.error g s e s' → (next (.error e)).Meets K (.called g s :: way) s' ok err
  | note e next, way, s, ok, err => next.Meets K way (s.note e) ok err

/-- The events on the way through a procedure, the latest first. -/
def events (callee : (g : Goal) → State → Outcome g.Result) :
    Procedure α → List Event → State → List Event
  | done _, way, _ | fail _, way, _ => way
  | ask i next, way, s =>
    (next (i.perform s.cursor).1).events callee (i.events s.cursor ++ way)
      (s.moveTo (i.perform s.cursor).2)
  | call g next, way, s =>
    match callee g s with
    | .finished result s' => (next result).events callee (.called g s :: way) s'
    | .stalled => .called g s :: way
  | note e next, way, s => next.events callee way (s.note e)

/-! ### Procedures in a row -/

section

variable {γ : Type}

lemma bind_bind (p : Procedure α) (f : α → Procedure β) (g : β → Procedure γ) :
    (p >>= f) >>= g = p >>= fun a => f a >>= g := by
  change (p.bind f).bind g = p.bind fun a => (f a).bind g
  induction p with
  | done a => rfl
  | fail e => rfl
  | ask i next ih => exact congrArg (ask i) (funext ih)
  | call g next ih => exact congrArg (call g) (funext ih)
  | note e next ih => exact congrArg (note e) ih

lemma done_bind (a : α) (f : α → Procedure β) : (pure a >>= f : Procedure β) = f a := rfl

lemma raise_bind (kind : ErrorKind) (f : α → Procedure β) :
    (raise kind >>= f : Procedure β) = raise kind := rfl

lemma ite_bind (c : Prop) [Decidable c] (p q : Procedure α) (f : α → Procedure β) :
    (if c then p else q) >>= f = if c then p >>= f else q >>= f := by
  split <;> rfl

end

/-- Two procedures in a row: what the first one reaches is where the second one
starts. -/
@[simp] lemma meets_bind (p : Procedure α) (f : α → Procedure β) (way : List Event) (s : State)
    (ok : List Event → β → State → Prop) (err : List Event → ParseError → State → Prop) :
    (p >>= f).Meets K way s ok err ↔
      p.Meets K way s (fun way' a s' => (f a).Meets K way' s' ok err) err := by
  change (p.bind f).Meets K way s ok err ↔ _
  induction p generalizing way s with
  | done a => rfl
  | fail e => rfl
  | ask i next ih => exact ih _ _ _
  | call g next ih =>
    simp only [Procedure.bind, Meets]
    refine and_congr_right fun _ => and_congr ?_ ?_
    · exact forall₃_congr fun a s' _ => ih _ _ _
    · exact forall₃_congr fun e s' _ => ih _ _ _
  | note e next ih => exact ih _ _

/-- Where more is wanted at the ends, more is wanted at the start. -/
lemma Meets.imp {ok' : List Event → α → State → Prop}
    {err' : List Event → ParseError → State → Prop} {p : Procedure α}
    (h : p.Meets K way s ok err) (hok : ∀ way a s, ok way a s → ok' way a s)
    (herr : ∀ way e s, err way e s → err' way e s) : p.Meets K way s ok' err' := by
  induction p generalizing way s with
  | done a => exact hok _ _ _ h
  | fail e => exact herr _ _ _ h
  | ask i next ih => exact ih _ h
  | call g next ih =>
    obtain ⟨henter, hvalue, herror⟩ := h
    exact ⟨henter, fun a s' ha => ih _ (hvalue a s' ha), fun e s' he => ih _ (herror e s' he)⟩
  | note e next ih => exact ih h

/-- What a procedure ends in is what its contract says, if the goals it calls
keep theirs. -/
lemma Meets.perform {p : Procedure α} (h : p.Meets K way s ok err)
    (callee : (g : Goal) → State → Outcome g.Result)
    (hvalue : ∀ g s a s', K.enter g s → callee g s = .finished (.ok a) s' → K.value g s a s')
    (herror : ∀ g s e s', K.enter g s → callee g s = .finished (.error e) s' →
      K.error g s e s') :
    (∀ a s', p.perform callee s = .finished (.ok a) s' → ok (p.events callee way s) a s') ∧
      ∀ e s', p.perform callee s = .finished (.error e) s' →
        err (p.events callee way s) e s' := by
  induction p generalizing way s with
  | done a =>
    simp only [Procedure.perform, Outcome.finished.injEq, Except.ok.injEq]
    refine ⟨?_, by simp⟩
    rintro a' s' ⟨rfl, rfl⟩
    exact h
  | fail e =>
    simp only [Procedure.perform, Outcome.finished.injEq, Except.error.injEq]
    refine ⟨by simp, ?_⟩
    rintro e' s' ⟨rfl, rfl⟩
    exact h
  | ask i next ih => exact ih _ h
  | call g next ih =>
    obtain ⟨henter, hok, herr⟩ := h
    simp only [Procedure.perform, events]
    rcases hc : callee g s with ⟨_ | a, s'⟩ | _
    · exact ih _ (herr _ _ (herror _ _ _ _ henter hc))
    · exact ih _ (hok _ _ (hvalue _ _ _ _ henter hc))
    · simp
  | note e next ih => exact ih h

/-- A procedure finishes, if every goal finishes where it may be called. -/
lemma Meets.finishes {p : Procedure α} (h : p.Meets K way s ok err)
    (callee : (g : Goal) → State → Outcome g.Result)
    (hvalue : ∀ g s a s', K.enter g s → callee g s = .finished (.ok a) s' → K.value g s a s')
    (herror : ∀ g s e s', K.enter g s → callee g s = .finished (.error e) s' →
      K.error g s e s')
    (hfin : ∀ g s, K.enter g s → callee g s ≠ .stalled) :
    p.perform callee s ≠ .stalled := by
  induction p generalizing way s with
  | done a => simp [Procedure.perform]
  | fail e => simp [Procedure.perform]
  | ask i next ih => exact ih _ h
  | call g next ih =>
    obtain ⟨henter, hok, herr⟩ := h
    simp only [Procedure.perform]
    rcases hc : callee g s with ⟨_ | a, s'⟩ | _
    · exact ih _ (herr _ _ (herror _ _ _ _ henter hc))
    · exact ih _ (hok _ _ (hvalue _ _ _ _ henter hc))
    · exact absurd hc (hfin _ _ henter)
  | note e next ih => exact ih h

end Procedure

namespace Contract

/-- A contract together with what is known of every reading. -/
def given (known : Goal → State → State → Prop) (K : Contract) : Contract where
  enter := K.enter
  value := fun g s a s' => known g s s' ∧ K.value g s a s'
  error := fun g s e s' => known g s s' ∧ K.error g s e s'

/-- A contract for every bound on the depth of calls and every room. -/
abbrev Family : Type := Nat → Nat → Contract

section

variable (known : Goal → State → State → Prop) (K : Contract) (g : Goal) (s : State)

@[simp] lemma given_enter : (K.given known).enter g s ↔ K.enter g s := Iff.rfl

@[simp] lemma given_value (a : g.Result) (s' : State) :
    (K.given known).value g s a s' ↔ known g s s' ∧ K.value g s a s' := Iff.rfl

@[simp] lemma given_error (e : ParseError) (s' : State) :
    (K.given known).error g s e s' ↔ known g s s' ∧ K.error g s e s' := Iff.rfl

end

/-- Something known of every reading that finishes. -/
def Known (known : Goal → State → State → Prop) : Prop :=
  ∀ bound room g s r s', Goal.run bound room g s = .finished r s' → known g s s'

/-- Every procedure keeps the contract of its own goal, if the goals that it calls
keep the contract for one call less; and so does the error where there is no
room.  Of the way it may be used that it is the one of a reading that finishes. -/
structure Family.Kept (known : Goal → State → State → Prop) (K : Family) : Prop where
  procedure : ∀ below room inside g s, Goal.roomInside? g room = some inside →
    (K (below + 1) room).enter g s →
    g.procedure.Meets ((K below inside).given known) [] s
      (fun way a s' => way = g.procedure.events (Goal.run below inside) [] s →
        g.procedure.perform (Goal.run below inside) s = .finished (.ok a) s' →
        (K (below + 1) room).value g s a s')
      (fun way e s' => way = g.procedure.events (Goal.run below inside) [] s →
        g.procedure.perform (Goal.run below inside) s = .finished (.error e) s' →
        (K (below + 1) room).error g s e s')
  noRoom : ∀ below room g s, Goal.roomInside? g room = none →
    (K (below + 1) room).enter g s →
    (K (below + 1) room).error g s (s.cursor.error .nestingTooDeep) s

variable {known : Goal → State → State → Prop} {K : Family}

/-- A reading that finishes keeps its contract. -/
theorem Family.Kept.finished (hK : K.Kept known) (hknown : Known known) (bound room : Nat)
    (g : Goal) (s : State) (henter : (K bound room).enter g s) :
    (∀ a s', g.run bound room s = .finished (.ok a) s' → (K bound room).value g s a s') ∧
      ∀ e s', g.run bound room s = .finished (.error e) s' → (K bound room).error g s e s' := by
  induction bound generalizing room g s with
  | zero => simp [Goal.run]
  | succ below ih =>
    simp only [Goal.run]
    rcases hroom : g.roomInside? room with _ | inside
    · simp only [Outcome.finished.injEq, reduceCtorEq, false_and, IsEmpty.forall_iff,
        implies_true, Except.error.injEq, true_and, and_imp]
      rintro e s' rfl rfl
      exact hK.noRoom below room g s hroom henter
    · have hvalue : ∀ g s a s', (K below inside).enter g s →
          Goal.run below inside g s = .finished (.ok a) s' →
          ((K below inside).given known).value g s a s' :=
        fun g s a s' he hr => ⟨hknown _ _ _ _ _ _ hr, (ih inside g s he).1 a s' hr⟩
      have herror : ∀ g s e s', (K below inside).enter g s →
          Goal.run below inside g s = .finished (.error e) s' →
          ((K below inside).given known).error g s e s' :=
        fun g s e s' he hr => ⟨hknown _ _ _ _ _ _ hr, (ih inside g s he).2 e s' hr⟩
      have h := (hK.procedure below room inside g s hroom henter).perform _ hvalue herror
      exact ⟨fun a s' hr => h.1 a s' hr rfl hr, fun e s' hr => h.2 e s' hr rfl hr⟩

/-- A reading that may be called finishes, if nothing may be called with bound
zero. -/
theorem Family.Kept.not_stalled (hK : K.Kept known) (hknown : Known known)
    (hzero : ∀ room g s, ¬ (K 0 room).enter g s) (bound room : Nat) (g : Goal) (s : State)
    (henter : (K bound room).enter g s) : g.run bound room s ≠ .stalled := by
  induction bound generalizing room g s with
  | zero => exact absurd henter (hzero room g s)
  | succ below ih =>
    simp only [Goal.run]
    rcases hroom : g.roomInside? room with _ | inside
    · simp
    · exact (hK.procedure below room inside g s hroom henter).finishes _
        (fun g s a s' he hr =>
          ⟨hknown _ _ _ _ _ _ hr, (hK.finished hknown below inside g s he).1 a s' hr⟩)
        (fun g s e s' he hr =>
          ⟨hknown _ _ _ _ _ _ hr, (hK.finished hknown below inside g s he).2 e s' hr⟩)
        (fun g s he => ih inside g s he)

end Contract

end FrontEnd
