/-
A contract beside another one.

Where one contract is kept already, a second one may use it: its goals are only called as the
first one asks, and what they read is what the first one says.  So the procedures need not show
this again.
-/
import FrontEnd.Proofs.Contract.Quiet

namespace FrontEnd

namespace Contract

variable (L K : Contract)

/-- What the goals promise that are called as another contract asks. -/
def beside : Contract where
  enter _ _ := True
  value g s a s' := L.enter g s ∧ L.value g s a s' ∧ K.value g s a s'
  error _ _ _ _ := True

/-- What both contracts say. -/
def both : Contract where
  enter := L.enter
  value g s a s' := L.value g s a s' ∧ K.value g s a s'
  error _ _ _ _ := True

section

variable (g : Goal) (s : State)

end

end Contract

namespace Procedure

variable {α : Type} {L K : Contract} {known : Goal → State → State → Prop} {s : State}
  {ok ok' : α → State → Prop}

/-- A procedure that calls its goals as one contract asks yields what both contracts say. -/
lemma Yields.both {p : Procedure α} (h : p.Yields L s ok)
    (h' : p.Yields ((L.beside K).given known) s ok') :
    p.Yields ((L.both K).given known) s fun a s' => ok a s' ∧ ok' a s' := by
  induction p generalizing s with
  | done a => exact ⟨h, h'⟩
  | fail e => trivial
  | ask i next ih => exact ih _ h h'
  | call g next ih =>
    obtain ⟨henter, hvalue, herror⟩ := h
    obtain ⟨-, hvalue', herror'⟩ := h'
    refine ⟨henter, fun a s' ha => ?_, fun e s' => ih _ (herror e s') (herror' e s')⟩
    obtain ⟨hs, hL, hK⟩ := ha
    exact ih _ (hvalue a s' hL) (hvalue' a s' ⟨hs, henter, hL, hK⟩)
  | note e next ih => trivial

end Procedure

/-- If every procedure yields what the one contract says, and from there what the other one says,
then so does every reading that notes no error and ends in a value. -/
theorem Goal.Reads.quiet_beside {L K : Contract} {known : Goal → State → State → Prop}
    (hknown : Contract.Known known)
    (hL : ∀ g s, L.enter g s → g.procedure.Yields L s (L.value g s))
    (hK : ∀ g s, L.enter g s → g.procedure.Yields ((L.beside K).given known) s (K.value g s))
    {room : Nat} {g : Goal} {s s' : State} {a : g.Result} (h : g.Reads room s (.ok a) s')
    (henter : L.enter g s) (hquiet : s'.noted = s.noted) : K.value g s a s' := by
  have hboth : (L.both K).value g s a s' :=
    h.quiet_given (K := L.both K) hknown (fun g s henter => (hL g s henter).both (hK g s henter)) henter hquiet
  exact hboth.2

end FrontEnd
