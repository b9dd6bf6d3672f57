/-
Readings without a bound.

Where a reading finishes with some bound on the depth of calls, it finishes alike
with every higher one.  So `Goal.Reads` may speak of what a goal reads without a
bound, and `Goal.Calls` of the goals that it calls on its way.
-/
import FrontEnd.Proofs.Contract.Basic

namespace FrontEnd

/-- A procedure ends the same way if more of the goals that it calls finish. -/
lemma Procedure.perform_mono {α : Type} {callee callee' : (g : Goal) → State → Outcome g.Result}
    (hcallee : ∀ g s r s', callee g s = .finished r s' → callee' g s = .finished r s')
    (p : Procedure α) (s : State) {r : Except ParseError α} {s' : State}
    (h : p.perform callee s = .finished r s') : p.perform callee' s = .finished r s' := by
  induction p generalizing s with
  | done a => exact h
  | fail e => exact h
  | ask i next ih => exact ih _ _ h
  | call g next ih =>
    simp only [Procedure.perform] at h ⊢
    rcases hc : callee g s with ⟨r', t⟩ | _
    · rw [hc] at h
      rw [hcallee _ _ _ _ hc]
      exact ih _ _ h
    · simp [hc] at h
  | note e next ih => exact ih _ h

namespace Goal

/-- A reading that finishes with a bound finishes alike with the next bound. -/
lemma run_succ (bound room : Nat) (g : Goal) (s : State) {r : Except ParseError g.Result}
    {s' : State} (h : g.run bound room s = .finished r s') :
    g.run (bound + 1) room s = .finished r s' := by
  induction bound generalizing room g s r s' with
  | zero => simp [run] at h
  | succ below ih =>
    rw [run] at h ⊢
    rcases hroom : g.roomInside? room with _ | inside
    · rw [hroom] at h
      exact h
    · rw [hroom] at h
      exact Procedure.perform_mono (fun g s r s' hr => ih inside g s hr) _ s h

/-- A reading that finishes with a bound finishes alike with every higher bound. -/
lemma run_mono {bound bound' room : Nat} {g : Goal} {s : State}
    {r : Except ParseError g.Result} {s' : State} (hle : bound ≤ bound')
    (h : g.run bound room s = .finished r s') : g.run bound' room s = .finished r s' := by
  induction hle with
  | refl => exact h
  | step _ ih => exact run_succ _ _ _ _ ih

/-- What a goal reads, and where the reading ends. -/
def Reads (room : Nat) (g : Goal) (s : State) (r : Except ParseError g.Result)
    (s' : State) : Prop :=
  ∃ bound, g.run bound room s = .finished r s'

/-- Reading is deterministic. -/
lemma Reads.unique {room : Nat} {g : Goal} {s s₁ s₂ : State}
    {r₁ r₂ : Except ParseError g.Result} (h₁ : g.Reads room s r₁ s₁)
    (h₂ : g.Reads room s r₂ s₂) : r₁ = r₂ ∧ s₁ = s₂ := by
  obtain ⟨b₁, h₁⟩ := h₁
  obtain ⟨b₂, h₂⟩ := h₂
  have h := run_mono (Nat.le_max_left b₁ b₂) h₁
  rw [run_mono (Nat.le_max_right b₁ b₂) h₂] at h
  injection h with hr hs
  exact ⟨hr.symm, hs.symm⟩

/-- The reading of a goal from a state calls another goal, in another state. -/
def Calls (room : Nat) (g : Goal) (s : State) (g' : Goal) (t : State) : Prop :=
  ∃ bound inside, g.roomInside? room = some inside ∧
    g.procedure.perform (run bound inside) s ≠ .stalled ∧
    .called g' t ∈ g.procedure.events (run bound inside) [] s

end Goal

end FrontEnd
