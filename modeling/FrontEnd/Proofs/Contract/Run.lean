/-
Running a procedure by hand.

`Contract.reading` promises of every goal just what it reads.  A procedure that meets it ends
as wanted on its one way, so that a reading can be followed step by step: a word does what its
rule says, and a goal whose reading is known ends where it is known to end
(`Procedure.meets_read_of_reads`).  Since every goal reads something from every state, what all
ways end in is what is read (`Goal.Reads.exists_of_meets`).
-/
import FrontEnd.Proofs.Contract.Words
import FrontEnd.Proofs.Progress.Termination

namespace FrontEnd

/-- The goals promise what they read. -/
def Contract.reading (room : Nat) : Contract where
  enter _ _ := True
  value g s a s' := g.Reads room s (.ok a) s'
  error g s e s' := g.Reads room s (.error e) s'

/-- What comes of a reading is as wanted. -/
def Except.Meets {α : Type} (ok : α → State → Prop) (err : ParseError → State → Prop)
    (s' : State) : Except ParseError α → Prop
  | .ok a => ok a s'
  | .error e => err e s'

namespace Goal

variable {room inside : Nat} {g : Goal} {s : State} {ok : g.Result → State → Prop}
  {err : ParseError → State → Prop}

/-- What all ways through the procedure of a goal end in is what the goal reads. -/
theorem Reads.exists_of_meets (hroom : g.roomInside? room = some inside)
    (h : g.procedure.Meets (Contract.reading inside) [] s (fun _ a s' => ok a s')
      fun _ e s' => err e s') :
    ∃ r s', g.Reads room s r s' ∧ Except.Meets ok err s' r := by
  obtain ⟨r, s', bound, hr⟩ := g.exists_reads room s
  refine ⟨r, s', ⟨bound, hr⟩, ?_⟩
  cases bound with
  | zero => cases hr
  | succ below =>
    rw [run, hroom] at hr
    obtain ⟨hok, herr⟩ := h.perform (run below inside)
      (fun g s a s' _ hr => ⟨below, hr⟩) fun g s e s' _ hr => ⟨below, hr⟩
    rcases r with e | a
    · exact herr e s' hr
    · exact hok a s' hr

/-- A goal reads a value, if no way through its procedure ends in an error. -/
theorem Reads.exists_ok_of_meets (hroom : g.roomInside? room = some inside)
    (h : g.procedure.Meets (Contract.reading inside) [] s (fun _ a s' => ok a s')
      fun _ _ _ => False) :
    ∃ a s', g.Reads room s (.ok a) s' ∧ ok a s' := by
  obtain ⟨r, s', hreads, hmeets⟩ := Reads.exists_of_meets hroom h
  rcases r with e | a
  · exact hmeets.elim
  · exact ⟨a, s', hreads, hmeets⟩

/-- What a goal has read is as wanted, if all ways through its procedure end in that. -/
theorem Reads.value_of_meets {a : g.Result} {t : State} (hreads : g.Reads room s (.ok a) t)
    (hroom : g.roomInside? room = some inside)
    (h : g.procedure.Meets (Contract.reading inside) [] s (fun _ b s' => ok b s')
      fun _ _ _ => True) : ok a t := by
  obtain ⟨r, s', hreads', hr⟩ := Reads.exists_of_meets hroom h
  obtain ⟨rfl, rfl⟩ := hreads'.unique hreads
  exact hr

/-- What a goal is read to be, if its procedure ends just there. -/
theorem Reads.of_meets {a : g.Result} {t : State} (hroom : g.roomInside? room = some inside)
    (h : g.procedure.Meets (Contract.reading inside) [] s (fun _ b s' => b = a ∧ s' = t)
      fun _ _ _ => False) :
    g.Reads room s (.ok a) t := by
  obtain ⟨_, _, hreads, rfl, rfl⟩ := Reads.exists_ok_of_meets hroom h
  exact hreads

lemma roomInside?_of_isLevel (h : g.isLevel = true) : g.roomInside? (room + 1) = some room := by
  unfold roomInside?
  rw [if_pos h]

lemma roomInside?_of_not_isLevel (h : g.isLevel = false) : g.roomInside? room = some room := by
  unfold roomInside?
  rw [h]
  rfl

end Goal

namespace Procedure

variable {room : Nat} {g : Goal} {s t : State} {a : g.Result} {way : List Event}
  {err : List Event → ParseError → State → Prop}

/-- A goal whose reading is known. -/
lemma meets_read_of_reads (h : g.Reads room s (.ok a) t) (ok : List Event → g.Result → State → Prop) :
    @Meets (no_index g.Result) (.reading room) (read g) way s ok err ↔
      ok (.called g s :: way) a t := by
  rw [meets_read]
  refine ⟨fun hmeets => hmeets.2.1 a t h, fun hok => ⟨trivial, fun b s' hb => ?_, fun e s' he => ?_⟩⟩
  · obtain ⟨heq, rfl⟩ := h.unique hb
    cases heq
    exact hok
  · obtain ⟨heq, -⟩ := h.unique he
    cases heq

end Procedure

end FrontEnd
