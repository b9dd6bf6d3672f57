/-
Moves of a cursor.

A cursor is given a list of tokens, is moved in it, and may be given another list.  No sequence of
moves loses a token: what stands before the current one, the current one and what stands after it
are together the list that was given last.  Steps on and steps back undo one another, except at the
end of the list, where a step on leads behind the last token and there is no way back.  The main
result is `Cursor.run_laws`.
-/
import FrontEnd.Proofs.Cursor.Behind

namespace FrontEnd

/-- What can be done with a cursor. -/
inductive Move where
  | shift
  | unshift
  /-- One token on, and then past all blanks and line breaks. -/
  | skipBlanks
  /-- Past the blanks and line breaks from the current token on. -/
  | skipCurrentBlanks
  /-- To the place before the first token of another list. -/
  | reset (tokens : List Token)
deriving DecidableEq, Repr

namespace Move

/-- What a move makes of a cursor; a step back without a current token leaves it as it is. -/
def apply : Move → Cursor → Cursor
  | shift, c => c.shift
  | unshift, c => c.unshift
  | skipBlanks, c => c.advance .anyLine
  | skipCurrentBlanks, c => c.skipCurrent .anyLine
  | reset tokens, _ => .start tokens

/-- The list that a cursor moves in after a move, when it moved in `tokens` before. -/
def given (tokens : List Token) : Move → List Token
  | reset tokens' => tokens'
  | _ => tokens

end Move

namespace Cursor

variable {c : Cursor}

/-- One move after the other. -/
def run (c : Cursor) (moves : List Move) : Cursor :=
  moves.foldl (fun c move => move.apply c) c

/-! ### No token is lost -/

@[simp] lemma toList_skipCurrent (reach : Reach) (c : Cursor) :
    (c.skipCurrent reach).toList = c.toList := by
  cases c <;> simp [skipCurrent]

/-- A move leaves the tokens as they are, unless it brings new ones. -/
lemma toList_apply (move : Move) (c : Cursor) : (move.apply c).toList = move.given c.toList := by
  cases move <;> simp [Move.apply, Move.given]

/-- The tokens are those that were given last. -/
lemma toList_run (moves : List Move) (c : Cursor) :
    (c.run moves).toList = moves.foldl Move.given c.toList := by
  induction moves generalizing c with
  | nil => rfl
  | cons move moves ih =>
    rw [run, List.foldl_cons, List.foldl_cons, ← toList_apply]
    exact ih (move.apply c)

/-! ### Steps on and steps back -/

lemma unshift?_eq_none_iff : c.unshift? = none ↔ c.current? = none := by
  rcases c with a | ⟨(_ | ⟨p, b⟩), t, a⟩ | b <;> simp [unshift?, current?]

lemma unshift_of_unshift? {d : Cursor} (h : c.unshift? = some d) : c.unshift = d := by
  rw [unshift, h, Option.getD_some]

/-- A step on undoes a step back. -/
lemma shift_of_unshift? {d : Cursor} (h : c.unshift? = some d) : d.shift = c := by
  rw [← unshift_of_unshift? h]
  refine shift_unshift (Option.isSome_iff_ne_none.mpr fun hnone => ?_)
  rw [unshift?_eq_none_iff.mpr hnone] at h
  cases h

/-- A step on leads to a token if there is one left. -/
lemma current?_shift (c : Cursor) : c.shift.current? = c.remaining.head? := by
  rcases c with (_ | ⟨t, a⟩) | ⟨b, t, (_ | ⟨n, a⟩)⟩ | b <;> rfl

/-- A step back undoes a step on if this led to a token. -/
lemma unshift?_shift_iff : c.shift.unshift? = some c ↔ c.remaining ≠ [] := by
  rw [← List.isSome_head?, ← current?_shift]
  constructor
  · intro h
    refine Option.isSome_iff_ne_none.mpr fun hnone => ?_
    rw [unshift?_eq_none_iff.mpr hnone] at h
    cases h
  · intro h
    rcases hback : c.shift.unshift? with _ | d
    · rw [unshift?_eq_none_iff.mp hback] at h
      cases h
    · rw [← unshift_of_unshift? hback, unshift_shift h]

/-- Wherever a cursor comes by moves, no token of the list that it was given last is lost.  It can
step back exactly from a current token, and is left as it is otherwise; a step on undoes the step
back.  A step back undoes a step on exactly if there was a token left. -/
theorem run_laws (tokens : List Token) (moves : List Move) :
    let c := run (start tokens) moves
    c.consumed ++ c.current?.toList ++ c.remaining = moves.foldl Move.given tokens ∧
      (c.unshift? = none ↔ c.current? = none) ∧
      (c.unshift? = none → Move.unshift.apply c = c) ∧
      (∀ d, c.unshift? = some d → Move.unshift.apply c = d ∧ d.shift = c) ∧
      (c.shift.unshift? = some c ↔ c.remaining ≠ []) := by
  intro c
  refine ⟨?_, unshift?_eq_none_iff, fun hnone => ?_, fun d hd => ?_, unshift?_shift_iff⟩
  · have hlist := toList_run moves (start tokens)
    rwa [toList_start] at hlist
  · exact unshift_of_current?_eq_none (unshift?_eq_none_iff.mp hnone)
  · exact ⟨unshift_of_unshift? hd, shift_of_unshift? hd⟩

end Cursor

end FrontEnd
