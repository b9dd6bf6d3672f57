/-
What stands behind a cursor.

A shift puts the current token behind the cursor, and the way to the next token of
interest puts blanks there.  A step back takes up the last token from there.
-/
import Mathlib.Data.List.TakeWhile
import FrontEnd.Proofs.Cursor.Left

namespace FrontEnd

namespace Cursor

variable {c : Cursor}

/-- The cursor on the first of the tokens ahead, or behind the last token. -/
def land (behind : List Token) : List Token → Cursor
  | [] => finish behind
  | token :: ahead => on behind token ahead

/-- The current token and those after it. -/
def ahead (c : Cursor) : List Token :=
  c.current?.toList ++ c.remaining

@[simp] lemma behind_land (behind tokens : List Token) : (land behind tokens).behind = behind := by
  cases tokens <;> rfl

@[simp] lemma ahead_land (behind tokens : List Token) : (land behind tokens).ahead = tokens := by
  cases tokens <;> rfl

lemma shift_eq_land (c : Cursor) :
    c.shift = land (c.current?.toList ++ c.behind) c.remaining := by
  rcases c with (_ | ⟨t, a⟩) | ⟨b, t, (_ | ⟨n, a⟩)⟩ | b <;> rfl

lemma seek_eq_land (passes : TokenKind → Bool) (behind : List Token) (token : Token)
    (ahead : List Token) :
    seek passes behind token ahead =
      land (((token :: ahead).takeWhile fun t => passes t.kind).reverse ++ behind)
        ((token :: ahead).dropWhile fun t => passes t.kind) := by
  induction ahead generalizing behind token with
  | nil =>
    unfold seek
    by_cases h : passes token.kind = true <;> simp [h, land]
  | cons next ahead ih =>
    unfold seek
    by_cases h : passes token.kind = true
    · have htake := List.takeWhile_cons_of_pos (p := fun t => passes t.kind) (l := next :: ahead) h
      have hdrop := List.dropWhile_cons_of_pos (p := fun t => passes t.kind) (l := next :: ahead) h
      rw [if_pos h, ih, htake, hdrop, List.reverse_cons, List.append_assoc, List.singleton_append]
    · simp [h, land]

/-- The way to the next token of interest puts behind what the search passes. -/
lemma advance_eq_land (reach : Reach) (c : Cursor) :
    c.advance reach =
      land ((c.remaining.takeWhile fun t => reach.passes t.kind).reverse ++
          (c.current?.toList ++ c.behind))
        (c.remaining.dropWhile fun t => reach.passes t.kind) := by
  rw [advance, shift_eq_land]
  rcases c.remaining with _ | ⟨t, a⟩
  · rfl
  · exact seek_eq_land _ _ _ _

lemma behind_shift (c : Cursor) : c.shift.behind = c.current?.toList ++ c.behind := by
  rw [shift_eq_land, behind_land]

lemma isBlank_of_passes {reach : Reach} {kind : TokenKind} (h : reach.passes kind = true) :
    kind.isBlank = true := by
  cases reach
  · exact (Bool.or_eq_true _ _).mpr (.inl h)
  · exact h

/-- On the way to the next token of interest only tokens are passed that the search
passes. -/
lemma behind_advance (reach : Reach) (c : Cursor) :
    ∃ passed, (c.advance reach).behind = passed ++ c.shift.behind ∧
      ∀ t ∈ passed, reach.passes t.kind = true := by
  refine ⟨(c.remaining.takeWhile fun t => reach.passes t.kind).reverse, ?_, fun t ht => ?_⟩
  · rw [advance_eq_land, behind_land, behind_shift]
  · have hpasses := List.mem_takeWhile_imp (List.mem_reverse.mp ht)
    exact hpasses

/-- A step back and a step on. -/
lemma shift_unshift (h : c.current?.isSome) : c.unshift.shift = c := by
  rcases c with a | ⟨(_ | ⟨p, b⟩), t, a⟩ | b
  · simp [current?] at h
  · rfl
  · rfl
  · simp [current?] at h

lemma unshift_shift (h : c.shift.current?.isSome) : c.shift.unshift = c := by
  rcases c with (_ | ⟨t, a⟩) | ⟨b, t, (_ | ⟨n, a⟩)⟩ | b <;>
    simp_all [shift, unshift, unshift?, current?]

lemma here?_unshift (h : c.current?.isSome) :
    c.unshift.here? = c.behind.head?.map (·.kind.plain) := by
  rcases c with a | ⟨(_ | ⟨p, b⟩), t, a⟩ | b
  · simp [current?] at h
  · rfl
  · rfl
  · simp [current?] at h

end Cursor

end FrontEnd
