/-
How far a cursor stands from both ends of its list.

`Cursor.position` counts the shifts from before the first token, `Cursor.left`
those that are left until behind the last one; together they are one more than the
tokens.  A shift takes one from what is left, and so does every move onward but
those of a cursor behind the last token.  Only steps back add one.
-/
import Mathlib.Order.Nat
import Mathlib.Tactic.Common
import FrontEnd.Grammar.Recovery
import FrontEnd.Grammar.Lookahead

namespace FrontEnd

namespace Cursor

variable {c d : Cursor}

/-- How many shifts lead from before the first token to a cursor. -/
def position : Cursor → Nat
  | start _ => 0
  | on behind _ _ | finish behind => behind.length + 1

/-- How many shifts lead from a cursor to behind the last token. -/
def left : Cursor → Nat
  | start ahead | on _ _ ahead => ahead.length + 1
  | finish _ => 0

lemma position_add_left (c : Cursor) : c.position + c.left = c.toList.length + 1 := by
  cases c <;> simp [position, left]
  omega

/-- A list and a place in it are all there is to a cursor. -/
lemma eq_of_left_eq (hlist : c.toList = d.toList) (hleft : c.left = d.left) : c = d := by
  have hlen := congrArg List.length hlist
  rcases c with a | ⟨b, t, a⟩ | b <;> rcases d with a' | ⟨b', t', a'⟩ | b' <;>
    simp only [toList_start, toList_on, toList_finish, left, List.length_append,
      List.length_reverse, List.length_cons, Nat.add_right_cancel_iff, Nat.succ_ne_zero,
      reduceCtorEq, Nat.zero_ne_add_one] at hlist hleft hlen ⊢
  · rw [hlist]
  · omega
  · omega
  · obtain ⟨hb, ht⟩ := List.append_inj hlist (by simp; omega)
    simp only [List.reverse_inj, List.cons.injEq] at hb ht
    simp [hb, ht]
  · simpa using hlist

/-! ### Moves -/

attribute [grind =] toList_shift toList_unshift toList_advance

@[grind =] lemma left_shift (c : Cursor) : c.shift.left = c.left - 1 := by
  rcases c with (_ | ⟨t, a⟩) | ⟨b, t, (_ | ⟨n, a⟩)⟩ | b <;> simp [shift, left]

lemma left_unshift (h : c.current?.isSome) : c.unshift.left = c.left + 1 := by
  rcases c with a | ⟨(_ | ⟨p, b⟩), t, a⟩ | b <;> simp [unshift, unshift?, left, current?] at h ⊢

lemma unshift_of_current?_eq_none (h : c.current? = none) : c.unshift = c := by
  rcases c with a | ⟨b, t, a⟩ | b <;> simp [unshift, unshift?, current?] at h ⊢

@[grind! .] lemma left_unshift_le (c : Cursor) : c.unshift.left ≤ c.left + 1 := by
  rcases h : c.current? with _ | t
  · rw [unshift_of_current?_eq_none h]
    omega
  · rw [left_unshift (by simp [h])]

lemma left_seek_le (passes : TokenKind → Bool) (behind : List Token) (token : Token)
    (ahead : List Token) : (seek passes behind token ahead).left ≤ ahead.length + 1 := by
  induction ahead generalizing behind token with
  | nil => unfold seek; split <;> simp [left]
  | cons next ahead ih =>
    unfold seek
    split
    · exact (ih _ _).trans (by simp)
    · simp [left]

@[grind! .] lemma left_advance_le (reach : Reach) (c : Cursor) : (c.advance reach).left ≤ c.left - 1 := by
  rw [← left_shift, advance]
  rcases c.shift with a | ⟨b, t, a⟩ | b
  · rfl
  · exact left_seek_le _ _ _ _
  · rfl

lemma toList_shiftBy (n : Nat) (c : Cursor) : (c.shiftBy n).toList = c.toList := by
  induction n generalizing c with
  | zero => rfl
  | succ n ih => rw [shiftBy, ih, toList_shift]

lemma left_shiftBy_le (n : Nat) (c : Cursor) : (c.shiftBy n).left ≤ c.left := by
  induction n generalizing c with
  | zero => rfl
  | succ n ih =>
    rw [shiftBy]
    refine (ih _).trans ?_
    rw [left_shift]
    omega

@[grind =] lemma toList_toEndOfLine (c : Cursor) : c.toEndOfLine.toList = c.toList :=
  toList_shiftBy _ _

@[grind! .] lemma left_toEndOfLine_le (c : Cursor) : c.toEndOfLine.left ≤ c.left :=
  left_shiftBy_le _ _

/-! ### Recovery -/

lemma toList_seekBoundary (depth : Nat) (behind : List Token) (token : Token)
    (ahead : List Token) :
    (seekBoundary depth behind token ahead).toList = behind.reverse ++ token :: ahead := by
  induction ahead generalizing depth behind token with
  | nil =>
    unfold seekBoundary seekBoundary.stop
    split
    · simp
    · split <;> simp
  | cons next ahead ih =>
    unfold seekBoundary seekBoundary.stop
    split
    · rw [ih]; simp
    · split <;> simp

@[grind =] lemma toList_resynchronize (c : Cursor) : c.resynchronize.toList = c.toList := by
  rcases c with a | ⟨b, t, a⟩ | b
  · rfl
  · rw [resynchronize, toList_seekBoundary, toList_on]
  · rfl

/-- The way to the next boundary leads back at most one token, and this only from a
closing brace. -/
lemma left_seekBoundary_le (depth : Nat) (behind : List Token) (token : Token)
    (ahead : List Token) :
    (seekBoundary depth behind token ahead).left ≤
      ahead.length + 1 + if token.kind = .punctuator .rightBrace then 1 else 0 := by
  induction ahead generalizing depth behind token with
  | nil =>
    unfold seekBoundary seekBoundary.stop seekBoundary.boundary?
    split
    · simp [left]
    · rename_i closes h
      split
      · refine (left_unshift_le _).trans ?_
        grind -ring -linarith [left]
      · simp [left]
  | cons next ahead ih =>
    unfold seekBoundary seekBoundary.stop seekBoundary.boundary?
    split
    · refine (ih _ _ _).trans ?_
      simp only [List.length_cons]
      split <;> split <;> omega
    · rename_i closes h
      split
      · refine (left_unshift_le _).trans ?_
        grind -ring -linarith [left]
      · simp [left]

@[grind! .] lemma left_resynchronize_le (c : Cursor) :
    c.resynchronize.left ≤
      c.left + if c.here? = some (.punctuator .rightBrace) then 1 else 0 := by
  rcases c with a | ⟨b, t, a⟩ | b
  · simp [resynchronize]
  · refine (left_seekBoundary_le 0 b t a).trans ?_
    rcases t with ⟨kind, span, range⟩
    cases kind <;> simp [left, here?, kind?, current?, TokenKind.plain]
  · simp [resynchronize]

/-- From a closing brace the way to the next boundary leads back to the token before. -/
lemma resynchronize_of_rightBrace (h : c.here? = some (.punctuator .rightBrace)) :
    c.resynchronize = c.unshift := by
  rcases c with a | ⟨b, ⟨kind, span, range⟩, a⟩ | b
  · simp [here?, kind?, current?] at h
  · cases kind <;> simp [here?, kind?, current?, TokenKind.plain] at h
    subst h
    cases a <;> simp [resynchronize, seekBoundary, seekBoundary.boundary?, seekBoundary.stop]
  · simp [here?, kind?, current?] at h

/-- The token of interest behind the token before a closing brace is the brace. -/
lemma advance_unshift_of_rightBrace (h : c.here? = some (.punctuator .rightBrace)) :
    c.unshift.advance .anyLine = c := by
  rcases c with a | ⟨b, ⟨kind, span, range⟩, a⟩ | b
  · simp [here?, kind?, current?] at h
  · cases kind <;> simp [here?, kind?, current?, TokenKind.plain] at h
    subst h
    rcases b with _ | ⟨p, b⟩ <;> cases a <;>
      simp [unshift, unshift?, advance, shift, skipCurrent, seek, Reach.passes, TokenKind.isBlank,
        TokenKind.isInlineBlank, TokenKind.isLineBreak]
  · simp [here?, kind?, current?] at h

/-! ### The next token of interest -/

lemma kind?_seek (passes : TokenKind → Bool) (behind : List Token) (token : Token)
    (ahead : List Token) :
    (seek passes behind token ahead).kind? =
      ((token :: ahead).find? fun t => !passes t.kind).map (·.kind) := by
  induction ahead generalizing behind token with
  | nil =>
    unfold seek
    by_cases hpasses : passes token.kind = true <;> simp [hpasses, kind?, current?]
  | cons next ahead ih =>
    unfold seek
    by_cases hpasses : passes token.kind = true
    · simp [hpasses, ih]
    · simp [hpasses, kind?, current?]

/-- What the grammar finds ahead is what it sees when it has gone on. -/
@[grind =] lemma here?_advance (reach : Reach) (c : Cursor) :
    (c.advance reach).here? = c.following? reach := by
  have hkind : (c.advance reach).kind? = (c.next? reach).map (·.kind) := by
    rcases c with (_ | ⟨t, a⟩) | ⟨b, t, (_ | ⟨n, a⟩)⟩ | b
    · rfl
    · exact kind?_seek _ _ _ _
    · rfl
    · exact kind?_seek _ _ _ _
    · rfl
  rw [here?, hkind, following?, Option.map_map]
  rfl

lemma here?_shift_of_glued? {kind : TokenKind} (h : c.glued? 0 = some kind) :
    c.shift.here? = some kind := by
  rcases c with (_ | ⟨t, a⟩) | ⟨b, t, (_ | ⟨n, a⟩)⟩ | b <;>
    simp [glued?, remaining, Option.filter_eq_some_iff] at h
  · simp [shift, here?, kind?, current?, h.1]
  · simp [shift, here?, kind?, current?, h.1]

grind_pattern here?_shift_of_glued? => c.glued? 0, some kind

lemma here?_shift_shift_of_glued? {kind : TokenKind} (h : c.glued? 1 = some kind) :
    c.shift.shift.here? = some kind := by
  rcases c with (_ | ⟨t, (_ | ⟨u, a⟩)⟩) | ⟨b, t, (_ | ⟨n, (_ | ⟨u, a⟩)⟩)⟩ | b <;>
    simp [glued?, remaining, Option.filter_eq_some_iff] at h
  · simp [shift, here?, kind?, current?, h.1]
  · simp [shift, here?, kind?, current?, h.1]

lemma find?_not_eq_head?_dropWhile {α : Type} (p : α → Bool) (l : List α) :
    l.find? (fun a => !p a) = (l.dropWhile p).head? := by
  induction l with
  | nil => rfl
  | cons a l ih =>
    by_cases ha : p a = true
    · simp [ha, ih]
    · simp [ha]

/-- The binary operator ahead is the next token on the line. -/
lemma following?_of_binaryAhead? {operator : String} (h : c.binaryAhead? = some operator) :
    ∃ kind, c.following? .sameLine = some kind ∧ kind.binary? = some operator := by
  rw [binaryAhead?, FrontEnd.binaryAhead?] at h
  rw [following?, next?]
  rcases hdrop : c.remaining.dropWhile Token.isInlineBlank with _ | ⟨token, later⟩
  · simp [hdrop] at h
  · have hfind : c.remaining.find? (fun t => !Reach.sameLine.passes t.kind) = some token := by
      have hhead := find?_not_eq_head?_dropWhile Token.isInlineBlank c.remaining
      rwa [hdrop, List.head?_cons] at hhead
    rw [hdrop] at h
    simp only [Option.ite_none_right_eq_some] at h
    obtain ⟨-, hbinary⟩ := h
    refine ⟨token.kind, ?_, hbinary⟩
    rw [hfind, Option.map_some]
    cases hkind : token.kind <;> simp_all [TokenKind.binary?, TokenKind.plain]

/-! ### Questions whose answers say that tokens are left -/

lemma left_pos_of_current? (h : c.current?.isSome) : 0 < c.left := by
  rcases c with a | ⟨b, t, a⟩ | b <;> simp [current?, left] at h ⊢

@[grind →] lemma left_pos_of_here? {kind : TokenKind} (h : c.here? = some kind) : 0 < c.left := by
  rcases c with a | ⟨b, t, a⟩ | b <;> simp [here?, kind?, current?, left] at h ⊢

@[grind →] lemma current?_isSome_of_here? {kind : TokenKind} (h : c.here? = some kind) :
    c.current?.isSome := by
  rcases hc : c.current? with _ | t
  · simp [here?, kind?, hc] at h
  · rfl

@[grind →] lemma left_pos_of_any_here? {p : TokenKind → Bool} (h : c.here?.any p = true) :
    0 < c.left := by
  rcases hkind : c.here? with _ | kind
  · simp [hkind] at h
  · exact left_pos_of_here? hkind

@[grind →] lemma left_pos_of_bind_here? {α : Type} {f : TokenKind → Option α} {a : α}
    (h : c.here?.bind f = some a) : 0 < c.left := by
  obtain ⟨kind, hkind, -⟩ := Option.bind_eq_some_iff.mp h
  exact left_pos_of_here? hkind

lemma left_pos_of_remaining (h : c.remaining ≠ []) : 1 < c.left := by
  rcases c with (_ | _) | ⟨b, t, (_ | _)⟩ | b <;> simp [remaining, left] at h ⊢

@[grind →] lemma left_pos_of_glued? {n : Nat} {kind : TokenKind} (h : c.glued? n = some kind) :
    1 < c.left := by
  refine left_pos_of_remaining fun hr => ?_
  simp [glued?, hr] at h

@[grind →] lemma left_pos_of_following? {reach : Reach} {kind : TokenKind}
    (h : c.following? reach = some kind) : 1 < c.left := by
  refine left_pos_of_remaining fun hr => ?_
  simp [following?, next?, hr] at h

@[grind →] lemma left_pos_of_any_following? {reach : Reach} {p : TokenKind → Bool}
    (h : (c.following? reach).any p = true) : 1 < c.left := by
  rcases hkind : c.following? reach with _ | kind
  · simp [hkind] at h
  · exact left_pos_of_following? hkind

@[grind →] lemma left_pos_of_binaryAhead? {operator : String} (h : c.binaryAhead? = some operator) :
    1 < c.left := by
  refine left_pos_of_remaining fun hr => ?_
  simp [binaryAhead?, FrontEnd.binaryAhead?, hr] at h

end Cursor

end FrontEnd
