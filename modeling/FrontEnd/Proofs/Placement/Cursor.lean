/-
The places of a cursor in tokens that stand in order.

Further on in the list is further on in the text.  A cursor behind the last token
stands at the end of the text; before the first token it would do so too, so it must
have gone on at least once.
-/
import FrontEnd.Proofs.Cursor.Left
import FrontEnd.Proofs.Lexical.Order

namespace FrontEnd

namespace Cursor

/-- The cursor stands on a token, or behind the last one, of tokens in order. -/
structure Placed (c : Cursor) : Prop where
  inOrder : Token.InOrder c.toList
  position_pos : 0 < c.position

variable {c d : Cursor}

/-- Where a cursor stands on a token, its place is that of the token. -/
lemma Placed.exists_token (hc : c.Placed) (hleft : 0 < c.left) :
    ∃ t, c.toList[c.position - 1]? = some t ∧ c.startLocation = t.range.start ∧
      c.stopLocation = t.range.stop := by
  rcases c with a | ⟨b, t, a⟩ | b
  · exact absurd hc.position_pos (by simp [position])
  · exact ⟨t, by simp [position], rfl, rfl⟩
  · exact absurd hleft (by simp [left])

/-- Behind the last token, the place is the end of that token. -/
lemma location_of_left_eq_zero (hleft : c.left = 0) :
    c.startLocation = c.stopLocation ∧
      c.stopLocation = (c.toList.getLast?).elim .origin (·.range.stop) := by
  rcases c with a | ⟨b, t, a⟩ | b
  · simp [left] at hleft
  · simp [left] at hleft
  · simp [startLocation, stopLocation, range, current?, last?, Range.point]

lemma Placed.start_lt_stop (hc : c.Placed) (hleft : 0 < c.left) :
    c.startLocation < c.stopLocation := by
  obtain ⟨t, ht, hstart, hstop⟩ := hc.exists_token hleft
  rw [hstart, hstop]
  exact hc.inOrder.start_lt_stop t (List.mem_of_getElem? ht)

lemma Placed.start_le_stop (hc : c.Placed) : c.startLocation ≤ c.stopLocation := by
  rcases Nat.eq_zero_or_pos c.left with hleft | hleft
  · exact (location_of_left_eq_zero hleft).1.le
  · exact (hc.start_lt_stop hleft).le

/-- In the same list, a cursor further on is placed too. -/
lemma Placed.of_left_le (hc : c.Placed) (hlist : d.toList = c.toList)
    (hleft : d.left ≤ c.left) : d.Placed := by
  refine ⟨hlist ▸ hc.inOrder, ?_⟩
  have h₁ := c.position_add_left
  have h₂ := d.position_add_left
  have h₃ := hc.position_pos
  rw [hlist] at h₂
  omega

/-- A token ends before a place further on. -/
lemma Placed.stop_le_start (hc : c.Placed) (hlist : d.toList = c.toList)
    (hleft : d.left < c.left) : c.stopLocation ≤ d.startLocation := by
  have hd := hc.of_left_le hlist hleft.le
  have h₁ := c.position_add_left
  have h₂ := d.position_add_left
  obtain ⟨t, ht, -, hstop⟩ := hc.exists_token (by omega)
  rw [hlist] at h₂
  rcases Nat.eq_zero_or_pos d.left with hzero | hpos
  · -- the place behind the last token
    obtain ⟨hstart, hend⟩ := location_of_left_eq_zero hzero
    have hne : c.toList ≠ [] := List.ne_nil_of_mem (List.mem_of_getElem? ht)
    have hlast := List.getLast?_eq_some_getLast hne
    rw [hstart, hend, hlist, hstop, hlast, Option.elim_some]
    rw [List.getLast?_eq_getElem?] at hlast
    rcases (show c.position - 1 ≤ c.toList.length - 1 by omega).eq_or_lt with heq | hlt
    · rw [heq, hlast, Option.some.injEq] at ht
      rw [ht]
    · refine (hc.inOrder.stop_le_start_of_lt hlt ht hlast).trans ?_
      exact (hc.inOrder.start_lt_stop _ (List.getLast_mem hne)).le
  · obtain ⟨u, hu, hstart, -⟩ := hd.exists_token hpos
    rw [hlist] at hu
    rw [hstart, hstop]
    have h₃ := hc.position_pos
    exact hc.inOrder.stop_le_start_of_lt (show c.position - 1 < d.position - 1 by omega) ht hu

lemma Placed.stop_le_stop (hc : c.Placed) (hlist : d.toList = c.toList)
    (hleft : d.left ≤ c.left) : c.stopLocation ≤ d.stopLocation := by
  rcases hleft.eq_or_lt with heq | hlt
  · rw [eq_of_left_eq hlist heq]
  · exact (hc.stop_le_start hlist hlt).trans (hc.of_left_le hlist hleft).start_le_stop

lemma Placed.start_le_start (hc : c.Placed) (hlist : d.toList = c.toList)
    (hleft : d.left ≤ c.left) : c.startLocation ≤ d.startLocation := by
  rcases hleft.eq_or_lt with heq | hlt
  · rw [eq_of_left_eq hlist heq]
  · exact hc.start_le_stop.trans (hc.stop_le_start hlist hlt)

lemma Placed.advance (hc : c.Placed) {reach : Reach} : (c.advance reach).Placed :=
  hc.of_left_le (toList_advance _ _) ((left_advance_le reach c).trans (Nat.sub_le _ _))

/-- What is further on than the next token starts behind the current one, also at the end
of the text. -/
lemma Placed.stop_le_start_of_shift (hc : c.Placed) (hlist : d.toList = c.toList)
    (hleft : d.left ≤ c.left - 1) : c.stopLocation ≤ d.startLocation := by
  rcases Nat.eq_zero_or_pos c.left with hzero | hpos
  · have hd : d.left = 0 := by omega
    rw [(location_of_left_eq_zero hd).1]
    exact hc.stop_le_stop hlist (by omega)
  · exact hc.stop_le_start hlist (by omega)

lemma Placed.stop_le_start_advance (hc : c.Placed) {reach : Reach} :
    c.stopLocation ≤ (c.advance reach).startLocation :=
  hc.stop_le_start_of_shift (toList_advance reach c) (left_advance_le reach c)

lemma Placed.stop_le_start_shift (hc : c.Placed) : c.stopLocation ≤ c.shift.startLocation :=
  hc.stop_le_start_of_shift (toList_shift c) (left_shift c).le

end Cursor

end FrontEnd
