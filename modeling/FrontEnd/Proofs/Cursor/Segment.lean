/-
The tokens between two cursors.

Of two cursors in one list, the earlier one has fewer tokens behind it.  In tokens that
stand in order, the tokens from the earlier cursor to the later one are those that lie within
the range from the start of the one to the end of the other.
-/
import FrontEnd.Proofs.Cursor.Behind
import FrontEnd.Proofs.Placement.Cursor

namespace FrontEnd

/-- A range lies within another one. -/
def Range.Within (r s : Range) : Prop :=
  s.start ≤ r.start ∧ r.stop ≤ s.stop

instance (r s : Range) : Decidable (r.Within s) :=
  inferInstanceAs (Decidable (_ ∧ _))

namespace Cursor

variable {c d : Cursor} {t : Token}

lemma toList_eq_append (c : Cursor) : c.toList = c.behind.reverse ++ c.ahead := by
  rw [toList, consumed, ahead, List.append_assoc]

lemma length_behind_add_left (hc : 0 < c.position) :
    c.behind.length + c.left = c.toList.length := by
  rcases c with a | ⟨b, t, a⟩ | b
  · exact absurd hc (Nat.lt_irrefl 0)
  · simp [behind, left]
  · simp [behind, left]

/-- What stands behind a cursor stands behind a later one too. -/
lemma exists_passed (hlist : d.toList = c.toList) (hpos : 0 < c.position)
    (hleft : d.left ≤ c.left) : ∃ passed, d.behind = passed ++ c.behind := by
  have hdpos : 0 < d.position := by
    have hc := c.position_add_left
    have hd := d.position_add_left
    rw [hlist] at hd
    omega
  have hc : c.consumed <+: c.toList := ⟨c.ahead, (toList_eq_append c).symm⟩
  have hd : d.consumed <+: c.toList := ⟨d.ahead, hlist ▸ (toList_eq_append d).symm⟩
  have hlength : c.consumed.length ≤ d.consumed.length := by
    have hc := length_behind_add_left hpos
    have hd := length_behind_add_left hdpos
    rw [hlist] at hd
    rw [consumed, consumed, List.length_reverse, List.length_reverse]
    omega
  have hstarts := List.prefix_of_prefix_length_le hc hd hlength
  obtain ⟨passed, hpassed⟩ := List.reverse_prefix.mp hstarts
  exact ⟨passed, hpassed.symm⟩

/-- A token behind a cursor is the current token of an earlier one. -/
lemma exists_on_of_mem_behind (h : t ∈ c.behind) :
    ∃ d : Cursor, d.toList = c.toList ∧ c.left < d.left ∧ d.current? = some t := by
  obtain ⟨later, earlier, heq⟩ := List.append_of_mem h
  refine ⟨on earlier t (later.reverse ++ c.ahead), ?_, ?_, rfl⟩
  · rw [toList_on, toList_eq_append c, heq]
    simp
  · rcases c with a | ⟨b, u, a⟩ | b
    · cases h
    · have hlength : (later.reverse ++ (on b u a).ahead).length = later.length + (a.length + 1) := by
        simp [ahead, current?, remaining]
      rw [left, left, hlength]
      omega
    · rw [left, left]
      exact Nat.succ_pos _

/-- A token ahead of a cursor is the current token of that cursor or a later one. -/
lemma exists_on_of_mem_ahead (hc : 0 < c.position) (h : t ∈ c.ahead) :
    ∃ d : Cursor, d.toList = c.toList ∧ d.left ≤ c.left ∧ d.current? = some t := by
  obtain ⟨earlier, later, heq⟩ := List.append_of_mem h
  refine ⟨on (earlier.reverse ++ c.behind) t later, ?_, ?_, rfl⟩
  · rw [toList_on, toList_eq_append c, heq]
    simp
  · rcases c with a | ⟨b, u, a⟩ | b
    · exact absurd hc (Nat.lt_irrefl 0)
    · have hlength := congrArg List.length heq
      simp [left, ahead, current?, remaining] at hlength ⊢
      omega
    · simp [ahead, current?, remaining] at h

lemma startLocation_of_current? (h : c.current? = some t) : c.startLocation = t.range.start := by
  rw [startLocation, range, h]

lemma stopLocation_of_current? (h : c.current? = some t) : c.stopLocation = t.range.stop := by
  rw [stopLocation, range, h]

/-- The tokens behind a cursor end before it. -/
lemma Placed.stop_le_of_mem_behind (hc : c.Placed) (h : t ∈ c.behind) :
    t.range.stop ≤ c.startLocation := by
  obtain ⟨d, hlist, hleft, hd⟩ := exists_on_of_mem_behind h
  have hplaced : d.Placed := by
    refine ⟨hlist ▸ hc.inOrder, ?_⟩
    rcases d with a | ⟨b, u, a⟩ | b <;> simp [current?, position] at hd ⊢
  rw [← stopLocation_of_current? hd]
  exact hplaced.stop_le_start hlist.symm hleft

/-- The tokens ahead of a cursor start there or later. -/
lemma Placed.le_start_of_mem_ahead (hc : c.Placed) (h : t ∈ c.ahead) :
    c.startLocation ≤ t.range.start := by
  obtain ⟨d, hlist, hleft, hd⟩ := exists_on_of_mem_ahead hc.position_pos h
  rw [← startLocation_of_current? hd]
  exact hc.start_le_start hlist hleft

/-- The tokens behind a cursor and the current one end where it ends, or before. -/
lemma Placed.stop_le_of_mem_behind_shift (hc : c.Placed) (h : t ∈ c.shift.behind) :
    t.range.stop ≤ c.stopLocation := by
  rw [behind_shift, List.mem_append, Option.mem_toList] at h
  rcases h with h | h
  · exact (stopLocation_of_current? h).ge
  · exact (hc.stop_le_of_mem_behind h).trans hc.start_le_stop

/-- The tokens from one cursor to another are those that lie within the range from the start
of the one to the end of the other. -/
lemma Placed.filter_within {passed : List Token} (hc : c.Placed)
    (hlist : d.toList = c.toList) (hleft : d.left ≤ c.left)
    (hpassed : d.shift.behind = passed ++ c.behind) :
    c.toList.filter (·.range.Within ⟨c.startLocation, d.stopLocation⟩) = passed.reverse := by
  have hd : d.Placed := hc.of_left_le hlist hleft
  have hdshift : d.shift.Placed :=
    hd.of_left_le (toList_shift d) ((left_shift d).trans_le (Nat.sub_le _ _))
  have hparts : c.toList = c.behind.reverse ++ (passed.reverse ++ d.shift.ahead) := by
    rw [← hlist, ← toList_shift d, toList_eq_append, hpassed, List.reverse_append,
      List.append_assoc]
  have hahead : c.ahead = passed.reverse ++ d.shift.ahead := by
    rw [toList_eq_append c] at hparts
    exact List.append_cancel_left hparts
  have hlt : ∀ t ∈ c.toList, t.range.start < t.range.stop := hc.inOrder.start_lt_stop
  rw [hparts, List.filter_append, List.filter_append, List.filter_eq_nil_iff.mpr,
    List.filter_eq_self.mpr, List.filter_eq_nil_iff.mpr, List.nil_append, List.append_nil]
  · -- behind the later cursor
    intro t ht hwithin
    have htlt := hlt t (by rw [hparts]; simp [ht])
    have hstart := hd.stop_le_start_shift.trans (hdshift.le_start_of_mem_ahead ht)
    exact absurd (htlt.trans_le (of_decide_eq_true hwithin).2) (not_lt.mpr hstart)
  · -- between the two
    intro t ht
    refine decide_eq_true ⟨hc.le_start_of_mem_ahead (hahead ▸ List.mem_append_left _ ht), ?_⟩
    refine hd.stop_le_of_mem_behind_shift (hpassed ▸ List.mem_append_left _ ?_)
    exact List.mem_reverse.mp ht
  · -- before the earlier one
    intro t ht hwithin
    have htlt := hlt t (by rw [hparts]; exact List.mem_append_left _ ht)
    have hstop := hc.stop_le_of_mem_behind (List.mem_reverse.mp ht)
    exact absurd ((of_decide_eq_true hwithin).1.trans_lt htlt) (not_lt.mpr hstop)

end Cursor

end FrontEnd
