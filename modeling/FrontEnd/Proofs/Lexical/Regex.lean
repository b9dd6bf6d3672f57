/-
Regular expressions match what they describe.

The derivative of an expression by a character describes what may follow this
character, and simplifying it on the way changes nothing.  So `longest` finds a
beginning of the text that the expression describes, and there is no longer one
(`Regex.matches_take_longest`, `Regex.length_le_longest`).
-/
import Mathlib.Tactic.Common
import FrontEnd.Lexical.Regex

namespace FrontEnd

namespace Regex

variable {r s : Regex} {c : Char} {text : List Char}

/-! ### What the constructors describe -/

@[simp] lemma matches_never : ¬ Matches never text := by
  rintro ⟨⟩

@[simp] lemma matches_empty : Matches empty text ↔ text = [] := by
  constructor
  · rintro ⟨⟩
    rfl
  · rintro rfl
    exact .empty

@[simp] lemma matches_one {accepts : Char → Bool} :
    Matches (one accepts) text ↔ ∃ c, text = [c] ∧ accepts c = true := by
  constructor
  · rintro ⟨⟩
    exact ⟨_, rfl, by assumption⟩
  · rintro ⟨c, rfl, hc⟩
    exact .one hc

lemma matches_seq : Matches (seq r s) text ↔ ∃ t u, text = t ++ u ∧ Matches r t ∧ Matches s u := by
  constructor
  · rintro ⟨⟩
    exact ⟨_, _, rfl, by assumption, by assumption⟩
  · rintro ⟨t, u, rfl, ht, hu⟩
    exact .seq ht hu

@[simp] lemma matches_alt : Matches (alt r s) text ↔ Matches r text ∨ Matches s text := by
  constructor
  · rintro (_ | _ | _)
    · exact .inl (by assumption)
    · exact .inr (by assumption)
  · rintro (h | h)
    · exact .left h
    · exact .right h

/-- Where a repetition matches more than nothing, some turn of it takes the first
character. -/
lemma matches_many_cons :
    Matches (many r) (c :: text) ↔
      ∃ t u, text = t ++ u ∧ Matches r (c :: t) ∧ Matches (many r) u := by
  constructor
  · intro h
    generalize hm : many r = m at h
    generalize hw : c :: text = w at h
    induction h with
    | @more r' t u ht hu _ ih =>
      obtain rfl : r = r' := by injection hm
      rcases t with _ | ⟨d, t⟩
      · exact ih rfl hw
      · rw [List.cons_append, List.cons.injEq] at hw
        obtain ⟨rfl, rfl⟩ := hw
        exact ⟨t, u, rfl, ht, hu⟩
    | done => simp at hw
    | _ => simp at hm
  · rintro ⟨t, u, rfl, ht, hu⟩
    exact .more ht hu

/-! ### Simplified expressions -/

@[simp] lemma matches_seqSimple : Matches (seqSimple r s) text ↔ Matches (seq r s) text := by
  unfold seqSimple
  split <;> simp [matches_seq]

@[simp] lemma matches_altSimple : Matches (altSimple r s) text ↔ Matches (alt r s) text := by
  unfold altSimple
  split <;> simp

/-! ### Derivatives -/

lemma nullable_iff (r : Regex) : r.nullable = true ↔ Matches r [] := by
  induction r with
  | never => simp [nullable]
  | empty => simp [nullable]
  | one accepts => simp [nullable]
  | seq r s ihr ihs => simp [nullable, matches_seq, ihr, ihs]
  | alt r s ihr ihs => simp [nullable, ihr, ihs]
  | many r _ => exact iff_of_true rfl .done

/-- A sequence takes the first character in its first part, or, if that may be empty, in
its second one. -/
lemma matches_seq_cons :
    Matches (seq r s) (c :: text) ↔
      (∃ t u, text = t ++ u ∧ Matches r (c :: t) ∧ Matches s u) ∨
        Matches r [] ∧ Matches s (c :: text) := by
  rw [matches_seq]
  constructor
  · rintro ⟨_ | ⟨d, t⟩, u, heq, ht, hu⟩
    · exact .inr ⟨ht, heq ▸ hu⟩
    · rw [List.cons_append, List.cons.injEq] at heq
      obtain ⟨rfl, rfl⟩ := heq
      exact .inl ⟨t, u, rfl, ht, hu⟩
  · rintro (⟨t, u, rfl, ht, hu⟩ | ⟨hr, hs⟩)
    · exact ⟨c :: t, u, rfl, ht, hu⟩
    · exact ⟨[], c :: text, rfl, hr, hs⟩

/-- The derivative describes what may follow the character. -/
theorem matches_derivative (r : Regex) (c : Char) (text : List Char) :
    Matches (r.derivative c) text ↔ Matches r (c :: text) := by
  induction r generalizing text with
  | never => simp [derivative]
  | empty => simp [derivative]
  | one accepts =>
    unfold derivative
    split
    next hc => simp [hc, and_comm]
    next hc => simp [hc]
  | seq r s ihr ihs =>
    have hseq : Matches (seq (r.derivative c) s) text ↔
        ∃ t u, text = t ++ u ∧ Matches r (c :: t) ∧ Matches s u := by
      simp only [matches_seq, ihr]
    rw [matches_seq_cons, ← nullable_iff, ← hseq, ← ihs, derivative]
    split
    next hr => simp [hr]
    next hr => simp [hr]
  | alt r s ihr ihs => simp [derivative, ihr, ihs]
  | many r ih =>
    simp only [derivative, matches_seqSimple, matches_seq, ih, matches_many_cons]

/-! ### The longest match -/

/-- What `longest` finds is described by the expression. -/
theorem matches_take_longest (h : r.longest text ≠ 0) :
    Matches r (text.take (r.longest text)) := by
  induction text generalizing r with
  | nil => simp [longest] at h
  | cons c rest ih =>
    unfold longest at h ⊢
    simp only at h ⊢
    split at h
    next => contradiction
    next hnever =>
      rw [if_neg hnever]
      rcases hrest : (r.derivative c).longest rest with _ | n
      · simp only [hrest] at h ⊢
        split at h
        next hnull =>
          rw [if_pos hnull, List.take_succ_cons, List.take_zero, ← matches_derivative,
            ← nullable_iff]
          exact hnull
        next => contradiction
      · have hmatch := ih (r := r.derivative c) (by simp [hrest])
        rw [hrest] at hmatch
        rw [List.take_succ_cons, ← matches_derivative]
        exact hmatch

/-- No longer beginning of the text is described by the expression. -/
theorem length_le_longest {n : Nat} (hn : n ≤ text.length) (h : Matches r (text.take n)) :
    n ≤ r.longest text := by
  induction text generalizing r n with
  | nil =>
    rw [List.length_nil] at hn
    omega
  | cons c rest ih =>
    rcases n with _ | n
    · exact Nat.zero_le _
    rw [List.take_succ_cons, ← matches_derivative] at h
    have hn' : n ≤ rest.length := by simpa using hn
    have hlater := ih hn' h
    unfold longest
    simp only
    split
    next hnever =>
      rcases hd : r.derivative c <;> simp [hd, isNever] at hnever h
    next =>
      rcases hrest : (r.derivative c).longest rest with _ | m
      · have hzero : n = 0 := by omega
        subst hzero
        rw [List.take_zero, ← nullable_iff] at h
        simp [h]
      · simp only [hrest] at hlater ⊢
        omega

/-! ### Fixed texts -/

@[simp] lemma matches_literal {chars : List Char} : Matches (literal chars) text ↔ text = chars := by
  induction chars generalizing text with
  | nil => simp [literal]
  | cons c rest ih =>
    simp only [literal, matches_seq, matches_one, ih, decide_eq_true_eq]
    constructor
    · rintro ⟨_, _, rfl, ⟨_, rfl, rfl⟩, rfl⟩
      rfl
    · rintro rfl
      exact ⟨[c], rest, rfl, ⟨c, rfl, rfl⟩, rfl⟩

end Regex

end FrontEnd
