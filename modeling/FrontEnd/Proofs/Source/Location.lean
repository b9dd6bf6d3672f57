/-
The order of locations.

Locations stand in reading order, by line and then by column.
-/
import Mathlib.Order.Defs.LinearOrder
import Mathlib.Tactic.Common
import FrontEnd.Source.Location

namespace FrontEnd

namespace Location

instance : LT Location := ⟨Before⟩

/-- At the same place or before it. -/
instance : LE Location := ⟨fun l m => ¬ m.Before l⟩

lemma lt_iff {l m : Location} :
    l < m ↔ l.line < m.line ∨ l.line = m.line ∧ l.column < m.column := Iff.rfl

lemma le_iff {l m : Location} :
    l ≤ m ↔ l.line < m.line ∨ l.line = m.line ∧ l.column ≤ m.column := by
  change ¬ m.Before l ↔ _
  unfold Before
  omega

instance : LinearOrder Location where
  le_refl l := by rw [le_iff]; omega
  le_trans l m n := by simp only [le_iff]; omega
  lt_iff_le_not_ge l m := by simp only [le_iff, lt_iff]; omega
  le_antisymm l m hlm hml := by
    rw [le_iff] at hlm hml
    obtain ⟨line, column⟩ := l
    obtain ⟨line', column'⟩ := m
    simp only [mk.injEq] at *
    omega
  le_total l m := by simp only [le_iff]; omega
  toDecidableLE l m := inferInstanceAs (Decidable (¬ m.Before l))

end Location

end FrontEnd
