/-
The tokens of a text stand in order.

No token is empty, and each token ends before the next one starts.
-/
import FrontEnd.Lexical.Tokens
import FrontEnd.Proofs.Lexical.Lexeme
import FrontEnd.Proofs.Source.LineTable

namespace FrontEnd

namespace Token

/-- Tokens that are not empty and stand one after the other. -/
structure InOrder (tokens : List Token) : Prop where
  start_lt_stop : ∀ t ∈ tokens, t.range.start < t.range.stop
  stop_le_start : tokens.Pairwise fun t u => t.range.stop ≤ u.range.start

/-- Of two tokens in order, the earlier one ends before the later one starts. -/
lemma InOrder.stop_le_start_of_lt {tokens : List Token} (h : InOrder tokens) {i j : Nat}
    (hij : i < j) {t u : Token} (ht : tokens[i]? = some t) (hu : tokens[j]? = some u) :
    t.range.stop ≤ u.range.start := by
  obtain ⟨hi, rfl⟩ := List.getElem?_eq_some_iff.mp ht
  obtain ⟨hj, rfl⟩ := List.getElem?_eq_some_iff.mp hu
  exact List.pairwise_iff_getElem.mp h.stop_le_start i j hi hj hij

lemma byteSize_pos {text : List Char} (h : text ≠ []) : 0 < Text.byteSize text := by
  cases text with
  | nil => exact absurd rfl h
  | cons c rest =>
    have := Char.utf8Size_pos c
    simp only [Text.byteSize]
    omega

/-- Lexemes that are not empty give tokens in order, none of which starts before the
first byte. -/
lemma inOrder_place {table : LineTable} (htable : table.Ascends) (offset : Nat)
    (lexemes : List Lexeme) (hne : ∀ lexeme ∈ lexemes, lexeme.text ≠ []) :
    InOrder (place table offset lexemes) ∧
      ∀ t ∈ place table offset lexemes, table.locate offset ≤ t.range.start := by
  induction lexemes generalizing offset with
  | nil => exact ⟨⟨by simp [place], by simp [place]⟩, by simp [place]⟩
  | cons lexeme later ih =>
    obtain ⟨hlexeme, hlater⟩ := List.forall_mem_cons.mp hne
    have hpos := byteSize_pos hlexeme
    obtain ⟨⟨hlt, hle⟩, hbehind⟩ := ih (offset + Text.byteSize lexeme.text) hlater
    have hbound : table.locate offset ≤ table.locate (offset + Text.byteSize lexeme.text) :=
      LineTable.locate_le htable (by omega)
    simp only [place, Span.covering]
    refine ⟨⟨List.forall_mem_cons.mpr ⟨?_, hlt⟩, List.pairwise_cons.mpr ⟨hbehind, hle⟩⟩,
      List.forall_mem_cons.mpr ⟨le_refl _, fun t ht => hbound.trans (hbehind t ht)⟩⟩
    exact LineTable.locate_lt htable (Nat.lt_add_of_pos_right hpos)

/-- The tokens of a text stand in order. -/
theorem inOrder_ofText (text : String) : InOrder (ofText text) :=
  (inOrder_place (LineTable.ascends_ofChars _) 0 _ fun _ => Lexeme.text_ne_nil_of_mem).1

end Token

end FrontEnd
