/-
Lexemes are pieces of their text.

No lexeme is empty, and the texts of the lexemes of a text, one after the other, are
the text.
-/
import Mathlib.Tactic.Common
import FrontEnd.Lexical.Lexeme

namespace FrontEnd

namespace Regex

/-- A match is not longer than the text. -/
lemma longest_le (r : Regex) (text : List Char) : r.longest text ≤ text.length := by
  induction text generalizing r with
  | nil => simp [longest]
  | cons c rest ih =>
    have hrest := ih (r.derivative c)
    unfold longest
    simp only [List.length_cons]
    split
    · omega
    · split
      · split <;> omega
      · omega

end Regex

namespace Rule

/-- The rule that is chosen is one of the rules, and has a match that is not empty. -/
lemma choose?_spec {text : List Char} {rules : List Rule} {length : Nat} {rule : Rule}
    (h : choose? text rules = some (length, rule)) :
    rule ∈ rules ∧ length = rule.pattern.longest text ∧ length ≠ 0 := by
  induction rules generalizing length rule with
  | nil => simp [choose?] at h
  | cons first later ih =>
    unfold choose? at h
    rcases hlater : choose? text later with _ | ⟨best, other⟩
    · simp only [hlater] at h
      split at h
      · simp at h
      · cases h
        exact ⟨List.mem_cons_self, rfl, by assumption⟩
    · obtain ⟨hmem, hlength, hne⟩ := ih hlater
      simp only [hlater] at h
      split at h
      · cases h
        exact ⟨List.mem_cons_of_mem _ hmem, hlength, hne⟩
      · cases h
        exact ⟨List.mem_cons_self, rfl, by omega⟩

end Rule

namespace Lexeme

/-- What the rules find is a beginning of the text, and not empty. -/
lemma ofRules?_spec {rules : List Rule} {text : List Char} {lexeme : Lexeme}
    (h : ofRules? rules text = some lexeme) : lexeme.text <+: text ∧ lexeme.text ≠ [] := by
  unfold ofRules? at h
  rcases hchoice : Rule.choose? text rules with _ | ⟨length, rule⟩
  · simp [hchoice] at h
  · obtain ⟨-, hlength, hne⟩ := Rule.choose?_spec hchoice
    have hle := Regex.longest_le rule.pattern text
    simp only [hchoice, Option.map_some, Option.some.injEq] at h
    subst h
    refine ⟨List.take_prefix _ _, fun hnil => ?_⟩
    have hlen := congrArg List.length hnil
    simp only [List.length_take, List.length_nil] at hlen
    omega

lemma blockComment_text_begins (body : List Char) :
    (blockComment body).text <+: '/' :: '*' :: body := by
  unfold blockComment
  split
  · exact (List.prefix_cons_inj _).mpr ((List.prefix_cons_inj _).mpr (List.take_prefix _ _))
  · exact List.prefix_refl _

lemma blockComment_text_ne_nil (body : List Char) : (blockComment body).text ≠ [] := by
  unfold blockComment
  split <;> simp

/-- The first lexeme of a text is a beginning of it, and not empty. -/
lemma first_spec (c : Char) (rest : List Char) :
    (first c rest).text <+: c :: rest ∧ (first c rest).text ≠ [] := by
  unfold first
  split
  · exact ⟨blockComment_text_begins _, blockComment_text_ne_nil _⟩
  · rcases hlanguage : ofRules? Rule.language (c :: rest) with _ | lexeme
    · rcases hunfinished : ofRules? Rule.unfinished (c :: rest) with _ | lexeme
      · exact ⟨⟨rest, rfl⟩, by simp⟩
      · exact ofRules?_spec hunfinished
    · exact ofRules?_spec hlanguage

lemma after_eq_after_drop (skip : Nat) (text : List Char) :
    after skip text = after 0 (text.drop skip) := by
  induction text generalizing skip with
  | nil => simp [after]
  | cons c rest ih =>
    cases skip with
    | zero => rfl
    | succ skip => rw [after, ih, List.drop_succ_cons]

/-- The lexemes of a text are the first one and those of the rest of the text. -/
lemma ofChars_cons (c : Char) (rest : List Char) :
    ofChars (c :: rest) =
      first c rest :: ofChars ((c :: rest).drop (first c rest).text.length) := by
  obtain ⟨-, hne⟩ := first_spec c rest
  have hlen : 0 < (first c rest).text.length := List.length_pos_iff.mpr hne
  rw [ofChars, after, after_eq_after_drop, ofChars]
  obtain ⟨n, hn⟩ := Nat.exists_eq_add_of_lt hlen
  rw [hn, Nat.zero_add, Nat.add_sub_cancel, List.drop_succ_cons]

/-- What is true of the first lexeme of every text is true of all lexemes. -/
lemma forall_mem_ofChars {P : Lexeme → Prop} (hfirst : ∀ c rest, P (first c rest))
    (text : List Char) : ∀ lexeme ∈ ofChars text, P lexeme := by
  rw [ofChars]
  generalize 0 = skip
  induction text generalizing skip with
  | nil => simp [after]
  | cons c rest ih =>
    cases skip with
    | zero =>
      rw [after]
      exact List.forall_mem_cons.mpr ⟨hfirst c rest, ih _⟩
    | succ skip => exact ih skip

lemma text_ne_nil_of_mem {text : List Char} {lexeme : Lexeme} (h : lexeme ∈ ofChars text) :
    lexeme.text ≠ [] :=
  forall_mem_ofChars (P := fun lexeme => lexeme.text ≠ []) (fun c rest => (first_spec c rest).2)
    text lexeme h

end Lexeme

end FrontEnd
