/-
Line breaks end lexemes.

No rule describes a line break together with anything else, so no lexeme but a block comment
goes on behind one, and a line break is a lexeme for itself.  What stands in front of a line
break is cut up as at the end of a text (`Lexeme.first_break`), and so is what stands behind it
as at the start of one (`Lexeme.ofChars_cons_break`).  Quoted text holds no line breaks either
(`Text.not_mem_quoteChars`).
-/
import FrontEnd.Proofs.Lexical.Munch

namespace FrontEnd

/-- The characters that end a line. -/
def Text.breaks : List Char :=
  ['\n', '\r']

namespace Regex

/-- No class of characters of an expression has a certain character. -/
def avoids (c : Char) : Regex → Bool
  | never | empty => true
  | one accepts => !accepts c
  | seq r s | alt r s => avoids c r && avoids c s
  | many r => avoids c r

lemma not_mem_of_avoids {c : Char} {r : Regex} {text : List Char} (h : r.avoids c = true)
    (hmatch : r.Matches text) : c ∉ text := by
  induction hmatch with
  | empty => simp
  | @one accepts d hd =>
    rw [List.mem_singleton]
    rintro rfl
    simp [avoids, hd] at h
  | seq _ _ ihr ihs =>
    rw [avoids, Bool.and_eq_true] at h
    rw [List.mem_append, not_or]
    exact ⟨ihr h.1, ihs h.2⟩
  | left _ ih =>
    rw [avoids, Bool.and_eq_true] at h
    exact ih h.1
  | right _ ih =>
    rw [avoids, Bool.and_eq_true] at h
    exact ih h.2
  | done => simp
  | more _ _ ihr ihs =>
    rw [List.mem_append, not_or]
    exact ⟨ihr h, ihs h⟩

end Regex

namespace Rule

variable {rule : Rule} {c : Char}

/-- A rule of the language describes no line break, or nothing but one. -/
lemma avoids_of_mem_language (hc : c ∈ Text.breaks) (h : rule ∈ language) :
    rule.pattern.avoids c = true ∨ ∃ b, rule.pattern = Regex.literal [b] := by
  have hlater : ∀ b ∈ Text.breaks,
      ∀ rule ∈ blanks.tail.tail.tail ++ words ++ literals ++ marks ++ operators,
        rule.pattern.avoids b = true := by
    intro b hb
    simp only [Text.breaks, List.mem_cons, List.not_mem_nil, or_false] at hb
    rcases hb with rfl | rfl <;> exact forall_mem_of_all (by decide)
  obtain rfl | rfl | rfl | h : rule = blanks.head (by decide) ∨ rule = fixed "\n" .lineFeed ∨
      rule = fixed "\r" .carriageReturn ∨
      rule ∈ blanks.tail.tail.tail ++ words ++ literals ++ marks ++ operators := by
    rw [← List.mem_cons, ← List.mem_cons, ← List.mem_cons]
    exact h
  · refine .inl ?_
    simp only [Text.breaks, List.mem_cons, List.not_mem_nil, or_false] at hc
    rcases hc with rfl | rfl <;> decide
  · exact .inr ⟨'\n', rfl⟩
  · exact .inr ⟨'\r', rfl⟩
  · exact .inl (hlater c hc rule h)

lemma avoids_of_mem_unfinished (hc : c ∈ Text.breaks) :
    ∀ rule ∈ unfinished, rule.pattern.avoids c = true := by
  simp only [Text.breaks, List.mem_cons, List.not_mem_nil, or_false] at hc
  rcases hc with rfl | rfl <;> exact forall_mem_of_all (by decide)

/-- A text with a line break that a rule describes is a line break alone. -/
lemma eq_break_of_matches (hc : c ∈ Text.breaks) (h : rule ∈ language ∨ rule ∈ unfinished)
    {text : List Char} (hmatch : rule.pattern.Matches text) (hmem : c ∈ text) : text = [c] := by
  rcases h with h | h
  · rcases avoids_of_mem_language hc h with havoids | ⟨b, hb⟩
    · exact absurd hmem (Regex.not_mem_of_avoids havoids hmatch)
    · obtain rfl := Regex.matches_literal.mp (hb ▸ hmatch)
      rw [List.mem_singleton.mp hmem]
  · exact absurd hmem (Regex.not_mem_of_avoids (avoids_of_mem_unfinished hc rule h) hmatch)

end Rule

namespace Lexeme

/-- Rules do not look beyond texts that no rule describes together with more. -/
lemma ofRules?_append {rules : List Rule} {text later : List Char}
    (h : ∀ rule ∈ rules, ∀ t, t <+: later → t ≠ [] → ¬ rule.pattern.Matches (text ++ t)) :
    ofRules? rules (text ++ later) = ofRules? rules text := by
  unfold ofRules?
  rw [Rule.choose?_congr fun rule hrule => Regex.longest_append (h rule hrule)]
  rcases hchoice : Rule.choose? text rules with _ | ⟨n, rule⟩
  · rfl
  · have hle : n ≤ text.length := by
      rw [(Rule.choose?_spec hchoice).2.1]
      exact Regex.longest_le _ _
    simp only [Option.map_some, List.take_append_of_le_length hle]

/-! ### Block comments -/

/-- A comment that ends also ends in front of more text. -/
lemma commentEnd?_append {body : List Char} {n : Nat} (h : commentEnd? body = some n)
    (later : List Char) : commentEnd? (body ++ later) = some n := by
  fun_induction commentEnd? body generalizing n with
  | case1 => cases h
  | case2 rest => exact h
  | case3 c rest hend ih =>
    obtain ⟨m, hm, rfl⟩ := Option.map_eq_some_iff.mp h
    rw [List.cons_append, commentEnd?, ih hm, Option.map_some]
    rintro rest' rfl hrest
    rcases rest with _ | ⟨d, rest⟩
    · cases hm
    · exact hend rest rfl (by rw [(List.cons.inj hrest).1])

lemma commentEnd?_le {body : List Char} {n : Nat} (h : commentEnd? body = some n) :
    n ≤ body.length := by
  fun_induction commentEnd? body generalizing n with
  | case1 => cases h
  | case2 rest =>
    cases h
    simp
  | case3 c rest hend ih =>
    obtain ⟨m, hm, rfl⟩ := Option.map_eq_some_iff.mp h
    simpa using ih hm

/-- A block comment that does not end. -/
def IsUnended (lexeme : Lexeme) : Prop :=
  lexeme.kind.isInvalid = true ∧ ['/', '*'] <+: lexeme.text

lemma isUnended_blockComment {body : List Char} :
    (blockComment body).IsUnended ↔ commentEnd? body = none := by
  unfold blockComment
  rcases commentEnd? body with _ | n
  · exact iff_of_true ⟨rfl, body, rfl⟩ rfl
  · exact iff_of_false (fun h => Bool.noConfusion h.1) (by simp)

/-- A block comment that does not end takes the whole text. -/
lemma text_eq_of_isUnended {c : Char} {rest : List Char} (h : (first c rest).IsUnended) :
    (first c rest).text = c :: rest := by
  obtain ⟨body, hbody⟩ := h.2.trans (first_spec c rest).1
  cases hbody
  have hend : commentEnd? body = none := isUnended_blockComment.mp h
  change (blockComment body).text = _
  simp only [blockComment, hend]
  rfl

/-! ### In front of a line break and behind it -/

section

variable {b c : Char} {rest : List Char}

/-- Where no comment opens, what rules find in front of a line break is what they find at the
end of a text. -/
lemma first_break_of_not_comment (hb : b ∈ Text.breaks) (h : ¬ ['/', '*'] <+: c :: rest)
    (later : List Char) : first c (rest ++ b :: later) = first c rest := by
  have hcomment : ¬ ['/', '*'] <+: c :: (rest ++ b :: later) := by
    rintro ⟨body, hbody⟩
    rcases rest with _ | ⟨d, rest⟩
    · cases hbody
      simp [Text.breaks] at hb
    · cases hbody
      exact h ⟨rest, rfl⟩
  have hrules {rules : List Rule}
      (hrules : ∀ rule ∈ rules, rule ∈ Rule.language ∨ rule ∈ Rule.unfinished) :
      ofRules? rules (c :: (rest ++ b :: later)) = ofRules? rules (c :: rest) := by
    rw [← List.cons_append]
    refine ofRules?_append fun rule hrule t ht hne hmatch => ?_
    obtain ⟨d, t, rfl⟩ := List.exists_cons_of_ne_nil hne
    obtain ⟨rfl, -⟩ := List.cons_prefix_cons.mp ht
    have halone := Rule.eq_break_of_matches hb (hrules rule hrule) hmatch (by simp)
    simp at halone
  rw [first_of_not_comment hcomment, first_of_not_comment h, hrules fun _ => .inl,
    hrules fun _ => .inr]

/-- A lexeme that is no block comment without its end is found in front of a line break,
too. -/
lemma first_break (hb : b ∈ Text.breaks) (h : ¬ (first c rest).IsUnended) (later : List Char) :
    first c (rest ++ b :: later) = first c rest := by
  by_cases hcomment : ['/', '*'] <+: c :: rest
  · obtain ⟨body, hbody⟩ := hcomment
    cases hbody
    obtain ⟨n, hend⟩ : ∃ n, commentEnd? body = some n :=
      Option.ne_none_iff_exists'.mp (mt isUnended_blockComment.mpr h)
    change blockComment (body ++ b :: later) = blockComment body
    simp only [blockComment, hend, commentEnd?_append hend,
      List.take_append_of_le_length (commentEnd?_le hend)]
  · exact first_break_of_not_comment hb hcomment later

/-- The lexeme of a line break. -/
def ofBreak (b : Char) : Lexeme :=
  ⟨if b = '\n' then .lineFeed else .carriageReturn, [b]⟩

/-- A line break is a lexeme for itself. -/
lemma first_of_break (hb : b ∈ Text.breaks) (later : List Char) : first b later = ofBreak b := by
  have hfirst : ofRules? Rule.language ([b] ++ later) = some (ofBreak b) := by
    rw [ofRules?_append fun rule hrule t _ hne hmatch => ?_]
    · simp only [Text.breaks, List.mem_cons, List.not_mem_nil, or_false] at hb
      rcases hb with rfl | rfl <;> rfl
    · have halone := Rule.eq_break_of_matches hb (.inl hrule) hmatch (by simp)
      simp [hne] at halone
  have hcomment : ¬ ['/', '*'] <+: b :: later := by
    rintro ⟨body, hbody⟩
    cases hbody
    simp [Text.breaks] at hb
  exact first_of_ofRules? hcomment hfirst

lemma ofChars_cons_break (hb : b ∈ Text.breaks) (later : List Char) :
    ofChars (b :: later) = ofBreak b :: ofChars later := by
  rw [ofChars_cons, first_of_break hb]
  rfl

end

/-- A lexeme without a line break, unless it is one or a block comment. -/
lemma eq_of_mem_first {b c : Char} {rest : List Char} (hb : b ∈ Text.breaks)
    (hcomment : ¬ ['/', '*'] <+: c :: rest) (h : b ∈ (first c rest).text) : c = b := by
  obtain ⟨before, behind, htext, -⟩ := List.eq_append_cons_of_mem h
  obtain ⟨later, hlater⟩ := (first_spec c rest).1
  rw [htext, List.append_assoc, List.cons_append] at hlater
  rcases before with _ | ⟨d, before⟩
  · exact (List.cons.inj hlater).1.symm
  · -- the lexeme ends in front of the line break
    obtain ⟨rfl, rfl⟩ := List.cons.inj hlater
    have hopens : ¬ ['/', '*'] <+: d :: before := fun h => hcomment (h.trans ⟨_, rfl⟩)
    have hle := (first_spec d before).1.length_le
    rw [← first_break_of_not_comment hb hopens (behind ++ later)] at hle
    change (first d (before.append (b :: (behind ++ later)))).text.length ≤ _ at hle
    rw [htext, List.length_append, List.length_cons, List.length_cons] at hle
    omega

/-- Only the last lexeme of a text may be a block comment without its end. -/
lemma exists_first_of_mem_dropLast {text : List Char} {lexeme : Lexeme}
    (h : lexeme ∈ (ofChars text).dropLast) :
    ∃ c rest, lexeme = first c rest ∧ ¬ lexeme.IsUnended := by
  induction hlength : text.length using Nat.strong_induction_on generalizing text with
  | _ n ih =>
    rcases text with _ | ⟨c, rest⟩
    · exact nomatch h
    obtain ⟨⟨later, hlater⟩, hempty⟩ := first_spec c rest
    have hpos : 0 < (first c rest).text.length := List.length_pos_iff.mpr hempty
    have hsplit := congrArg List.length hlater
    rw [List.length_append] at hsplit
    rw [ofChars_cons, ← hlater, List.drop_left] at h
    rcases hrest : ofChars later with _ | ⟨next, others⟩
    · rw [hrest] at h
      exact nomatch h
    · rw [hrest, List.dropLast_cons_cons, ← hrest, List.mem_cons] at h
      rcases h with rfl | h
      · refine ⟨c, rest, rfl, fun hunended => ?_⟩
        have hwhole := text_eq_of_isUnended hunended
        rw [hwhole, List.append_right_eq_self] at hlater
        rw [hlater] at hrest
        exact nomatch hrest
      · exact ih later.length (by omega) h rfl

end Lexeme

/-! ### Quoted text -/

namespace Text

lemma exists_of_mem_toDigits {c : Char} {base n : Nat} (h : c ∈ Nat.toDigits base n) :
    ∃ d, c = Nat.digitChar d := by
  have hcore : ∀ fuel n digits, c ∈ Nat.toDigitsCore base fuel n digits →
      c ∈ digits ∨ ∃ d, c = Nat.digitChar d := by
    intro fuel
    induction fuel with
    | zero => exact fun n digits h => .inl h
    | succ fuel ih =>
      intro n digits h
      have hdigit : c ∈ Nat.digitChar (n % base) :: digits →
          c ∈ digits ∨ ∃ d, c = Nat.digitChar d :=
        fun h => (List.mem_cons.mp h).elim (fun h => .inr ⟨_, h⟩) .inl
      rw [Nat.toDigitsCore] at h
      split at h
      · exact hdigit h
      · exact (ih _ _ h).elim hdigit .inr
  exact (hcore _ _ _ h).resolve_left (List.not_mem_nil)

/-- Quoted text holds no line breaks. -/
lemma not_mem_quoteChars {b : Char} (hb : b ∈ Text.breaks) (text : List Char) :
    b ∉ quoteChars text := by
  have hvisible {c : Char} (hc : c ∉ Text.breaks) : b ≠ c := fun h => hc (h ▸ hb)
  -- a digit is a letter or a figure below the base, and a star beyond
  have hdigits (n : Nat) : b ∉ hexDigits n := by
    intro h
    obtain ⟨d, rfl⟩ := exists_of_mem_toDigits h
    refine hvisible (c := d.digitChar) ?_ rfl
    rcases Nat.lt_or_ge d 16 with h | h
    · exact (by decide : ∀ d < 16, Nat.digitChar d ∉ Text.breaks) d h
    · rw [Nat.digitChar_eq_star.mpr h]
      decide
  have hescape {letter : Char} (h : letter ∉ Text.breaks) : b ∉ ['\\', letter] := by
    have hslash : b ≠ '\\' := hvisible (by decide)
    simp [hslash, hvisible h]
  -- the branches of the escapes in their order, of which the last but one writes a code
  have hchar (c : Char) : b ∉ quoteChar c := by
    unfold quoteChar
    split_ifs with _ _ _ _ hfeed hreturn
    · exact hescape (by decide)
    · exact hescape (by decide)
    · exact hescape (by decide)
    · exact hescape (by decide)
    · exact hescape (by decide)
    · exact hescape (by decide)
    · have hopen : b ∉ ['\\', 'u', '\x7b'] := by
        simp [hvisible (c := 'u') (by decide), hvisible (c := '\x7b') (by decide),
          hvisible (c := '\\') (by decide)]
      have hclose : b ∉ ['\x7d'] := by
        simp [hvisible (c := '\x7d') (by decide)]
      simp only [List.mem_append, not_or]
      exact ⟨⟨hopen, hdigits _⟩, hclose⟩
    · rw [List.mem_singleton]
      exact hvisible (by simp [Text.breaks, hfeed, hreturn])
  simp only [quoteChars, List.cons_append, List.mem_cons, List.mem_append, List.mem_flatMap,
    List.not_mem_nil, or_false, not_or, not_exists, not_and]
  refine ⟨?_, fun c _ => hchar c, ?_⟩ <;> rintro rfl <;> simp [Text.breaks] at hb

end Text

end FrontEnd
