/-
Each lexeme is the longest that a rule describes.

The rules of the language compete at each place of a text: the one that describes the
longest beginning of what follows decides, and a mark decides before an operator that is
written alike.  Two places are apart, where the rules as they are written are not asked: the
opening of a block comment, and two periods that no third and no `<` follows.

* `Lexeme.ofRules?_text`: what is found in front of a longer text is also found in itself.
* `Token.ofText_munches`: every token is the longest match of the rules, or invalid.
-/
import FrontEnd.Proofs.Lexical.Apart
import FrontEnd.Proofs.Lexical.Lossless

namespace FrontEnd

/-! ### What is found does not hang on what follows it -/

/-- What lies beyond the longest match does not change it. -/
lemma Regex.longest_take {r : Regex} {text : List Char} {n : Nat} (h : r.longest text ≤ n) :
    r.longest (text.take n) = r.longest text := by
  apply Nat.le_antisymm
  · by_cases hzero : r.longest (text.take n) = 0
    · omega
    have hmatch := matches_take_longest hzero
    have hle := longest_le r (text.take n)
    rw [List.length_take] at hle
    rw [List.take_take, Nat.min_eq_left (by omega)] at hmatch
    exact length_le_longest (by omega) hmatch
  · by_cases hzero : r.longest text = 0
    · omega
    have hmatch := matches_take_longest hzero
    have hle := longest_le r text
    refine length_le_longest (by rw [List.length_take]; omega) ?_
    rwa [List.take_take, Nat.min_eq_left h]

namespace Lexeme

variable {rules : List Rule} {text : List Char} {lexeme : Lexeme}

/-- What is found in a text is found again in any beginning of it that holds all matches. -/
lemma choose?_take {n : Nat} (h : ∀ rule ∈ rules, rule.pattern.longest text ≤ n) :
    Rule.choose? (text.take n) rules = Rule.choose? text rules :=
  Rule.choose?_congr fun rule hrule => Regex.longest_take (h rule hrule)

/-- What rules find at the start of a text, they find in that piece alone. -/
lemma ofRules?_text (h : ofRules? rules text = some lexeme) :
    ofRules? rules lexeme.text = some lexeme := by
  unfold ofRules? at h ⊢
  rcases hchoice : Rule.choose? text rules with _ | ⟨n, rule⟩
  · simp [hchoice] at h
  · simp only [hchoice, Option.map_some, Option.some.injEq] at h
    subst h
    rw [choose?_take (Rule.longest_le_of_choose? hchoice), hchoice]
    simp only [Option.map_some, List.take_take, Nat.min_self]

/-- Where rules find nothing, they find nothing in a beginning of the text either. -/
lemma ofRules?_take_eq_none (h : ofRules? rules text = none) (n : Nat) :
    ofRules? rules (text.take n) = none := by
  unfold ofRules? at h ⊢
  rw [Option.map_eq_none_iff] at h ⊢
  rw [choose?_take fun rule hrule => ?_, h]
  rw [Rule.longest_eq_zero_of_choose? h rule hrule]
  exact Nat.zero_le n

end Lexeme

namespace Rule

variable {text slice : List Char} {kind : TokenKind}

/-! ### The rules as they are written -/

/-- The rules of the language, without the one that takes two periods for a single one. -/
def written : List Rule :=
  blanks ++ words ++ literals ++
    Punctuator.all.map (fun mark => fixed mark.symbol (.punctuator mark)) ++ operators

lemma mem_language_iff {rule : Rule} :
    rule ∈ language ↔ rule ∈ written ∨ rule = fixed ".." (.punctuator .period) := by
  simp only [language, written, marks, List.mem_append, List.mem_singleton]
  tauto

/-- Two periods that neither a third one nor a `<` follows. -/
def LonePeriods (text : List Char) : Prop :=
  ∃ later, text = '.' :: '.' :: later ∧ Before (· ∈ ['.', '<']) later

/-- Some rule describes a beginning of the text that is not empty. -/
def Described (text : List Char) : Prop :=
  ∃ rule ∈ written, ∃ t, t <+: text ∧ t ≠ [] ∧ rule.pattern.Matches t

/-- A piece at the start of a text is the longest that a rule describes, and has the kind of
such a rule; it is a mark if it is written like one. -/
structure Munches (text slice : List Char) (kind : TokenKind) : Prop where
  described : ∃ rule ∈ written, rule.pattern.Matches slice ∧ kind = rule.kind slice
  longest : ∀ rule ∈ written, ∀ t, t <+: text → rule.pattern.Matches t → t.length ≤ slice.length
  mark : ∀ mark : Punctuator, slice = mark.symbol.toList → kind = .punctuator mark

/-- Where two periods do not stand alone, a rule describes them together with the next
character. -/
lemma exists_longer_of_periods (hperiods : ['.', '.'] <+: text) (halone : ¬ LonePeriods text) :
    ∃ rule ∈ written, ∃ t, t <+: text ∧ t.length = 3 ∧ rule.pattern.Matches t := by
  obtain ⟨later, rfl⟩ := hperiods
  have hnext : ∃ b rest, later = b :: rest ∧ b ∈ ['.', '<'] := by
    by_contra hnone
    refine halone ⟨later, rfl, fun b hb hmem => hnone ⟨b, later.tail, ?_, hmem⟩⟩
    rcases later with _ | ⟨d, rest⟩
    · cases hb
    · cases hb
      rfl
  obtain ⟨b, rest, rfl, hb⟩ := hnext
  have hmem : String.ofList ['.', '.', b] ∈ ["!=", "!==", "??", "...", "..<"] := by
    simp only [List.mem_cons, List.not_mem_nil, or_false] at hb
    rcases hb with rfl | rfl <;> decide
  refine ⟨fixed (String.ofList ['.', '.', b]) (.operator _),
    List.mem_append_right _ (List.mem_append_right _ (List.mem_map.mpr ⟨_, hmem, rfl⟩)),
    ['.', '.', b], ⟨rest, rfl⟩, rfl, ?_⟩
  exact Regex.matches_literal.mpr String.toList_ofList.symm

/-- What the rules of the language find is the longest match of the rules as they are
written, where two periods do not stand alone. -/
lemma munches_of_ofRules? {lexeme : Lexeme} (h : Lexeme.ofRules? language text = some lexeme)
    (halone : ¬ LonePeriods text) : Munches text lexeme.text lexeme.kind := by
  have hbegins := (Lexeme.ofRules?_spec h).1
  have hself := Lexeme.ofRules?_text h
  unfold Lexeme.ofRules? at h
  rcases hchoice : choose? text language with _ | ⟨n, rule⟩
  · simp [hchoice] at h
  simp only [hchoice, Option.map_some, Option.some.injEq] at h
  obtain ⟨hmem, hn, hne⟩ := choose?_spec hchoice
  have hle := Regex.longest_le rule.pattern text
  have hlength : lexeme.text.length = n := by
    rw [← h, List.length_take]
    omega
  have hlongest : ∀ rule ∈ written, ∀ t, t <+: text → rule.pattern.Matches t →
      t.length ≤ lexeme.text.length := by
    intro other hother t ht hmatch
    rw [List.prefix_iff_eq_take.mp ht] at hmatch
    rw [hlength]
    exact (Regex.length_le_longest ht.length_le hmatch).trans
      (longest_le_of_choose? hchoice other (mem_language_iff.mpr (.inl hother)))
  have hmatch : rule.pattern.Matches lexeme.text := by
    rw [← h, hn]
    exact Regex.matches_take_longest (by omega)
  refine ⟨⟨rule, ?_, hmatch, ?_⟩, hlongest, ?_⟩
  · refine (mem_language_iff.mp hmem).resolve_right ?_
    -- two periods would not be the longest match
    rintro rfl
    have hperiods := Regex.matches_literal.mp hmatch
    rw [hperiods] at hbegins
    obtain ⟨other, hother, t, ht, hthree, hlonger⟩ := exists_longer_of_periods hbegins halone
    have hshort := hlongest other hother t ht hlonger
    rw [hthree, hperiods] at hshort
    exact absurd hshort (by decide)
  · rw [← h]
  · intro mark hmark
    have hkind := (Lexeme.takes_mark mark).ofRules?_eq
    rw [← hmark, hself, Option.some.injEq] at hkind
    rw [hkind]

/-- Where the rules of the language find nothing, none describes a beginning of the text. -/
lemma not_described_of_ofRules? (h : Lexeme.ofRules? language text = none) :
    ¬ Described text := by
  rintro ⟨rule, hrule, t, ht, hne, hmatch⟩
  rw [Lexeme.ofRules?, Option.map_eq_none_iff] at h
  have hzero := longest_eq_zero_of_choose? h rule (mem_language_iff.mpr (.inl hrule))
  rw [List.prefix_iff_eq_take.mp ht] at hmatch
  have hle := Regex.length_le_longest ht.length_le hmatch
  have hpos := List.length_pos_iff.mpr hne
  omega

end Rule

namespace Lexeme

open Rule

/-- What the rules for unfinished input find is invalid. -/
lemma kind_of_unfinished {text : List Char} {lexeme : Lexeme}
    (h : ofRules? unfinished text = some lexeme) :
    lexeme.kind = .invalid (String.ofList lexeme.text) := by
  unfold ofRules? at h
  rcases hchoice : choose? text unfinished with _ | ⟨n, rule⟩
  · simp [hchoice] at h
  simp only [hchoice, Option.map_some, Option.some.injEq] at h
  have hmem := (choose?_spec hchoice).1
  simp only [unfinished, List.mem_cons, List.not_mem_nil, or_false] at hmem
  rcases hmem with rfl | rfl <;> simp only [← h, keeping]

/-- Where no block comment starts, the rules are asked, and then those for unfinished
input. -/
lemma first_of_not_comment {c : Char} {rest : List Char} (h : ¬ ['/', '*'] <+: c :: rest) :
    first c rest = (ofRules? language (c :: rest)).getD
      ((ofRules? unfinished (c :: rest)).getD ⟨.invalid (String.singleton c), [c]⟩) := by
  unfold first
  split
  next body => exact absurd ⟨body, rfl⟩ h
  next => rfl

/-- The first lexeme of a text is the longest match of the rules, or invalid. -/
lemma first_munches (c : Char) (rest : List Char) (hcomment : ¬ ['/', '*'] <+: c :: rest)
    (halone : ¬ LonePeriods (c :: rest)) :
    (Described (c :: rest) → Munches (c :: rest) (first c rest).text (first c rest).kind) ∧
      (¬ Described (c :: rest) →
        (first c rest).kind = .invalid (String.ofList (first c rest).text)) := by
  rw [first_of_not_comment hcomment]
  rcases hlanguage : ofRules? language (c :: rest) with _ | lexeme
  · refine ⟨fun h => absurd h (not_described_of_ofRules? hlanguage), fun _ => ?_⟩
    rw [Option.getD_none]
    rcases hunfinished : ofRules? unfinished (c :: rest) with _ | lexeme
    · rfl
    · exact kind_of_unfinished hunfinished
  · rw [Option.getD_some]
    have hmunches := munches_of_ofRules? hlanguage halone
    refine ⟨fun _ => hmunches, fun hnone => absurd ?_ hnone⟩
    obtain ⟨hbegins, hne⟩ := ofRules?_spec hlanguage
    obtain ⟨rule, hrule, hmatch, -⟩ := hmunches.described
    exact ⟨rule, hrule, lexeme.text, hbegins, hne, hmatch⟩

end Lexeme

namespace Token

open Lexeme

/-- A token is the first lexeme of what is left of the text from its place on. -/
lemma exists_first_of_mem_place (table : LineTable) (passed text : List Char) :
    ∀ t ∈ place table (Text.byteSize passed) (Lexeme.ofChars text), ∃ before c rest,
      text = before ++ c :: rest ∧ t.kind = (first c rest).kind ∧
        t.span = Span.covering (Text.byteSize (passed ++ before)) (first c rest).text := by
  induction h : text.length using Nat.strong_induction_on generalizing passed text with
  | _ n ih =>
    rcases text with _ | ⟨c, rest⟩
    · exact fun _ hmem => nomatch hmem
    obtain ⟨⟨later, hlater⟩, hne⟩ := first_spec c rest
    have hpos : 0 < (first c rest).text.length := List.length_pos_iff.mpr hne
    have hsplit := congrArg List.length hlater
    rw [List.length_append] at hsplit
    have hstop : (Span.covering (Text.byteSize passed) (first c rest).text).stop =
        Text.byteSize (passed ++ (first c rest).text) := by
      rw [byteSize_append, Span.covering]
    rw [ofChars_cons, ← hlater, List.drop_left, place, hstop]
    refine List.forall_mem_cons.mpr ⟨⟨[], c, rest, hlater, rfl, by rw [List.append_nil]⟩, ?_⟩
    intro t ht
    obtain ⟨before, d, rest', rfl, hkind, hspan⟩ :=
      ih later.length (by omega) (passed ++ (first c rest).text) later rfl t ht
    exact ⟨(first c rest).text ++ before, d, rest', by rw [List.append_assoc], hkind,
      by rw [hspan, List.append_assoc]⟩

/-- Every token is the longest match of the rules at its place, or invalid where none matches.

The place of a token divides its text into what is before it, the token itself and what is
after it.  Unless a block comment opens there, or two periods stand alone there, the token is
the longest beginning of the text from there on that a rule describes, has the kind of such a
rule, and is a mark where it is written like one; and it is invalid if no rule describes a
beginning of that text. -/
theorem ofText_munches (text : String) (t : Token) (ht : t ∈ ofText text) :
    ∃ before slice after : List Char, text.toList = before ++ (slice ++ after) ∧
      t.span = Span.covering (Text.byteSize before) slice ∧
      t.slice text = String.ofList slice ∧
      (¬ ['/', '*'] <+: slice ++ after → ¬ Rule.LonePeriods (slice ++ after) →
        (Rule.Described (slice ++ after) → Rule.Munches (slice ++ after) slice t.kind) ∧
        (¬ Rule.Described (slice ++ after) → t.kind = .invalid (String.ofList slice))) := by
  obtain ⟨before, c, rest, hsplit, hkind, hspan⟩ :=
    exists_first_of_mem_place _ [] text.toList t ht
  rw [List.nil_append] at hspan
  obtain ⟨⟨after, hafter⟩, -⟩ := first_spec c rest
  refine ⟨before, (first c rest).text, after, by rw [hafter, hsplit], hspan, ?_, ?_⟩
  · have htext : text = String.ofList (before ++ (first c rest).text ++ after) := by
      rw [List.append_assoc, hafter, ← hsplit, String.ofList_toList]
    rw [htext]
    exact slice_eq hspan
  · rw [hafter, hkind]
    exact first_munches c rest

/-- A fraction ends in front of an `e` that no digit follows. -/
theorem ofText_munches_fraction :
    let t : Token := ⟨.floating "1.5", ⟨0, 3⟩, ⟨⟨1, 1⟩, ⟨1, 4⟩⟩⟩
    t ∈ ofText "1.5e" ∧ ∃ slice after : List Char, slice ++ after = ['1', '.', '5', 'e'] ∧
      ¬ ['/', '*'] <+: slice ++ after ∧ ¬ Rule.LonePeriods (slice ++ after) ∧
      Rule.Described (slice ++ after) ∧ Rule.Munches (slice ++ after) slice t.kind := by
  intro t
  have hmem : t ∈ ofText "1.5e" := by decide +kernel
  obtain ⟨before, slice, after, hsplit, hspan, -, hmunches⟩ := ofText_munches "1.5e" t hmem
  have hbefore : before = [] := by
    by_contra hne
    have hpos := byteSize_pos hne
    have hstart : 0 = Text.byteSize before := congrArg Span.start hspan
    omega
  rw [hbefore, List.nil_append] at hsplit
  have hrest : slice ++ after = ['1', '.', '5', 'e'] := hsplit.symm
  have hcomment : ¬ ['/', '*'] <+: slice ++ after := by rw [hrest]; decide
  have halone : ¬ Rule.LonePeriods (slice ++ after) := by
    rw [hrest]
    rintro ⟨later, hlater, -⟩
    cases hlater
  have hdescribed : Rule.Described (slice ++ after) := by
    refine ⟨Rule.keeping .integer (Rule.digits Char.isDigit), ?_, ['1'], ?_, by simp, ?_⟩
    · simp [Rule.written, Rule.literals]
    · rw [hrest]
      exact ⟨['.', '5', 'e'], rfl⟩
    · exact .seq (.one (by decide)) .done
  exact ⟨hmem, slice, after, hrest, hcomment, halone, hdescribed,
    (hmunches hcomment halone).1 hdescribed⟩

end Token

end FrontEnd
