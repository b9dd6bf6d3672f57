/-
What the rules of the language find.

`Rule.Finds` lists the texts that a rule of the language describes, with their kinds: one
constructor for each family of rules.  The rules of one family are told apart from those of
the others by the first character, except that some marks are made of the characters of
operators.
-/
import FrontEnd.Lexical.Lexeme
import FrontEnd.Proofs.Lexical.Regex

namespace FrontEnd

/-- What is checked along a list holds of all its members. -/
lemma forall_mem_of_all {α : Type} {P : α → Prop} [DecidablePred P] {l : List α}
    (h : l.all (P ·) = true) : ∀ a ∈ l, P a := by
  simpa using h

namespace Regex

variable {text : List Char}

/-- A repetition of single characters describes the texts of such characters. -/
@[simp] lemma matches_many_one {accepts : Char → Bool} :
    Matches (many (one accepts)) text ↔ ∀ c ∈ text, accepts c = true := by
  induction text with
  | nil => simp [Matches.done]
  | cons c text ih =>
    rw [matches_many_cons, List.forall_mem_cons, ← ih]
    constructor
    · rintro ⟨t, u, rfl, ht, hu⟩
      obtain ⟨d, hd, haccepts⟩ := matches_one.mp ht
      cases hd
      exact ⟨haccepts, hu⟩
    · rintro ⟨hc, htext⟩
      exact ⟨[], text, rfl, .one hc, htext⟩

end Regex

namespace Rule

/-- The rules for numbers. -/
def numbers : List Rule :=
  literals.dropLast

/-- A rule of the language finds a text and gives it a kind. -/
inductive Finds : List Char → TokenKind → Prop where
  | whitespace {text : List Char} (h : ∀ c ∈ text, c ∈ [' ', '\t', '\x0c']) : Finds text .whitespace
  | lineFeed : Finds ['\n'] .lineFeed
  | carriageReturn : Finds ['\r'] .carriageReturn
  | comment {text : List Char} (h : ∀ c ∈ text, c ∉ ['\n', '\r']) :
      Finds ('/' :: '/' :: text) (.comment (String.ofList ('/' :: '/' :: text)))
  | word {c : Char} {text : List Char} (hstart : startsWord c = true)
      (h : ∀ d ∈ text, continuesWord d = true) :
      Finds (c :: text) (.ofWord (String.ofList (c :: text)))
  | quotedIdentifier {text : List Char} (name : String) :
      Finds ('\x60' :: text) (.quotedIdentifier name)
  | number {text : List Char} {rule : Rule} (hrule : rule ∈ numbers)
      (h : rule.pattern.Matches text) : Finds text (rule.kind text)
  | string {text : List Char} (content : String) : Finds ('"' :: text) (.string content)
  | mark (mark : Punctuator) : Finds mark.symbol.toList (.punctuator mark)
  | periods : Finds ['.', '.'] (.punctuator .period)
  | operator {text : List Char} (h : ∀ c ∈ text, c ∈ operatorChars) :
      Finds text (.operator (String.ofList text))
  | slash {text : List Char} (h : ∀ c ∈ text, c ∈ afterSlash) :
      Finds ('/' :: text) (.operator (String.ofList ('/' :: text)))
  | fixed {symbol : String} (h : symbol ∈ ["!=", "!==", "??", "...", "..<"]) :
      Finds symbol.toList (.operator symbol)

variable {rule : Rule} {text : List Char}

lemma finds_of_mem_blanks (hmem : rule ∈ blanks) (h : rule.pattern.Matches text) :
    Finds text (rule.kind text) := by
  simp only [blanks, List.mem_cons, List.not_mem_nil, or_false] at hmem
  rcases hmem with rfl | rfl | rfl | rfl
  · simp only [Regex.atLeastOne, Regex.oneOf, Regex.matches_seq, Regex.matches_one,
      Regex.matches_many_one, List.contains_iff_mem] at h
    obtain ⟨_, later, rfl, ⟨c, rfl, hc⟩, hlater⟩ := h
    exact .whitespace (List.forall_mem_cons.mpr ⟨hc, hlater⟩)
  · obtain rfl := Regex.matches_literal.mp h
    exact .lineFeed
  · obtain rfl := Regex.matches_literal.mp h
    exact .carriageReturn
  · simp only [keeping, Regex.inOrder, Regex.noneOf, Regex.matches_seq, Regex.matches_literal,
      Regex.matches_many_one, Bool.not_eq_true', List.contains_eq_mem, decide_eq_false_iff_not] at h
    obtain ⟨_, later, rfl, rfl, hlater⟩ := h
    exact .comment hlater

lemma finds_of_mem_words (hmem : rule ∈ words) (h : rule.pattern.Matches text) :
    Finds text (rule.kind text) := by
  simp only [words, List.mem_cons, List.not_mem_nil, or_false] at hmem
  rcases hmem with rfl | rfl
  · simp only [keeping, word, Regex.matches_seq, Regex.matches_one, Regex.matches_many_one] at h
    obtain ⟨_, later, rfl, ⟨c, rfl, hc⟩, hlater⟩ := h
    exact .word hc hlater
  · simp only [Regex.inOrder, Regex.matches_seq, Regex.matches_literal] at h
    obtain ⟨_, later, rfl, rfl, -⟩ := h
    exact .quotedIdentifier _

lemma finds_of_mem_literals (hmem : rule ∈ literals) (h : rule.pattern.Matches text) :
    Finds text (rule.kind text) := by
  obtain hnumber | rfl : rule ∈ numbers ∨ rule = literals.getLast (by decide) := by
    rw [← List.dropLast_concat_getLast (by decide : literals ≠ []), List.mem_append,
      List.mem_singleton] at hmem
    exact hmem
  · exact .number hnumber h
  · have hstring : Regex.Matches (Regex.inOrder [.literal ['"'], .many stringItem, .literal ['"']])
      text := h
    simp only [Regex.inOrder, Regex.matches_seq, Regex.matches_literal] at hstring
    obtain ⟨_, later, rfl, rfl, -⟩ := hstring
    exact .string _

lemma finds_of_mem_marks (hmem : rule ∈ marks) (h : rule.pattern.Matches text) :
    Finds text (rule.kind text) := by
  simp only [marks, List.mem_append, List.mem_map, List.mem_singleton] at hmem
  rcases hmem with ⟨mark, -, rfl⟩ | rfl
  · obtain rfl := Regex.matches_literal.mp h
    exact .mark mark
  · obtain rfl := Regex.matches_literal.mp h
    exact .periods

lemma finds_of_mem_operators (hmem : rule ∈ operators) (h : rule.pattern.Matches text) :
    Finds text (rule.kind text) := by
  simp only [operators, List.mem_append, List.mem_map, List.mem_cons, List.not_mem_nil,
    or_false] at hmem
  rcases hmem with (rfl | rfl) | ⟨symbol, hsymbol, rfl⟩
  · simp only [keeping, Regex.atLeastOne, Regex.oneOf, Regex.matches_seq, Regex.matches_one,
      Regex.matches_many_one, List.contains_iff_mem] at h
    obtain ⟨_, later, rfl, ⟨c, rfl, hc⟩, hlater⟩ := h
    exact .operator (List.forall_mem_cons.mpr ⟨hc, hlater⟩)
  · simp only [keeping, Regex.oneOf, Regex.matches_seq, Regex.matches_literal,
      Regex.matches_many_one, List.contains_iff_mem] at h
    obtain ⟨_, later, rfl, rfl, hlater⟩ := h
    exact .slash hlater
  · obtain rfl := Regex.matches_literal.mp h
    exact .fixed (by simpa using hsymbol)

/-- What a rule of the language describes, it finds. -/
theorem finds_of_mem_language (hmem : rule ∈ language) (h : rule.pattern.Matches text) :
    Finds text (rule.kind text) := by
  simp only [language, List.mem_append] at hmem
  rcases hmem with (((hmem | hmem) | hmem) | hmem) | hmem
  · exact finds_of_mem_blanks hmem h
  · exact finds_of_mem_words hmem h
  · exact finds_of_mem_literals hmem h
  · exact finds_of_mem_marks hmem h
  · exact finds_of_mem_operators hmem h

/-- A number starts with a digit. -/
lemma isDigit_of_mem_numbers {c : Char} (hrule : rule ∈ numbers)
    (h : rule.pattern.Matches (c :: text)) : c.isDigit = true := by
  have hdecimal : ∀ r : Regex, (Regex.seq (digits Char.isDigit) r).Matches (c :: text) →
      c.isDigit = true := by
    intro r hr
    simp only [digits, Regex.matches_seq, Regex.matches_one] at hr
    obtain ⟨_, u, heq, ⟨_, v, rfl, ⟨d, rfl, hd⟩, -⟩, -⟩ := hr
    rw [List.append_assoc, List.singleton_append, List.cons.injEq] at heq
    rwa [heq.1]
  have hprefixed : ∀ letter r, (Regex.inOrder [.literal ['0', letter], r]).Matches (c :: text) →
      c.isDigit = true := by
    intro letter r hr
    simp only [Regex.inOrder, Regex.matches_seq, Regex.matches_literal] at hr
    obtain ⟨_, u, heq, rfl, -⟩ := hr
    rw [List.cons_append, List.cons.injEq] at heq
    rw [heq.1]
    rfl
  simp only [numbers, literals, List.dropLast, List.mem_cons, List.not_mem_nil, or_false] at hrule
  rcases hrule with rfl | rfl | rfl | rfl | rfl | rfl
  · refine hdecimal .empty (Regex.matches_seq.mpr ⟨c :: text, [], (List.append_nil _).symm, h, .empty⟩)
  · exact hprefixed _ _ h
  · exact hprefixed _ _ h
  · exact hprefixed _ _ h
  · exact hdecimal _ h
  · exact hdecimal _ h

end Rule

end FrontEnd
