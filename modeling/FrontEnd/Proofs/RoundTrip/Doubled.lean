/-
Two characters that stand together.

Two closing angle brackets, or two question marks, are an operator where they stand together,
so the rules of the language find them in one piece.  In a text without comments, strings and
quoted names there is then an operator that does not occur in types: `Lexeme.exists_foreign`.
-/
import FrontEnd.Proofs.RoundTrip.TypeShape

namespace FrontEnd

namespace Regex

/-- No character of a regular expression is this one. -/
def lacks (d : Char) : Regex → Bool
  | never | empty => true
  | one accepts => !accepts d
  | seq r s | alt r s => r.lacks d && s.lacks d
  | many r => r.lacks d

lemma not_mem_of_lacks {r : Regex} {d : Char} {text : List Char} (h : r.lacks d = true)
    (hmatch : r.Matches text) : d ∉ text := by
  induction hmatch with
  | empty => exact List.not_mem_nil
  | @one accepts c hc =>
    rintro hmem
    obtain rfl := List.mem_singleton.mp hmem
    simp [lacks, hc] at h
  | seq _ _ ih ih' =>
    simp only [lacks, Bool.and_eq_true] at h
    simp [ih h.1, ih' h.2]
  | left _ ih =>
    simp only [lacks, Bool.and_eq_true] at h
    exact ih h.1
  | right _ ih =>
    simp only [lacks, Bool.and_eq_true] at h
    exact ih h.2
  | done => exact List.not_mem_nil
  | more _ _ ih ih' => simp [ih h, ih' h]

end Regex

namespace Rule

/-- The characters that are operators of their own when they are doubled. -/
def doubling : List Char :=
  ['>', '?']

lemma not_mem_number {rule : Rule} {text : List Char} {d : Char} (hrule : rule ∈ numbers)
    (h : rule.pattern.Matches text) (hd : d ∈ doubling) : d ∉ text := by
  have hall : ∀ d ∈ doubling, numbers.all (·.pattern.lacks d) = true :=
    forall_mem_of_all (by decide)
  exact Regex.not_mem_of_lacks (List.all_eq_true.mp (hall d hd) rule hrule) h

/-- The characters that comments, strings and quoted names start with. -/
def openers : List Char :=
  ['/', '"', '\x60']

variable {before later : List Char} {kind : TokenKind} {d : Char}

lemma exists_matches_operator {text : List Char} (hne : text ≠ [])
    (h : ∀ c ∈ text, c ∈ operatorChars) : ∃ rule ∈ language, rule.pattern.Matches text := by
  obtain ⟨c, rest, rfl⟩ := List.exists_cons_of_ne_nil hne
  obtain ⟨hc, hrest⟩ := List.forall_mem_cons.mp h
  refine ⟨keeping .operator (.atLeastOne (.oneOf operatorChars)), by simp [language, operators], ?_⟩
  refine Regex.matches_seq.mpr ⟨[c], rest, rfl, .one ?_, Regex.matches_many_one.mpr fun e he => ?_⟩
  · exact List.contains_iff_mem.mpr hc
  · exact List.contains_iff_mem.mpr (hrest e he)

/-- What is found with one of these characters in it. -/
lemma Finds.of_mem_doubling {text : List Char} (h : Finds text kind) (hd : d ∈ doubling)
    (hmem : d ∈ text) (hopen : ∀ c ∈ openers, text.head? ≠ some c) :
    (d = '>' ∧ text = ['-', '>']) ∨ (d = '?' ∧ text = ['?']) ∨
      ((∀ c ∈ text, c ∈ operatorChars) ∧ kind = .operator (String.ofList text)) ∨
      ∃ symbol ∈ ["!=", "!==", "??", "...", "..<"], text = symbol.toList ∧ kind = .operator symbol := by
  -- rule by rule: those that find none of these characters are excluded by all of their characters,
  -- or by the first one
  cases h with
  | whitespace h =>
    have hall : ∀ d ∈ doubling, d ∉ [' ', '\t', '\x0c'] := forall_mem_of_all (by decide)
    exact absurd (h d hmem) (hall d hd)
  | lineFeed =>
    have hall : ∀ d ∈ doubling, d ∉ ['\n'] := forall_mem_of_all (by decide)
    exact absurd hmem (hall d hd)
  | carriageReturn =>
    have hall : ∀ d ∈ doubling, d ∉ ['\r'] := forall_mem_of_all (by decide)
    exact absurd hmem (hall d hd)
  | comment h => exact absurd rfl (hopen '/' (by decide))
  | word hstart h =>
    have hall : ∀ d ∈ doubling, startsWord d = false ∧ continuesWord d = false :=
      forall_mem_of_all (by decide)
    obtain ⟨hnot, hnot'⟩ := hall d hd
    rcases List.mem_cons.mp hmem with rfl | hmem
    · rw [hnot] at hstart
      cases hstart
    · have hcontinues := h d hmem
      rw [hnot'] at hcontinues
      cases hcontinues
  | quotedIdentifier name => exact absurd rfl (hopen '\x60' (by decide))
  | number hrule h => exact absurd hmem (not_mem_number hrule h hd)
  | string content => exact absurd rfl (hopen '"' (by decide))
  | mark mark =>
    have hall : ∀ d ∈ doubling, d ∈ mark.symbol.toList →
        (d = '>' ∧ mark.symbol.toList = ['-', '>']) ∨ (d = '?' ∧ mark.symbol.toList = ['?']) := by
      cases mark <;> exact forall_mem_of_all (by decide)
    rcases hall d hd hmem with h | h
    · exact .inl h
    · exact .inr (.inl h)
  | periods =>
    have hall : ∀ d ∈ doubling, d ∉ ['.', '.'] := forall_mem_of_all (by decide)
    exact absurd hmem (hall d hd)
  | operator h => exact .inr (.inr (.inl ⟨h, rfl⟩))
  | slash h => exact absurd rfl (hopen '/' (by decide))
  | fixed h => exact .inr (.inr (.inr ⟨_, h, rfl, rfl⟩))

lemma isForeign_of_mem {symbol : String} (h : symbol ∈ ["!=", "!==", "??", "...", "..<"]) :
    (TokenKind.operator symbol).isForeign = true := by
  revert symbol
  decide

/-- Two of these characters together are an operator. -/
lemma exists_matches_pair (hd : d ∈ doubling) :
    ∃ rule ∈ language, rule.pattern.Matches [d, d] := by
  simp only [doubling, List.mem_cons, List.not_mem_nil, or_false] at hd
  rcases hd with rfl | rfl
  · exact exists_matches_operator (by simp) (forall_mem_of_all (by decide))
  · refine ⟨Rule.fixed "??" (.operator "??"), by simp [language, operators], ?_⟩
    exact Regex.matches_literal.mpr rfl

/-- What is found up to one of these characters is foreign to types, or would be found farther
with another one behind it. -/
lemma Finds.exists_longer (h : Finds (before ++ [d]) kind) (hd : d ∈ doubling)
    (hopen : ∀ c ∈ openers, (before ++ [d]).head? ≠ some c) :
    kind.isForeign = true ∨ ∃ rule ∈ language, rule.pattern.Matches (before ++ [d, d]) := by
  rcases h.of_mem_doubling hd (by simp) hopen with
    ⟨rfl, heq⟩ | ⟨rfl, heq⟩ | ⟨hoperator, -⟩ | ⟨symbol, hsymbol, -, rfl⟩
  · obtain rfl : before = ['-'] := List.append_cancel_right heq
    exact .inr (exists_matches_operator (by simp) (forall_mem_of_all (by decide)))
  · obtain rfl : before = [] := List.append_cancel_right (heq.trans (List.nil_append _).symm)
    exact .inr (exists_matches_pair hd)
  · refine .inr (exists_matches_operator (by simp) fun c hc => hoperator c ?_)
    simpa using hc
  · exact .inl (isForeign_of_mem hsymbol)

/-- What is found with one of these characters doubled in it is foreign to types. -/
lemma Finds.isForeign (h : Finds (before ++ d :: d :: later) kind) (hd : d ∈ doubling)
    (hopen : ∀ c ∈ openers, (before ++ d :: d :: later).head? ≠ some c) :
    kind.isForeign = true := by
  have hdoubled : 2 ≤ (before ++ d :: d :: later).count d := by
    simp only [List.count_append, List.count_cons_self]
    omega
  have hlen := hdoubled.trans List.count_le_length
  rcases h.of_mem_doubling hd (by simp) hopen with
    ⟨rfl, heq⟩ | ⟨rfl, heq⟩ | ⟨-, rfl⟩ | ⟨symbol, hsymbol, -, rfl⟩
  · rw [heq] at hdoubled
    exact absurd hdoubled (by decide)
  · rw [heq] at hdoubled
    exact absurd hdoubled (by decide)
  · have hne : ∀ single : Char,
        String.ofList (before ++ d :: d :: later) ≠ String.singleton single := by
      intro single heq
      have hlist := congrArg String.toList heq
      rw [String.toList_ofList, String.toList_singleton] at hlist
      rw [hlist] at hlen
      exact absurd hlen (by simp)
    simpa [TokenKind.isForeign] using And.intro (hne '<') (hne '>')
  · exact isForeign_of_mem hsymbol

end Rule

namespace Lexeme

open Rule

/-- Where no comment, string or quoted name starts, the first lexeme is the longest text that a
rule finds, or one character. -/
lemma first_spec_of_not_opener {c : Char} (rest : List Char) (hc : c ∉ openers) :
    (Finds (first c rest).text (first c rest).kind ∨ (first c rest).text = [c]) ∧
      ∀ rule ∈ language, ∀ n ≤ (c :: rest).length, rule.pattern.Matches ((c :: rest).take n) →
        n ≤ (first c rest).text.length := by
  have hcomment : ¬ ['/', '*'] <+: c :: rest := by
    rintro ⟨_, heq⟩
    obtain rfl := (List.cons.inj heq).1
    exact hc (by decide)
  rcases hrules : ofRules? language (c :: rest) with _ | lexeme
  · -- no rule finds anything, and nothing unfinished starts here
    have hchoice : choose? (c :: rest) language = none := by
      simpa [ofRules?] using hrules
    have hunfinished : ofRules? unfinished (c :: rest) = none := by
      have hquote : c ≠ '"' ∧ c ≠ '\x60' := by
        simp only [openers, List.mem_cons, List.not_mem_nil, or_false, not_or] at hc
        exact hc.2
      rw [ofRules?, Option.map_eq_none_iff]
      rcases hsome : choose? (c :: rest) unfinished with _ | ⟨n, rule⟩
      · rfl
      obtain ⟨hmem, hn, hne⟩ := choose?_spec hsome
      have hmatch := Regex.matches_take_longest (hn ▸ hne)
      simp only [unfinished, keeping, List.mem_cons, List.not_mem_nil, or_false] at hmem
      rcases hmem with rfl | rfl <;>
        simp only [Regex.matches_seq, Regex.matches_literal] at hmatch <;>
        obtain ⟨_, later, htake, rfl, -⟩ := hmatch
      all_goals
        have hhead := congrArg List.head? htake
        rw [List.head?_take, if_neg (hn ▸ hne)] at hhead
        simp_all
    have hfirst : first c rest = ⟨.invalid (String.singleton c), [c]⟩ := by
      unfold first
      split
      next body => exact absurd ⟨body, rfl⟩ hcomment
      next => rw [hrules, hunfinished, Option.getD_none, Option.getD_none]
    rw [hfirst]
    refine ⟨.inr rfl, fun rule hrule n hn hmatch => ?_⟩
    have := Regex.length_le_longest hn hmatch
    have := longest_eq_zero_of_choose? hchoice rule hrule
    omega
  · rw [first_of_ofRules? hcomment hrules]
    -- the rule that was chosen finds at least as much as any other
    rcases hchoice : choose? (c :: rest) language with _ | ⟨length, chosen⟩
    · simp [ofRules?, hchoice] at hrules
    obtain ⟨hmem, hlength, hne⟩ := choose?_spec hchoice
    simp only [ofRules?, hchoice, Option.map_some, Option.some.injEq] at hrules
    subst hrules
    have hle := Regex.longest_le chosen.pattern (c :: rest)
    refine ⟨.inl (finds_of_mem_language hmem ?_), fun rule hrule n hn hmatch => ?_⟩
    · rw [hlength]
      exact Regex.matches_take_longest (hlength ▸ hne)
    · have := Regex.length_le_longest hn hmatch
      have := longest_le_of_choose? hchoice rule hrule
      rw [List.length_take]
      omega

/-- Where one of these characters is doubled there is an operator foreign to types. -/
theorem exists_foreign {d : Char} (hd : d ∈ doubling) (before later : List Char)
    (hopen : ∀ c ∈ before, c ∉ openers) :
    ∃ kind ∈ kinds (before ++ d :: d :: later), kind.isForeign = true := by
  induction hn : before.length using Nat.strongRecOn generalizing before with
  | _ n ih =>
    subst hn
    have hclosed : ∀ d ∈ doubling, d ∉ openers := forall_mem_of_all (by decide)
    obtain ⟨c, rest, htext⟩ : ∃ c rest, before ++ d :: d :: later = c :: rest :=
      List.exists_cons_of_ne_nil (by simp)
    have hc : c ∉ openers := by
      rcases before with _ | ⟨b, before⟩
      · rw [← (List.cons.inj htext).1]
        exact hclosed d hd
      · rw [← (List.cons.inj htext).1]
        exact hopen b List.mem_cons_self
    obtain ⟨hfirst, hlongest⟩ := first_spec_of_not_opener rest hc
    obtain ⟨hin, hne⟩ := first_spec c rest
    have hpos := List.length_pos_iff.mpr hne
    have hkinds : kinds (before ++ d :: d :: later) =
        (first c rest).kind :: kinds ((c :: rest).drop (first c rest).text.length) := by
      rw [htext, kinds, ofChars_cons]
      rfl
    rw [hkinds]
    by_cases hle : (first c rest).text.length ≤ before.length
    · -- the pair is still ahead behind the first lexeme
      rw [← htext, List.drop_append_of_le_length hle]
      obtain ⟨kind, hkind, hforeign⟩ := ih _ (by rw [List.length_drop]; omega)
        (before.drop (first c rest).text.length) (fun b hb => hopen b (List.mem_of_mem_drop hb)) rfl
      exact ⟨kind, List.mem_cons_of_mem _ hkind, hforeign⟩
    · -- the first lexeme goes into the pair, and then over it
      obtain ⟨k, hk⟩ := Nat.exists_eq_add_of_lt (Nat.lt_of_not_le hle)
      have hfound : (first c rest).text = before ++ d :: (d :: later).take k := by
        rw [List.prefix_iff_eq_take.mp hin, ← htext, List.take_append,
          List.take_of_length_le (by omega), hk, show before.length + k + 1 - before.length = k + 1
            by omega, List.take_succ_cons]
      refine ⟨_, List.mem_cons_self, ?_⟩
      have hhead : ∀ b ∈ openers, (first c rest).text.head? ≠ some b := by
        rintro b hb hhead
        obtain ⟨t, ht⟩ := hin
        obtain ⟨more, hmore⟩ := List.head?_eq_some_iff.mp hhead
        rw [hmore] at ht
        exact hc ((List.cons.inj ht).1 ▸ hb)
      have hpair : ∀ rule ∈ language, rule.pattern.Matches (before ++ [d, d]) →
          before.length + 2 ≤ (first c rest).text.length := by
        intro rule hrule hmatch
        refine hlongest rule hrule _ (by rw [← htext]; simp) ?_
        rw [← htext, List.take_append, List.take_of_length_le (by omega)]
        simpa using hmatch
      rcases hfirst with hfinds | hsingle
      · rcases k with _ | k
        · rw [List.take_zero] at hfound
          rw [hfound] at hfinds hhead
          rcases hfinds.exists_longer hd hhead with hforeign | ⟨rule, hrule, hmatch⟩
          · exact hforeign
          · have := hpair rule hrule hmatch
            omega
        · rw [List.take_succ_cons] at hfound
          rw [hfound] at hfinds hhead
          exact hfinds.isForeign hd hhead
      · -- a pair alone is an operator
        obtain rfl : before = [] := by
          rw [hsingle, List.length_singleton] at hle
          exact List.length_eq_zero_iff.mp (by omega)
        obtain ⟨rule, hrule, hmatch⟩ := exists_matches_pair hd
        have := hpair rule hrule hmatch
        rw [hsingle] at this
        simp at this

end Lexeme

end FrontEnd
