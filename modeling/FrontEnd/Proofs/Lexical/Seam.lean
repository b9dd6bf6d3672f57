/-
Where lexemes meet.

What stands behind a lexeme of a text halts it: `Lexeme.halts_of_suffix`.  Often less than that
is needed to know that it halts in front of something else.

* Some characters halt every lexeme but a string: `Rule.Takes.halts_ender`.
* A sign is halted by one character alone: `Rule.Halts.sign`.
* A number is halted by a period and one character behind it: `Rule.Halts.point`.
-/
import Mathlib.Data.List.Infix
import FrontEnd.Proofs.Lexical.Alone
import FrontEnd.Proofs.Lexical.Apart

namespace FrontEnd

/-- A kind of the language that does not only separate others. -/
def TokenKind.IsSolid (kind : TokenKind) : Prop :=
  kind.isBlank = false ∧ kind.isInvalid = false

/-! ### What stands behind a lexeme -/

namespace Lexeme

variable {text : List Char} {lexeme : Lexeme}

/-- What the rules find in a text halts there. -/
lemma halts_of_ofRules? {later : List Char}
    (h : ofRules? Rule.language (lexeme.text ++ later) = some lexeme)
    (hcomment : ¬ ['/', '*'] <+: lexeme.text ++ later) : Rule.Halts lexeme.text later := by
  intro t ht hne
  have hbegins : lexeme.text ++ t <+: lexeme.text ++ later := (List.prefix_append_right_inj _).mpr ht
  refine ⟨fun rule hrule hmatch => ?_, fun hopen => hcomment (hopen.trans hbegins)⟩
  unfold ofRules? at h
  rcases hchoice : Rule.choose? (lexeme.text ++ later) Rule.language with _ | ⟨n, chosen⟩
  · simp [hchoice] at h
  · simp only [hchoice, Option.map_some, Option.some.injEq] at h
    -- a longer match would have been chosen
    have hle := Rule.longest_le_of_choose? hchoice rule hrule
    have htotal : n ≤ (lexeme.text ++ later).length := by
      rw [(Rule.choose?_spec hchoice).2.1]
      exact Regex.longest_le _ _
    have hlength := congrArg (fun found : Lexeme => found.text.length) h
    simp only [List.length_take] at hlength
    rw [List.prefix_iff_eq_take.mp hbegins] at hmatch
    have hlong := Regex.length_le_longest hbegins.length_le hmatch
    have hpos := List.length_pos_iff.mpr hne
    rw [List.length_append] at hlong
    omega

/-- A solid lexeme at the start of a text is taken by the rules and halts there. -/
lemma first_halts {c : Char} {rest later : List Char} (hsolid : (first c rest).kind.IsSolid)
    (hsplit : (first c rest).text ++ later = c :: rest) :
    Rule.Takes (first c rest).text (first c rest).kind ∧
      Rule.Halts (first c rest).text later := by
  have hcomment : ¬ ['/', '*'] <+: c :: rest := by
    rintro ⟨body, hbody⟩
    cases hbody
    change (blockComment body).kind.IsSolid at hsolid
    unfold blockComment at hsolid
    split at hsolid
    · cases hsolid.1
    · cases hsolid.2
  rw [first_of_not_comment hcomment] at hsolid hsplit ⊢
  rcases hlanguage : ofRules? Rule.language (c :: rest) with _ | lexeme
  · rw [hlanguage, Option.getD_none] at hsolid
    rcases hunfinished : ofRules? Rule.unfinished (c :: rest) with _ | lexeme
    · rw [hunfinished] at hsolid
      cases hsolid.2
    · rw [hunfinished, Option.getD_some, kind_of_unfinished hunfinished] at hsolid
      cases hsolid.2
  · rw [hlanguage, Option.getD_some] at hsplit
    rw [Option.getD_some]
    rw [← hsplit] at hlanguage hcomment
    exact ⟨⟨ofRules?_text hlanguage, fun hopen => hcomment (hopen.trans (List.prefix_append _ _))⟩,
      halts_of_ofRules? hlanguage hcomment⟩

/-- The lexemes from one on are those of what is left of the text there. -/
lemma exists_first_of_suffix {later : List Lexeme} (h : lexeme :: later <:+ ofChars text) :
    ∃ c rest, first c rest = lexeme ∧
      lexeme.text ++ (later.map (·.text)).flatten = c :: rest := by
  induction hn : text.length using Nat.strong_induction_on generalizing text with
  | _ n ih =>
    cases text with
    | nil => cases List.suffix_nil.mp h
    | cons c rest =>
      obtain ⟨⟨left, hleft⟩, hne⟩ := first_spec c rest
      have hdrop : (c :: rest).drop (first c rest).text.length = left := by
        rw [← hleft, List.drop_left]
      rw [ofChars_cons, hdrop, List.suffix_cons_iff] at h
      rcases h with h | h
      · obtain ⟨rfl, rfl⟩ := List.cons.inj h
        exact ⟨c, rest, rfl, by rw [flatten_ofChars, hleft]⟩
      · refine ih left.length ?_ h rfl
        have hpos := List.length_pos_iff.mpr hne
        have hlength := congrArg List.length hleft
        rw [List.length_append] at hlength
        omega

/-- A solid lexeme of a text is taken by the rules and halted by the lexemes behind it. -/
theorem halts_of_suffix {later : List Lexeme} (h : lexeme :: later <:+ ofChars text)
    (hsolid : lexeme.kind.IsSolid) :
    Rule.Takes lexeme.text lexeme.kind ∧
      Rule.Halts lexeme.text (later.map (·.text)).flatten := by
  obtain ⟨c, rest, rfl, hsplit⟩ := exists_first_of_suffix h
  exact first_halts hsolid hsplit

end Lexeme

namespace Rule

variable {text later : List Char} {kind : TokenKind} {c d : Char}

/-- What the rules take as a whole is described by the rule that gives it its kind. -/
lemma Takes.exists_rule (h : Takes text kind) :
    ∃ rule ∈ language, rule.pattern.Matches text ∧ rule.kind text = kind := by
  have hrules := h.ofRules?_eq
  unfold Lexeme.ofRules? at hrules
  rcases hchoice : choose? text language with _ | ⟨n, rule⟩
  · simp [hchoice] at hrules
  · obtain ⟨hmem, hlength, hne⟩ := choose?_spec hchoice
    simp only [hchoice, Option.map_some, Option.some.injEq, Lexeme.mk.injEq] at hrules
    obtain ⟨hkind, htext⟩ := hrules
    rw [hlength] at hne
    have hmatch := Regex.matches_take_longest hne
    rw [← hlength, htext] at hmatch
    exact ⟨rule, hmem, hmatch, htext ▸ hkind⟩

lemma Takes.finds (h : Takes text kind) : Finds text kind := by
  obtain ⟨rule, hmem, hmatch, rfl⟩ := h.exists_rule
  exact finds_of_mem_language hmem hmatch

/-! ### What the first character tells -/

/-- A rule that finds a digit first is one for numbers. -/
lemma Finds.exists_of_isDigit (h : Finds (c :: text) kind) (hc : c.isDigit = true) :
    ∃ rule ∈ numbers, rule.pattern.Matches (c :: text) ∧ kind = rule.kind (c :: text) := by
  have hother : ∀ d : Char, d.isDigit = false → c ≠ d := by
    rintro d hd rfl
    rw [hc] at hd
    cases hd
  generalize hfound : c :: text = found at h
  cases h with
  | whitespace h =>
    have hnot : ∀ d ∈ [' ', '\t', '\x0c'], d.isDigit = false := forall_mem_of_all (by decide)
    exact absurd rfl (hother c (hnot c (h c (by simp [← hfound]))))
  | lineFeed => cases hfound; cases hc
  | carriageReturn => cases hfound; cases hc
  | comment h => cases hfound; cases hc
  | word hstart h =>
    cases hfound
    rw [not_startsWord_of_isDigit hc] at hstart
    cases hstart
  | quotedIdentifier name => cases hfound; cases hc
  | number hrule h => exact ⟨_, hrule, h, rfl⟩
  | string content => cases hfound; cases hc
  | mark mark => cases mark <;> cases hfound <;> cases hc
  | periods => cases hfound; cases hc
  | operator h =>
    have hnot : ∀ d ∈ operatorChars, d.isDigit = false := forall_mem_of_all (by decide)
    exact absurd rfl (hother c (hnot c (h c (by simp [← hfound]))))
  | slash h => cases hfound; cases hc
  | fixed h =>
    simp only [List.mem_cons, List.not_mem_nil, or_false] at h
    rcases h with rfl | rfl | rfl | rfl | rfl <;> cases hfound <;> cases hc

/-- What starts with a blank, a quote or a period tells its kind by that. -/
lemma Finds.kind_of_first (h : Finds (c :: text) kind) :
    (c ∈ [' ', '\t', '\x0c'] → kind = .whitespace) ∧ (c = '"' → ∃ content, kind = .string content) ∧
      (c = '\x60' → ∃ name, kind = .quotedIdentifier name) ∧
      (c = '.' → kind = .punctuator .period ∨ ∃ symbol, kind = .operator symbol) := by
  -- any other first character tells nothing
  have hplain : ∀ d : Char, d ∉ [' ', '\t', '\x0c', '"', '\x60', '.'] → c = d →
      (c ∈ [' ', '\t', '\x0c'] → kind = .whitespace) ∧
        (c = '"' → ∃ content, kind = .string content) ∧
        (c = '\x60' → ∃ name, kind = .quotedIdentifier name) ∧
        (c = '.' → kind = .punctuator .period ∨ ∃ symbol, kind = .operator symbol) := by
    rintro d hd rfl
    simp only [List.mem_cons, List.not_mem_nil, or_false, not_or] at hd ⊢
    simp [hd]
  have hsorts : ∀ d ∈ [' ', '\t', '\x0c', '"', '\x60', '.'], startsWord d = false ∧
      d.isDigit = false ∧ d ∉ operatorChars := forall_mem_of_all (by decide)
  generalize hfound : c :: text = found at h
  cases h with
  | whitespace h =>
    have hc : c ∈ [' ', '\t', '\x0c'] := h c (by simp [← hfound])
    have hnot : ∀ d ∈ [' ', '\t', '\x0c'], d ∉ ['"', '\x60', '.'] := forall_mem_of_all (by decide)
    have hne := hnot c hc
    simp only [List.mem_cons, List.not_mem_nil, or_false, not_or] at hne
    exact ⟨fun _ => rfl, fun h => absurd h hne.1, fun h => absurd h hne.2.1, fun h => absurd h hne.2.2⟩
  | lineFeed => exact hplain '\n' (by decide) (List.cons.inj hfound).1
  | carriageReturn => exact hplain '\r' (by decide) (List.cons.inj hfound).1
  | comment h => exact hplain '/' (by decide) (List.cons.inj hfound).1
  | word hstart h =>
    cases hfound
    refine hplain c (fun hc => ?_) rfl
    rw [(hsorts c hc).1] at hstart
    cases hstart
  | quotedIdentifier name =>
    cases hfound
    exact ⟨fun h => absurd h (by decide), nofun, fun _ => ⟨name, rfl⟩, nofun⟩
  | number hrule h =>
    subst hfound
    refine hplain c (fun hc => ?_) rfl
    have hdigit := isDigit_of_mem_numbers hrule h
    rw [(hsorts c hc).2.1] at hdigit
    cases hdigit
  | string content =>
    cases hfound
    exact ⟨fun h => absurd h (by decide), fun _ => ⟨content, rfl⟩, nofun, nofun⟩
  | mark mark =>
    by_cases hmark : mark = .period
    · subst hmark
      cases hfound
      exact ⟨fun h => absurd h (by decide), nofun, nofun, fun _ => .inl rfl⟩
    · have hall : ∀ mark ∈ Punctuator.all, mark ≠ .period →
          mark.symbol.toList.head?.all (· ∉ [' ', '\t', '\x0c', '"', '\x60', '.']) :=
        forall_mem_of_all (by decide)
      have hhead := hall mark mark.mem_all hmark
      rw [← hfound] at hhead
      exact hplain c (by simpa using hhead) rfl
  | periods =>
    cases hfound
    exact ⟨fun h => absurd h (by decide), nofun, nofun, fun _ => .inl rfl⟩
  | operator h =>
    exact hplain c (fun hc => (hsorts c hc).2.2 (h c (by simp [← hfound]))) rfl
  | slash h => exact hplain '/' (by decide) (List.cons.inj hfound).1
  | @fixed symbol h =>
    by_cases hc : c = '.'
    · subst hc
      exact ⟨fun h => absurd h (by decide), nofun, nofun, fun _ => .inr ⟨symbol, rfl⟩⟩
    · refine hplain c (fun hmem => ?_) rfl
      simp only [List.mem_cons, List.not_mem_nil, or_false] at h
      rcases h with rfl | rfl | rfl | rfl | rfl <;> cases hfound <;>
        first | exact absurd rfl hc | exact absurd hmem (by decide)

/-- The characters that signs start with. -/
def signStarts : List Char :=
  operatorChars ++ ['/', '!', '?', '.']

/-- A character that a solid kind may start with. -/
def Opens (c : Char) : TokenKind → Prop
  | .identifier _ | .keyword _ _ => startsWord c = true
  | .integer _ | .floating _ => c.isDigit = true
  | .string _ => c = '"'
  | .operator _ => c ∈ signStarts
  | _ => True

/-- A kind tells what its first character is like. -/
lemma Finds.opens (h : Finds (c :: text) kind) : Opens c kind := by
  generalize hfound : c :: text = found at h
  cases h with
  | word hstart h =>
    cases hfound
    unfold TokenKind.ofWord
    split <;> exact hstart
  | number hrule h =>
    subst hfound
    have hdigit := isDigit_of_mem_numbers hrule h
    simp only [numbers, literals, List.dropLast, List.mem_cons, List.not_mem_nil, or_false] at hrule
    rcases hrule with rfl | rfl | rfl | rfl | rfl | rfl <;> exact hdigit
  | string content =>
    cases hfound
    rfl
  | operator h => exact List.mem_append_left _ (h c (by simp [← hfound]))
  | slash h =>
    cases hfound
    exact (by decide : '/' ∈ signStarts)
  | @fixed symbol h =>
    have hall : ∀ symbol ∈ ["!=", "!==", "??", "...", "..<"],
        symbol.toList.head?.all (· ∈ signStarts) := forall_mem_of_all (by decide)
    have hhead := hall symbol h
    rw [← hfound] at hhead
    simpa [Opens] using hhead
  | _ => trivial

/-! ### Characters that halt a lexeme -/

/-- The texts that a rule of their own describes. -/
def fixedTexts : List (List Char) :=
  Punctuator.all.map (·.symbol.toList) ++ ['.', '.'] ::
    ["!=", "!==", "??", "...", "..<"].map (·.toList)

lemma mem_fixedTexts_mark (mark : Punctuator) : mark.symbol.toList ∈ fixedTexts :=
  List.mem_append_left _ (List.mem_map_of_mem mark.mem_all)

lemma mem_fixedTexts_fixed {symbol : String} (h : symbol ∈ ["!=", "!==", "??", "...", "..<"]) :
    symbol.toList ∈ fixedTexts :=
  List.mem_append_right _ (List.mem_cons_of_mem _ (List.mem_map_of_mem h))

/-- Characters that no lexeme goes on with, but for comments, strings and names in
backticks. -/
def enders : List Char :=
  [' ', ',', ')', ']', ':', '(', '[', '!']

/-- The characters that such lexemes and blanks start with. -/
def guards : List Char :=
  [' ', '\t', '\x0c', '/', '"', '\x60']

lemma Finds.not_mem_of_mem_enders (h : Finds (c :: text) kind) (hc : c ∉ guards) (hd : d ∈ enders) :
    d ∉ text := by
  have hfixed : ∀ found ∈ fixedTexts, ∀ d ∈ enders, d ∉ found.tail := by
    have hall : ∀ found ∈ fixedTexts, enders.all (· ∉ found.tail) :=
      forall_mem_of_all (by decide)
    exact fun found hmem => forall_mem_of_all (hall found hmem)
  generalize hfound : c :: text = found at h
  have htail : text = found.tail := by rw [← hfound, List.tail_cons]
  -- the guards exclude blanks, comments and quotes; no other rule takes an ender but at the head
  cases h with
  | whitespace h =>
    exact absurd (List.mem_append_left ['/', '"', '\x60'] (h c (by simp [← hfound]))) hc
  | lineFeed => simp [htail]
  | carriageReturn => simp [htail]
  | comment h => cases hfound; exact absurd (by decide) hc
  | word hstart h =>
    cases hfound
    have hnot : ∀ d ∈ enders, continuesWord d = false := forall_mem_of_all (by decide)
    intro hmem
    have hword := h d hmem
    rw [hnot d hd] at hword
    cases hword
  | quotedIdentifier name => cases hfound; exact absurd (by decide) hc
  | number hrule h =>
    have hall : ∀ d ∈ enders, ∀ rule ∈ numbers, rule.pattern.avoids d = true :=
      forall_mem_of_all (by decide)
    subst hfound
    exact fun hmem => Regex.not_mem_of_avoids (hall d hd _ hrule) h (List.mem_cons_of_mem _ hmem)
  | string content => cases hfound; exact absurd (by decide) hc
  | mark mark => exact htail ▸ hfixed _ (mem_fixedTexts_mark mark) d hd
  | periods => exact htail ▸ hfixed ['.', '.'] (by decide) d hd
  | operator h =>
    have hnot : ∀ d ∈ enders, d ∉ operatorChars := forall_mem_of_all (by decide)
    exact fun hmem => hnot d hd (h d (by simp [← hfound, hmem]))
  | slash h => cases hfound; exact absurd (by decide) hc
  | fixed h => exact htail ▸ hfixed _ (mem_fixedTexts_fixed h) d hd

/-- What starts with a slash is a comment or an operator. -/
lemma Finds.of_slash (h : Finds ('/' :: text) kind) :
    (∃ content, kind = .comment content) ∧ text.head? = some '/' ∨ ∀ d ∈ text, d ∈ afterSlash := by
  generalize hfound : '/' :: text = found at h
  cases h with
  | whitespace h => exact absurd (h '/' (by simp [← hfound])) (by decide)
  | lineFeed => cases hfound
  | carriageReturn => cases hfound
  | comment h => cases hfound; exact .inl ⟨⟨_, rfl⟩, rfl⟩
  | word hstart h => cases hfound; cases hstart
  | quotedIdentifier name => cases hfound
  | number hrule h =>
    subst hfound
    cases isDigit_of_mem_numbers hrule h
  | string content => cases hfound
  | mark mark => cases mark <;> cases hfound
  | periods => cases hfound
  | operator h => exact absurd (h '/' (by simp [← hfound])) (by decide)
  | slash h => cases hfound; exact .inr h
  | fixed h =>
    simp only [List.mem_cons, List.not_mem_nil, or_false] at h
    rcases h with rfl | rfl | rfl | rfl | rfl <;> cases hfound

/-- The character halts every lexeme that is no string and no name in backticks. -/
lemma Takes.halts_ender (h : Takes text kind) (hsolid : kind.IsSolid)
    (hstring : ∀ content, kind ≠ .string content) (hquoted : ∀ name, kind ≠ .quotedIdentifier name)
    (hd : d ∈ enders) : Halts text (d :: later) := by
  obtain ⟨c, rest, rfl⟩ := List.exists_cons_of_ne_nil h.ne_nil
  have hfirst := h.finds.kind_of_first
  have hslash : ∀ d ∈ enders, d ≠ '/' ∧ d ≠ '*' ∧ d ∉ afterSlash := forall_mem_of_all (by decide)
  refine Stops.halts fun t ht hne => ?_
  obtain ⟨e, t, rfl⟩ := List.exists_cons_of_ne_nil hne
  obtain rfl : e = d := (List.cons_prefix_cons.mp ht).1
  refine ⟨fun found hfinds => ?_, ?_⟩
  · by_cases hc : c ∈ guards
    · simp only [guards, List.mem_cons, List.not_mem_nil, or_false] at hc
      obtain hc | rfl | rfl | rfl : c ∈ [' ', '\t', '\x0c'] ∨ c = '/' ∨ c = '"' ∨ c = '\x60' := by
        simpa only [List.mem_cons, List.not_mem_nil, or_false, or_assoc] using hc
      · rw [hfirst.1 hc] at hsolid
        cases hsolid.1
      · -- a slash goes on to a comment only behind a second one
        rcases hfinds.of_slash with ⟨-, hhead⟩ | hall
        · rcases rest with _ | ⟨second, rest⟩
          · exact (hslash e hd).1 (Option.some.inj hhead)
          · obtain rfl : second = '/' := Option.some.inj hhead
            rcases h.finds.of_slash with ⟨⟨content, rfl⟩, -⟩ | hall
            · cases hsolid.1
            · exact absurd (hall '/' List.mem_cons_self) (by decide)
        · exact (hslash e hd).2.2 (hall e (by simp))
      · obtain ⟨content, hkind⟩ := hfirst.2.1 rfl
        exact hstring content hkind
      · obtain ⟨name, hkind⟩ := hfirst.2.2.1 rfl
        exact hquoted name hkind
    · exact hfinds.not_mem_of_mem_enders hc hd (by simp)
  · rintro ⟨body, hbody⟩
    rcases rest with _ | ⟨second, rest⟩
    · cases hbody
      exact (hslash '*' hd).2.1 rfl
    · cases hbody
      exact h.not_comment ⟨rest, rfl⟩

/-- A blank is halted by what is solid. -/
lemma Takes.halts_space (h : Takes text kind) (hsolid : kind.IsSolid) : Halts [' '] (text ++ later) := by
  obtain ⟨c, rest, rfl⟩ := List.exists_cons_of_ne_nil h.ne_nil
  refine Stops.halts fun t ht hne => ?_
  obtain ⟨e, t, rfl⟩ := List.exists_cons_of_ne_nil hne
  obtain rfl : e = c := (List.cons_prefix_cons.mp ht).1
  refine ⟨fun found hfinds => ?_, by rintro ⟨body, ⟨⟩⟩⟩
  have hblank : e ∈ [' ', '\t', '\x0c'] := by
    simpa [Joins, startsWord, operatorChars] using hfinds.joins
  rw [h.finds.kind_of_first.1 hblank] at hsolid
  cases hsolid.1

/-- A period is halted by what is neither a period nor an operator. -/
lemma Takes.halts_period (h : Takes text kind) (hmark : kind ≠ .punctuator .period)
    (hoperator : ∀ symbol, kind ≠ .operator symbol) : Halts ['.'] (text ++ later) := by
  obtain ⟨c, rest, rfl⟩ := List.exists_cons_of_ne_nil h.ne_nil
  refine Stops.halts fun t ht hne => ?_
  obtain ⟨e, t, rfl⟩ := List.exists_cons_of_ne_nil hne
  obtain rfl : e = c := (List.cons_prefix_cons.mp ht).1
  refine ⟨fun found hfinds => ?_, by rintro ⟨body, ⟨⟩⟩⟩
  have hperiod : e = '.' := by
    simpa [Joins, startsWord, operatorChars] using hfinds.joins
  rcases h.finds.kind_of_first.2.2.2 hperiod with hkind | ⟨symbol, hkind⟩
  · exact hmark hkind
  · exact hoperator symbol hkind

/-! ### Signs -/

lemma exists_matches_of_ofRules? (h : (Lexeme.ofRules? language text).map (·.text) = some text) :
    ∃ rule ∈ language, rule.pattern.Matches text := by
  unfold Lexeme.ofRules? at h
  rcases hchoice : choose? text language with _ | ⟨n, rule⟩
  · simp [hchoice] at h
  · obtain ⟨hmem, hlength, hne⟩ := choose?_spec hchoice
    simp only [hchoice, Option.map_some, Option.some.injEq] at h
    rw [hlength] at hne h
    exact ⟨rule, hmem, h ▸ Regex.matches_take_longest hne⟩

/-- A beginning of what is found from a sign on is described, too. -/
lemma Finds.exists_matches_of_begins {u : List Char} (h : Finds (c :: text) kind)
    (hc : c ∈ signStarts) (hu : u <+: c :: text) (hne : u ≠ []) :
    ∃ rule ∈ language, rule.pattern.Matches u := by
  -- the texts of the table have finitely many beginnings, which are checked one by one
  have hfixed : ∀ found ∈ fixedTexts, ∀ u ∈ found.inits, u ≠ [] →
      (Lexeme.ofRules? language u).map (·.text) = some u := forall_mem_of_all (by decide)
  have hsorts : ∀ d ∈ signStarts, d ∉ [' ', '\t', '\x0c', '\n', '\r', '"', '\x60'] ∧
      startsWord d = false ∧ d.isDigit = false := forall_mem_of_all (by decide)
  have hnot : ∀ d ∈ [' ', '\t', '\x0c', '\n', '\r', '"', '\x60'], c ≠ d := by
    rintro d hd rfl
    exact (hsorts c hc).1 hd
  obtain ⟨a, u, rfl⟩ := List.exists_cons_of_ne_nil hne
  obtain ⟨rfl, hlater⟩ := List.cons_prefix_cons.mp hu
  generalize hfound : a :: text = found at h hu
  cases h with
  | whitespace h =>
    have hblank := List.mem_append_left ['\n', '\r', '"', '\x60'] (h a (by simp [← hfound]))
    exact absurd rfl (hnot a hblank)
  | lineFeed => exact absurd (List.cons.inj hfound).1 (hnot '\n' (by decide))
  | carriageReturn => exact absurd (List.cons.inj hfound).1 (hnot '\r' (by decide))
  | comment h =>
    cases hfound
    rcases u with _ | ⟨second, u⟩
    · exact exists_matches_of_ofRules? (by decide)
    · obtain ⟨rfl, hmore⟩ := List.cons_prefix_cons.mp hlater
      refine ⟨keeping .comment (Regex.inOrder [.literal ['/', '/'], .many (.noneOf ['\n', '\r'])]),
        by simp [language, blanks], ?_⟩
      simp only [keeping, Regex.inOrder, Regex.noneOf, Regex.matches_seq, Regex.matches_literal,
        Regex.matches_many_one]
      exact ⟨_, u, rfl, rfl, fun d hd => by simpa using h d (hmore.subset hd)⟩
  | word hstart h =>
    cases hfound
    rw [(hsorts _ hc).2.1] at hstart
    cases hstart
  | quotedIdentifier name => exact absurd (List.cons.inj hfound).1 (hnot '\x60' (by decide))
  | number hrule h =>
    subst hfound
    have hdigit := isDigit_of_mem_numbers hrule h
    rw [(hsorts _ hc).2.2] at hdigit
    cases hdigit
  | string content => exact absurd (List.cons.inj hfound).1 (hnot '"' (by decide))
  | mark mark =>
    exact exists_matches_of_ofRules?
      (hfixed _ (mem_fixedTexts_mark mark) _ ((List.mem_inits _ _).mpr hu) hne)
  | periods =>
    exact exists_matches_of_ofRules?
      (hfixed ['.', '.'] (by decide) _ ((List.mem_inits _ _).mpr hu) hne)
  | operator h =>
    refine ⟨keeping .operator (Regex.atLeastOne (.oneOf operatorChars)),
      by simp [language, operators], ?_⟩
    simp only [keeping, Regex.atLeastOne, Regex.oneOf, Regex.matches_seq, Regex.matches_one,
      Regex.matches_many_one, List.contains_iff_mem]
    refine ⟨[a], u, rfl, ⟨a, rfl, h a (by simp [← hfound])⟩, fun d hd => ?_⟩
    exact h d (hu.subset (List.mem_cons_of_mem _ hd))
  | slash h =>
    cases hfound
    refine ⟨keeping .operator (Regex.seq (.literal ['/']) (.many (.oneOf afterSlash))),
      by simp [language, operators], ?_⟩
    simp only [keeping, Regex.oneOf, Regex.matches_seq, Regex.matches_literal,
      Regex.matches_many_one, List.contains_iff_mem]
    exact ⟨_, u, rfl, rfl, fun d hd => h d (hlater.subset hd)⟩
  | fixed h =>
    exact exists_matches_of_ofRules?
      (hfixed _ (mem_fixedTexts_fixed h) _ ((List.mem_inits _ _).mpr hu) hne)

/-- What halts a sign is the next character alone. -/
lemma Halts.sign {sign : List Char} (h : Halts sign [d])
    (hsign : ∃ c ∈ signStarts, sign.head? = some c) : Halts sign (d :: later) := by
  obtain ⟨c, hc, hhead⟩ := hsign
  obtain ⟨rest, rfl⟩ := List.head?_eq_some_iff.mp hhead
  obtain ⟨hrules, hcomment⟩ := h [d] (List.prefix_refl _) (List.cons_ne_nil _ _)
  intro t ht hne
  obtain ⟨e, t, rfl⟩ := List.exists_cons_of_ne_nil hne
  obtain rfl : e = d := (List.cons_prefix_cons.mp ht).1
  have hbegins : c :: rest ++ [e] <+: c :: rest ++ e :: t := ⟨t, by simp⟩
  constructor
  · intro rule hrule hmatch
    obtain ⟨other, hother, hmatch⟩ := (finds_of_mem_language hrule hmatch).exists_matches_of_begins hc
      hbegins (by simp)
    exact hrules other hother hmatch
  · intro hopen
    exact hcomment (List.prefix_of_prefix_length_le hopen hbegins (by simp))

/-! ### Numbers in front of a period -/

/-- A number goes on over a period only to a digit, and that far at once. -/
lemma Finds.exists_of_point {t : List Char} (h : Finds (c :: text ++ '.' :: t) kind)
    (hc : c.isDigit = true) :
    ∃ e rest, t = e :: rest ∧ ∃ rule ∈ language, rule.pattern.Matches (c :: text ++ ['.', e]) := by
  obtain ⟨rule, hrule, hmatch, -⟩ := h.exists_of_isDigit hc
  let fraction : Regex := .seq (digits Char.isDigit) (.optional exponent)
  let point : Rule := keeping .floating (.seq (digits Char.isDigit) (.seq (.literal ['.']) fraction))
  obtain havoids | rfl : rule.pattern.avoids '.' = true ∨ rule = point := by
    simp only [numbers, literals, List.dropLast, List.mem_cons, List.not_mem_nil, or_false] at hrule
    rcases hrule with rfl | rfl | rfl | rfl | rfl | rfl
    case inr.inr.inr.inr.inl => exact .inr rfl
    all_goals exact .inl (by decide)
  · exact absurd (by simp) (Regex.not_mem_of_avoids havoids hmatch)
  · have hmatch : Regex.Matches (.seq (digits Char.isDigit) (.seq (.literal ['.']) fraction))
        (c :: text ++ '.' :: t) := hmatch
    obtain ⟨whole, later, heq, hwhole, hlater⟩ := Regex.matches_seq.mp hmatch
    obtain ⟨_, part, rfl, hperiod, hpart⟩ := Regex.matches_seq.mp hlater
    obtain rfl := Regex.matches_literal.mp hperiod
    -- the period stands once in the match
    have hwhole' : '.' ∉ whole := Regex.not_mem_of_avoids (by decide) hwhole
    have hpart' : '.' ∉ part := Regex.not_mem_of_avoids (by decide) hpart
    rw [List.singleton_append, eq_comm, List.append_cons_inj_of_notMem hwhole' hpart'] at heq
    obtain ⟨rfl, -, rfl⟩ := heq
    obtain ⟨_, _, rfl, hdigits, -⟩ := Regex.matches_seq.mp hpart
    obtain ⟨_, more, rfl, hdigit, -⟩ := Regex.matches_seq.mp hdigits
    obtain ⟨e, rfl, he⟩ := Regex.matches_one.mp hdigit
    refine ⟨e, _, rfl, point, by simp [language, literals, point, fraction, Regex.inOrder], ?_⟩
    refine Regex.matches_seq.mpr ⟨_, ['.', e], rfl, hwhole, ?_⟩
    refine Regex.matches_seq.mpr ⟨['.'], [e], rfl, Regex.matches_literal.mpr rfl, ?_⟩
    refine Regex.matches_seq.mpr ⟨[e], [], rfl, ?_, .right .empty⟩
    exact Regex.matches_seq.mpr ⟨[e], [], rfl, .one he, .done⟩

/-- What halts a number in front of a period is the next character alone. -/
lemma Halts.point (h : Halts (c :: text) ['.', d]) (hc : c.isDigit = true) :
    Halts (c :: text) ('.' :: d :: later) := by
  have hslash : c ≠ '/' := by
    rintro rfl
    cases hc
  refine Stops.halts fun t ht hne => ?_
  obtain ⟨e, t, rfl⟩ := List.exists_cons_of_ne_nil hne
  obtain ⟨rfl, hnext⟩ := List.cons_prefix_cons.mp ht
  refine ⟨fun found hfinds => ?_, ?_⟩
  · obtain ⟨e, rest, rfl, rule, hrule, hmatch⟩ := hfinds.exists_of_point hc
    obtain rfl : e = d := (List.cons_prefix_cons.mp hnext).1
    exact (h ['.', e] (List.prefix_refl _) (by simp)).1 rule hrule hmatch
  · rintro ⟨body, hbody⟩
    exact hslash (List.cons.inj hbody).1.symm

/-- A word is halted by a character that it does not go on with. -/
lemma halts_of_startsWord (hc : startsWord c = true) (hd : continuesWord d = false) :
    Halts (c :: text) (d :: later) := by
  refine Stops.halts fun t ht hne => ?_
  obtain ⟨e, t, rfl⟩ := List.exists_cons_of_ne_nil hne
  obtain rfl : e = d := (List.cons_prefix_cons.mp ht).1
  refine ⟨fun found hfinds => ?_, ?_⟩
  · have hcontinues := (hfinds.eq_ofWord hc).2 e (by simp)
    rw [hd] at hcontinues
    cases hcontinues
  · rintro ⟨body, hbody⟩
    obtain rfl := (List.cons.inj hbody).1
    cases hc

/-- A character is halted by one that it may not stand together with. -/
lemma halts_of_not_joins (hjoins : ¬ Joins c d) (hslash : c ≠ '/') : Halts [c] (d :: later) := by
  refine Stops.halts fun t ht hne => ?_
  obtain ⟨e, t, rfl⟩ := List.exists_cons_of_ne_nil hne
  obtain rfl : e = d := (List.cons_prefix_cons.mp ht).1
  refine ⟨fun found hfinds => hjoins hfinds.joins, ?_⟩
  rintro ⟨body, hbody⟩
  exact hslash (List.cons.inj hbody).1.symm

end Rule

end FrontEnd
