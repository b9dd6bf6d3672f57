/-
Pieces of a text that are lexed apart.

A text of which the rules take the whole is one lexeme.  It stays one in front of another text
if no rule describes it together with a part of what follows (`Rule.Halts`), and then the lexemes
of the two texts stand one after the other: `Lexeme.kinds_append`.
-/
import FrontEnd.Lexical.Tokens
import FrontEnd.Proofs.Lexical.Finding
import FrontEnd.Proofs.Lexical.Lossless

namespace FrontEnd

/-- Where no longer text matches, what follows a text does not change its longest match. -/
lemma Regex.longest_append {r : Regex} {text later : List Char}
    (h : ∀ t, t <+: later → t ≠ [] → ¬ r.Matches (text ++ t)) :
    r.longest (text ++ later) = r.longest text := by
  apply Nat.le_antisymm
  · by_cases hzero : r.longest (text ++ later) = 0
    · omega
    have hmatch := matches_take_longest hzero
    rw [List.take_append] at hmatch
    by_cases hle : r.longest (text ++ later) ≤ text.length
    · rw [Nat.sub_eq_zero_of_le hle, List.take_zero, List.append_nil] at hmatch
      exact length_le_longest hle hmatch
    · have hlen := longest_le r (text ++ later)
      rw [List.length_append] at hlen
      rw [List.take_of_length_le (by omega)] at hmatch
      refine absurd hmatch (h _ (List.take_prefix _ _) ?_)
      intro hnil
      have hnone := congrArg List.length hnil
      rw [List.length_take, List.length_nil] at hnone
      omega
  · by_cases hzero : r.longest text = 0
    · omega
    have hmatch := matches_take_longest hzero
    have hle := longest_le r text
    refine length_le_longest (by rw [List.length_append]; omega) ?_
    rwa [List.take_append_of_le_length hle]

namespace Rule

variable {text later : List Char} {rules : List Rule} {kind : TokenKind}

/-! ### The choice of a rule -/

/-- Where no rule is chosen, none matches. -/
lemma longest_eq_zero_of_choose? (h : choose? text rules = none) :
    ∀ rule ∈ rules, rule.pattern.longest text = 0 := by
  induction rules with
  | nil => exact fun _ hmem => nomatch hmem
  | cons first rest ih =>
    unfold choose? at h
    rcases hlater : choose? text rest with _ | ⟨best, other⟩
    · simp only [hlater, ite_eq_left_iff, reduceCtorEq, imp_false, not_not] at h
      exact List.forall_mem_cons.mpr ⟨h, ih hlater⟩
    · simp only [hlater] at h
      split at h <;> cases h

/-- No rule matches farther than the one that is chosen. -/
lemma longest_le_of_choose? {length : Nat} {rule : Rule} (h : choose? text rules = some (length, rule)) :
    ∀ other ∈ rules, other.pattern.longest text ≤ length := by
  induction rules generalizing length rule with
  | nil => exact fun _ hmem => nomatch hmem
  | cons first rest ih =>
    unfold choose? at h
    rcases hlater : choose? text rest with _ | ⟨best, other⟩
    · have hnone := longest_eq_zero_of_choose? hlater
      simp only [hlater] at h
      split at h
      · cases h
      · cases h
        refine List.forall_mem_cons.mpr ⟨Nat.le_refl _, fun r hr => ?_⟩
        rw [hnone r hr]
        exact Nat.zero_le _
    · have hbest := ih hlater
      simp only [hlater] at h
      split at h
      case isTrue hlt =>
        cases h
        exact List.forall_mem_cons.mpr ⟨Nat.le_of_lt hlt, hbest⟩
      case isFalse hlt =>
        cases h
        refine List.forall_mem_cons.mpr ⟨Nat.le_refl _, fun r hr => ?_⟩
        have := hbest r hr
        omega

/-- The choice only depends on how far the rules match. -/
lemma choose?_congr {text' : List Char}
    (h : ∀ rule ∈ rules, rule.pattern.longest text = rule.pattern.longest text') :
    choose? text rules = choose? text' rules := by
  induction rules with
  | nil => rfl
  | cons first rest ih =>
    obtain ⟨hfirst, hrest⟩ := List.forall_mem_cons.mp h
    rw [choose?, choose?, ih hrest, hfirst]

/-! ### Texts that are one lexeme -/

/-- The rules take the whole of a text, as one lexeme of this kind. -/
structure Takes (text : List Char) (kind : TokenKind) : Prop where
  ofRules?_eq : Lexeme.ofRules? language text = some ⟨kind, text⟩
  not_comment : ¬ ['/', '*'] <+: text

lemma Takes.ne_nil (h : Takes text kind) : text ≠ [] := by
  rintro rfl
  have hspec := Lexeme.ofRules?_spec h.ofRules?_eq
  exact hspec.2 rfl

/-- A text that a rule describes is taken, by this rule or an earlier one. -/
lemma exists_takes {rule : Rule} (hmem : rule ∈ language) (h : rule.pattern.Matches text)
    (hne : text ≠ []) (hcomment : ¬ ['/', '*'] <+: text) :
    ∃ kind, Takes text kind ∧ Finds text kind := by
  have hlen : text.length ≤ rule.pattern.longest text :=
    Regex.length_le_longest (Nat.le_refl _) (by rwa [List.take_length])
  have hpos := List.length_pos_iff.mpr hne
  rcases hchoice : choose? text language with _ | ⟨n, other⟩
  · have := longest_eq_zero_of_choose? hchoice rule hmem
    omega
  · obtain ⟨hother, hn, hn0⟩ := choose?_spec hchoice
    have hle := longest_le_of_choose? hchoice rule hmem
    have hall : n = text.length := by
      have := Regex.longest_le other.pattern text
      omega
    have hmatch : other.pattern.Matches (text.take (other.pattern.longest text)) :=
      Regex.matches_take_longest (by omega)
    rw [← hn, hall, List.take_length] at hmatch
    refine ⟨other.kind text, ⟨?_, hcomment⟩, finds_of_mem_language hother hmatch⟩
    simp only [Lexeme.ofRules?, hchoice, Option.map_some, hall, List.take_length]

/-- No rule finds a text together with a part of what follows. -/
def Stops (text later : List Char) : Prop :=
  ∀ t, t <+: later → t ≠ [] → (∀ kind, ¬ Finds (text ++ t) kind) ∧ ¬ ['/', '*'] <+: text ++ t

/-- No rule describes a text together with a part of what follows, and no comment opens
there. -/
def Halts (text later : List Char) : Prop :=
  ∀ t, t <+: later → t ≠ [] →
    (∀ rule ∈ language, ¬ rule.pattern.Matches (text ++ t)) ∧ ¬ ['/', '*'] <+: text ++ t

lemma Stops.halts (h : Stops text later) : Halts text later := by
  intro t ht hne
  obtain ⟨hfinds, hcomment⟩ := h t ht hne
  exact ⟨fun rule hrule hmatch => hfinds _ (finds_of_mem_language hrule hmatch), hcomment⟩

lemma Halts.mono {later' : List Char} (h : Halts text later) (hbegins : later' <+: later) :
    Halts text later' :=
  fun t ht hne => h t (ht.trans hbegins) hne

/-- A text that halts is taken in front of what follows, too. -/
lemma Takes.ofRules?_append (h : Takes text kind) (hhalts : Halts text later) :
    Lexeme.ofRules? language (text ++ later) = some ⟨kind, text⟩ := by
  have hrules := h.ofRules?_eq
  have hchoice : choose? (text ++ later) language = choose? text language :=
    choose?_congr fun rule hrule => Regex.longest_append fun t ht hne =>
      (hhalts t ht hne).1 rule hrule
  unfold Lexeme.ofRules? at hrules ⊢
  rw [hchoice]
  rcases hsome : choose? text language with _ | ⟨n, rule⟩
  · rw [hsome] at hrules
    cases hrules
  · rw [hsome, Option.map_some, Option.some.injEq, Lexeme.mk.injEq] at hrules
    obtain ⟨hkind, htext⟩ := hrules
    have hle : n ≤ text.length := by
      have hspec := (choose?_spec hsome).2.1
      have := Regex.longest_le rule.pattern text
      omega
    rw [htext] at hkind
    simp only [Option.map_some, List.take_append_of_le_length hle, htext, hkind]

end Rule

/-! ### Lexemes in a row -/

namespace Lexeme

variable {text later : List Char} {kind : TokenKind}

/-- Where no block comment starts, a rule that matches gives the first lexeme. -/
lemma first_of_ofRules? {c : Char} {rest : List Char} {lexeme : Lexeme}
    (hcomment : ¬ ['/', '*'] <+: c :: rest)
    (h : ofRules? Rule.language (c :: rest) = some lexeme) : first c rest = lexeme := by
  unfold first
  split
  next body => exact absurd ⟨body, rfl⟩ hcomment
  next => rw [h, Option.getD_some]

/-- A text that halts is the first lexeme of what it is the beginning of. -/
theorem ofChars_append (h : Rule.Takes text kind) (hhalts : Rule.Halts text later) :
    ofChars (text ++ later) = ⟨kind, text⟩ :: ofChars later := by
  obtain ⟨c, rest, rfl⟩ := List.exists_cons_of_ne_nil h.ne_nil
  have hcomment : ¬ ['/', '*'] <+: c :: (rest ++ later) := by
    rintro ⟨body, hbody⟩
    rw [← List.cons_append] at hbody
    -- the two characters would both stand in the text, or one in what follows
    rcases rest with _ | ⟨d, rest⟩
    · rcases later with _ | ⟨d, later⟩
      · cases hbody
      · have hstar := (hhalts [d] ⟨later, rfl⟩ (by simp)).2
        cases hbody
        exact hstar ⟨[], rfl⟩
    · cases hbody
      exact h.not_comment ⟨rest, rfl⟩
  have hfirst := first_of_ofRules? hcomment (h.ofRules?_append hhalts)
  rw [List.cons_append, ofChars_cons, hfirst]
  simp

/-- The kinds of the lexemes of a text. -/
def kinds (text : List Char) : List TokenKind :=
  (ofChars text).map (·.kind)

@[simp] lemma kinds_nil : kinds [] = [] := rfl

lemma kinds_append (h : Rule.Takes text kind) (hhalts : Rule.Halts text later) :
    kinds (text ++ later) = kind :: kinds later := by
  rw [kinds, ofChars_append h hhalts]
  rfl

/-- There are not more lexemes than characters. -/
lemma length_kinds_le (text : List Char) : (kinds text).length ≤ text.length := by
  induction h : text.length using Nat.strongRecOn generalizing text with
  | _ n ih =>
    cases text with
    | nil => exact Nat.zero_le _
    | cons c rest =>
      have hlen : 0 < (first c rest).text.length := List.length_pos_iff.mpr (first_spec c rest).2
      simp only [List.length_cons] at h
      have hlater := ih _ (by rw [List.length_drop, List.length_cons]; omega)
        ((c :: rest).drop (first c rest).text.length) rfl
      rw [List.length_drop, List.length_cons] at hlater
      rw [kinds, ofChars_cons, List.map_cons, List.length_cons]
      unfold kinds at hlater
      omega

end Lexeme

/-- The kinds of the tokens of a text. -/
lemma Token.kinds_ofText (text : String) :
    (Token.ofText text).map (·.kind) = Lexeme.kinds text.toList :=
  Token.map_kind_place _ _ _

/-! ### What may stand together -/

namespace Rule

/-- A lexeme may start with these two characters. -/
def Joins (a b : Char) : Prop :=
  (a ∈ [' ', '\t', '\x0c'] ∧ b ∈ [' ', '\t', '\x0c']) ∨ a ∈ ['/', '"', '\x60'] ∨
    a.isDigit = true ∨ (startsWord a = true ∧ continuesWord b = true) ∨
    (a ∈ operatorChars ∧ b ∈ operatorChars) ∨ (a, b) ∈ [('.', '.'), ('!', '='), ('?', '?')]

instance (a b : Char) : Decidable (Joins a b) :=
  inferInstanceAs (Decidable (_ ∨ _ ∨ _ ∨ _ ∨ _ ∨ _))

lemma not_startsWord_of_isDigit {c : Char} (h : c.isDigit = true) : startsWord c = false := by
  have hdigit : 48 ≤ c.val.toNat ∧ c.val.toNat ≤ 57 := by
    simpa [Char.isDigit, UInt32.le_iff_toNat_le] using h
  change (decide ('A'.val ≤ c.val ∧ c.val ≤ 'Z'.val) ||
    decide ('a'.val ≤ c.val) && decide (c.val ≤ 'z'.val) || decide (c = '_')) = false
  simp only [Bool.or_eq_false_iff, Bool.and_eq_false_iff, decide_eq_false_iff_not, UInt32.le_iff_toNat_le]
  refine ⟨⟨fun hupper => ?_, .inl fun hlower => ?_⟩, ?_⟩
  · have hle : 65 ≤ c.val.toNat := hupper.1
    omega
  · have hle : 97 ≤ c.val.toNat := hlower
    omega
  · rintro rfl
    exact absurd hdigit (by decide)

variable {text : List Char} {kind : TokenKind} {a b c : Char}

/-- The first two characters that a rule finds may stand together. -/
lemma Finds.joins (h : Finds (a :: b :: text) kind) : Joins a b := by
  generalize hfound : a :: b :: text = found at h
  cases h with
  | whitespace h => exact .inl ⟨h a (by simp [← hfound]), h b (by simp [← hfound])⟩
  | lineFeed => cases hfound
  | carriageReturn => cases hfound
  | comment h => cases hfound; exact .inr (.inl (by decide))
  | word hstart h =>
    cases hfound
    exact .inr (.inr (.inr (.inl ⟨hstart, h b List.mem_cons_self⟩)))
  | quotedIdentifier name => cases hfound; exact .inr (.inl (by decide))
  | number hrule h =>
    subst hfound
    exact .inr (.inr (.inl (isDigit_of_mem_numbers hrule h)))
  | string content => cases hfound; exact .inr (.inl (by decide))
  | mark mark =>
    -- only the arrow is written in more than one character
    cases mark with
    | arrow => cases hfound; decide
    | _ => cases hfound
  | periods => cases hfound; decide
  | operator h =>
    exact .inr (.inr (.inr (.inr (.inl ⟨h a (by simp [← hfound]), h b (by simp [← hfound])⟩))))
  | slash h => cases hfound; exact .inr (.inl (by decide))
  | fixed h =>
    simp only [List.mem_cons, List.not_mem_nil, or_false] at h
    rcases h with rfl | rfl | rfl | rfl | rfl <;> (cases hfound; decide)

/-- What starts like a word is one. -/
lemma Finds.eq_ofWord (h : Finds (c :: text) kind) (hc : startsWord c = true) :
    kind = .ofWord (String.ofList (c :: text)) ∧ ∀ d ∈ text, continuesWord d = true := by
  have hother : ∀ d : Char, startsWord d = false → c ≠ d := by
    rintro d hd rfl
    rw [hc] at hd
    cases hd
  generalize hfound : c :: text = found at h
  cases h with
  | whitespace h =>
    have hblank := h c (by simp [← hfound])
    simp only [List.mem_cons, List.not_mem_nil, or_false] at hblank
    rcases hblank with rfl | rfl | rfl <;> cases hc
  | lineFeed => cases hfound; cases hc
  | carriageReturn => cases hfound; cases hc
  | comment h => cases hfound; cases hc
  | word hstart h => cases hfound; exact ⟨rfl, h⟩
  | quotedIdentifier name => cases hfound; cases hc
  | number hrule h =>
    subst hfound
    rw [not_startsWord_of_isDigit (isDigit_of_mem_numbers hrule h)] at hc
    cases hc
  | string content => cases hfound; cases hc
  | mark mark => cases mark <;> cases hfound <;> cases hc
  | periods => cases hfound; cases hc
  | operator h =>
    have hnot : ∀ d ∈ operatorChars, startsWord d = false := forall_mem_of_all (by decide)
    exact absurd rfl (hother c (hnot c (h c (by simp [← hfound]))))
  | slash h => cases hfound; cases hc
  | fixed h =>
    simp only [List.mem_cons, List.not_mem_nil, or_false] at h
    rcases h with rfl | rfl | rfl | rfl | rfl <;> cases hfound <;> cases hc

/-- What starts with a character of operators is made of such. -/
lemma Finds.mem_operatorChars (h : Finds (c :: text) kind) (hc : c ∈ operatorChars) :
    ∀ d ∈ text, d ∈ operatorChars := by
  have hword : ∀ d ∈ operatorChars, startsWord d = false := forall_mem_of_all (by decide)
  have hdigit : ∀ d ∈ operatorChars, d.isDigit = false := forall_mem_of_all (by decide)
  generalize hfound : c :: text = found at h
  cases h with
  | whitespace h =>
    have hblank := h c (by simp [← hfound])
    simp only [List.mem_cons, List.not_mem_nil, or_false] at hblank
    rcases hblank with rfl | rfl | rfl <;> exact absurd hc (by decide)
  | lineFeed => cases hfound; exact absurd hc (by decide)
  | carriageReturn => cases hfound; exact absurd hc (by decide)
  | comment h => cases hfound; exact absurd hc (by decide)
  | word hstart h =>
    cases hfound
    rw [hword c hc] at hstart
    cases hstart
  | quotedIdentifier name => cases hfound; exact absurd hc (by decide)
  | number hrule h =>
    subst hfound
    have := isDigit_of_mem_numbers hrule h
    rw [hdigit c hc] at this
    cases this
  | string content => cases hfound; exact absurd hc (by decide)
  | mark mark => cases mark <;> cases hfound <;> exact forall_mem_of_all (by decide)
  | periods => cases hfound; exact absurd hc (by decide)
  | operator h =>
    subst hfound
    exact fun d hd => h d (List.mem_cons_of_mem _ hd)
  | slash h => cases hfound; exact absurd hc (by decide)
  | fixed h =>
    simp only [List.mem_cons, List.not_mem_nil, or_false] at h
    rcases h with rfl | rfl | rfl | rfl | rfl <;> cases hfound <;> exact absurd hc (by decide)

/-- A text that is a word. -/
def IsWord (text : List Char) : Prop :=
  ∃ c rest, text = c :: rest ∧ startsWord c = true ∧ ∀ d ∈ rest, continuesWord d = true

lemma IsWord.takes (h : IsWord text) : Takes text (.ofWord (String.ofList text)) := by
  obtain ⟨c, rest, rfl, hc, hrest⟩ := h
  have hmem : keeping .ofWord word ∈ language := by simp [language, words]
  have hmatch : word.Matches (c :: rest) := by
    refine Regex.matches_seq.mpr ⟨[c], rest, rfl, .one hc, ?_⟩
    exact Regex.matches_many_one.mpr hrest
  have hslash : ¬ ['/', '*'] <+: c :: rest := by
    rintro ⟨_, heq⟩
    cases heq
    cases hc
  obtain ⟨kind, htakes, hfinds⟩ := exists_takes hmem hmatch (List.cons_ne_nil _ _) hslash
  rwa [(hfinds.eq_ofWord hc).1] at htakes

/-! ### Texts that stop -/

/-- What follows a text does not start with a character of some sort. -/
def Before (sort : Char → Prop) (later : List Char) : Prop :=
  ∀ b, later.head? = some b → ¬ sort b

end Rule

namespace Lexeme

open Rule

variable {text later : List Char} {c : Char}

lemma takes_mark (mark : Punctuator) : Takes mark.symbol.toList (.punctuator mark) := by
  cases mark <;> exact ⟨rfl, by decide⟩

/-- A single character that does not stand together with the next one. -/
lemma kinds_cons {kind : TokenKind} (h : Takes [c] kind) (hslash : c ≠ '/')
    (hlater : Before (Joins c) later) : kinds (c :: later) = kind :: kinds later := by
  refine kinds_append h (Stops.halts fun t ht hne => ?_)
  obtain ⟨b, t, rfl⟩ := List.exists_cons_of_ne_nil hne
  obtain ⟨rest, rfl⟩ := ht
  refine ⟨fun kind hfinds => hlater b rfl hfinds.joins, ?_⟩
  rintro ⟨_, heq⟩
  exact hslash (List.cons.inj heq).1.symm

/-- A word ends where no character of words follows. -/
lemma kinds_word (h : IsWord text) (hlater : Before (continuesWord · = true) later) :
    kinds (text ++ later) = .ofWord (String.ofList text) :: kinds later := by
  refine kinds_append h.takes (Stops.halts fun t ht hne => ?_)
  obtain ⟨c, rest, rfl, hc, -⟩ := h
  obtain ⟨b, t, rfl⟩ := List.exists_cons_of_ne_nil hne
  obtain ⟨later, rfl⟩ := ht
  constructor
  · intro kind hfinds
    exact hlater b rfl ((hfinds.eq_ofWord hc).2 b (by simp))
  · rintro ⟨_, heq⟩
    obtain rfl := (List.cons.inj heq).1
    cases hc

/-- A text of characters of operators ends where none of these follows. -/
lemma kinds_operator (text : List Char) {kind : TokenKind} (h : Takes text kind) (htext : ∀ d ∈ text, d ∈ operatorChars)
    (hlater : Before (· ∈ operatorChars) later) : kinds (text ++ later) = kind :: kinds later := by
  refine kinds_append h (Stops.halts fun t ht hne => ?_)
  obtain ⟨c, rest, rfl⟩ := List.exists_cons_of_ne_nil h.ne_nil
  obtain ⟨b, t, rfl⟩ := List.exists_cons_of_ne_nil hne
  obtain ⟨later, rfl⟩ := ht
  constructor
  · intro kind hfinds
    exact hlater b rfl (hfinds.mem_operatorChars (htext c List.mem_cons_self) b (by simp))
  · rintro ⟨_, heq⟩
    obtain rfl := (List.cons.inj heq).1
    exact absurd (htext '/' List.mem_cons_self) (by decide)

/-- The marks with a character that stands together with no other one. -/
def solitary : List Punctuator :=
  [.leftParen, .rightParen, .leftBrace, .rightBrace, .leftSquare, .rightSquare, .comma, .colon,
    .semicolon, .atSign, .hash]

lemma not_joins_of_mem_solitary {mark : Punctuator} (h : mark ∈ solitary)
    (hc : mark.symbol.toList = [c]) (b : Char) : ¬ Joins c b := by
  have hall : ∀ c ∈ solitary.flatMap (·.symbol.toList),
      c ∉ [' ', '\t', '\x0c'] ∧ c ∉ ['/', '"', '\x60'] ∧ c.isDigit = false ∧
        startsWord c = false ∧ c ∉ operatorChars ∧ c ∉ ['.', '!', '?'] :=
    forall_mem_of_all (by decide)
  obtain ⟨hblank, hopener, hdigit, hword, hoperator, hpair⟩ :=
    hall c (List.mem_flatMap.mpr ⟨mark, h, by rw [hc]; exact List.mem_cons_self⟩)
  have hnot : (c, b) ∉ [('.', '.'), ('!', '='), ('?', '?')] := by
    simp only [List.mem_cons, List.not_mem_nil, or_false, not_or, Prod.mk.injEq] at hpair ⊢
    exact ⟨fun h => hpair.1 h.1, fun h => hpair.2.1 h.1, fun h => hpair.2.2 h.1⟩
  simp [Joins, hblank, hopener, hdigit, hword, hoperator, hnot]

/-- A mark that stands together with nothing. -/
lemma kinds_solitary (c : Char) (mark : Punctuator) (h : mark ∈ solitary)
    (hc : mark.symbol.toList = [c]) : kinds (c :: later) = .punctuator mark :: kinds later := by
  have htakes := takes_mark mark
  rw [hc] at htakes
  refine kinds_cons htakes ?_ fun b _ => not_joins_of_mem_solitary h hc b
  rintro rfl
  have hall : ∀ mark : Punctuator, mark.symbol.toList ≠ ['/'] := by
    intro mark
    cases mark <;> decide
  exact hall mark hc

/-- A space in front of something else than a blank. -/
lemma kinds_space (hlater : Before (· ∈ [' ', '\t', '\x0c']) later) :
    kinds (' ' :: later) = .whitespace :: kinds later := by
  refine kinds_cons ⟨rfl, by decide⟩ (by decide) fun b hb hjoins => hlater b hb ?_
  simpa [Joins, startsWord, operatorChars] using hjoins

end Lexeme

end FrontEnd
