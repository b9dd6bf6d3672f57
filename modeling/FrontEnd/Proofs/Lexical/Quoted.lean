/-
Quoted text is one string again.

Between its quotes a quoted text is a row of string items, so the lexer takes it whole, whatever
stands behind it: `Rule.takes_quote` and `Rule.halts_quote`.  The string holds what was quoted,
except that of a character that is written by its code point only the backslash is resolved.  The
main result is `Token.ofText_quote`.
-/
import FrontEnd.Proofs.Lexical.Seam

namespace FrontEnd

namespace Text

/-- A character that is written by its code point. -/
def Coded (c : Char) : Prop :=
  quoteChar c = ['\\', 'u', '\x7b'] ++ hexDigits c.toNat ++ ['\x7d']

instance : DecidablePred Coded :=
  fun c => inferInstanceAs (Decidable (quoteChar c = _))

/-- No character of a text is written by its code point. -/
def Uncoded (content : List Char) : Prop :=
  ∀ c ∈ content, ¬ Coded c

/-- What the lexer makes of what is written for a character. -/
def reread (c : Char) : List Char :=
  if Coded c then (quoteChar c).tail else [c]

/-- A character that stands for itself between quotes. -/
def Plain (c : Char) : Prop :=
  c ∉ ['"', '\\', '\n', '\r']

variable {c : Char}

lemma plain_of_mem_hexDigits {n : Nat} (h : c ∈ hexDigits n) : Plain c := by
  obtain ⟨d, rfl⟩ := exists_of_mem_toDigits h
  rcases Nat.lt_or_ge d 16 with h | h
  · exact (by decide : ∀ d < 16, Nat.digitChar d ∉ ['"', '\\', '\n', '\r']) d h
  · rw [Nat.digitChar_eq_star.mpr h]
    exact (by decide : '*' ∉ ['"', '\\', '\n', '\r'])

lemma reread_of_not_coded (h : ¬ Coded c) : reread c = [c] :=
  if_neg h

/-- What is written for a character is the character, or a backslash with a letter and plain
characters behind it. -/
lemma quoteChar_cases (c : Char) :
    quoteChar c = [c] ∧ Plain c ∧ reread c = [c] ∨
      ∃ e body, quoteChar c = '\\' :: e :: body ∧ e ∉ ['\n', '\r'] ∧ (∀ d ∈ body, Plain d) ∧
        reread c = Rule.unescapeChar e :: body := by
  -- a character with a letter of its own is written in two characters, so it has no code
  have hescape {e : Char} (hquote : quoteChar c = ['\\', e]) (he : e ∉ ['\n', '\r'])
      (hc : Rule.unescapeChar e = c) : ∃ e body, quoteChar c = '\\' :: e :: body ∧
        e ∉ ['\n', '\r'] ∧ (∀ d ∈ body, Plain d) ∧ reread c = Rule.unescapeChar e :: body := by
    refine ⟨e, [], hquote, he, nofun, ?_⟩
    rw [hc]
    refine reread_of_not_coded fun hcoded => ?_
    rw [Coded, hquote] at hcoded
    simpa using congrArg List.length hcoded
  unfold quoteChar at hescape ⊢
  split_ifs at hescape ⊢ with hquote hslash hnul htab hfeed hreturn hhidden
  · exact .inr (hescape rfl (by decide) hquote.symm)
  · exact .inr (hescape rfl (by decide) hslash.symm)
  · exact .inr (hescape rfl (by decide) hnul.symm)
  · exact .inr (hescape rfl (by decide) htab.symm)
  · exact .inr (hescape rfl (by decide) hfeed.symm)
  · exact .inr (hescape rfl (by decide) hreturn.symm)
  · -- a hidden character is written as its code, a letter and plain characters
    have hcode : quoteChar c = ['\\', 'u', '\x7b'] ++ hexDigits c.toNat ++ ['\x7d'] := by
      simp [quoteChar, hquote, hslash, hnul, htab, hfeed, hreturn, hhidden]
    refine .inr ⟨'u', '\x7b' :: hexDigits c.toNat ++ ['\x7d'], rfl, by decide, ?_, ?_⟩
    · simp only [List.cons_append, List.mem_cons, List.mem_append, List.not_mem_nil, or_false]
      rintro d (rfl | hd | rfl)
      · exact (by decide : '\x7b' ∉ ['"', '\\', '\n', '\r'])
      · exact plain_of_mem_hexDigits hd
      · exact (by decide : '\x7d' ∉ ['"', '\\', '\n', '\r'])
    · have hcoded : Coded c := hcode
      rw [reread, if_pos hcoded, hcode]
      rfl
  · have hplain : quoteChar c = [c] := by
      simp [quoteChar, hquote, hslash, hnul, htab, hfeed, hreturn, hhidden]
    refine .inl ⟨rfl, by simp [Plain, hquote, hslash, hfeed, hreturn], reread_of_not_coded ?_⟩
    intro hcoded
    rw [Coded, hplain] at hcoded
    simpa using congrArg List.length hcoded

/-- Of a code point more comes back than the one character. -/
lemma two_le_length_reread (h : Coded c) : 2 ≤ (reread c).length := by
  rw [reread, if_pos h, h]
  simp

lemma length_le_length_reread (content : List Char) :
    content.length ≤ (content.flatMap reread).length := by
  induction content with
  | nil => exact Nat.le_refl _
  | cons c content ih =>
    have hpos : 1 ≤ (reread c).length := by
      by_cases hc : Coded c
      · exact Nat.le_of_succ_le (two_le_length_reread hc)
      · rw [reread_of_not_coded hc]
        exact Nat.le_refl _
    rw [List.flatMap_cons, List.length_append, List.length_cons]
    omega

/-- What was quoted comes back exactly if no character was written by its code point. -/
theorem flatMap_reread_eq_iff {content : List Char} :
    content.flatMap reread = content ↔ Uncoded content := by
  induction content with
  | nil => exact ⟨fun _ => nofun, fun _ => rfl⟩
  | cons c content ih =>
    rw [Uncoded, List.forall_mem_cons, List.flatMap_cons]
    constructor
    · intro h
      have hc : ¬ Coded c := by
        intro hcoded
        have htwo := two_le_length_reread hcoded
        have hlater := length_le_length_reread content
        have hlength := congrArg List.length h
        rw [List.length_append, List.length_cons] at hlength
        omega
      rw [reread_of_not_coded hc, List.singleton_append, List.cons.injEq] at h
      exact ⟨hc, ih.mp h.2⟩
    · rintro ⟨hc, hcontent⟩
      rw [reread_of_not_coded hc, List.singleton_append, ih.mpr hcontent]

end Text

namespace Rule

open Text

variable {c : Char} {text later : List Char}

/-! ### The escapes of quoted text -/

lemma unescape_cons (h : c ≠ '\\') (rest : List Char) : unescape (c :: rest) = c :: unescape rest := by
  rw [unescape]
  rintro _ _ rfl
  exact absurd rfl h

lemma unescape_plain (h : ∀ c ∈ text, Plain c) : unescape (text ++ later) = text ++ unescape later := by
  induction text with
  | nil => rfl
  | cons c text ih =>
    obtain ⟨hc, htext⟩ := List.forall_mem_cons.mp h
    have hne : c ≠ '\\' := by
      rintro rfl
      exact hc (by decide)
    rw [List.cons_append, unescape_cons hne, ih htext, List.cons_append]

/-- Resolving the escapes of a quoted text rereads each of its characters. -/
lemma unescape_quote (content : List Char) :
    unescape (content.flatMap quoteChar) = content.flatMap reread := by
  induction content with
  | nil => rfl
  | cons c content ih =>
    rw [List.flatMap_cons, List.flatMap_cons, ← ih]
    rcases quoteChar_cases c with ⟨hquote, hplain, hreread⟩ | ⟨e, body, hquote, -, hbody, hreread⟩
    · rw [hquote, hreread]
      exact unescape_plain (by simpa using hplain)
    · rw [hquote, hreread, List.cons_append, List.cons_append, unescape, unescape_plain hbody]
      rfl

/-! ### The items of quoted text -/

/-- One item between quotes is a character or an escape. -/
lemma matches_stringItem : stringItem.Matches (c :: text) ↔
    Plain c ∧ text = [] ∨ c = '\\' ∧ ∃ e, text = [e] ∧ e ∉ ['\n', '\r'] := by
  simp only [stringItem, Regex.noneOf, Regex.matches_alt, Regex.matches_seq, Regex.matches_one,
    Regex.matches_literal, Bool.not_eq_true', List.contains_eq_mem, decide_eq_false_iff_not]
  constructor
  · rintro (⟨d, heq, hd⟩ | ⟨_, _, heq, rfl, e, rfl, he⟩)
    · cases heq
      exact .inl ⟨hd, rfl⟩
    · cases heq
      exact .inr ⟨rfl, e, rfl, he⟩
  · rintro (⟨hc, rfl⟩ | ⟨rfl, e, rfl, he⟩)
    · exact .inl ⟨c, rfl, hc⟩
    · exact .inr ⟨['\\'], [e], rfl, rfl, e, rfl, he⟩

/-- Items with plain characters in front. -/
lemma items_plain (h : ∀ c ∈ text, Plain c) (hlater : (Regex.many stringItem).Matches later) :
    (Regex.many stringItem).Matches (text ++ later) := by
  induction text with
  | nil => exact hlater
  | cons c text ih =>
    obtain ⟨hc, htext⟩ := List.forall_mem_cons.mp h
    exact Regex.matches_many_cons.mpr ⟨[], _, rfl, matches_stringItem.mpr (.inl ⟨hc, rfl⟩), ih htext⟩

/-- A quoted text is a row of items. -/
lemma items_quote (content : List Char) :
    (Regex.many stringItem).Matches (content.flatMap quoteChar) := by
  induction content with
  | nil => exact .done
  | cons c content ih =>
    rw [List.flatMap_cons]
    rcases quoteChar_cases c with ⟨hquote, hplain, -⟩ | ⟨e, body, hquote, he, hbody, -⟩
    · rw [hquote]
      exact items_plain (by simpa using hplain) ih
    · rw [hquote]
      exact Regex.matches_many_cons.mpr
        ⟨[e], _, rfl, matches_stringItem.mpr (.inr ⟨rfl, e, rfl, he⟩), items_plain hbody ih⟩

/-- A quote behind a row of items ends it. -/
lemma eq_nil_of_items {body content t : List Char} (hbody : (Regex.many stringItem).Matches body)
    (hcontent : (Regex.many stringItem).Matches content)
    (heq : body ++ ['"'] = content ++ '"' :: t) : t = [] := by
  have hquote {text : List Char} (h : (Regex.many stringItem).Matches ('"' :: text)) : False := by
    obtain ⟨item, rest, -, hitem, -⟩ := Regex.matches_many_cons.mp h
    rcases matches_stringItem.mp hitem with ⟨hplain, -⟩ | ⟨hslash, -⟩
    · exact hplain (by decide)
    · cases hslash
  induction hn : content.length using Nat.strong_induction_on generalizing body content with
  | _ n ih =>
    rcases content with _ | ⟨c, content⟩
    · rcases body with _ | ⟨a, body⟩
      · exact (List.cons.inj heq).2.symm
      · obtain rfl : a = '"' := (List.cons.inj heq).1
        exact (hquote hbody).elim
    · rcases body with _ | ⟨a, body⟩
      · obtain rfl : '"' = c := (List.cons.inj heq).1
        exact (hquote hcontent).elim
      · obtain ⟨rfl, hlater⟩ := List.cons.inj heq
        obtain ⟨item, rest, rfl, hitem, hrest⟩ := Regex.matches_many_cons.mp hbody
        obtain ⟨item', rest', rfl, hitem', hrest'⟩ := Regex.matches_many_cons.mp hcontent
        simp only [List.length_cons, List.length_append] at hn
        -- both items are the same, since they start alike
        rcases matches_stringItem.mp hitem with ⟨hplain, rfl⟩ | ⟨rfl, e, rfl, -⟩ <;>
          rcases matches_stringItem.mp hitem' with ⟨hplain', rfl⟩ | ⟨hslash, e', rfl, -⟩
        · exact ih rest'.length (by omega) hrest hrest' hlater rfl
        · rw [hslash] at hplain
          exact absurd (by decide) hplain
        · exact absurd (by decide) hplain'
        · exact ih rest'.length (by simp only [List.length_cons] at hn; omega) hrest hrest'
            (List.cons.inj hlater).2 rfl

/-! ### Quoted text as a lexeme -/

/-- What a rule describes from a quote on is quoted text. -/
lemma exists_body_of_quote {rule : Rule} (hrule : rule ∈ language)
    (h : rule.pattern.Matches ('"' :: text)) :
    ∃ body, text = body ++ ['"'] ∧ (Regex.many stringItem).Matches body ∧
      rule.kind ('"' :: text) = .string (String.ofList (unescape body)) := by
  have hnever : ∀ rule ∈ blanks ++ words ++ numbers ++ marks ++ operators,
      (rule.pattern.derivative '"').isNever = true := forall_mem_of_all (by decide)
  obtain hother | rfl : rule ∈ blanks ++ words ++ numbers ++ marks ++ operators ∨
      rule = literals.getLast (by decide) := by
    rw [language, ← List.dropLast_concat_getLast (by decide : literals ≠ [])] at hrule
    simp only [List.mem_append, List.mem_singleton, numbers] at hrule ⊢
    tauto
  · have hmatch := (Regex.matches_derivative _ _ _).mpr h
    have hrule := hnever rule hother
    cases hderivative : rule.pattern.derivative '"' <;> rw [hderivative] at hrule hmatch <;>
      cases hrule
    cases hmatch
  · have hstring : Regex.Matches (Regex.inOrder [.literal ['"'], .many stringItem, .literal ['"']])
      ('"' :: text) := h
    simp only [Regex.inOrder, Regex.matches_seq, Regex.matches_literal] at hstring
    obtain ⟨_, _, heq, rfl, body, _, rfl, hbody, rfl⟩ := hstring
    obtain rfl := (List.cons.inj heq).2
    refine ⟨body, rfl, hbody, ?_⟩
    change TokenKind.string (String.ofList (unescape (inner ('"' :: (body ++ ['"']))))) = _
    simp [inner]

/-- A quoted text is taken for a string of what comes back of its characters. -/
lemma takes_quote (content : List Char) :
    Takes (quoteChars content) (.string (String.ofList (content.flatMap reread))) := by
  have hmem : literals.getLast (by decide) ∈ language := by
    have hlast := List.getLast_mem (by decide : literals ≠ [])
    simp only [language, List.mem_append]
    exact .inl (.inl (.inr hlast))
  have hmatch : (literals.getLast (by decide)).pattern.Matches (quoteChars content) := by
    change Regex.Matches (Regex.inOrder [.literal ['"'], .many stringItem, .literal ['"']]) _
    simp only [Regex.inOrder, Regex.matches_seq, Regex.matches_literal]
    exact ⟨['"'], _, rfl, rfl, _, ['"'], rfl, items_quote content, rfl⟩
  obtain ⟨kind, htakes, -⟩ := exists_takes hmem hmatch (List.cons_ne_nil _ _) (by rintro ⟨_, ⟨⟩⟩)
  obtain ⟨rule, hrule, hmatch, hkind⟩ := htakes.exists_rule
  obtain ⟨body, heq, -, hstring⟩ := exists_body_of_quote hrule hmatch
  obtain rfl : content.flatMap quoteChar = body := List.append_cancel_right heq
  rw [unescape_quote] at hstring
  rw [← hkind] at htakes
  exact hstring ▸ htakes

/-- A quoted text halts in front of everything. -/
lemma halts_quote (content : List Char) : Halts (quoteChars content) later := by
  intro t ht hne
  refine ⟨fun rule hrule hmatch => ?_, by rintro ⟨_, ⟨⟩⟩⟩
  rw [quoteChars, List.cons_append, List.cons_append, List.append_assoc] at hmatch
  obtain ⟨body, heq, hbody, -⟩ := exists_body_of_quote hrule hmatch
  exact hne (eq_nil_of_items hbody (items_quote content) heq.symm)

end Rule

namespace Token

/-- A quoted text is one token, a string that covers it all.  It holds what was quoted exactly
if no character of it was written by its code point. -/
theorem ofText_quote (content : String) :
    let written := (TokenKind.string content).text
    ∃ found, (ofText written).map (fun t => (t.kind, t.span)) =
        [(.string found, ⟨0, written.utf8ByteSize⟩)] ∧
      (found = content ↔ ∀ c ∈ content.toList, ¬ Text.Coded c) := by
  intro written
  refine ⟨String.ofList (content.toList.flatMap Text.reread), ?_, ?_⟩
  · have htext : written.toList = Text.quoteChars content.toList := String.toList_ofList
    have hlexemes : Lexeme.ofChars written.toList =
        [⟨.string (String.ofList (content.toList.flatMap Text.reread)), written.toList⟩] := by
      have hhalts : Rule.Halts (Text.quoteChars content.toList) [] := Rule.halts_quote content.toList
      have happend := Lexeme.ofChars_append (Rule.takes_quote content.toList) hhalts
      rw [List.append_nil] at happend
      rw [htext, happend]
      rfl
    rw [ofText, ofChars, hlexemes, ← String.ofList_toList (s := written),
      String.utf8ByteSize_ofList, utf8Len_eq_byteSize]
    simp [place, Span.covering]
  · rw [← String.toList_inj, String.toList_ofList]
    exact Text.flatMap_reread_eq_iff

end Token

end FrontEnd
