/-
Nothing is lost between a text and its tokens.

The spans of the tokens tile the text: none is empty, and each starts where the one before
it ends.  Both ends of a span lie between characters, so what a token covers is a text
again, and these texts, one after the other, are the whole.  But for blanks, strings and
two periods that are one token, what a token covers can also be told from its kind alone
(`Lexeme.Kept`).  The main result is `Token.ofText_lossless`.
-/
import Mathlib.Data.String.Basic
import FrontEnd.Proofs.Lexical.Order
import FrontEnd.Proofs.Lexical.Regex
import FrontEnd.Proofs.Source.Word

namespace FrontEnd

/-! ### What a kind keeps of its text -/

/-- A kind tells the text that it was found for, unless it is a blank, a string, or the
one period that stands for two. -/
def TokenKind.Keeps (kind : TokenKind) (text : List Char) : Prop :=
  kind ≠ .whitespace → (∀ content, kind ≠ .string content) →
    ¬ (kind = .punctuator .period ∧ Text.byteSize text = 2) → kind.text = String.ofList text

lemma TokenKind.keeps_of_text_eq {kind : TokenKind} {text : List Char}
    (h : kind.text = String.ofList text) : kind.Keeps text :=
  fun _ _ _ => h

lemma TokenKind.text_ofWord (word : String) : (TokenKind.ofWord word).text = word := by
  unfold ofWord
  split <;> rfl

namespace Rule

/-- Every kind of a rule keeps the texts that the rule describes. -/
def Keeping (rule : Rule) : Prop :=
  ∀ text, rule.pattern.Matches text → (rule.kind text).Keeps text

lemma keeping_fixed {text : String} {kind : TokenKind} (h : kind.text = text) :
    (fixed text kind).Keeping := by
  intro found hfound
  obtain rfl := Regex.matches_literal.mp hfound
  exact TokenKind.keeps_of_text_eq (by rw [String.ofList_toList]; exact h)

lemma keeping_keeping {kind : String → TokenKind} (h : ∀ text, (kind text).text = text)
    (pattern : Regex) : (keeping kind pattern).Keeping :=
  fun _ _ => TokenKind.keeps_of_text_eq (h _)

lemma keeping_of_mem_blanks {rule : Rule} (h : rule ∈ blanks) : rule.Keeping := by
  simp only [blanks, List.mem_cons, List.not_mem_nil, or_false] at h
  rcases h with rfl | rfl | rfl | rfl
  · exact fun _ _ hne => absurd rfl hne
  · exact keeping_fixed rfl
  · exact keeping_fixed rfl
  · exact keeping_keeping (fun _ => rfl) _

/-- Between backticks stands the name. -/
lemma keeping_quotedIdentifier :
    (⟨Regex.inOrder [.literal ['\x60'], word, .literal ['\x60']],
      fun text => .quotedIdentifier (String.ofList (inner text))⟩ : Rule).Keeping := by
  intro found hfound
  simp only [Regex.inOrder, Regex.matches_seq, Regex.matches_literal] at hfound
  obtain ⟨_, _, rfl, rfl, name, _, rfl, -, rfl⟩ := hfound
  refine TokenKind.keeps_of_text_eq ?_
  have hinner : inner (['\x60'] ++ (name ++ ['\x60'])) = name := by
    simp [inner]
  simp only [hinner, TokenKind.text]
  simp [← String.toList_inj, toString]

lemma keeping_of_mem_words {rule : Rule} (h : rule ∈ words) : rule.Keeping := by
  simp only [words, List.mem_cons, List.not_mem_nil, or_false] at h
  rcases h with rfl | rfl
  · exact keeping_keeping TokenKind.text_ofWord _
  · exact keeping_quotedIdentifier

lemma keeping_of_mem_literals {rule : Rule} (h : rule ∈ literals) : rule.Keeping := by
  simp only [literals, List.mem_cons, List.not_mem_nil, or_false] at h
  rcases h with rfl | rfl | rfl | rfl | rfl | rfl | rfl
  case inr.inr.inr.inr.inr.inr => exact fun _ _ _ hne => absurd rfl (hne _)
  all_goals exact keeping_keeping (fun _ => rfl) _

lemma keeping_of_mem_marks {rule : Rule} (h : rule ∈ marks) : rule.Keeping := by
  simp only [marks, List.mem_append, List.mem_map, List.mem_singleton] at h
  rcases h with ⟨mark, -, rfl⟩ | rfl
  · exact keeping_fixed rfl
  · intro found hfound _ _ hperiods
    obtain rfl := Regex.matches_literal.mp hfound
    exact absurd ⟨rfl, rfl⟩ hperiods

lemma keeping_of_mem_operators {rule : Rule} (h : rule ∈ operators) : rule.Keeping := by
  simp only [operators, List.mem_append, List.mem_map, List.mem_cons, List.not_mem_nil,
    or_false] at h
  rcases h with (rfl | rfl) | ⟨symbol, -, rfl⟩
  · exact keeping_keeping (fun _ => rfl) _
  · exact keeping_keeping (fun _ => rfl) _
  · exact keeping_fixed rfl

lemma keeping_of_mem_language {rule : Rule} (h : rule ∈ language) : rule.Keeping := by
  simp only [language, List.mem_append] at h
  rcases h with (((h | h) | h) | h) | h
  · exact keeping_of_mem_blanks h
  · exact keeping_of_mem_words h
  · exact keeping_of_mem_literals h
  · exact keeping_of_mem_marks h
  · exact keeping_of_mem_operators h

lemma keeping_of_mem_unfinished {rule : Rule} (h : rule ∈ unfinished) : rule.Keeping := by
  simp only [unfinished, List.mem_cons, List.not_mem_nil, or_false] at h
  rcases h with rfl | rfl <;> exact keeping_keeping (fun _ => rfl) _

end Rule

namespace Lexeme

/-- What rules find is kept by its kind, if all rules are such. -/
lemma keeps_of_ofRules? {rules : List Rule} {text : List Char} {lexeme : Lexeme}
    (hrules : ∀ rule ∈ rules, rule.Keeping) (h : ofRules? rules text = some lexeme) :
    lexeme.kind.Keeps lexeme.text := by
  unfold ofRules? at h
  rcases hchoice : Rule.choose? text rules with _ | ⟨length, rule⟩
  · simp [hchoice] at h
  · obtain ⟨hmem, rfl, hne⟩ := Rule.choose?_spec hchoice
    simp only [hchoice, Option.map_some, Option.some.injEq] at h
    subst h
    exact hrules rule hmem _ (Regex.matches_take_longest hne)

lemma keeps_blockComment (body : List Char) :
    (blockComment body).kind.Keeps (blockComment body).text := by
  unfold blockComment
  split <;> exact TokenKind.keeps_of_text_eq rfl

/-- The kind of a lexeme keeps its text. -/
lemma keeps_first (c : Char) (rest : List Char) :
    (first c rest).kind.Keeps (first c rest).text := by
  unfold first
  split
  · exact keeps_blockComment _
  · rcases hlanguage : ofRules? Rule.language (c :: rest) with _ | lexeme
    · rcases hunfinished : ofRules? Rule.unfinished (c :: rest) with _ | lexeme
      · exact TokenKind.keeps_of_text_eq rfl
      · exact keeps_of_ofRules? (fun _ => Rule.keeping_of_mem_unfinished) hunfinished
    · exact keeps_of_ofRules? (fun _ => Rule.keeping_of_mem_language) hlanguage

lemma keeps_of_mem {text : List Char} {lexeme : Lexeme} (h : lexeme ∈ ofChars text) :
    lexeme.kind.Keeps lexeme.text :=
  forall_mem_ofChars (P := fun lexeme => lexeme.kind.Keeps lexeme.text) keeps_first text lexeme h

/-- The texts of the lexemes of a text, one after the other, are the text. -/
lemma flatten_ofChars (text : List Char) : ((ofChars text).map (·.text)).flatten = text := by
  induction h : text.length using Nat.strong_induction_on generalizing text with
  | _ n ih =>
    cases text with
    | nil => rfl
    | cons c rest =>
      obtain ⟨hstarts, hne⟩ := first_spec c rest
      have hlen : 0 < (first c rest).text.length := List.length_pos_iff.mpr hne
      have hlater := ih _ (by rw [List.length_drop]; simp only [List.length_cons] at h ⊢; omega)
        ((c :: rest).drop (first c rest).text.length) rfl
      rw [ofChars_cons, List.map_cons, List.flatten_cons, hlater]
      obtain ⟨later, hlater⟩ := hstarts
      rw [← hlater, List.drop_left]

end Lexeme

/-! ### Tiles -/

/-- Spans that are not empty and stand one after the other without a gap, from one offset
up to another. -/
def Span.Tile : Nat → List Span → Nat → Prop
  | start, [], stop => start = stop
  | start, span :: later, stop => span.start = start ∧ start < span.stop ∧ Tile span.stop later stop

namespace Token

/-- What a token covers of its text. -/
def slice (text : String) (t : Token) : String :=
  String.Pos.Raw.extract text ⟨t.span.start⟩ ⟨t.span.stop⟩

lemma utf8Len_eq_byteSize (text : List Char) : String.utf8Len text = Text.byteSize text := by
  induction text with
  | nil => rfl
  | cons c rest ih => rw [String.utf8Len, Text.byteSize, ih, Nat.add_comm]

lemma byteSize_append (text later : List Char) :
    Text.byteSize (text ++ later) = Text.byteSize text + Text.byteSize later := by
  rw [← utf8Len_eq_byteSize, ← utf8Len_eq_byteSize, ← utf8Len_eq_byteSize, String.utf8Len_append]

/-- A token that covers the middle of a text. -/
lemma slice_eq {before middle after : List Char} {t : Token}
    (ht : t.span = Span.covering (Text.byteSize before) middle) :
    slice (String.ofList (before ++ middle ++ after)) t = String.ofList middle := by
  rw [slice, ht]
  simp only [Span.covering, ← utf8Len_eq_byteSize]
  exact String.extract_of_valid before middle after

/-- Between two parts of a text there is a place between characters. -/
lemma isValid_byteSize (before after : List Char) :
    String.Pos.Raw.IsValid (String.ofList (before ++ after)) ⟨Text.byteSize before⟩ := by
  rw [String.Pos.Raw.isValid_iff_exists_append]
  refine ⟨String.ofList before, String.ofList after, String.ofList_append, ?_⟩
  rw [String.rawEndPos_ofList, utf8Len_eq_byteSize]

/-- What placing lexemes keeps of them: token by token, the part of the text that is
covered. -/
structure Covers (table : LineTable) (text : String) (lexeme : Lexeme) (t : Token) : Prop where
  kind_eq : t.kind = lexeme.kind
  slice_eq : t.slice text = String.ofList lexeme.text
  length_eq : t.span.length = Text.byteSize lexeme.text
  start_valid : String.Pos.Raw.IsValid text ⟨t.span.start⟩
  stop_valid : String.Pos.Raw.IsValid text ⟨t.span.stop⟩
  range_eq : t.range = table.range t.span

/-- Lexemes that follow a beginning of a text tile the rest of it. -/
lemma covers_place (table : LineTable) (before : List Char) (lexemes : List Lexeme)
    (hne : ∀ lexeme ∈ lexemes, lexeme.text ≠ []) :
    let text := before ++ (lexemes.map (·.text)).flatten
    let tokens := place table (Text.byteSize before) lexemes
    Span.Tile (Text.byteSize before) (tokens.map (·.span)) (Text.byteSize text) ∧
      List.Forall₂ (Covers table (String.ofList text)) lexemes tokens := by
  induction lexemes generalizing before with
  | nil => simp [place, Span.Tile]
  | cons lexeme later ih =>
    obtain ⟨hlexeme, hlater⟩ := List.forall_mem_cons.mp hne
    have hpos := byteSize_pos hlexeme
    obtain ⟨htile, hcovers⟩ := ih (before ++ lexeme.text) hlater
    rw [byteSize_append] at htile hcovers
    simp only [place, List.map_cons, List.flatten_cons, ← List.append_assoc, Span.covering]
    refine ⟨⟨rfl, by simp only; omega, htile⟩, .cons ⟨rfl, ?_, ?_, ?_, ?_, rfl⟩ hcovers⟩
    · exact slice_eq rfl
    · simp [Span.length]
    · rw [List.append_assoc]
      exact isValid_byteSize before _
    · simpa only [byteSize_append] using isValid_byteSize (before ++ lexeme.text) _

lemma map_kind_place (table : LineTable) (offset : Nat) (lexemes : List Lexeme) :
    (place table offset lexemes).map (·.kind) = lexemes.map (·.kind) := by
  induction lexemes generalizing offset with
  | nil => rfl
  | cons lexeme later ih => rw [place, List.map_cons, ih, List.map_cons]

/-- Every token covers one of the lexemes. -/
lemma exists_covers {table : LineTable} {text : String} {lexemes : List Lexeme}
    {tokens : List Token} (h : List.Forall₂ (Covers table text) lexemes tokens) {t : Token}
    (ht : t ∈ tokens) : ∃ lexeme ∈ lexemes, Covers table text lexeme t := by
  induction h with
  | nil => simp at ht
  | cons hcovers _ ih =>
    rcases List.mem_cons.mp ht with rfl | ht
    · exact ⟨_, List.mem_cons_self, hcovers⟩
    · obtain ⟨lexeme, hmem, hlexeme⟩ := ih ht
      exact ⟨lexeme, List.mem_cons_of_mem _ hmem, hlexeme⟩

/-- What the tokens cover, one after the other, is what the lexemes are. -/
lemma join_slices {table : LineTable} {text : String} {lexemes : List Lexeme}
    {tokens : List Token} (h : List.Forall₂ (Covers table text) lexemes tokens) :
    String.join (tokens.map (·.slice text)) =
      String.ofList (lexemes.map (·.text)).flatten := by
  induction h with
  | nil => rfl
  | cons hcovers _ ih =>
    rw [List.map_cons, List.map_cons, List.flatten_cons, String.ofList_append, ← ih,
      ← hcovers.slice_eq, String.join_cons]

/-- The tokens of a text cover its lexemes. -/
lemma covers_ofText (text : String) :
    List.Forall₂ (Covers (LineTable.ofChars text.toList) text) (Lexeme.ofChars text.toList)
      (ofText text) := by
  have hcovers := (covers_place (LineTable.ofChars text.toList) [] (Lexeme.ofChars text.toList)
    fun _ => Lexeme.text_ne_nil_of_mem).2
  rwa [List.nil_append, Lexeme.flatten_ofChars, String.ofList_toList] at hcovers

/-- The spans of the tokens of a text tile it. -/
lemma tile_ofText (text : String) :
    Span.Tile 0 ((ofText text).map (·.span)) text.utf8ByteSize := by
  have htile := (covers_place (LineTable.ofChars text.toList) [] (Lexeme.ofChars text.toList)
    fun _ => Lexeme.text_ne_nil_of_mem).1
  rwa [List.nil_append, Lexeme.flatten_ofChars, ← utf8Len_eq_byteSize text.toList,
    ← String.utf8ByteSize_ofList, String.ofList_toList] at htile

lemma ofText_eq_nil {text : String} : ofText text = [] ↔ text = "" := by
  constructor
  · intro hnil
    have htile := tile_ofText text
    rw [hnil, List.map_nil, Span.Tile] at htile
    exact String.utf8ByteSize_eq_zero_iff.mp htile.symm
  · rintro rfl
    rfl

/-- The lines and columns of a token are those of its span. -/
lemma range_of_mem_ofText {text : String} {t : Token} (h : t ∈ ofText text) :
    t.range = (LineTable.ofChars text.toList).range t.span := by
  obtain ⟨lexeme, -, hcovers⟩ := exists_covers (covers_ofText text) h
  exact hcovers.range_eq

/-- In a text whose size is a word, but not the greatest, the lines and columns of the tokens can be
looked up in words. -/
theorem rangeWord_of_mem_ofText {text : String} (hsize : text.utf8ByteSize + 1 < UInt64.size)
    {t : Token} (h : t ∈ ofText text) :
    (LineTable.ofChars text.toList).rangeWord (.ofNat t.span.start) (.ofNat t.span.stop) =
      t.range := by
  have hlocate {offset : Nat} (hvalid : String.Pos.Raw.IsValid text ⟨offset⟩) :
      (LineTable.ofChars text.toList).locateWord (.ofNat offset) =
        (LineTable.ofChars text.toList).locate offset := by
    have hle : offset ≤ text.utf8ByteSize := hvalid.le_rawEndPos
    have hoffset : (UInt64.ofNat offset).toNat = offset :=
      UInt64.toNat_ofNat_of_lt (Nat.lt_of_le_of_lt (Nat.le_succ_of_le hle) hsize)
    rw [LineTable.locateWord_eq_locate (LineTable.ascends_ofChars _) (by omega), hoffset]
  obtain ⟨lexeme, -, hcovers⟩ := exists_covers (covers_ofText text) h
  rw [LineTable.rangeWord, hlocate hcovers.start_valid, hlocate hcovers.stop_valid,
    hcovers.range_eq]
  rfl

/-- Nothing is lost between a text and its tokens.

The spans of the tokens tile the text from its first byte to its last; both ends of each
lie between characters, and what the tokens cover, one after the other, is the text.  The
lines and columns of a token are those of its span.  What a token covers is what its kind
says was written, unless it is a blank, a string, or two periods. -/
theorem ofText_lossless (text : String) :
    let tokens := ofText text
    Span.Tile 0 (tokens.map (·.span)) text.utf8ByteSize ∧
    (tokens = [] ↔ text = "") ∧
    (∀ t ∈ tokens, String.Pos.Raw.IsValid text ⟨t.span.start⟩ ∧
      String.Pos.Raw.IsValid text ⟨t.span.stop⟩) ∧
    String.join (tokens.map (·.slice text)) = text ∧
    (∀ t ∈ tokens, t.range = (LineTable.ofChars text.toList).range t.span) ∧
    ∀ t ∈ tokens, t.kind ≠ .whitespace → (∀ content, t.kind ≠ .string content) →
      ¬ (t.kind = .punctuator .period ∧ t.span.length = 2) → t.kind.text = t.slice text := by
  intro tokens
  have hmem : ∀ t ∈ tokens, _ := fun t => exists_covers (covers_ofText text)
  refine ⟨tile_ofText text, ofText_eq_nil, fun t ht => ?_, ?_, fun t => range_of_mem_ofText,
    fun t ht hblank hstring hperiods => ?_⟩
  · obtain ⟨lexeme, -, h⟩ := hmem t ht
    exact ⟨h.start_valid, h.stop_valid⟩
  · refine (join_slices (covers_ofText text)).trans ?_
    rw [Lexeme.flatten_ofChars, String.ofList_toList]
  · obtain ⟨lexeme, hlexeme, h⟩ := hmem t ht
    have hkeeps := Lexeme.keeps_of_mem hlexeme
    rw [h.slice_eq, h.kind_eq]
    rw [h.kind_eq] at hblank hstring hperiods
    rw [h.length_eq] at hperiods
    exact hkeeps hblank hstring hperiods

end Token

end FrontEnd
