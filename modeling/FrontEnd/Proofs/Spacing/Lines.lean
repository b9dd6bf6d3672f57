/-
The line breaks of a text make no difference.

A text may end its lines with line feeds, with carriage returns, or with both.

* `Spacing.gist_rebreak`: the tokens of a text count alike, whatever its line breaks are.
* `Token.unbroken_of_mem_dropLast`: only the last token may be written with a line break.
* `Parser.readTokens_lines`: adjoining tokens that count alike are read alike.
* `Parser.readText_rebreak`: what is read of a text does not hang on its line breaks.
-/
import FrontEnd.Proofs.Lexical.LineBreak
import FrontEnd.Proofs.Placement.Reading
import FrontEnd.Proofs.View.Unbroken

namespace FrontEnd

/-! ### Tokens with other line breaks -/

section

variable {br : List Char}

lemma TokenKind.unbroken_rebreak (hbr : Text.IsBreak br) (kind : TokenKind) :
    (kind.rebreak br).unbroken = kind.unbroken := by
  have htext (text : List Char) : (Text.rebreak br text).filter (· ∉ Text.breaks) =
      text.filter (· ∉ Text.breaks) := by
    induction text with
    | nil => rfl
    | cons c text ih =>
      by_cases hc : c = '\n'
      · subst hc
        rw [Text.rebreak_cons_lineFeed, List.filter_append, ih]
        simp only [Text.IsBreak, List.mem_cons, List.not_mem_nil, or_false] at hbr
        rcases hbr with rfl | rfl | rfl <;> rfl
      · rw [Text.rebreak_cons hc, List.filter_cons, List.filter_cons, ih]
  cases kind with
  | invalid text => rw [rebreak, unbroken, unbroken, Text.unbroken, String.toList_ofList, htext, Text.unbroken]
  | _ => rfl

lemma TokenKind.isLineBreak_rebreak (kind : TokenKind) :
    (kind.rebreak br).isLineBreak = kind.isLineBreak := by
  cases kind <;> rfl

/-- A line feed comes of a line feed, where a line break is a carriage return. -/
lemma Lexeme.kind_ne_lineFeed {lexemes : List Lexeme} {lexeme : Lexeme}
    (h : lexeme ∈ lexemes.flatMap (rebreak ['\r'])) : lexeme.kind ≠ .lineFeed := by
  obtain ⟨before, -, hmem⟩ := List.mem_flatMap.mp h
  unfold rebreak at hmem
  split at hmem
  · rw [List.map_singleton, List.mem_singleton] at hmem
    rw [hmem]
    decide
  next hkind =>
    rw [List.mem_singleton] at hmem
    rw [hmem]
    intro hfeed
    refine hkind ?_
    revert hfeed
    cases before.kind <;> simp [TokenKind.rebreak]

namespace Spacing

open Token

lemma place_cons (table : LineTable) (offset : Nat) (lexeme : Lexeme) (later : List Lexeme) :
    place table offset (lexeme :: later) =
      ⟨lexeme.kind, Span.covering offset lexeme.text,
        ⟨table.locate offset, table.locate (offset + Text.byteSize lexeme.text)⟩⟩ ::
      place table (offset + Text.byteSize lexeme.text) later := rfl

/-- The tokens of lexemes count alike with other line breaks, if the places between them are the
same. -/
lemma gist_place_rebreak (hbr : Text.IsBreak br) {table table' : LineTable} {offset offset' : Nat}
    {lexemes : List Lexeme} (hkeeps : ∀ lexeme ∈ lexemes, lexeme.kind.Keeps lexeme.text)
    (hreturn : ∀ lexeme ∈ lexemes, lexeme.kind ≠ .carriageReturn)
    (hplaces : ∀ text, text <+: (lexemes.map (·.text)).flatten →
      table'.locate (offset' + Text.byteSize (Text.rebreak br text)) =
        table.locate (offset + Text.byteSize text)) :
    lines.gist (place table' offset' (lexemes.flatMap (Lexeme.rebreak br))) =
      (place table offset lexemes).map lines.bare := by
  induction lexemes generalizing offset offset' with
  | nil => rfl
  | cons lexeme later ih =>
    obtain ⟨hlexeme, hkeeps⟩ := List.forall_mem_cons.mp hkeeps
    obtain ⟨hkind, hreturn⟩ := List.forall_mem_cons.mp hreturn
    rw [List.map_cons, List.flatten_cons] at hplaces
    have hstart := hplaces [] List.nil_prefix
    have hstop := hplaces lexeme.text (List.prefix_append _ _)
    have hnext := @ih (offset + Text.byteSize lexeme.text)
      (offset' + Text.byteSize (Text.rebreak br lexeme.text)) hkeeps hreturn
      fun text htext => by
        have hplace := hplaces (lexeme.text ++ text) ((List.prefix_append_right_inj _).mpr htext)
        rwa [Text.rebreak_append, byteSize_append, byteSize_append, ← Nat.add_assoc,
          ← Nat.add_assoc] at hplace
    rw [List.flatMap_cons, Lexeme.rebreak, place_cons, List.map_cons]
    by_cases hfeed : lexeme.kind = .lineFeed
    · rw [if_pos hfeed]
      obtain ⟨kind, text⟩ := lexeme
      obtain rfl : kind = .lineFeed := hfeed
      obtain rfl : text = ['\n'] := by
        rw [show text = TokenKind.lineFeed.text.toList from
          Lexeme.text_of_isLineBreak hlexeme rfl]
        rfl
      have hkept {l : List Token} {span : Span} {range : Range} :
          lines.gist (⟨.lineFeed, span, range⟩ :: l) =
            ⟨.lineFeed, default, ⟨.origin, range.stop⟩⟩ :: lines.gist l :=
        gist_cons fun u _ => rfl
      -- of the line break there is the end, and what follows it is as far behind
      suffices hbreak : lines.gist (place table' offset'
            (br.map Lexeme.ofBreak ++ later.flatMap (Lexeme.rebreak br))) =
          ⟨.lineFeed, default, ⟨.origin, table'.locate (offset' + Text.byteSize br)⟩⟩ ::
            lines.gist (place table' (offset' + Text.byteSize br)
              (later.flatMap (Lexeme.rebreak br))) by
        rw [Text.rebreak_cons_lineFeed, Text.rebreak_nil, List.append_nil] at hstop hnext
        rw [hbreak, hnext, hstop]
        rfl
      simp only [Text.IsBreak, List.mem_cons, List.not_mem_nil, or_false] at hbr
      rcases hbr with rfl | rfl | rfl
      · exact hkept
      · refine gist_cons fun u hu => ?_
        have hkind := List.mem_map_of_mem (f := (·.kind)) (List.mem_of_mem_head? hu)
        rw [map_kind_place] at hkind
        obtain ⟨next, hnext, hkind⟩ := List.mem_map.mp hkind
        have hne : u.kind ≠ .lineFeed := hkind ▸ Lexeme.kind_ne_lineFeed hnext
        simp [lines, hne]
      · rw [List.map_cons, List.map_singleton, List.cons_append, List.singleton_append, place_cons,
          place_cons, gist_cons_of_merges rfl]
        exact hkept
    · rw [if_neg hfeed, List.singleton_append, place_cons, gist_lines_cons, hnext]
      · rw [List.cons.injEq]
        refine ⟨?_, rfl⟩
        simp only [lines, TokenKind.unbroken_rebreak hbr, TokenKind.isLineBreak_rebreak, hstop]
        rw [show table'.locate offset' = table.locate offset from hstart]
      · rw [TokenKind.isLineBreak_rebreak]
        revert hfeed hkind
        cases lexeme.kind <;> simp [TokenKind.isLineBreak]

/-- The tokens of a text count alike, whatever its line breaks are. -/
theorem gist_rebreak (hbr : Text.IsBreak br) {text : List Char} (h : '\r' ∉ text) :
    lines.gist (ofChars (Text.rebreak br text)) = (ofChars text).map lines.bare := by
  have hbreaks := hbr.breaks
  have hreturn : ∀ lexeme ∈ Lexeme.ofChars text, lexeme.kind ≠ .carriageReturn := by
    intro lexeme hlexeme hkind
    have htext := Lexeme.text_of_isLineBreak (Lexeme.keeps_of_mem hlexeme) (by rw [hkind]; rfl)
    refine h ?_
    rw [← Lexeme.flatten_ofChars text, List.mem_flatten]
    refine ⟨lexeme.text, List.mem_map_of_mem hlexeme, ?_⟩
    rw [htext, hkind]
    exact List.mem_singleton_self _
  rw [ofChars, ofChars, Lexeme.ofChars_rebreak hbreaks.1 hbreaks.2]
  refine gist_place_rebreak hbr (fun _ => Lexeme.keeps_of_mem) hreturn fun before hbefore => ?_
  rw [Lexeme.flatten_ofChars] at hbefore
  obtain ⟨later, rfl⟩ := hbefore
  rw [List.mem_append, not_or] at h
  rw [Nat.zero_add, Nat.zero_add, Text.rebreak_append, LineTable.locate_byteSize,
    LineTable.locate_byteSize, Location.along_rebreak hbr h.1]

end Spacing

end

/-! ### Tokens of texts -/

/-- What a lexeme adds to the text of its line holds no line break. -/
lemma Lexeme.written_of_first {c : Char} {rest : List Char} {t : Token}
    (hkind : (first c rest).kind = t.kind) (h : ¬ (first c rest).IsUnended) : t.Unbroken := by
  intro hbreak
  have hkeeps := keeps_first c rest
  rw [hkind] at hkeeps
  -- nothing is left out of a text without line breaks
  have hfilter {text : String} (htext : ∀ b ∈ Text.breaks, b ∉ text.toList) :
      text.toList.filter (· ∉ Text.breaks) = text.toList := by
    rw [List.filter_eq_self]
    exact fun c hc => decide_eq_true fun hb => htext c hb hc
  have hwritten (hcomment : ∀ text, t.kind ≠ .comment text)
      (htext : t.kind.text = String.ofList (first c rest).text) :
      t.kind.text.toList.filter (· ∉ Text.breaks) = t.kind.text.toList := by
    refine hfilter fun b hb hmem => ?_
    rw [htext, String.toList_ofList] at hmem
    by_cases hopens : ['/', '*'] <+: c :: rest
    · obtain ⟨body, hbody⟩ := hopens
      cases hbody
      obtain ⟨n, hend⟩ : ∃ n, commentEnd? body = some n :=
        Option.ne_none_iff_exists'.mp (mt isUnended_blockComment.mpr h)
      have hblock : (blockComment body).kind = t.kind := hkind
      simp only [blockComment, hend] at hblock
      exact hcomment _ hblock.symm
    · obtain rfl := eq_of_mem_first hb hopens hmem
      rw [first_of_break hb] at hkind
      rw [← hkind, ofBreak] at hbreak
      split at hbreak <;> cases hbreak
  obtain ⟨kind, span, range⟩ := t
  cases kind with
  | comment text => rfl
  | whitespace =>
    have hspace : ∀ b ∈ Text.breaks, b ∉ " ".toList := forall_mem_of_all rfl
    exact hfilter hspace
  | string content =>
    refine hfilter fun b hb => ?_
    rw [TokenKind.text, Text.quote, String.toList_ofList]
    exact Text.not_mem_quoteChars hb _
  | punctuator mark =>
    have hmark : ∀ b ∈ Text.breaks, b ∉ mark.symbol.toList := by
      cases mark <;> exact forall_mem_of_all rfl
    exact hfilter hmark
  | lineFeed | carriageReturn => cases hbreak
  | _ => exact hwritten (by simp) (hkeeps (by simp) (by simp) (by simp))

namespace Token

/-- Only the last token of a text may be written with a line break. -/
lemma unbroken_of_mem_dropLast {text : String} {t : Token} (h : t ∈ (ofText text).dropLast) :
    t.Unbroken := by
  have hkind : t.kind ∈ (Lexeme.ofChars text.toList).dropLast.map (·.kind) := by
    rw [List.map_dropLast, ← map_kind_place (LineTable.ofChars text.toList) 0,
      ← List.map_dropLast]
    exact List.mem_map_of_mem h
  obtain ⟨lexeme, hlexeme, hkind⟩ := List.mem_map.mp hkind
  obtain ⟨c, rest, rfl, hended⟩ := Lexeme.exists_first_of_mem_dropLast hlexeme
  exact Lexeme.written_of_first hkind hended

/-- The tokens of a text adjoin each other. -/
lemma adjoin_ofText (text : String) : Adjoin .origin (ofText text) := by
  have hplace (table : LineTable) (offset : Nat) (lexemes : List Lexeme) :
      Adjoin (table.locate offset) (place table offset lexemes) := by
    induction lexemes generalizing offset with
    | nil => trivial
    | cons lexeme later ih => exact ⟨rfl, ih _⟩
  have hall := hplace (LineTable.ofChars text.toList) 0 (Lexeme.ofChars text.toList)
  rwa [LineTable.locate_zero] at hall

end Token

/-! ### Readings -/

/-- A text with certain characters in place of each line feed. -/
def Text.rebroken (br : List Char) (text : String) : String :=
  String.ofList (rebreak br text.toList)

section

variable {br : List Char} {text : String}

/-- Adjoining tokens that count alike are read alike, if only the last one of each list may be
written with a line break. -/
theorem Parser.readTokens_lines (p : Parser) {tokens tokens' : List Token}
    (hadjoin : Token.Adjoin .origin tokens) (hadjoin' : Token.Adjoin .origin tokens')
    (hunbroken : ∀ t ∈ tokens.dropLast, t.Unbroken)
    (hunbroken' : ∀ t ∈ tokens'.dropLast, t.Unbroken)
    (hgist : Spacing.lines.gist tokens = Spacing.lines.gist tokens') :
    (p.readTokens tokens).root = (p.readTokens tokens').root ∧
      (p.readTokens tokens).errors.map (·.view .lines) =
        (p.readTokens tokens').errors.map (·.view .lines) := by
  have halike := p.readTokens_alike_of_gist_eq hgist (Spacing.coupling_lines hadjoin hadjoin')
  rw [p.readTokens_view_lines hunbroken, p.readTokens_view_lines hunbroken'] at halike
  refine ⟨?_, halike.2⟩
  -- the ranges of the two texts are told by what counts of their first and last tokens
  have hrange {tokens : List Token} (h : Token.Adjoin .origin tokens) :
      rootRange tokens =
        ⟨.origin, (Spacing.lines.gist tokens).getLast?.elim .origin (·.range.stop)⟩ := by
    have hstop (t : Token) : (Spacing.lines.bare t).range.stop = t.range.stop := by
      simp only [Spacing.lines]
      split <;> rfl
    rw [rootRange_eq, Spacing.getLast?_gist]
    rcases tokens with _ | ⟨t, later⟩
    · rfl
    · rw [List.getLast?_cons, Option.map_some, Option.elim_some, Option.elim_some, hstop]
      exact congrArg (Range.mk · _) h.1
  have hroot (tokens : List Token) : (p.readTokens tokens).root =
      ⟨rootRange tokens, (p.readTokens tokens).root.declarations⟩ := rfl
  rw [hroot tokens, hroot tokens', hrange hadjoin, hrange hadjoin', hgist, halike.1]

/-- What counts of a text does not hang on its line breaks. -/
lemma Spacing.gist_ofText_rebroken (hbr : Text.IsBreak br) (h : '\r' ∉ text.toList) :
    lines.gist (Token.ofText (Text.rebroken br text)) = lines.gist (Token.ofText text) := by
  have hself : Text.rebreak ['\n'] text.toList = text.toList := by
    induction text.toList with
    | nil => rfl
    | cons c later ih =>
      by_cases hc : c = '\n'
      · rw [hc, Text.rebreak_cons_lineFeed, ih, List.singleton_append]
      · rw [Text.rebreak_cons hc, ih]
  have hfeeds := gist_rebreak (show Text.IsBreak ['\n'] by simp [Text.IsBreak]) h
  rw [hself] at hfeeds
  rw [Token.ofText, Token.ofText, Text.rebroken, String.toList_ofList, gist_rebreak hbr h, hfeeds]

/-- A text is read to the same tree, whatever its line breaks are, and its errors have the same
causes and start at the same places. -/
lemma Parser.readText_rebroken (p : Parser) (hbr : Text.IsBreak br) (h : '\r' ∉ text.toList) :
    (p.readText (Text.rebroken br text)).root = (p.readText text).root ∧
      (p.readText (Text.rebroken br text)).errors.map (·.view .lines) =
        (p.readText text).errors.map (·.view .lines) :=
  p.readTokens_lines (Token.adjoin_ofText _) (Token.adjoin_ofText _)
    (fun _ => Token.unbroken_of_mem_dropLast) (fun _ => Token.unbroken_of_mem_dropLast)
    (Spacing.gist_ofText_rebroken hbr h)

end

section

variable {text : String}

/-- The errors of a text are at its tokens or at its end. -/
lemma Parser.errors_placed (p : Parser) {e : ParseError} (he : e ∈ (p.readText text).errors) :
    (e.span ∈ (Token.ofText text).map (·.span) ∨ e.span = Span.point text.utf8ByteSize) ∧
      e.range = (LineTable.ofChars text.toList).range e.span := by
  obtain ⟨position, htold⟩ := p.exists_told (Token.ofText text)
  obtain ⟨hspan, hrange⟩ := htold.errors_inOrder.1 e (List.mem_reverse.mpr he)
  refine ⟨hspan.imp_left ?_, hrange⟩
  rintro ⟨t, ht, hspan⟩
  exact List.mem_map.mpr ⟨t, ht, hspan.symm⟩

/-- Errors of a text with carriage returns in place of line feeds are those of the text, if they
have the same cause and start at the same place. -/
lemma Parser.error_eq_of_view_eq (p : Parser) (h : '\r' ∉ text.toList) {e e' : ParseError}
    (he : e ∈ (p.readText (Text.rebroken ['\r'] text)).errors)
    (he' : e' ∈ (p.readText text).errors) (hview : e.view .lines = e'.view .lines) : e = e' := by
  have hspans : (Token.ofText (Text.rebroken ['\r'] text)).map (·.span) =
      (Token.ofText text).map (·.span) := by
    rw [Token.ofText, Token.ofText, Token.ofChars, Token.ofChars, Text.rebroken,
      String.toList_ofList, Lexeme.ofChars_rebreak (forall_mem_of_all rfl) (List.cons_ne_nil _ _)]
    exact Token.spans_place_rebreak _ _ 0 fun _ => Lexeme.keeps_of_mem
  have hsize : (Text.rebroken ['\r'] text).utf8ByteSize = text.utf8ByteSize := by
    have hall := Text.byteSize_rebreak (show Text.byteSize ['\r'] = 1 from rfl) text.toList
    rwa [← Token.utf8Len_eq_byteSize, ← Token.utf8Len_eq_byteSize, ← String.utf8ByteSize_ofList,
      ← String.utf8ByteSize_ofList, String.ofList_toList] at hall
  have htable : LineTable.ofChars (Text.rebroken ['\r'] text).toList =
      LineTable.ofChars text.toList := by
    rw [Text.rebroken, String.toList_ofList, LineTable.ofChars_rebreak h]
  obtain ⟨hspan, hrange⟩ := p.errors_placed he
  obtain ⟨hspan', hrange'⟩ := p.errors_placed he'
  rw [hspans, hsize] at hspan
  rw [htable] at hrange
  simp only [ParseError.view, View.lines, id_eq, ParseError.mk.injEq, Range.mk.injEq, and_true,
    true_and] at hview
  obtain ⟨hkind, hstart⟩ := hview
  have hsame : e.span = e'.span := by
    refine (Token.tile_ofText text).eq_of_start_eq hspan hspan' ?_
    rw [hrange, hrange'] at hstart
    exact LineTable.locate_injective (LineTable.ascends_ofChars _) hstart
  have hsameRange : e.range = e'.range := by rw [hrange, hrange', hsame]
  cases e
  cases e'
  exact (ParseError.mk.injEq ..).mpr ⟨hkind, hsame, hsameRange⟩

attribute [ext] Reading

/-- What is read of a text does not hang on its line breaks.

With carriage returns in place of line feeds it is all the same.  With a carriage return in
front of each line feed the tree is the same, and the errors have the same causes and start at
the same lines and columns, in the same order. -/
theorem Parser.readText_rebreak (p : Parser) (text : String) (h : '\r' ∉ text.toList) :
    p.readText (Text.rebroken ['\r'] text) = p.readText text ∧
      (p.readText (Text.rebroken ['\r', '\n'] text)).root = (p.readText text).root ∧
      (p.readText (Text.rebroken ['\r', '\n'] text)).errors.map
          (fun e => (e.kind, e.range.start)) =
        (p.readText text).errors.map fun e => (e.kind, e.range.start) := by
  obtain ⟨hroot, herrors⟩ := p.readText_rebroken (show Text.IsBreak ['\r'] by simp [Text.IsBreak]) h
  obtain ⟨hroot', herrors'⟩ :=
    p.readText_rebroken (show Text.IsBreak ['\r', '\n'] by simp [Text.IsBreak]) h
  have hexact : (p.readText (Text.rebroken ['\r'] text)).errors = (p.readText text).errors := by
    have hlength := congrArg List.length herrors
    rw [List.length_map, List.length_map] at hlength
    refine List.ext_getElem hlength fun i hi hi' => ?_
    refine p.error_eq_of_view_eq h (List.getElem_mem hi) (List.getElem_mem hi') ?_
    have hview := congrArg (·[i]?) herrors
    simpa [hi, hi'] using hview
  refine ⟨?_, hroot', ?_⟩
  · exact Reading.ext hroot hexact
  · have hstarts := congrArg (List.map fun e : ParseError => (e.kind, e.range.start)) herrors'
    rw [List.map_map, List.map_map] at hstarts
    exact hstarts

/-- A value is missing at the end of a line, and an unknown character stands on the next one. -/
theorem Parser.readText_rebreak_unknown :
    '\r' ∉ "let x = (\n§".toList ∧
      (Parser.readText {} (Text.rebroken ['\r', '\n'] "let x = (\n§")).errors.map
          (fun e => (e.kind, e.range.start)) =
        (Parser.readText {} "let x = (\n§").errors.map (fun e => (e.kind, e.range.start)) ∧
      (Parser.readText {} "let x = (\n§").errors ≠ [] := by
  have h : '\r' ∉ "let x = (\n§".toList := by decide
  exact ⟨h, (Parser.readText_rebreak {} _ h).2.2, by decide +kernel⟩

end

end FrontEnd
