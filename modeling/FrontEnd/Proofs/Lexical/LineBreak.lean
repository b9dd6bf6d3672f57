/-
One line break for another.

A text may end its lines with line feeds, with carriage returns or with both.  Written with
other line breaks it is cut into the same lexemes, where a line break is one lexeme or two
(`Lexeme.ofChars_rebreak`), and what stands between line breaks has the same lines and columns
(`Location.along_rebreak`).
-/
import FrontEnd.Proofs.Lexical.Break
import FrontEnd.Proofs.Source.Along

namespace FrontEnd

/-- A text with certain characters in place of each line feed. -/
def Text.rebreak (br text : List Char) : List Char :=
  text.flatMap fun c => if c = '\n' then br else [c]

/-- A kind, when the text it keeps gets other line breaks.  Only comments and invalid input keep
texts with line breaks. -/
def TokenKind.rebreak (br : List Char) : TokenKind → TokenKind
  | comment text => comment (String.ofList (Text.rebreak br text.toList))
  | invalid text => invalid (String.ofList (Text.rebreak br text.toList))
  | kind => kind

/-- The lexemes in place of a lexeme, when its text gets other line breaks. -/
def Lexeme.rebreak (br : List Char) (lexeme : Lexeme) : List Lexeme :=
  if lexeme.kind = .lineFeed then br.map ofBreak
  else [⟨lexeme.kind.rebreak br, Text.rebreak br lexeme.text⟩]

variable {br : List Char}

namespace Text

@[simp] lemma rebreak_nil : rebreak br [] = [] := rfl

@[simp] lemma rebreak_cons_lineFeed (text : List Char) :
    rebreak br ('\n' :: text) = br ++ rebreak br text := rfl

lemma rebreak_cons {c : Char} (h : c ≠ '\n') (text : List Char) :
    rebreak br (c :: text) = c :: rebreak br text := by
  simp [rebreak, h]

lemma rebreak_append (text later : List Char) :
    rebreak br (text ++ later) = rebreak br text ++ rebreak br later :=
  List.flatMap_append

lemma rebreak_of_not_mem {text : List Char} (h : '\n' ∉ text) : rebreak br text = text := by
  induction text with
  | nil => rfl
  | cons c text ih =>
    rw [List.mem_cons, not_or] at h
    rw [rebreak_cons (Ne.symm h.1), ih h.2]

/-- Where carriage returns stand for the line feeds, no line feed is left. -/
lemma head?_rebreak_ne (text : List Char) : (rebreak ['\r'] text).head? ≠ some '\n' := by
  rcases text with _ | ⟨c, text⟩
  · simp
  · by_cases hc : c = '\n'
    · simp [hc]
    · simp [rebreak_cons hc, hc]

/-- The first line of a text. -/
lemma exists_line (text : List Char) : ∃ line, '\n' ∉ line ∧
    (text = line ∨ ∃ later, text = line ++ '\n' :: later) := by
  by_cases h : '\n' ∈ text
  · obtain ⟨line, later, htext, hline⟩ := List.eq_append_cons_of_mem h
    exact ⟨line, hline, .inr ⟨later, htext⟩⟩
  · exact ⟨text, h, .inl rfl⟩

/-- Another line break of one byte. -/
lemma byteSize_rebreak (h : Text.byteSize br = 1) (text : List Char) :
    byteSize (rebreak br text) = byteSize text := by
  induction text with
  | nil => rfl
  | cons c text ih =>
    by_cases hc : c = '\n'
    · subst hc
      rw [rebreak_cons_lineFeed, Token.byteSize_append, h, ih]
      rfl
    · rw [rebreak_cons hc, byteSize, ih, byteSize]

end Text

/-! ### Lexemes -/

namespace Lexeme

lemma commentEnd?_cons {c : Char} {body : List Char} (h : c = '*' → body.head? ≠ some '/') :
    commentEnd? (c :: body) = (commentEnd? body).map (· + 1) := by
  rw [commentEnd?]
  rintro rest rfl rfl
  exact h rfl rfl

/-- No comment ends within line breaks. -/
lemma commentEnd?_breaks (hbr : ∀ b ∈ br, b ∈ Text.breaks) (body : List Char) :
    commentEnd? (br ++ body) = (commentEnd? body).map (· + br.length) := by
  induction br with
  | nil => simp
  | cons b br ih =>
    obtain ⟨hb, hbr⟩ := List.forall_mem_cons.mp hbr
    rw [List.cons_append, commentEnd?_cons, ih hbr, Option.map_map]
    · rfl
    · rintro rfl
      simp [Text.breaks] at hb

/-- A comment ends at the same place, whatever line breaks it holds. -/
lemma commentEnd?_rebreak (hbr : ∀ b ∈ br, b ∈ Text.breaks) (hne : br ≠ []) (body : List Char) :
    commentEnd? (Text.rebreak br body) =
      (commentEnd? body).map fun n => (Text.rebreak br (body.take n)).length := by
  fun_induction commentEnd? body with
  | case1 => rfl
  | case2 rest => simp [Text.rebreak_cons, commentEnd?]
  | case3 c rest hend ih =>
    rw [Option.map_map]
    by_cases hc : c = '\n'
    · subst hc
      rw [Text.rebreak_cons_lineFeed, commentEnd?_breaks hbr, ih, Option.map_map]
      refine congrArg (Option.map · _) (funext fun n => ?_)
      simp [Nat.add_comm]
    · rw [Text.rebreak_cons hc, commentEnd?_cons, ih, Option.map_map]
      · refine congrArg (Option.map · _) (funext fun n => ?_)
        simp [Text.rebreak_cons hc]
      · rintro rfl hslash
        rcases rest with _ | ⟨d, rest⟩
        · cases hslash
        by_cases hd : d = '\n'
        · subst hd
          obtain ⟨b, br, rfl⟩ := List.exists_cons_of_ne_nil hne
          have hb := hbr b List.mem_cons_self
          cases hslash
          simp [Text.breaks] at hb
        · rw [Text.rebreak_cons hd] at hslash
          cases hslash
          exact hend rest rfl rfl

/-- A kind that keeps a text without line breaks. -/
lemma rebreak_kind {kind : TokenKind} {text : List Char} (hkeeps : kind.Keeps text)
    (h : '\n' ∉ text) : kind.rebreak br = kind := by
  cases kind with
  | comment written | invalid written =>
    have htext : written = String.ofList text := hkeeps (by simp) (by simp) (by simp)
    rw [TokenKind.rebreak, htext, String.toList_ofList, Text.rebreak_of_not_mem h]
  | _ => rfl

/-- A lexeme that is a line break is one by its text. -/
lemma text_of_isLineBreak {lexeme : Lexeme} (hkeeps : lexeme.kind.Keeps lexeme.text)
    (h : lexeme.kind.isLineBreak = true) : lexeme.text = lexeme.kind.text.toList := by
  have htext : lexeme.kind.text = String.ofList lexeme.text := by
    refine hkeeps ?_ ?_ ?_ <;> revert h <;> cases lexeme.kind <;> simp [TokenKind.isLineBreak]
  rw [htext, String.toList_ofList]

/-- The first lexeme of a text, when the text gets other line breaks. -/
lemma first_rebreak (hbr : ∀ b ∈ br, b ∈ Text.breaks) (hne : br ≠ []) (c : Char)
    (rest : List Char) (hc : c ≠ '\n') :
    first c (Text.rebreak br rest) =
      ⟨(first c rest).kind.rebreak br, Text.rebreak br (first c rest).text⟩ := by
  by_cases hcomment : ['/', '*'] <+: c :: rest
  · obtain ⟨body, hbody⟩ := hcomment
    cases hbody
    have hstar : Text.rebreak br ('*' :: body) = '*' :: Text.rebreak br body :=
      Text.rebreak_cons (by decide) body
    change first '/' (Text.rebreak br ('*' :: body)) = _
    rw [hstar]
    change blockComment (Text.rebreak br body) =
      ⟨(blockComment body).kind.rebreak br, Text.rebreak br (blockComment body).text⟩
    -- a comment may go over the line, so its end is looked for in both texts
    have hopen (text : List Char) :
        Text.rebreak br ('/' :: '*' :: text) = '/' :: '*' :: Text.rebreak br text := by
      rw [Text.rebreak_cons (by decide), Text.rebreak_cons (by decide)]
    unfold blockComment
    rw [commentEnd?_rebreak hbr hne]
    rcases commentEnd? body with _ | n
    · simp [TokenKind.rebreak, hopen]
    · have htake : (Text.rebreak br body).take (Text.rebreak br (body.take n)).length =
          Text.rebreak br (body.take n) := by
        conv_lhs => rw [← List.take_append_drop n body, Text.rebreak_append]
        rw [List.take_append_drop]
        exact List.take_left
      simp [TokenKind.rebreak, hopen, htake]
  · -- both are what rules find in the first line alone
    obtain ⟨line, hline, hrest⟩ := Text.exists_line rest
    have hopens : ¬ ['/', '*'] <+: c :: line := by
      refine fun h => hcomment (h.trans (List.cons_prefix_cons.mpr ⟨rfl, ?_⟩))
      rcases hrest with rfl | ⟨later, rfl⟩
      · exact List.prefix_rfl
      · exact List.prefix_append _ _
    have halone : first c rest = first c line ∧
        first c (Text.rebreak br rest) = first c line := by
      rcases hrest with rfl | ⟨later, rfl⟩
      · rw [Text.rebreak_of_not_mem hline]
        exact ⟨rfl, rfl⟩
      · obtain ⟨b, br, rfl⟩ := List.exists_cons_of_ne_nil hne
        rw [Text.rebreak_append, Text.rebreak_cons_lineFeed, Text.rebreak_of_not_mem hline,
          List.cons_append]
        exact ⟨first_break_of_not_comment (by decide) hopens _,
          first_break_of_not_comment (hbr b List.mem_cons_self) hopens _⟩
    have hmem : '\n' ∉ c :: line := by
      rw [List.mem_cons, not_or]
      exact ⟨Ne.symm hc, hline⟩
    have htext : '\n' ∉ (first c line).text := fun h => hmem ((first_spec c line).1.mem h)
    rw [halone.1, halone.2, rebreak_kind (keeps_first c line) htext, Text.rebreak_of_not_mem htext]

/-- Line breaks are lexemes for themselves. -/
lemma ofChars_breaks (hbr : ∀ b ∈ br, b ∈ Text.breaks) (later : List Char) :
    ofChars (br ++ later) = br.map ofBreak ++ ofChars later := by
  induction br with
  | nil => rfl
  | cons b br ih =>
    obtain ⟨hb, hbr⟩ := List.forall_mem_cons.mp hbr
    rw [List.cons_append, ofChars_cons_break hb, ih hbr, List.map_cons, List.cons_append]

/-- The lexemes of a text, when the text gets other line breaks. -/
theorem ofChars_rebreak (hbr : ∀ b ∈ br, b ∈ Text.breaks) (hne : br ≠ []) (text : List Char) :
    ofChars (Text.rebreak br text) = (ofChars text).flatMap (rebreak br) := by
  induction h : text.length using Nat.strong_induction_on generalizing text with
  | _ n ih =>
    rcases text with _ | ⟨c, rest⟩
    · rfl
    by_cases hc : c = '\n'
    · subst hc
      rw [Text.rebreak_cons_lineFeed, ofChars_breaks hbr, ofChars_cons_break (by decide),
        List.flatMap_cons, ih rest.length (by rw [← h, List.length_cons]; omega) rest rfl]
      rfl
    obtain ⟨⟨later, hlater⟩, hempty⟩ := first_spec c rest
    have hpos : 0 < (first c rest).text.length := List.length_pos_iff.mpr hempty
    have hsplit := congrArg List.length hlater
    rw [List.length_append] at hsplit
    have hkind : (first c rest).kind ≠ .lineFeed := by
      intro hkind
      rw [text_of_isLineBreak (keeps_first c rest) (by rw [hkind]; rfl), hkind] at hlater
      cases hlater
      exact hc rfl
    have hlexemes : ofChars (c :: rest) = first c rest :: ofChars later := by
      rw [ofChars_cons, ← hlater, List.drop_left]
    have hfirst := first_rebreak hbr hne c rest hc
    rw [hlexemes, List.flatMap_cons, rebreak, if_neg hkind, ← hfirst, List.singleton_append,
      Text.rebreak_cons hc, ofChars_cons, ← ih later.length (by omega) later rfl]
    congr 2
    rw [← Text.rebreak_cons hc, ← hlater, Text.rebreak_append, hfirst]
    exact List.drop_left

end Lexeme

/-! ### Places -/

/-- The line breaks that may stand for a line feed: each of them ends one line. -/
def Text.IsBreak (br : List Char) : Prop :=
  br ∈ [['\n'], ['\r'], ['\r', '\n']]

/-- A line break is made of characters that end lines. -/
lemma Text.IsBreak.breaks {br : List Char} (h : IsBreak br) : (∀ b ∈ br, b ∈ breaks) ∧ br ≠ [] := by
  simp only [IsBreak, List.mem_cons, List.not_mem_nil, or_false] at h
  rcases h with rfl | rfl | rfl <;> exact ⟨forall_mem_of_all rfl, List.cons_ne_nil _ _⟩

namespace Location

/-- A place is the same, whatever line breaks are before it and behind it. -/
lemma along_rebreak (hbr : Text.IsBreak br) {text rest : List Char} (h : '\r' ∉ text)
    (l : Location) :
    l.along (Text.rebreak br text) (Text.rebreak br rest) = l.along text rest := by
  induction text generalizing l with
  | nil => rfl
  | cons c text ih =>
    rw [List.mem_cons, not_or] at h
    by_cases hc : c = '\n'
    · subst hc
      have hfeed : ∀ (l : Location) (later : List Char), l.behind '\n' later = ⟨l.line + 1, 1⟩ :=
        fun l later => rfl
      rw [Text.rebreak_cons_lineFeed, along_append, ← Text.rebreak_append, ih h.2, along, hfeed]
      simp only [Text.IsBreak, List.mem_cons, List.not_mem_nil, or_false] at hbr
      rcases hbr with rfl | rfl | rfl
      · rfl
      · have hnext := Text.head?_rebreak_ne (text ++ rest)
        simp [along, behind, LineTable.breaksAfter, hnext]
      · rfl
    · rw [Text.rebreak_cons hc, along, along, ← Text.rebreak_append, ih h.2]
      have hreturn : c ≠ '\r' := Ne.symm h.1
      simp [behind, LineTable.breaksAfter, hc, hreturn]

end Location

/-! ### Line breaks of one byte -/

namespace LineTable

/-- Carriage returns end the same lines. -/
lemma ofChars_rebreak {text : List Char} (h : '\r' ∉ text) :
    ofChars (Text.rebreak ['\r'] text) = ofChars text := by
  have hstarts (offset : Nat) :
      laterStarts offset (Text.rebreak ['\r'] text) = laterStarts offset text := by
    induction text generalizing offset with
    | nil => rfl
    | cons c text ih =>
      rw [List.mem_cons, not_or] at h
      by_cases hc : c = '\n'
      · subst hc
        have hsize : '\r'.utf8Size = '\n'.utf8Size := rfl
        rw [Text.rebreak_cons_lineFeed, List.singleton_append, laterStarts, laterStarts, ih h.2]
        simp [breaksAfter, Text.head?_rebreak_ne, hsize]
      · rw [Text.rebreak_cons hc, laterStarts, laterStarts, ih h.2]
        simp [breaksAfter, hc, Ne.symm h.1]
  rw [ofChars, ofChars, hstarts]

end LineTable

namespace Token

/-- Other line breaks of one byte leave all tokens where they are. -/
lemma spans_place_rebreak (table table' : LineTable) (offset : Nat) {lexemes : List Lexeme}
    (hkeeps : ∀ lexeme ∈ lexemes, lexeme.kind.Keeps lexeme.text) :
    (place table' offset (lexemes.flatMap (Lexeme.rebreak ['\r']))).map (·.span) =
      (place table offset lexemes).map (·.span) := by
  induction lexemes generalizing offset with
  | nil => rfl
  | cons lexeme later ih =>
    obtain ⟨hlexeme, hkeeps⟩ := List.forall_mem_cons.mp hkeeps
    obtain ⟨next, hnext, hsize⟩ : ∃ next, lexeme.rebreak ['\r'] = [next] ∧
        Text.byteSize next.text = Text.byteSize lexeme.text := by
      unfold Lexeme.rebreak
      split
      next hfeed =>
        refine ⟨_, rfl, ?_⟩
        rw [Lexeme.text_of_isLineBreak hlexeme (by rw [hfeed]; rfl), hfeed]
        rfl
      next => exact ⟨_, rfl, Text.byteSize_rebreak rfl _⟩
    rw [List.flatMap_cons, hnext, List.singleton_append, place, place, List.map_cons,
      List.map_cons]
    simp only [Span.covering, hsize, ih _ hkeeps]

end Token

end FrontEnd
