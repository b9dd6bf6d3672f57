/-
A line feed starts anew.

No lexeme but a block comment goes on behind a line feed, so the lexemes of a text in front of
one are what they are at the end of the text, and those behind it are what they are at the
start of one.  Columns are counted from the line feed on.  The main result is
`Token.ofText_lineFeed`.
-/
import FrontEnd.Proofs.Lexical.Break
import FrontEnd.Proofs.Source.Along

namespace FrontEnd

namespace Lexeme

/-- The lexemes of two texts with a line feed between them are those of the one, the line feed
and those of the other, unless a block comment of the first text goes on. -/
lemma ofChars_lineFeed {text : List Char}
    (h : ∀ lexeme ∈ (ofChars text).getLast?, ¬ lexeme.IsUnended) (later : List Char) :
    ofChars (text ++ '\n' :: later) = ofChars text ++ ⟨.lineFeed, ['\n']⟩ :: ofChars later := by
  induction hlen : text.length using Nat.strong_induction_on generalizing text with
  | _ n ih =>
    rcases text with _ | ⟨c, rest⟩
    · exact ofChars_cons_break (by decide) later
    obtain ⟨⟨behind, hbehind⟩, hne⟩ := first_spec c rest
    have hpos : 0 < (first c rest).text.length := List.length_pos_iff.mpr hne
    have hsplit := congrArg List.length hbehind
    rw [List.length_append] at hsplit
    have hlexemes : ofChars (c :: rest) = first c rest :: ofChars behind := by
      rw [ofChars_cons, ← hbehind, List.drop_left]
    rw [hlexemes] at h ⊢
    have hfirst : ¬ (first c rest).IsUnended := by
      intro hunended
      have hall := text_eq_of_isUnended hunended
      obtain rfl : behind = [] := by simpa [hall] using hbehind
      exact h _ rfl hunended
    rw [List.cons_append, ofChars_cons, first_break (by decide) hfirst, ← List.cons_append, ← hbehind,
      List.append_assoc, List.drop_left, List.cons_append]
    congr 1
    refine ih behind.length (by omega) (fun lexeme hlexeme => h lexeme ?_) rfl
    rw [List.getLast?_cons]
    simp only [Option.mem_def] at hlexeme ⊢
    rw [hlexeme, Option.getD_some]

end Lexeme

/-! ### Tokens -/

/-- A span that stands so many bytes later. -/
def Span.shift (distance : Nat) (s : Span) : Span :=
  ⟨s.start + distance, s.stop + distance⟩

namespace Token

lemma place_append (table : LineTable) (offset : Nat) (lexemes later : List Lexeme) :
    place table offset (lexemes ++ later) = place table offset lexemes ++
      place table (offset + Text.byteSize (lexemes.map (·.text)).flatten) later := by
  induction lexemes generalizing offset with
  | nil => rfl
  | cons lexeme rest ih =>
    simp only [List.cons_append, place, ih, List.map_cons, List.flatten_cons, byteSize_append,
      Span.covering, Nat.add_assoc]

/-- The kinds and spans of lexemes do not hang on the lines. -/
lemma spans_place (table table' : LineTable) (offset distance : Nat) (lexemes : List Lexeme) :
    (place table (offset + distance) lexemes).map (fun t => (t.kind, t.span)) =
      (place table' offset lexemes).map fun t => (t.kind, t.span.shift distance) := by
  induction lexemes generalizing offset with
  | nil => rfl
  | cons lexeme later ih =>
    have hstop : (Span.covering (offset + distance) lexeme.text).stop =
        (Span.covering offset lexeme.text).stop + distance := Nat.add_right_comm _ _ _
    simp only [place, List.map_cons, hstop, ih]
    simp only [Span.covering, Span.shift, Nat.add_right_comm]

end Token

/-! ### Columns -/

namespace LineTable

lemma laterStarts_add (offset distance : Nat) (text : List Char) :
    laterStarts (offset + distance) text = (laterStarts offset text).map (· + distance) := by
  induction text generalizing offset with
  | nil => rfl
  | cons c rest ih =>
    simp only [laterStarts, Nat.add_right_comm offset distance, ih]
    split <;> rfl

/-- Columns are counted anew behind a line feed. -/
lemma column_locate_lineFeed (text later : List Char) (offset : Nat) :
    ((ofChars (text ++ '\n' :: later)).locate (offset + (Text.byteSize text + 1))).column =
      ((ofChars later).locate offset).column := by
  obtain ⟨starts, hstarts, -⟩ := exists_laterStarts_append 0 text ('\n' :: later)
  replace hstarts : laterStarts 0 (text ++ '\n' :: later) = starts ++
      (Text.byteSize text + 1) :: laterStarts (Text.byteSize text + 1) later := by
    rw [hstarts, Nat.zero_add]
    rfl
  set table := ofChars (text ++ '\n' :: later)
  set table' := ofChars later
  have htable : table.Ascends := ascends_ofChars _
  have htable' : table'.Ascends := ascends_ofChars _
  -- the lines of what follows stand behind those before, so many bytes later
  obtain ⟨before, hlines⟩ : ∃ before, table.starts =
      (before ++ table'.starts.toList.map (· + (Text.byteSize text + 1))).toArray :=
    ⟨0 :: starts, by simp [table, table', ofChars, hstarts, ← laterStarts_add]⟩
  have hsize : table.starts.size = before.length + table'.starts.size := by
    simp [hlines]
  have hstart : ∀ line < table'.starts.size,
      table.start (before.length + line) = table'.start line + (Text.byteSize text + 1) := by
    intro line hline
    simp [start, hlines, Array.getD_eq_getD_getElem?, hline]
  obtain ⟨hbefore, hlt, hbehind⟩ := lineAt_spec htable' offset
  have hline : table.lineAt (offset + (Text.byteSize text + 1)) =
      before.length + table'.lineAt offset := by
    refine lineAt_eq htable (by rw [hstart _ hlt]; omega) (by omega) fun line hline hlast => ?_
    obtain ⟨line, rfl⟩ := Nat.exists_eq_add_of_le (show before.length ≤ line by omega)
    have := hbehind line (by omega) (by omega)
    rw [hstart line (by omega)]
    omega
  simp only [locate]
  rw [hline, hstart _ hlt]
  omega

end LineTable

namespace Token

/-- The starts of tokens behind a line feed have the columns that they have without the text
before. -/
lemma columns_place_lineFeed (text later : List Char) (offset : Nat) (lexemes : List Lexeme) :
    (place (LineTable.ofChars (text ++ '\n' :: later)) (offset + (Text.byteSize text + 1))
        lexemes).map (·.range.start.column) =
      (place (LineTable.ofChars later) offset lexemes).map (·.range.start.column) := by
  induction lexemes generalizing offset with
  | nil => rfl
  | cons lexeme rest ih =>
    have hstop : (Span.covering (offset + (Text.byteSize text + 1)) lexeme.text).stop =
        (Span.covering offset lexeme.text).stop + (Text.byteSize text + 1) :=
      Nat.add_right_comm _ _ _
    simp only [place, List.map_cons, hstop, ih]
    congr 1
    exact LineTable.column_locate_lineFeed text later offset

/-- Where the last token is no invalid one that opens a comment, the last lexeme is no comment
without its end. -/
lemma not_isUnended_of_getLast? {text : String}
    (h : ∀ t ∈ (ofText text).getLast?, ∀ written, t.kind = .invalid written →
      ¬ ['/', '*'] <+: written.toList) :
    ∀ lexeme ∈ (Lexeme.ofChars text.toList).getLast?, ¬ lexeme.IsUnended := by
  intro lexeme hlexeme hunended
  have hkinds := congrArg List.getLast? (kinds_ofText text)
  rw [Lexeme.kinds, List.getLast?_map, List.getLast?_map, hlexeme, Option.map_some,
    Option.map_eq_some_iff] at hkinds
  obtain ⟨t, ht, hkind⟩ := hkinds
  have hkeeps := Lexeme.keeps_of_mem (List.mem_of_getLast? hlexeme)
  obtain ⟨hinvalid, hopens⟩ := hunended
  cases hwritten : lexeme.kind with
  | invalid written =>
    rw [hwritten] at hkeeps hkind
    have htext : written = String.ofList lexeme.text :=
      hkeeps (by simp) (by simp) (by simp)
    refine h t ht written hkind ?_
    rwa [htext, String.toList_ofList]
  | _ =>
    rw [hwritten] at hinvalid
    cases hinvalid

/-- Two texts with a line feed between them, token by token. -/
lemma ofChars_lineFeed {text : List Char}
    (h : ∀ lexeme ∈ (Lexeme.ofChars text).getLast?, ¬ lexeme.IsUnended) (later : List Char) :
    let table := LineTable.ofChars (text ++ '\n' :: later)
    let size := Text.byteSize text
    ofChars (text ++ '\n' :: later) = place table 0 (Lexeme.ofChars text) ++
      ⟨.lineFeed, ⟨size, size + 1⟩, table.range ⟨size, size + 1⟩⟩ ::
        place table (0 + (size + 1)) (Lexeme.ofChars later) := by
  intro table size
  rw [ofChars, Lexeme.ofChars_lineFeed h, place_append, Lexeme.flatten_ofChars, Nat.zero_add,
    Nat.zero_add]
  rfl

/-- A line feed starts anew.

Where the first of two texts does not end within a block comment, the tokens of both with a
line feed between them are those of the first text, the line feed, and those of the second
text, which have the same columns. -/
theorem ofText_lineFeed (a b : String)
    (h : ∀ t ∈ (ofText a).getLast?, ∀ written, t.kind = .invalid written →
      ¬ ['/', '*'] <+: written.toList) :
    let tokens := ofText (a ++ "\n" ++ b)
    tokens.map (fun t => (t.kind, t.span)) =
        (ofText a).map (fun t => (t.kind, t.span)) ++
          (.lineFeed, ⟨a.utf8ByteSize, a.utf8ByteSize + 1⟩) ::
            (ofText b).map (fun t => (t.kind, t.span.shift (a.utf8ByteSize + 1))) ∧
      (tokens.drop ((ofText a).length + 1)).map (·.range.start.column) =
        (ofText b).map (·.range.start.column) := by
  have hlist : (a ++ "\n" ++ b).toList = a.toList ++ '\n' :: b.toList := by
    simp [String.toList_append]
  have hsize : a.utf8ByteSize = Text.byteSize a.toList := by
    rw [← utf8Len_eq_byteSize, ← String.utf8ByteSize_ofList, String.ofList_toList]
  have htokens := ofChars_lineFeed (not_isUnended_of_getLast? h) b.toList
  simp only [ofText, hlist, htokens, hsize]
  set table := LineTable.ofChars (a.toList ++ '\n' :: b.toList)
  constructor
  · rw [List.map_append, List.map_cons, spans_place table (LineTable.ofChars b.toList) 0]
    congr 1
    exact spans_place table (LineTable.ofChars a.toList) 0 0 (Lexeme.ofChars a.toList)
  · have hlength : (place table 0 (Lexeme.ofChars a.toList)).length =
        (ofChars a.toList).length := by
      simpa [ofChars] using congrArg List.length
        (spans_place table (LineTable.ofChars a.toList) 0 0 (Lexeme.ofChars a.toList))
    rw [← hlength, List.drop_append, List.drop_eq_nil_of_le (Nat.le_succ _), List.nil_append,
      Nat.add_sub_cancel_left, List.drop_one, List.tail_cons]
    exact columns_place_lineFeed a.toList b.toList 0 _

/-- A string without its end does not go on behind a line feed. -/
theorem ofText_lineFeed_string :
    (∀ t ∈ (ofText "\"a\\").getLast?, ∀ written, t.kind = .invalid written →
      ¬ ['/', '*'] <+: written.toList) ∧
    let tokens := ofText ("\"a\\" ++ "\n" ++ "b\"")
    tokens.map (fun t => (t.kind, t.span)) =
        (ofText "\"a\\").map (fun t => (t.kind, t.span)) ++
          (.lineFeed, ⟨"\"a\\".utf8ByteSize, "\"a\\".utf8ByteSize + 1⟩) ::
            (ofText "b\"").map (fun t => (t.kind, t.span.shift ("\"a\\".utf8ByteSize + 1))) ∧
      (tokens.drop ((ofText "\"a\\").length + 1)).map (·.range.start.column) =
        (ofText "b\"").map (·.range.start.column) := by
  have htokens : ofText "\"a\\" = [⟨.invalid "\"a", ⟨0, 2⟩, ⟨⟨1, 1⟩, ⟨1, 3⟩⟩⟩,
      ⟨.invalid "\\", ⟨2, 3⟩, ⟨⟨1, 3⟩, ⟨1, 4⟩⟩⟩] := by decide +kernel
  have hlast : ∀ t ∈ (ofText "\"a\\").getLast?, ∀ written, t.kind = .invalid written →
      ¬ ['/', '*'] <+: written.toList := by
    intro t ht written hkind
    rw [htokens] at ht
    cases ht
    cases hkind
    decide
  exact ⟨hlast, ofText_lineFeed _ _ hlast⟩

end Token

end FrontEnd
