/-
Lists with other line breaks.

A carriage return and the line feed behind it count as one line break, and either alone counts
as one.  Of a line break only the end is kept, since an error that is placed on one starts where
the token before it ends.  In lists of tokens that adjoin each other the places that may be
asked for are then the same, and so is what is written on a line (`Spacing.coupling_lines`).
-/
import FrontEnd.Proofs.Lexical.Break
import FrontEnd.Proofs.Order.Reading
import FrontEnd.Proofs.Spacing.Reading

namespace FrontEnd

/-! ### What does not count -/

/-- A text without its line breaks. -/
def Text.unbroken (text : String) : String :=
  String.ofList (text.toList.filter (· ∉ Text.breaks))

/-- A kind, when all line breaks are alike. -/
def TokenKind.unbroken : TokenKind → TokenKind
  | comment _ => comment ""
  | carriageReturn => lineFeed
  | invalid text => invalid (Text.unbroken text)
  | kind => kind

/-- Places as they are, and texts of directives without line breaks. -/
def View.lines : View :=
  ⟨id, Text.unbroken⟩

/-- A carriage return counts together with the line feed behind it. -/
def Spacing.lines : Spacing where
  merges t u := t.kind = .carriageReturn && u.kind = .lineFeed
  bare t := ⟨t.kind.unbroken, default,
    if t.kind.isLineBreak then ⟨.origin, t.range.stop⟩ else t.range⟩
  isBlank_of_merges t u h := by
    simp only [Bool.and_eq_true, decide_eq_true_eq] at h
    rw [Token.isBlank, h.1]
    rfl
  plain_of_merges t u h := by
    simp only [Bool.and_eq_true, decide_eq_true_eq] at h
    rw [h.1, h.2]
    rfl
  plain_bare t := by
    obtain ⟨kind, span, range⟩ := t
    cases kind <;> rfl

namespace Spacing

variable {t u : Token} {l : List Token}

/-- Only line breaks count together. -/
lemma merges_lines_eq_false (h : t.kind.isLineBreak = false) (u : Token) :
    lines.merges t u = false := by
  simp only [lines, Bool.and_eq_false_iff, decide_eq_false_iff_not]
  refine .inl fun hreturn => ?_
  rw [hreturn] at h
  cases h

lemma gist_lines_cons (h : t.kind.isLineBreak = false) :
    lines.gist (t :: l) = lines.bare t :: lines.gist l :=
  gist_cons fun u _ => merges_lines_eq_false h u

lemma isLineBreak_bare (t : Token) : (lines.bare t).kind.isLineBreak = t.kind.isLineBreak := by
  obtain ⟨kind, span, range⟩ := t
  cases kind <;> rfl

/-- The first line of a list. -/
lemma gist_lines_takeWhile (l : List Token) :
    (lines.gist l).takeWhile (!·.kind.isLineBreak) =
      (l.takeWhile (!·.kind.isLineBreak)).map lines.bare := by
  induction l with
  | nil => rfl
  | cons t l ih =>
    by_cases h : t.kind.isLineBreak = true
    · have hhead := lines.head?_gist (t :: l)
      rcases hgist : lines.gist (t :: l) with _ | ⟨u, m⟩
      · simp [hgist] at hhead
      · have hu : u.kind.isLineBreak = true := by
          rw [hgist, List.head?_cons, List.head?_cons, Option.map_some, Option.map_some,
            Option.some.injEq] at hhead
          rw [← TokenKind.isLineBreak_plain, hhead, TokenKind.isLineBreak_plain, h]
        simp [h, hu]
    · have h : t.kind.isLineBreak = false := by simpa using h
      rw [gist_lines_cons h]
      simpa [h, isLineBreak_bare] using ih

/-- What is left of a list behind some tokens of its first line. -/
lemma gist_lines_drop {n : Nat} (h : n ≤ (l.takeWhile (!·.kind.isLineBreak)).length) :
    lines.gist (l.drop n) = (lines.gist l).drop n := by
  induction l generalizing n with
  | nil => simp
  | cons t l ih =>
    rcases n with _ | n
    · rfl
    · by_cases hbreak : t.kind.isLineBreak = true
      · simp [hbreak] at h
      · have hbreak : t.kind.isLineBreak = false := by simpa using hbreak
        rw [gist_lines_cons hbreak, List.drop_succ_cons, List.drop_succ_cons]
        exact ih (by simpa [hbreak] using h)

end Spacing

/-! ### What is written on a line -/

namespace Text

/-- Line breaks are blank, so they may be left out before blanks are or after. -/
lemma filter_dropWhile_isBlank (text : List Char) :
    (text.dropWhile isBlank).filter (· ∉ Text.breaks) =
      (text.filter (· ∉ Text.breaks)).dropWhile isBlank := by
  induction text with
  | nil => rfl
  | cons c text ih =>
    have hbreak : c ∈ Text.breaks → isBlank c = true := by
      simp only [Text.breaks, List.mem_cons, List.not_mem_nil, or_false]
      rintro (rfl | rfl) <;> rfl
    by_cases hblank : isBlank c = true
    · rw [List.dropWhile_cons_of_pos hblank, ih]
      by_cases hc : c ∈ Text.breaks
      · rw [List.filter_cons_of_neg (by simpa using hc)]
      · rw [List.filter_cons_of_pos (by simpa using hc), List.dropWhile_cons_of_pos hblank]
    · have hc : c ∉ Text.breaks := fun hc => hblank (hbreak hc)
      rw [List.dropWhile_cons_of_neg hblank, List.filter_cons_of_pos (by simpa using hc),
        List.dropWhile_cons_of_neg hblank]

lemma unbroken_trim (text : String) : unbroken (trim text) = trim (unbroken text) := by
  simp only [unbroken, trim, trimChars, String.toList_ofList, List.filter_reverse,
    filter_dropWhile_isBlank]

end Text

/-- What a token adds to the text of its line: nothing, if it is a comment. -/
def Token.written (t : Token) : List Char :=
  match t.kind with
  | .comment _ => []
  | kind => kind.text.toList.filter (· ∉ Text.breaks)

lemma Token.written_bare (t : Token) : (Spacing.lines.bare t).written = t.written := by
  obtain ⟨kind, span, range⟩ := t
  cases kind with
  | carriageReturn =>
    simp [written, Spacing.lines, TokenKind.unbroken, TokenKind.text, Text.breaks]
  | invalid text => simp [written, Spacing.lines, TokenKind.unbroken, TokenKind.text, Text.unbroken]
  | _ => rfl

lemma Cursor.unbroken_lineText (c : Cursor) :
    Text.unbroken c.lineText = Text.trim (String.ofList (c.restOfLine.flatMap Token.written)) := by
  rw [lineText, Text.unbroken_trim]
  congr 1
  generalize c.restOfLine = line
  rw [Text.unbroken, ← String.toList_inj, String.toList_ofList, String.toList_ofList]
  induction line with
  | nil => rfl
  | cons t line ih =>
    rw [List.flatMap_cons, ← ih]
    obtain ⟨kind, span, range⟩ := t
    cases kind <;> simp [Token.written, String.join_cons]

/-! ### Adjoining tokens -/

namespace Token

/-- Tokens each of which starts where the one before it ends, the first one at a given place. -/
def Adjoin : Location → List Token → Prop
  | _, [] => True
  | l, t :: later => t.range.start = l ∧ Adjoin t.range.stop later

lemma Adjoin.start_eq {l : Location} {earlier later : List Token} {t u : Token}
    (h : Adjoin l (earlier ++ t :: u :: later)) : u.range.start = t.range.stop := by
  induction earlier generalizing l with
  | nil => exact h.2.1
  | cons v earlier ih => exact ih h.2

end Token

namespace Cursor

variable {σ : Spacing}

/-- Behind another token a token starts where that one ends. -/
lemma startLocation_eq_stopLocation_unshift {c : Cursor} {l : Location}
    (h : Token.Adjoin l c.toList) (hcurrent : c.current?.isSome) (hpos : 1 < c.position) :
    c.startLocation = c.unshift.stopLocation := by
  rcases c with a | ⟨(_ | ⟨t, b⟩), u, a⟩ | b
  · cases hcurrent
  · exact absurd hpos (Nat.lt_irrefl 1)
  · have hlist : (on (t :: b) u a).toList = b.reverse ++ t :: u :: a := by simp
    exact Token.Adjoin.start_eq (hlist ▸ h)
  · cases hcurrent

/-- On the first token a cursor stands at the first place. -/
lemma startLocation_of_position_eq_one {c : Cursor} {l : Location}
    (h : Token.Adjoin l c.toList) (hcurrent : c.current?.isSome) (hpos : c.position = 1) :
    c.startLocation = l := by
  rcases c with a | ⟨(_ | ⟨p, b⟩), u, a⟩ | b
  · cases hcurrent
  · exact h.1
  · simp [position] at hpos
  · cases hcurrent

lemma isLineBreak_of_onLine {c : Cursor} {t : Token} (h : c.OnLine) (ht : c.current? = some t) :
    t.kind.isLineBreak = false := by
  rw [OnLine, here?, kind?, ht, Option.map_some, Option.map_some, ne_eq, Option.some.injEq] at h
  revert h
  cases t.kind <;> simp [TokenKind.plain, TokenKind.isLineBreak]

/-- On a line the current token is kept. -/
lemma gist_ahead_of_onLine {c : Cursor} (hpos : 0 < c.position) (h : c.OnLine) :
    Spacing.lines.gist c.ahead =
      (c.current?.map Spacing.lines.bare).toList ++ Spacing.lines.gist c.remaining := by
  rcases hcurrent : c.current? with _ | t
  · simp [Cursor.ahead, hcurrent, remaining_of_current?_eq_none hpos hcurrent]
  · rw [Cursor.ahead, hcurrent, Option.toList_some, List.singleton_append,
      Spacing.gist_lines_cons (isLineBreak_of_onLine h hcurrent)]
    rfl

lemma ahead_shiftBy {c : Cursor} (hpos : 0 < c.position) (n : Nat) :
    (c.shiftBy n).ahead = c.ahead.drop n := by
  induction n generalizing c with
  | zero => rfl
  | succ n ih =>
    rw [shiftBy, ih (position_shift_pos c)]
    rcases c with a | ⟨b, t, (_ | ⟨u, a⟩)⟩ | b
    · exact absurd hpos (Nat.lt_irrefl 0)
    · simp [Cursor.ahead, Cursor.shift, current?, remaining]
    · simp [Cursor.ahead, Cursor.shift, current?, remaining]
    · simp [Cursor.ahead, Cursor.shift, current?, remaining]

namespace Matches

variable {c c' : Cursor}

lemma onLine (h : c.Matches σ c') (hline : c.OnLine) : c'.OnLine := by
  rwa [OnLine, ← h.here?_eq]

/-- On a line the two cursors stand on tokens of which the same is kept. -/
lemma bare_eq_of_onLine (h : c.Matches .lines c') (hline : c.OnLine) :
    c.current?.map Spacing.lines.bare = c'.current?.map Spacing.lines.bare ∧
      Spacing.lines.gist c.remaining = Spacing.lines.gist c'.remaining := by
  have hahead := h.ahead
  rw [gist_ahead_of_onLine h.pos hline, gist_ahead_of_onLine h.pos' (h.onLine hline)] at hahead
  have hsome := h.current?_isSome_eq
  rcases hcurrent : c.current? with _ | t <;> rcases hcurrent' : c'.current? with _ | t' <;>
    simp only [hcurrent, hcurrent', Option.isSome_none, Option.isSome_some, reduceCtorEq] at hsome
  · simpa [hcurrent, hcurrent'] using hahead
  · simpa [hcurrent, hcurrent'] using hahead

/-- On a line the two cursors stand at the same place. -/
lemma range_eq_of_onLine (h : c.Matches .lines c') (hline : c.OnLine) : c.range = c'.range := by
  obtain ⟨hbare, -⟩ := h.bare_eq_of_onLine hline
  rcases hcurrent : c.current? with _ | t <;> rcases hcurrent' : c'.current? with _ | t' <;>
    simp only [hcurrent, hcurrent', Option.map_none, Option.map_some, reduceCtorEq,
      Option.some.injEq] at hbare
  · have hstop (l : List Token) : l.getLast?.elim Location.origin (·.range.stop) =
        ((l.getLast?.map Spacing.lines.bare).map (·.range.stop)).getD .origin := by
      rcases l.getLast? with _ | t
      · rfl
      · simp only [Spacing.lines, Option.elim_some, Option.map_some, Option.getD_some]
        split <;> rfl
    rw [range, range, hcurrent, hcurrent', last?_eq_getLast? hcurrent,
      last?_eq_getLast? hcurrent']
    simp only [hstop, ← Spacing.getLast?_gist, h.list]
  · have hrange := congrArg Token.range hbare
    simp only [Spacing.lines, isLineBreak_of_onLine hline hcurrent,
      isLineBreak_of_onLine (h.onLine hline) hcurrent', if_false, Bool.false_eq_true] at hrange
    rw [range, range, hcurrent, hcurrent']
    exact hrange

/-- A cursor that stands on the first token, and one behind another token. -/
lemma not_stepBack_fits (h : c.Matches σ c') (hcurrent : c.current?.isSome)
    (hone : c.position = 1) : ¬ Instruction.stepBack.Fits c' := by
  intro hfits
  obtain ⟨-, earlier, t, hlist, -⟩ := exists_previous σ hfits
  have hfirst : c.toList = c.ahead := by
    rcases c with a | ⟨(_ | ⟨p, b⟩), u, a⟩ | b
    · cases hcurrent
    · rfl
    · simp [position] at hone
    · cases hcurrent
  rw [← h.list, hfirst, h.ahead] at hlist
  have hnil : σ.gist (earlier ++ [t]) = [] := List.self_eq_append_left.mp hlist
  simpa using Spacing.gist_eq_nil.mp hnil

/-- Where an error may be placed, it starts at the same place. -/
lemma startLocation_eq_of_placeable (h : c.Matches .lines c')
    (hadjoin : Token.Adjoin .origin c.toList) (hadjoin' : Token.Adjoin .origin c'.toList)
    (hplace : c.Placeable) (hplace' : c'.Placeable) : c.startLocation = c'.startLocation := by
  by_cases hline : c.OnLine
  · rw [startLocation, startLocation, h.range_eq_of_onLine hline]
  have hline' : ¬ c'.OnLine := fun hline' => hline (h.symm.onLine hline')
  -- both stand on a line break, on the first token or directly behind one that is not blank
  have hbreak {c : Cursor} (hline : ¬ c.OnLine) : c.current?.isSome :=
    current?_isSome_of_here? (not_not.mp hline)
  have hfits {c : Cursor} (hline : ¬ c.OnLine) (hpos : 0 < c.position) (hplace : c.Placeable)
      (hone : c.position ≠ 1) : Instruction.stepBack.Fits c :=
    ⟨hbreak hline, by omega, .inr (hplace.resolve_left hline)⟩
  by_cases hone : c.position = 1 <;> by_cases hone' : c'.position = 1
  · rw [startLocation_of_position_eq_one hadjoin (hbreak hline) hone,
      startLocation_of_position_eq_one hadjoin' (hbreak hline') hone']
  · exact absurd (hfits hline' h.pos' hplace' hone')
      (h.not_stepBack_fits (hbreak hline) hone)
  · exact absurd (hfits hline h.pos hplace hone)
      (h.symm.not_stepBack_fits (hbreak hline') hone')
  · have hback := hfits hline h.pos hplace hone
    have hback' := hfits hline' h.pos' hplace' hone'
    have hrange := (h.unshift hback hback').range_eq_of_onLine (hplace.resolve_left hline).onLine
    rw [startLocation_eq_stopLocation_unshift hadjoin hback.1 hback.2.1,
      startLocation_eq_stopLocation_unshift hadjoin' hback'.1 hback'.2.1, stopLocation,
      stopLocation, hrange]

/-- On a line the same is written behind the two cursors. -/
lemma restOfLine_eq (h : c.Matches .lines c') (hline : c.OnLine) :
    c.restOfLine.map Spacing.lines.bare = c'.restOfLine.map Spacing.lines.bare := by
  rw [restOfLine, restOfLine, ← Spacing.gist_lines_takeWhile, ← Spacing.gist_lines_takeWhile,
    (h.bare_eq_of_onLine hline).2]

lemma unbroken_lineText_eq (h : c.Matches .lines c') (hline : c.OnLine) :
    Text.unbroken c.lineText = Text.unbroken c'.lineText := by
  have hwritten (c : Cursor) : c.restOfLine.flatMap Token.written =
      (c.restOfLine.map Spacing.lines.bare).flatMap Token.written := by
    rw [List.flatMap_map]
    simp only [Token.written_bare]
  rw [unbroken_lineText, unbroken_lineText, hwritten c, hwritten c', h.restOfLine_eq hline]

lemma toEndOfLine (h : c.Matches .lines c') (hline : c.OnLine) :
    c.toEndOfLine.Matches .lines c'.toEndOfLine := by
  have hdrop {c : Cursor} (hpos : 0 < c.position) (hline : c.OnLine) :
      Spacing.lines.gist c.toEndOfLine.ahead =
        (Spacing.lines.gist c.ahead).drop (c.restOfLine.map Spacing.lines.bare).length := by
    rw [Cursor.toEndOfLine, ahead_shiftBy hpos, List.length_map]
    refine Spacing.gist_lines_drop ?_
    rcases hcurrent : c.current? with _ | t
    · simp [restOfLine, remaining_of_current?_eq_none hpos hcurrent]
    · simp [Cursor.ahead, hcurrent, isLineBreak_of_onLine hline hcurrent, restOfLine]
  refine h.of_ahead (toList_toEndOfLine c) (toList_toEndOfLine c')
    (h.pos.trans_le (position_le_toEndOfLine c)) (h.pos'.trans_le (position_le_toEndOfLine c')) ?_
  rw [hdrop h.pos hline, hdrop h.pos' (h.onLine hline), h.ahead, h.restOfLine_eq hline]

end Matches

end Cursor

/-- Lists of adjoining tokens with other line breaks: places and lines look the same where they
may be asked for. -/
theorem Spacing.coupling_lines {tokens tokens' : List Token}
    (h : Token.Adjoin .origin tokens) (h' : Token.Adjoin .origin tokens') :
    Coupling .lines (Cursor.MatchesIn .lines tokens tokens') := by
  refine Spacing.coupling (fun c c' hmatch hline _ => ?_) (fun c c' hmatch hplace hplace' kind => ?_)
    fun c c' hmatch hfits hfits' => ?_
  · have hrange := hmatch.1.range_eq_of_onLine hline
    rw [Cursor.startLocation, Cursor.startLocation, Cursor.stopLocation, Cursor.stopLocation, hrange]
    exact ⟨rfl, rfl⟩
  · obtain ⟨hmatch, rfl, rfl⟩ := hmatch
    have hstart := hmatch.startLocation_eq_of_placeable h h' hplace hplace'
    rw [Cursor.startLocation, Cursor.startLocation] at hstart
    simp only [ParseError.view, Cursor.error, hstart]
  · exact ⟨hmatch.1.unbroken_lineText_eq hfits.1, hmatch.1.toEndOfLine hfits.1⟩

end FrontEnd
