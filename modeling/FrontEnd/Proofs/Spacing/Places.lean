/-
Lists with other places.

Two lists of tokens with the same kinds in the same order are read to the same tree but for its
ranges, whatever the tokens are: `Parser.readTokens_displaced`.  Even directives, which take up what
is written on a line, only ask for the kinds.
-/
import FrontEnd.Proofs.Spacing.Reading

namespace FrontEnd

/-- All tokens count, and their places do not. -/
def Spacing.unplaced : Spacing where
  merges _ _ := false
  bare t := ⟨t.kind, default, default⟩
  isBlank_of_merges _ _ h := absurd h Bool.false_ne_true
  plain_of_merges _ _ h := absurd h Bool.false_ne_true
  plain_bare _ := rfl

namespace Spacing

lemma gist_unplaced (tokens : List Token) : unplaced.gist tokens = tokens.map unplaced.bare := by
  induction tokens with
  | nil => rfl
  | cons t tokens ih => rw [gist_cons fun _ _ => rfl, ih, List.map_cons]

/-- What counts of a list without places are its kinds. -/
lemma gist_unplaced_eq_iff {tokens tokens' : List Token} :
    unplaced.gist tokens = unplaced.gist tokens' ↔ tokens.map (·.kind) = tokens'.map (·.kind) := by
  have hbare : unplaced.bare = (fun kind => ⟨kind, default, default⟩) ∘ Token.kind := rfl
  have hinjective : Function.Injective fun kind => (⟨kind, default, default⟩ : Token) :=
    fun _ _ h => congrArg Token.kind h
  rw [gist_unplaced, gist_unplaced, hbare, ← List.map_map, ← List.map_map]
  exact hinjective.list_map.eq_iff

end Spacing

namespace Cursor.Matches

variable {c c' : Cursor}

lemma map_kind_remaining (h : c.Matches .unplaced c') :
    c.remaining.map (·.kind) = c'.remaining.map (·.kind) := by
  have htail {c : Cursor} (hpos : 0 < c.position) : c.remaining = c.ahead.tail := by
    rcases hcurrent : c.current? with _ | t
    · simp [Cursor.ahead, hcurrent, remaining_of_current?_eq_none hpos hcurrent]
    · simp [Cursor.ahead, hcurrent]
  have hahead := Spacing.gist_unplaced_eq_iff.mp h.ahead
  rw [htail h.pos, htail h.pos', List.map_tail, List.map_tail, hahead]

/-- Without places the two go on side by side from everywhere. -/
lemma shiftBy_unplaced (h : c.Matches .unplaced c') (n : Nat) :
    (c.shiftBy n).Matches .unplaced (c'.shiftBy n) := by
  induction n generalizing c c' with
  | zero => exact h
  | succ n ih =>
    refine ih (h.of_ahead (toList_shift c) (toList_shift c') (position_shift_pos c)
      (position_shift_pos c') (Spacing.gist_unplaced_eq_iff.mpr ?_))
    rw [shift_eq_land, shift_eq_land, ahead_land, ahead_land, h.map_kind_remaining]

lemma map_kind_restOfLine (h : c.Matches .unplaced c') :
    c.restOfLine.map (·.kind) = c'.restOfLine.map (·.kind) := by
  have hline (c : Cursor) : c.restOfLine.map (·.kind) =
      (c.remaining.map (·.kind)).takeWhile fun kind => !kind.isLineBreak := by
    rw [List.takeWhile_map]
    rfl
  rw [hline, hline, h.map_kind_remaining]

/-- What is written on a line hangs on the kinds of its tokens. -/
lemma lineText_unplaced (h : c.Matches .unplaced c') : c.lineText = c'.lineText := by
  have hkinds := h.map_kind_restOfLine
  rw [Cursor.lineText, Cursor.lineText]
  congr 2
  generalize c.restOfLine = line at hkinds
  generalize c'.restOfLine = line' at hkinds
  induction line generalizing line' with
  | nil =>
    obtain rfl : line' = [] := by simpa using hkinds.symm
    rfl
  | cons t line ih =>
    obtain ⟨u, line', rfl, hu, hline⟩ := List.map_eq_cons_iff.mp hkinds.symm
    have hlater := ih line' hline.symm
    simp only [List.filter_cons, hu]
    split
    · exact hlater
    · rw [if_pos rfl, if_pos rfl, List.map_cons, List.map_cons, hlater, hu]

lemma toEndOfLine_unplaced (h : c.Matches .unplaced c') :
    c.toEndOfLine.Matches .unplaced c'.toEndOfLine := by
  have hlength : c.restOfLine.length = c'.restOfLine.length := by
    simpa using congrArg List.length h.map_kind_restOfLine
  rw [Cursor.toEndOfLine, Cursor.toEndOfLine, hlength]
  exact h.shiftBy_unplaced _

end Cursor.Matches

/-- Lists of tokens of the same kinds are read to the same tree but for its ranges, with the same
causes of errors in the same order. -/
theorem Parser.readTokens_displaced (p : Parser) {tokens tokens' : List Token}
    (h : tokens.map (·.kind) = tokens'.map (·.kind)) :
    (p.readTokens tokens).root.declarations.map (·.view .placeless) =
        (p.readTokens tokens').root.declarations.map (·.view .placeless) ∧
      (p.readTokens tokens).errors.map (·.kind) = (p.readTokens tokens').errors.map (·.kind) := by
  have hC : Coupling .placeless (Cursor.MatchesIn Spacing.unplaced tokens tokens') :=
    Spacing.coupling (fun _ _ _ _ _ => ⟨rfl, rfl⟩) (fun _ _ _ _ _ _ => rfl)
      fun c c' hmatches _ _ => ⟨congrArg _ hmatches.1.lineText_unplaced,
        hmatches.1.toEndOfLine_unplaced⟩
  obtain ⟨hdeclarations, herrors⟩ :=
    p.readTokens_alike_of_gist_eq (Spacing.gist_unplaced_eq_iff.mpr h) hC
  refine ⟨hdeclarations, ?_⟩
  have hkinds := congrArg (List.map ParseError.kind) herrors
  simpa [Function.comp_def] using hkinds

end FrontEnd
