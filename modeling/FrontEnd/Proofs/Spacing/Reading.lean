/-
Lists that count alike are read alike.

* `Parser.readTokens_alike_of_gist_eq`: two lists of tokens with the same gist are read alike
  through a view that shows the same places and lines in both.
* `Parser.readTokens_respaced`: more or less blank between the tokens, or comments in place of
  it, make no difference but for ranges, as long as there are no directives.
-/
import FrontEnd.Proofs.Spacing.Cursor

namespace FrontEnd

namespace Cursor

/-- Two cursors in given lists that match. -/
def MatchesIn (σ : Spacing) (tokens tokens' : List Token) (c c' : Cursor) : Prop :=
  c.Matches σ c' ∧ c.toList = tokens ∧ c'.toList = tokens'

/-- Two cursors in given lists that match once they have passed over blanks. -/
structure Nears (σ : Spacing) (tokens tokens' : List Token) (c c' : Cursor) : Prop where
  pos : 0 < c.position
  pos' : 0 < c'.position
  list : c.toList = tokens
  list' : c'.toList = tokens'
  ahead : σ.gist (dropBlanks c.ahead) = σ.gist (dropBlanks c'.ahead)

/-- A cursor passes over the blanks ahead. -/
lemma exists_drifts {c : Cursor} (hpos : 0 < c.position) :
    ∃ d, c.Drifts d ∧ d.toList = c.toList ∧ 0 < d.position ∧ d.ahead = dropBlanks c.ahead := by
  rcases c with a | ⟨b, t, a⟩ | b
  · exact absurd hpos (Nat.lt_irrefl 0)
  · induction a generalizing b t with
    | nil =>
      by_cases ht : t.isBlank = true
      · refine ⟨finish (t :: b), .single ⟨t, rfl, ht, rfl⟩, by simp, Nat.succ_pos _, ?_⟩
        simp [dropBlanks, ahead, current?, remaining, ht]
      · refine ⟨on b t [], .refl, rfl, hpos, ?_⟩
        simp [dropBlanks, ahead, current?, remaining, ht]
    | cons next a ih =>
      by_cases ht : t.isBlank = true
      · obtain ⟨d, hdrifts, hlist, hdpos, hahead⟩ := ih (t :: b) next (Nat.succ_pos _)
        refine ⟨d, .head ⟨t, rfl, ht, rfl⟩ hdrifts, by simpa using hlist, hdpos, ?_⟩
        rw [hahead]
        simp [dropBlanks, ahead, current?, remaining, ht]
      · refine ⟨on b t (next :: a), .refl, rfl, hpos, ?_⟩
        simp [dropBlanks, ahead, current?, remaining, ht]
  · exact ⟨finish b, .refl, rfl, hpos, rfl⟩

end Cursor

section

variable {σ : Spacing} {v : View} {tokens tokens' : List Token}

open Cursor

/-- Matching cursors are coupled where the places and lines that may be asked for look
alike. -/
lemma Spacing.coupling
    (hplace : ∀ c c', MatchesIn σ tokens tokens' c c' → c.OnLine → c'.OnLine →
      v.place c.startLocation = v.place c'.startLocation ∧
        v.place c.stopLocation = v.place c'.stopLocation)
    (herror : ∀ c c', MatchesIn σ tokens tokens' c c' → c.Placeable → c'.Placeable →
      ∀ kind, (c.error kind).view v = (c'.error kind).view v)
    (hline : ∀ c c', MatchesIn σ tokens tokens' c c' → Instruction.takeLine.Fits c →
      Instruction.takeLine.Fits c' →
      v.text c.lineText = v.text c'.lineText ∧ c.toEndOfLine.Matches σ c'.toEndOfLine) :
    Coupling v (MatchesIn σ tokens tokens') where
  answer {c c'} h i hfits hfits' := by
    have hmatches := h.1
    cases i with
    | here => exact hmatches.here?_eq
    | glued n => exact hmatches.glued?_eq hfits hfits'
    | following reach =>
      cases reach with
      | sameLine => exact hmatches.following?_eq (.inr hfits)
      | anyLine => exact hmatches.following?_eq (.inl rfl)
    | binaryAhead => exact hmatches.binaryAhead?_eq hfits hfits'
    | startsDeclaration => exact hmatches.startsDeclaration_eq
    | startLocation => exact (hplace c c' h hfits hfits').1
    | stopLocation => exact (hplace c c' h hfits hfits').2
    | errorHere kind => exact herror c c' h hfits.2 hfits'.2 kind
    | stepBack => exact hmatches.current?_isSome_eq
    | takeLine => exact (hline c c' h hfits hfits').1
    | shift | advance _ | resynchronize => rfl
  moved {c c'} h i hfits hfits' := by
    have hmatches := h.1
    refine ⟨?_, (i.toList_perform c).trans h.2.1, (i.toList_perform c').trans h.2.2⟩
    cases i with
    | shift => exact hmatches.shift hfits hfits'
    | advance reach =>
      cases reach with
      | sameLine => exact hmatches.advance (.inr hfits)
      | anyLine => exact hmatches.advance (.inl rfl)
    | stepBack => exact hmatches.unshift hfits hfits'
    | resynchronize => exact hmatches.resynchronize hfits hfits'
    | takeLine => exact (hline c c' h hfits hfits').2
    | here | glued _ | following _ | binaryAhead | startsDeclaration | startLocation | stopLocation
    | errorHere _ => exact hmatches

/-- Two lists with the same gist are read alike. -/
theorem Parser.readTokens_alike_of_gist_eq (p : Parser) (hgist : σ.gist tokens = σ.gist tokens')
    (hC : Coupling v (MatchesIn σ tokens tokens')) :
    (p.readTokens tokens).root.declarations.map (·.view v) =
        (p.readTokens tokens').root.declarations.map (·.view v) ∧
      (p.readTokens tokens).errors.map (·.view v) = (p.readTokens tokens').errors.map (·.view v) := by
  have hblank (t u : Token) (h : t.kind.plain = u.kind.plain) : t.isBlank = u.isBlank := by
    have hplain := congrArg TokenKind.isBlank h
    simpa [Token.isBlank] using hplain
  refine p.readTokens_alike hC (fun c c' h => ⟨h.1.pos, h.1.pos'⟩)
    (D := Nears σ tokens tokens') (fun c c' h => ?_) (fun c c' h => ?_) ?_
  · obtain ⟨d, hd, hlist, hpos, hahead⟩ := exists_drifts h.pos
    obtain ⟨d', hd', hlist', hpos', hahead'⟩ := exists_drifts h.pos'
    rw [h.list] at hlist
    rw [h.list'] at hlist'
    refine ⟨d, d', hd, hd', ⟨hpos, hpos', ?_, ?_⟩, hlist, hlist'⟩
    · rw [hlist, hlist', hgist]
    · rw [hahead, hahead', h.ahead]
  · refine ⟨position_shift_pos c, position_shift_pos c', (toList_shift c).trans h.2.1,
      (toList_shift c').trans h.2.2, ?_⟩
    rw [shift_eq_land, shift_eq_land, ahead_land, ahead_land]
    exact h.1.gist_dropWhile_remaining (.inl rfl)
  · refine ⟨position_shift_pos _, position_shift_pos _, by simp, by simp, ?_⟩
    rw [shift_eq_land, shift_eq_land, ahead_land, ahead_land, dropBlanks, dropBlanks,
      Spacing.gist_dropWhile hblank, Spacing.gist_dropWhile hblank]
    exact congrArg (List.dropWhile Token.isBlank) hgist

end

/-! ### More or less blank -/

/-- Two lists of tokens with blanks in the same gaps: their other tokens have the same kinds in
the same order, and between two of them, in front of them and behind them there are blanks in
both lists or in neither. -/
inductive Respaced : List Token → List Token → Prop where
  | nil : Respaced [] []
  | token {t t' : Token} {l l' : List Token} (hkind : t.kind = t'.kind)
      (hblank : t.isInlineBlank = false) (h : Respaced l l') : Respaced (t :: l) (t' :: l')
  | gap {blanks blanks' l l' : List Token} (hne : blanks ≠ []) (hne' : blanks' ≠ [])
      (hblanks : ∀ t ∈ blanks, t.isInlineBlank = true)
      (hblanks' : ∀ t ∈ blanks', t.isInlineBlank = true) (h : Respaced l l') :
      Respaced (blanks ++ l) (blanks' ++ l')

lemma TokenKind.plain_of_isInlineBlank {kind : TokenKind} (h : kind.isInlineBlank = true) :
    kind.plain = .whitespace := by
  cases kind <;> simp [isInlineBlank] at h <;> rfl

namespace Spacing

/-- Blanks on a line count as one, and places do not count. -/
def blanks : Spacing where
  merges t u := t.isInlineBlank && u.isInlineBlank
  bare t := ⟨t.kind.plain, default, default⟩
  isBlank_of_merges t u h := by
    rw [Bool.and_eq_true] at h
    exact (Bool.or_eq_true _ _).mpr (.inl h.1)
  plain_of_merges t u h := by
    rw [Bool.and_eq_true] at h
    rw [TokenKind.plain_of_isInlineBlank h.1, TokenKind.plain_of_isInlineBlank h.2]
  plain_bare t := by
    obtain ⟨kind, span, range⟩ := t
    cases kind <;> rfl

/-- A run of blanks counts as one blank, or not at all where more blanks follow. -/
lemma gist_blanks_append {run l : List Token} (hne : run ≠ [])
    (hrun : ∀ t ∈ run, t.isInlineBlank = true) :
    blanks.gist (run ++ l) =
      if l.head?.any Token.isInlineBlank then blanks.gist l
      else ⟨.whitespace, default, default⟩ :: blanks.gist l := by
  induction run with
  | nil => exact absurd rfl hne
  | cons t run ih =>
    have ht : t.isInlineBlank = true := hrun t List.mem_cons_self
    have hmerges (u : Token) : blanks.merges t u = u.isInlineBlank := by
      simp [blanks, ht]
    rcases run with _ | ⟨u, run⟩
    · have hbare : blanks.bare t = ⟨.whitespace, default, default⟩ := by
        simp [blanks, TokenKind.plain_of_isInlineBlank ht]
      rw [List.singleton_append, gist, hbare]
      exact if_congr (by rw [show blanks.merges t = Token.isInlineBlank from funext hmerges]) rfl rfl
    · have hu : u.isInlineBlank = true := hrun u (by simp)
      rw [List.cons_append, List.cons_append, gist_cons_of_merges (by rw [hmerges, hu])]
      exact ih (by simp) fun t ht => hrun t (List.mem_cons_of_mem _ ht)

end Spacing

lemma Respaced.gist_eq {l l' : List Token} (h : Respaced l l') :
    Spacing.blanks.gist l = Spacing.blanks.gist l' := by
  induction h with
  | nil => rfl
  | @token t t' l l' hkind hblank h ih =>
    have hkept {t : Token} (hblank : t.isInlineBlank = false) (u : Token) :
        Spacing.blanks.merges t u = false := by
      simp [Spacing.blanks, hblank]
    have hblank' : t'.isInlineBlank = false := by rwa [Token.isInlineBlank, ← hkind]
    rw [Spacing.gist_cons fun u _ => hkept hblank u, Spacing.gist_cons fun u _ => hkept hblank' u,
      ih]
    simp [Spacing.blanks, hkind]
  | @gap blanks blanks' l l' hne hne' hblanks hblanks' h ih =>
    have hinline (t u : Token) (h : t.kind.plain = u.kind.plain) :
        t.isInlineBlank = u.isInlineBlank := by
      have hplain := congrArg TokenKind.isInlineBlank h
      simpa [Token.isInlineBlank] using hplain
    have hhead : l.head?.any Token.isInlineBlank = l'.head?.any Token.isInlineBlank := by
      rw [← (Spacing.any_head?_gist (σ := .blanks) hinline l).1, ih,
        (Spacing.any_head?_gist hinline l').1]
    rw [Spacing.gist_blanks_append hne hblanks, Spacing.gist_blanks_append hne' hblanks', hhead,
      ih]

/-- Lists of tokens without directives that differ in their blanks only are read to the same
tree but for its ranges, with the same causes of errors in the same order.  There may be more
blanks in a gap, or comments in place of them. -/
theorem Parser.readTokens_respaced (p : Parser) {tokens tokens' : List Token}
    (h : Respaced tokens tokens') (hhash : ∀ t ∈ tokens, t.kind ≠ .punctuator .hash) :
    (p.readTokens tokens).root.declarations.map (·.view .placeless) =
        (p.readTokens tokens').root.declarations.map (·.view .placeless) ∧
      (p.readTokens tokens).errors.map (·.kind) = (p.readTokens tokens').errors.map (·.kind) := by
  have hC : Coupling .placeless (Cursor.MatchesIn Spacing.blanks tokens tokens') := by
    refine Spacing.coupling (fun _ _ _ _ _ => ⟨rfl, rfl⟩) (fun _ _ _ _ _ _ => rfl)
      fun c c' h hfits _ => ?_
    obtain ⟨t, ht, hkind⟩ := hfits.2
    exact absurd hkind (hhash t (h.2.1 ▸ ht))
  obtain ⟨hdeclarations, herrors⟩ := p.readTokens_alike_of_gist_eq h.gist_eq hC
  refine ⟨hdeclarations, ?_⟩
  have hkinds := congrArg (List.map ParseError.kind) herrors
  simpa [Function.comp_def] using hkinds

/-- A comment may stand in front of the blank between two words. -/
theorem Parser.readTokens_respaced_comment :
    Respaced (Token.ofText "let x") (Token.ofText "let/* */ x") ∧
      (∀ t ∈ Token.ofText "let x", t.kind ≠ .punctuator .hash) ∧
      (Parser.readTokens {} (Token.ofText "let x")).root.declarations.map (·.view .placeless) =
        (Parser.readTokens {} (Token.ofText "let/* */ x")).root.declarations.map
          (·.view .placeless) ∧
      (Parser.readTokens {} (Token.ofText "let x")).errors.map (·.kind) =
        (Parser.readTokens {} (Token.ofText "let/* */ x")).errors.map (·.kind) := by
  have htokens : Token.ofText "let x" =
      [⟨.keyword "let" .declaration, ⟨0, 3⟩, ⟨⟨1, 1⟩, ⟨1, 4⟩⟩⟩,
        ⟨.whitespace, ⟨3, 4⟩, ⟨⟨1, 4⟩, ⟨1, 5⟩⟩⟩,
        ⟨.identifier "x", ⟨4, 5⟩, ⟨⟨1, 5⟩, ⟨1, 6⟩⟩⟩] := by decide +kernel
  have htokens' : Token.ofText "let/* */ x" =
      [⟨.keyword "let" .declaration, ⟨0, 3⟩, ⟨⟨1, 1⟩, ⟨1, 4⟩⟩⟩,
        ⟨.comment "/* */", ⟨3, 8⟩, ⟨⟨1, 4⟩, ⟨1, 9⟩⟩⟩,
        ⟨.whitespace, ⟨8, 9⟩, ⟨⟨1, 9⟩, ⟨1, 10⟩⟩⟩,
        ⟨.identifier "x", ⟨9, 10⟩, ⟨⟨1, 10⟩, ⟨1, 11⟩⟩⟩] := by decide +kernel
  have hrespaced : Respaced (Token.ofText "let x") (Token.ofText "let/* */ x") := by
    rw [htokens, htokens']
    refine .token rfl rfl (@Respaced.gap [_] [_, _] _ _ ?_ ?_ ?_ ?_ (.token rfl rfl .nil))
    · simp
    · simp
    · simp [Token.isInlineBlank, TokenKind.isInlineBlank]
    · simp [Token.isInlineBlank, TokenKind.isInlineBlank]
  have hhash : ∀ t ∈ Token.ofText "let x", t.kind ≠ .punctuator .hash := by decide +kernel
  exact ⟨hrespaced, hhash, Parser.readTokens_respaced {} hrespaced hhash⟩

end FrontEnd
