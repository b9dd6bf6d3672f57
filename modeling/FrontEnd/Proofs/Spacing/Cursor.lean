/-
Cursors in lists that count alike.

Two cursors that stand behind the start of lists of one gist, with the same gist ahead of
them, answer alike what the grammar may ask there, and lead to two such cursors again
(`Cursor.Matches.perform`).  Only places and the text of a line are left to the spacing at
hand.
-/
import FrontEnd.Proofs.Cursor.Segment
import FrontEnd.Proofs.Footing.Words
import FrontEnd.Proofs.Spacing.Gist
import FrontEnd.Proofs.View.Simulation

namespace FrontEnd

namespace Cursor

/-- Two cursors behind the start of their lists, which count alike, as do the tokens ahead. -/
structure Matches (σ : Spacing) (c c' : Cursor) : Prop where
  pos : 0 < c.position
  pos' : 0 < c'.position
  list : σ.gist c.toList = σ.gist c'.toList
  ahead : σ.gist c.ahead = σ.gist c'.ahead

variable {σ : Spacing} {c c' : Cursor}

lemma head?_ahead (h : 0 < c.position) : c.ahead.head? = c.current? := by
  rcases c with a | ⟨b, t, a⟩ | b
  · exact absurd h (Nat.lt_irrefl 0)
  · rfl
  · rfl

lemma remaining_of_current?_eq_none (hpos : 0 < c.position) (h : c.current? = none) :
    c.remaining = [] := by
  rcases c with a | ⟨b, t, a⟩ | b
  · exact absurd hpos (Nat.lt_irrefl 0)
  · cases h
  · rfl

lemma isBlank_of_current? {t : Token} (h : c.current? = some t) (hclear : c.Clear) :
    t.isBlank = false := by
  have hblank := hclear t.kind.plain (by simp [here?, kind?, h])
  rwa [TokenKind.isBlank_plain] at hblank

/-- A search from a token that it passes may as well start there. -/
lemma dropWhile_remaining {reach : Reach} (hclear : ¬ c.Clear)
    (hline : reach = .anyLine ∨ c.OnLine) :
    c.remaining.dropWhile (fun t => reach.passes t.kind) =
      c.ahead.dropWhile fun t => reach.passes t.kind := by
  rcases hcurrent : c.current? with _ | t
  · exact absurd (clear_of_here?_eq_none (by simp [here?, kind?, hcurrent])) hclear
  have hhere : c.here? = some t.kind.plain := by simp [here?, kind?, hcurrent]
  have hblank : t.kind.isBlank = true := by
    by_contra hblank
    exact hclear (clear_of_here? hhere (by simpa using hblank))
  have hpasses : reach.passes t.kind = true := by
    cases reach
    · have honline : c.OnLine := hline.resolve_left (by simp)
      rw [OnLine, hhere] at honline
      rw [Reach.passes]
      revert hblank honline
      cases t.kind <;> simp [TokenKind.isBlank, TokenKind.isInlineBlank, TokenKind.isLineBreak,
        TokenKind.plain]
    · exact hblank
  rw [Cursor.ahead, hcurrent, Option.toList_some, List.singleton_append, List.dropWhile_cons,
    if_pos hpasses]

/-- What stands in front of a cursor that may step back. -/
lemma exists_previous (σ : Spacing) (hfits : Instruction.stepBack.Fits c) :
    0 < c.unshift.position ∧ ∃ earlier t,
      σ.gist c.toList = σ.gist (earlier ++ [t]) ++ σ.gist c.ahead ∧
      σ.gist c.unshift.ahead = σ.bare t :: σ.gist c.ahead := by
  obtain ⟨hcurrent, hpos, hclear⟩ := hfits
  rcases c with a | ⟨(_ | ⟨t, b⟩), u, a⟩ | b
  · cases hcurrent
  · exact absurd hpos (Nat.lt_irrefl 1)
  · have hkept : σ.merges t u = false := by
      rcases hclear with hclear | hclear
      · by_contra hmerges
        have hplain := σ.plain_of_merges t u (by simpa using hmerges)
        have hblank := σ.isBlank_of_merges t u (by simpa using hmerges)
        have hu : u.isBlank = false := isBlank_of_current? rfl hclear
        rw [Token.isBlank, ← TokenKind.isBlank_plain] at hblank hu
        rw [hplain, hu] at hblank
        cases hblank
      · exact Spacing.merges_eq_false (isBlank_of_current? rfl hclear) u
    refine ⟨Nat.succ_pos _, b.reverse, t, ?_, ?_⟩
    · rw [← Spacing.gist_append]
      · simp [Cursor.ahead, current?, remaining]
      · simpa [Cursor.ahead, current?] using hkept
    · refine Spacing.gist_cons (l := u :: a) fun u' hu' => ?_
      rwa [← Option.mem_some_iff.mp hu']
  · cases hcurrent

lemma position_land (behind tokens : List Token) :
    (land behind tokens).position = behind.length + 1 := by
  cases tokens <;> rfl

/-- A boundary that closes the block is a brace, and the cursor stops before it. -/
lemma stop_eq {depth : Nat} {t : Token} {closes : Bool}
    (h : seekBoundary.boundary? depth t.kind = some closes) (b a : List Token) :
    seekBoundary.stop closes b t a =
      if (on b t a).here? = some (.punctuator .rightBrace) then (on b t a).unshift
      else on b t a := by
  obtain ⟨kind, span, range⟩ := t
  rcases depth with _ | depth
  · cases kind with
    | punctuator mark =>
      cases mark <;> simp [seekBoundary.boundary?] at h <;> subst h <;>
        simp [seekBoundary.stop, here?, kind?, current?, TokenKind.plain]
    | lineFeed | carriageReturn =>
      simp [seekBoundary.boundary?] at h
      subst h
      simp [seekBoundary.stop, here?, kind?, current?, TokenKind.plain]
    | _ => simp [seekBoundary.boundary?] at h
  · simp [seekBoundary.boundary?] at h

/-- On the way to the next boundary the cursor passes what stands before it, and it stops
before a brace. -/
lemma seekBoundary_eq (depth : Nat) (b : List Token) (t : Token) (a : List Token) :
    ∃ passed, t :: a = passed ++ fromBoundary depth (t :: a) ∧
      seekBoundary depth b t a =
        if (land (passed.reverse ++ b) (fromBoundary depth (t :: a))).here? =
            some (.punctuator .rightBrace) then
          (land (passed.reverse ++ b) (fromBoundary depth (t :: a))).unshift
        else land (passed.reverse ++ b) (fromBoundary depth (t :: a)) := by
  induction a generalizing depth b t with
  | nil =>
    rw [seekBoundary, fromBoundary]
    rcases h : seekBoundary.boundary? depth t.kind with _ | closes
    · exact ⟨[t], rfl, rfl⟩
    · exact ⟨[], rfl, stop_eq h b []⟩
  | cons next a ih =>
    rw [seekBoundary, fromBoundary]
    rcases h : seekBoundary.boundary? depth t.kind with _ | closes
    · obtain ⟨passed, hlist, hseek⟩ :=
        ih (seekBoundary.depthAfter depth t.kind) (t :: b) next
      refine ⟨t :: passed, ?_, ?_⟩
      · simpa using hlist
      · simpa using hseek
    · exact ⟨[], rfl, stop_eq h b (next :: a)⟩

/-- Where the next boundary is, and how the cursor comes to stand there. -/
lemma exists_boundary (hpos : 0 < c.position) (hfits : Instruction.resynchronize.Fits c) :
    ∃ d : Cursor, d.toList = c.toList ∧ 0 < d.position ∧ d.ahead = fromBoundary 0 c.ahead ∧
      (d.here? = some (.punctuator .rightBrace) → Instruction.stepBack.Fits d) ∧
      c.resynchronize = if d.here? = some (.punctuator .rightBrace) then d.unshift else d := by
  rcases c with a | ⟨b, t, a⟩ | b
  · exact absurd hpos (Nat.lt_irrefl 0)
  · obtain ⟨passed, hlist, heq⟩ := seekBoundary_eq 0 b t a
    refine ⟨land (passed.reverse ++ b) (fromBoundary 0 (t :: a)), ?_, ?_, ahead_land _ _,
      fun hhere => ⟨current?_isSome_of_here? hhere, ?_, .inl (clear_of_here? hhere rfl)⟩, heq⟩
    · rw [toList_eq_append, ahead_land, behind_land, List.reverse_append, List.reverse_reverse,
        List.append_assoc, ← hlist, toList_on]
    · rw [position_land]
      exact Nat.succ_pos _
    · rcases passed with _ | ⟨u, passed⟩
      · rw [List.nil_append] at hlist
        rw [← hlist] at hhere ⊢
        exact hfits hhere
      · rw [position_land, List.length_append, List.length_reverse, List.length_cons]
        omega
  · exact ⟨finish b, rfl, hpos, rfl, fun h => by simp [here?, kind?, current?] at h,
      by simp [here?, kind?, current?, Cursor.resynchronize]⟩

namespace Matches

lemma symm (h : c.Matches σ c') : c'.Matches σ c :=
  ⟨h.pos', h.pos, h.list.symm, h.ahead.symm⟩

/-- Two cursors in the lists of matching ones, with the same gist ahead. -/
lemma of_ahead (h : c.Matches σ c') {d d' : Cursor} (hd : d.toList = c.toList)
    (hd' : d'.toList = c'.toList) (hpos : 0 < d.position) (hpos' : 0 < d'.position)
    (hahead : σ.gist d.ahead = σ.gist d'.ahead) : d.Matches σ d' :=
  ⟨hpos, hpos', by rw [hd, hd', h.list], hahead⟩

lemma here?_eq (h : c.Matches σ c') : c.here? = c'.here? := by
  have hhead {c : Cursor} (hpos : 0 < c.position) :
      c.here? = (σ.gist c.ahead).head?.map (·.kind.plain) := by
    rw [σ.head?_gist, head?_ahead hpos, here?, kind?, Option.map_map]
    rfl
  rw [hhead h.pos, hhead h.pos', h.ahead]

lemma current?_isSome_eq (h : c.Matches σ c') : c.current?.isSome = c'.current?.isSome := by
  have hsome := congrArg Option.isSome h.here?_eq
  simpa [here?, kind?] using hsome

lemma startsDeclaration_eq (h : c.Matches σ c') :
    c.startsDeclaration = c'.startsDeclaration := by
  change HeaderPlace.head.leadsOn c.ahead = HeaderPlace.head.leadsOn c'.ahead
  rw [← σ.leadsOn_gist, h.ahead, σ.leadsOn_gist]

/-- From tokens that are not blank the rest counts alike too. -/
lemma gist_remaining (h : c.Matches σ c') (hclear : c.Clear) (hclear' : c'.Clear) :
    σ.gist c.remaining = σ.gist c'.remaining := by
  have hrest {c : Cursor} (hpos : 0 < c.position) (hclear : c.Clear) :
      σ.gist c.remaining = (σ.gist c.ahead).tail := by
    rcases hcurrent : c.current? with _ | t
    · simp [Cursor.ahead, hcurrent, remaining_of_current?_eq_none hpos hcurrent]
    · rw [Cursor.ahead, hcurrent, Option.toList_some, List.singleton_append,
        Spacing.gist_cons_of_not_isBlank (isBlank_of_current? hcurrent hclear), List.tail_cons]
  rw [hrest h.pos hclear, hrest h.pos' hclear', h.ahead]

/-- What a search finds does not hang on whether it starts with a token that it passes. -/
lemma gist_dropWhile_remaining (h : c.Matches σ c') {reach : Reach}
    (hline : reach = .anyLine ∨ c.OnLine) :
    σ.gist (c.remaining.dropWhile fun t => reach.passes t.kind) =
      σ.gist (c'.remaining.dropWhile fun t => reach.passes t.kind) := by
  by_cases hclear : c.Clear
  · have hclear' : c'.Clear := by rwa [Clear, ← h.here?_eq]
    rw [Spacing.gist_dropWhile fun t u => reach.passes_congr,
      Spacing.gist_dropWhile fun t u => reach.passes_congr, h.gist_remaining hclear hclear']
  · have hclear' : ¬ c'.Clear := by rwa [Clear, ← h.here?_eq]
    have hline' : reach = .anyLine ∨ c'.OnLine := by rwa [OnLine, ← h.here?_eq]
    rw [dropWhile_remaining hclear hline, dropWhile_remaining hclear' hline',
      Spacing.gist_dropWhile fun t u => reach.passes_congr,
      Spacing.gist_dropWhile fun t u => reach.passes_congr, h.ahead]

/-! ### Questions -/

lemma following?_eq (h : c.Matches σ c') {reach : Reach} (hline : reach = .anyLine ∨ c.OnLine) :
    c.following? reach = c'.following? reach := by
  have hfollowing (c : Cursor) : c.following? reach =
      (σ.gist (c.remaining.dropWhile fun t => reach.passes t.kind)).head?.map (·.kind.plain) := by
    rw [σ.head?_gist, ← find?_not_eq_head?_dropWhile, following?, next?]
  rw [hfollowing c, hfollowing c', h.gist_dropWhile_remaining hline]

lemma glued?_eq (h : c.Matches σ c') {n : Nat} (hfits : (Instruction.glued n).Fits c)
    (hfits' : (Instruction.glued n).Fits c') : c.glued? n = c'.glued? n := by
  have hglued {c : Cursor} (hfits : (Instruction.glued n).Fits c) :
      c.glued? n = gluedAt (σ.gist c.remaining) n :=
    (σ.gluedAt_gist hfits.2).symm
  rw [hglued hfits, hglued hfits', h.gist_remaining hfits.1 hfits'.1]

lemma binaryAhead?_eq (h : c.Matches σ c') (hclear : c.Clear) (hclear' : c'.Clear) :
    c.binaryAhead? = c'.binaryAhead? := by
  rw [binaryAhead?, binaryAhead?, ← σ.binaryAhead?_gist, h.gist_remaining hclear hclear',
    σ.binaryAhead?_gist]

/-! ### Moves -/

lemma shift (h : c.Matches σ c') (hclear : c.Clear) (hclear' : c'.Clear) :
    c.shift.Matches σ c'.shift := by
  refine h.of_ahead (toList_shift c) (toList_shift c') (position_shift_pos c)
    (position_shift_pos c') ?_
  rw [shift_eq_land, shift_eq_land, ahead_land, ahead_land, h.gist_remaining hclear hclear']

lemma advance (h : c.Matches σ c') {reach : Reach} (hline : reach = .anyLine ∨ c.OnLine) :
    (c.advance reach).Matches σ (c'.advance reach) := by
  refine h.of_ahead (toList_advance reach c) (toList_advance reach c')
    (position_advance_pos reach c) (position_advance_pos reach c') ?_
  rw [advance_eq_land, advance_eq_land, ahead_land, ahead_land, h.gist_dropWhile_remaining hline]

/-- A step back is taken onto or from a token that is not blank, so the tokens on both sides of
it do not count as one. -/
lemma unshift (h : c.Matches σ c') (hfits : Instruction.stepBack.Fits c)
    (hfits' : Instruction.stepBack.Fits c') : c.unshift.Matches σ c'.unshift := by
  obtain ⟨hpos, earlier, t, hlist, hahead⟩ := exists_previous σ hfits
  obtain ⟨hpos', earlier', t', hlist', hahead'⟩ := exists_previous σ hfits'
  refine h.of_ahead (toList_unshift c) (toList_unshift c') hpos hpos' ?_
  have hgist := h.list
  rw [hlist, hlist', h.ahead] at hgist
  have hbare := congrArg List.getLast? (List.append_cancel_right hgist)
  simp only [σ.getLast?_gist, List.getLast?_append, List.getLast?_singleton, Option.some_or,
    Option.map_some, Option.some.injEq] at hbare
  rw [hahead, hahead', hbare, h.ahead]

/-- The way to the next boundary leads to the same boundary, and from there back before a brace
that closes. -/
lemma resynchronize (h : c.Matches σ c') (hfits : Instruction.resynchronize.Fits c)
    (hfits' : Instruction.resynchronize.Fits c') :
    c.resynchronize.Matches σ c'.resynchronize := by
  obtain ⟨d, hlist, hpos, hahead, hbrace, heq⟩ := exists_boundary h.pos hfits
  obtain ⟨d', hlist', hpos', hahead', hbrace', heq'⟩ := exists_boundary h.pos' hfits'
  have hd : d.Matches σ d' := by
    refine h.of_ahead hlist hlist' hpos hpos' ?_
    rw [hahead, hahead', σ.gist_fromBoundary, σ.gist_fromBoundary, h.ahead]
  rw [heq, heq', ← hd.here?_eq]
  split
  · next hhere => exact hd.unshift (hbrace hhere) (hbrace' (hd.here?_eq ▸ hhere))
  · exact hd

end Matches

end Cursor

end FrontEnd
