/-
Two lists with a separator between them.

A list that is read without errors and holds no attributes may be followed by a line break or a
semicolon and a further list that starts with the keyword of a declaration: the two are read as if
each stood alone (`Parser.readTokens_separated`).  The loop over the top level passes through the
first list as it does without the rest (`TopLevel.run_followedBy`), takes the separator, either
behind the last declaration or as a token of its own, and then goes through the second list as if
nothing stood in front of it (`TopLevel.run_precededBy`).
-/
import FrontEnd.Proofs.Sequel.Earlier
import FrontEnd.Proofs.Sequel.TopLevel

namespace FrontEnd

namespace TopLevel

variable {q : Sequel} {room : Nat} {found found' : List Declaration} {s s' : State}

/-- A cursor without a current token, behind the start of the list, is behind its end. -/
lemma exists_finish {c : Cursor} (hpos : 0 < c.position) (h : c.current? = none) :
    ∃ b, c = .finish b := by
  rcases c with a | ⟨b, t, a⟩ | b
  · exact absurd hpos (Nat.lt_irrefl 0)
  · cases h
  · exact ⟨b, rfl⟩

/-- The loop over the top level passes over the separator. -/
lemma step_separator {c : Cursor} (hpos : 0 < c.position) (h : c.current? = none)
    (noted : List ParseError) :
    Step room (found, ⟨c.followedBy q, noted⟩) (found, ⟨(c.followedBy q).shift, noted⟩) := by
  obtain ⟨b, rfl⟩ := exists_finish hpos h
  have hkind : q.separator.kind = .lineFeed ∨ q.separator.kind = .carriageReturn ∨
      q.separator.kind = .punctuator .semicolon := by
    rcases q.separates with hbreak | hsemicolon
    · cases hkind : q.separator.kind <;> simp [hkind, TokenKind.isLineBreak] at hbreak ⊢
    · exact .inr (.inr hsemicolon)
  have hstarts : ((Cursor.finish b).followedBy q).startsDeclaration = false := by
    rcases hkind with h | h | h <;>
      simp [Cursor.followedBy, Cursor.startsDeclaration, Cursor.current?, Cursor.remaining,
        HeaderPlace.leadsOn, h, TokenKind.isDeclarationKeyword, TokenKind.role?]
  have hvalid : q.separator.kind.isInvalid = false := by
    rcases hkind with h | h | h <;> rw [h] <;> rfl
  have hcurrent : ((Cursor.finish b).followedBy q).current? = some q.separator := rfl
  have hstep : Step room (found, ⟨(Cursor.finish b).followedBy q, noted⟩) _ :=
    .pass hcurrent hstarts
  rwa [passOver, if_neg (by simp [hvalid])] at hstep

/-- Where nothing was noted, a declaration was read without an error. -/
lemma exists_of_takeUp_quiet {r : Except ParseError (Kept Declaration)} {t : State}
    (hsuffix : s.noted <:+ t.noted) (hquiet : (takeUp found r t).2.noted = s.noted) :
    ∃ d, r = .ok ⟨d, none⟩ ∧ t.noted = s.noted := by
  have hlonger (e : ParseError) (h : e :: t.noted = s.noted) : False := by
    have := hsuffix.length_le
    rw [← h, List.length_cons] at this
    omega
  rcases r with e | ⟨d, _ | e⟩
  · exact (hlonger e hquiet).elim
  · exact ⟨d, rfl, hquiet⟩
  · exact (hlonger e hquiet).elim

/-- A turn of the loop that finds no error is the same in the longer list, where it may take the
separator behind the last declaration too. -/
lemma Step.followedBy (h : Step room (found, s) (found', s')) (hpos : 0 < s.cursor.position)
    (hquiet : s'.noted = s.noted) (hno : Unattributed s.cursor.toList) :
    Step room (found, s.followedBy q) (found', s'.followedBy q) ∨
      s'.cursor.current? = none ∧
        Step room (found, s.followedBy q) (found', s'.moveTo (s'.cursor.followedBy q).shift) := by
  have hcurrent {c : Cursor} (h : c.here? ≠ none) : (c.followedBy q).current? = c.current? := by
    obtain ⟨b, t, a, rfl⟩ := Cursor.exists_on_of_here? h
    rfl
  have hhere {c : Cursor} (h : c.current?.isSome) : c.here? ≠ none := by
    simpa [Cursor.here?, Cursor.kind?, Option.isSome_iff_ne_none] using h
  cases h with
  | @declaration _ _ t r hsome hstarts hreads =>
    have hs := hhere hsome
    obtain ⟨bound, hr⟩ := hreads
    have hreads : (Goal.declaration .topLevel).Reads room s r t := ⟨bound, hr⟩
    obtain ⟨d, rfl, ht⟩ :=
      exists_of_takeUp_quiet (Goal.noted_suffix_of_run _ _ _ _ _ _ hr) hquiet
    have hreads' := hreads.declaration_followedBy (q := q) ht hs hno
    have hstep : Step room (found, s.followedBy q) _ := .declaration
      (by rw [State.followedBy, State.cursor_moveTo, hcurrent hs]; exact hsome)
      ((Cursor.startsDeclaration_followedBy q hs (Cursor.here?_ne_atSign hno)).trans hstarts) hreads'
    -- with no token left, the longer list goes on at the separator, which the next shift takes
    by_cases hnone : t.cursor.current? = none
    · have htpos : 0 < t.cursor.position := hpos.trans_le (hreads.onward (by simp)).2
      obtain ⟨b, hb⟩ := exists_finish htpos hnone
      refine .inr ⟨by simp [takeUp, hb, Cursor.shift, Cursor.current?], ?_⟩
      simpa [takeUp, State.followedBy, State.moveTo, hb, Cursor.shift] using hstep
    · left
      have hthere := hhere (Option.isSome_iff_ne_none.mpr hnone)
      simpa [takeUp, State.followedBy, State.moveTo, Cursor.shift_followedBy q hthere] using hstep
  | @pass _ _ token hsome hstarts =>
    have hs := hhere (Option.isSome_of_mem hsome)
    left
    -- a token that is passed over without an error is a valid one
    have hvalid : token.kind.isInvalid = false := by
      by_contra hinvalid
      rw [State.moveTo, passOver, if_pos (by simpa using hinvalid)] at hquiet
      exact absurd hquiet (List.cons_ne_self _ _)
    have hstep : Step room (found, s.followedBy q) _ := .pass ((hcurrent hs).trans hsome)
      ((Cursor.startsDeclaration_followedBy q hs (Cursor.here?_ne_atSign hno)).trans hstarts)
    simpa [passOver, hvalid, State.followedBy, State.moveTo, Cursor.shift_followedBy q hs] using hstep

/-- The loop over the top level goes onward. -/
lemma run_position_le {p q : List Declaration × State} (h : Relation.ReflTransGen (Step room) p q) :
    p.2.cursor.position ≤ q.2.cursor.position := by
  induction h with
  | refl => exact Nat.le_refl _
  | tail _ hstep ih => exact ih.trans hstep.position_lt.le

/-- The loop over the top level goes through a list without errors and beyond the separator. -/
theorem run_followedBy {p last : List Declaration × State} (hpos : 0 < p.2.cursor.position)
    (hno : Unattributed p.2.cursor.toList) (h : Relation.ReflTransGen (Step room) p last)
    (hend : last.2.cursor.current? = none) (hquiet : last.2.noted = p.2.noted) :
    Relation.ReflTransGen (Step room) (p.1, p.2.followedBy q)
      (last.1, last.2.moveTo (last.2.cursor.followedBy q).shift) := by
  induction h using Relation.ReflTransGen.head_induction_on with
  | refl => exact .single (step_separator hpos hend _)
  | @head p mid hstep hrun ih =>
    have hmid : mid.2.noted = p.2.noted :=
      Procedure.noted_eq_of_suffix hstep.noted_suffix (run_suffix hrun).2 hquiet
    have hmidpos := hpos.trans hstep.position_lt
    rcases hstep.followedBy (q := q) hpos hmid hno with hnext | ⟨hnone, hnext⟩
    · refine .head hnext (ih hmidpos ?_ (hquiet.trans hmid.symm))
      rwa [hstep.left_lt.1]
    · have hlast : mid = last := run_unique .refl hrun hnone hend
      subst hlast
      exact .single hnext

end TopLevel

/-- What stands behind a list: the cursor there is the one at the start of what follows, behind other
tokens. -/
lemma Cursor.shift_finish_followedBy (q : Sequel) (b : List Token) :
    ((finish b).followedBy q).shift = (start q.later).shift.precededBy (q.separator :: b) := by
  rcases hlater : q.later with _ | ⟨t, a⟩ <;> simp [followedBy, shift, precededBy, hlater]

open TopLevel in
/-- Lists with a separator between them are read as if each stood alone: if the first one is read
without errors and holds no attributes, and the second one is empty or starts with the keyword of a
declaration, there are the declarations of the one and then those of the other, and the errors are
those of the second one. -/
theorem Parser.readTokens_separated (p : Parser) {first later : List Token} {separator : Token}
    (hseparator : separator.kind = .lineFeed ∨ separator.kind = .carriageReturn ∨
      separator.kind = .punctuator .semicolon)
    (hquiet : (p.readTokens first).errors = [])
    (hno : ∀ t ∈ first, t.kind ≠ .punctuator .atSign)
    (hlater : ∀ t ∈ later.head?, t.kind.isDeclarationKeyword = true) :
    (p.readTokens (first ++ [separator] ++ later)).root.declarations =
        (p.readTokens first).root.declarations ++ (p.readTokens later).root.declarations ∧
      (p.readTokens (first ++ [separator] ++ later)).errors = (p.readTokens later).errors := by
  let q : Sequel := ⟨separator, later, by
    rcases hseparator with h | h | h <;> simp [h, TokenKind.isLineBreak], hlater⟩
  obtain ⟨found, s, hrun, hend, heq⟩ := p.exists_steps first
  obtain ⟨found', s', hrun', hend', heq'⟩ := p.exists_steps later
  rw [heq] at hquiet
  have hnoted : s.noted = [] := by simpa using hquiet
  have hstart : Cursor.start (first ++ [separator] ++ later) =
      Cursor.start (first ++ q.tokens) := by simp [q, Sequel.tokens]
  have hfirst : (Cursor.start (first ++ [separator] ++ later)).shift =
      (Cursor.start first).shift.followedBy q := by
    rw [hstart]
    cases first <;> rfl
  have hpos := Cursor.position_shift_pos (Cursor.start first)
  obtain ⟨b, hb⟩ := exists_finish (hpos.trans_le (run_position_le hrun)) hend
  have hrunFirst := run_followedBy (q := q) hpos
    (by rwa [Cursor.toList_shift, Cursor.toList_start]) hrun hend hnoted
  have hrunLater := @run_precededBy (separator :: b) p.maxDepth found _ _ (Cursor.position_shift_pos _) hrun'
  have hseam : s.moveTo (s.cursor.followedBy q).shift =
      State.precededBy (separator :: b) ⟨(Cursor.start later).shift, []⟩ := by
    rw [hb, Cursor.shift_finish_followedBy, State.moveTo, hnoted]
    rfl
  rw [hseam] at hrunFirst
  have hrunBoth := hrunFirst.trans hrunLater
  have hends : (s'.precededBy (separator :: b)).cursor.current? = none :=
    (Cursor.current?_precededBy _ _).trans hend'
  have hboth : p.readTokens (first ++ [separator] ++ later) = _ :=
    p.readTokens_eq_of_run (by rw [hfirst]; exact hrunBoth) hends
  rw [hboth, heq, heq']
  exact ⟨List.reverse_append, rfl⟩

/-- A constant may be followed by a line break and a declaration with an error. -/
theorem Parser.readTokens_separated_lineFeed :
    let first := Token.ofText "let x"
    let separator : Token := ⟨.lineFeed, ⟨5, 6⟩, ⟨⟨1, 6⟩, ⟨2, 1⟩⟩⟩
    let later : List Token :=
      [⟨.keyword "let" .declaration, ⟨6, 9⟩, ⟨⟨2, 1⟩, ⟨2, 4⟩⟩⟩]
    (Parser.readTokens {} first).errors = [] ∧
      (Parser.readTokens {} (first ++ [separator] ++ later)).root.declarations =
          (Parser.readTokens {} first).root.declarations ++
            (Parser.readTokens {} later).root.declarations ∧
        (Parser.readTokens {} (first ++ [separator] ++ later)).errors =
          (Parser.readTokens {} later).errors := by
  intro first separator later
  have hquiet : (Parser.readTokens {} first).errors = [] := by decide +kernel
  have hno : ∀ t ∈ first, t.kind ≠ .punctuator .atSign := by decide
  have hlater : ∀ t ∈ later.head?, t.kind.isDeclarationKeyword = true := by decide
  exact ⟨hquiet, Parser.readTokens_separated {} (.inl rfl) hquiet hno hlater⟩

end FrontEnd
