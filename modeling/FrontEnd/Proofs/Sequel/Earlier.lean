/-
Lists that start earlier.

Tokens in front of a list make no difference to what is read in it: no reading steps back before
the token where it started, so it never sees them.

* `Instruction.perform_precededBy`: an instruction that fits answers the same behind other tokens.
* `Goal.Reads.precededBy`: so does every reading of a goal from where it may be called.
* `TopLevel.run_precededBy`: so does the loop over the top level, whatever was found before.
-/
import FrontEnd.Proofs.Footing.Reading

namespace FrontEnd

namespace Cursor

variable {c : Cursor} (earlier : List Token)

/-- The same place in a list with tokens in front, the nearest of them first. -/
def precededBy : Cursor → Cursor
  | start ahead => start ahead
  | on behind token ahead => on (behind ++ earlier) token ahead
  | finish behind => finish (behind ++ earlier)

@[simp] lemma precededBy_land (behind tokens : List Token) :
    (land behind tokens).precededBy earlier = land (behind ++ earlier) tokens := by
  cases tokens <;> rfl

@[simp] lemma current?_precededBy (c : Cursor) : (c.precededBy earlier).current? = c.current? := by
  cases c <;> rfl

@[simp] lemma remaining_precededBy (c : Cursor) :
    (c.precededBy earlier).remaining = c.remaining := by
  cases c <;> rfl

lemma behind_precededBy (hc : 0 < c.position) :
    (c.precededBy earlier).behind = c.behind ++ earlier := by
  cases c with
  | start ahead => exact absurd hc (Nat.lt_irrefl 0)
  | on behind token ahead => rfl
  | finish behind => rfl

/-! ### Places -/

lemma last?_precededBy (hlist : c.toList ≠ []) (hc : 0 < c.position) :
    (c.precededBy earlier).last? = c.last? := by
  rcases c with a | ⟨b, t, a⟩ | (_ | ⟨t, b⟩)
  · exact absurd hc (Nat.lt_irrefl 0)
  · rfl
  · exact absurd rfl hlist
  · rfl

lemma range_precededBy (hlist : c.toList ≠ []) (hc : 0 < c.position) :
    (c.precededBy earlier).range = c.range := by
  rw [range, current?_precededBy, last?_precededBy earlier hlist hc, range]

lemma span_precededBy (hlist : c.toList ≠ []) (hc : 0 < c.position) :
    (c.precededBy earlier).span = c.span := by
  rw [span, current?_precededBy, last?_precededBy earlier hlist hc, span]

lemma error_precededBy (hlist : c.toList ≠ []) (hc : 0 < c.position) (kind : ErrorKind) :
    (c.precededBy earlier).error kind = c.error kind := by
  rw [error, span_precededBy earlier hlist hc, range_precededBy earlier hlist hc, error]

/-! ### Moves -/

lemma shift_precededBy (hc : 0 < c.position) :
    (c.precededBy earlier).shift = c.shift.precededBy earlier := by
  rw [shift_eq_land, shift_eq_land, precededBy_land, behind_precededBy earlier hc,
    current?_precededBy, remaining_precededBy, List.append_assoc]

lemma advance_precededBy (hc : 0 < c.position) (reach : Reach) :
    (c.precededBy earlier).advance reach = (c.advance reach).precededBy earlier := by
  simp only [advance_eq_land, precededBy_land, behind_precededBy earlier hc, current?_precededBy,
    remaining_precededBy, List.append_assoc]

/-- A step back leads to the same token, unless it leads before the first one. -/
lemma unshift_precededBy (hc : 1 < c.position) :
    (c.precededBy earlier).unshift = c.unshift.precededBy earlier := by
  rcases c with a | ⟨(_ | ⟨p, b⟩), t, a⟩ | b
  · rfl
  · exact absurd hc (Nat.lt_irrefl 1)
  · rfl
  · rfl

lemma position_unshift_pos (hc : 1 < c.position) : 0 < c.unshift.position := by
  have hlist := c.position_add_left
  have hback := c.unshift.position_add_left
  have hleft := c.left_unshift_le
  rw [toList_unshift] at hback
  omega

lemma shiftBy_precededBy (hc : 0 < c.position) (n : Nat) :
    (c.precededBy earlier).shiftBy n = (c.shiftBy n).precededBy earlier := by
  induction n generalizing c with
  | zero => rfl
  | succ n ih =>
    rw [shiftBy, shift_precededBy earlier hc, ih (position_shift_pos c), shiftBy]

/-- The way to the next boundary leads to the same one, unless it starts on a closing brace that
is the first token. -/
lemma seekBoundary_precededBy (depth : Nat) (behind : List Token) (token : Token)
    (ahead : List Token) (h : token.kind = .punctuator .rightBrace → behind ≠ []) :
    seekBoundary depth (behind ++ earlier) token ahead =
      (seekBoundary depth behind token ahead).precededBy earlier := by
  have hstop (ahead : List Token) (closes : Bool)
      (hcloses : seekBoundary.boundary? depth token.kind = some closes) :
      seekBoundary.stop closes (behind ++ earlier) token ahead =
        (seekBoundary.stop closes behind token ahead).precededBy earlier := by
    cases closes with
    | false => rfl
    | true =>
      have hbrace : token.kind = .punctuator .rightBrace := by
        unfold seekBoundary.boundary? at hcloses
        grind
      obtain ⟨p, b, rfl⟩ := List.exists_cons_of_ne_nil (h hbrace)
      rfl
  induction ahead generalizing depth behind token with
  | nil =>
    unfold seekBoundary
    rcases hcloses : seekBoundary.boundary? depth token.kind with _ | closes
    · rfl
    · exact hstop [] closes hcloses
  | cons next ahead ih =>
    unfold seekBoundary
    rcases hcloses : seekBoundary.boundary? depth token.kind with _ | closes
    · exact ih _ (token :: behind) next (fun _ => List.cons_ne_nil _ _) fun ahead closes _ => by
        cases closes <;> rfl
    · exact hstop _ closes hcloses

lemma resynchronize_precededBy
    (h : c.here? = some (.punctuator .rightBrace) → 1 < c.position) :
    (c.precededBy earlier).resynchronize = c.resynchronize.precededBy earlier := by
  rcases c with a | ⟨b, t, a⟩ | b
  · rfl
  · refine seekBoundary_precededBy earlier 0 b t a fun hkind hnil => ?_
    have hpos := h (by rw [here?, kind?, current?, Option.map_some, Option.map_some, hkind]; rfl)
    rw [hnil] at hpos
    exact absurd hpos (Nat.lt_irrefl 1)
  · rfl

end Cursor

variable {earlier : List Token}

/-- The same state in a list with tokens in front. -/
def State.precededBy (earlier : List Token) (s : State) : State :=
  s.moveTo (s.cursor.precededBy earlier)

/-- An instruction that fits leads behind the start of the list. -/
lemma Instruction.position_perform_pos {i : Instruction} {c : Cursor} (hc : 0 < c.position)
    (hfits : i.Fits c) : 0 < (i.perform c).2.position := by
  cases i with
  | shift => exact Cursor.position_shift_pos c
  | advance reach => exact Cursor.position_advance_pos reach c
  | stepBack => exact Cursor.position_unshift_pos hfits.2.1
  | resynchronize =>
    have hlist := c.position_add_left
    have hback := c.resynchronize.position_add_left
    have hleft := c.left_resynchronize_le
    rw [Cursor.toList_resynchronize] at hback
    change 0 < c.resynchronize.position
    split at hleft
    · have := hfits ‹_›
      omega
    · omega
  | takeLine => exact hc.trans_le (Cursor.position_le_toEndOfLine c)
  | here | glued _ | following _ | binaryAhead | startsDeclaration | startLocation | stopLocation
  | errorHere _ => exact hc

/-- An instruction that fits answers the same behind other tokens, and leads to the same place. -/
lemma Instruction.perform_precededBy {i : Instruction} {c : Cursor} (hlist : c.toList ≠ [])
    (hc : 0 < c.position) (hfits : i.Fits c) :
    i.perform (c.precededBy earlier) = ((i.perform c).1, (i.perform c).2.precededBy earlier) := by
  cases i with
  | here | glued _ | following _ | binaryAhead | startsDeclaration =>
    simp [perform, Cursor.here?, Cursor.kind?, Cursor.glued?, Cursor.following?, Cursor.next?,
      Cursor.binaryAhead?, Cursor.startsDeclaration]
  | startLocation | stopLocation =>
    simp [perform, Cursor.startLocation, Cursor.stopLocation, Cursor.range_precededBy earlier hlist hc]
  | errorHere kind => simp [perform, Cursor.error_precededBy earlier hlist hc]
  | shift => simp [perform, Cursor.shift_precededBy earlier hc]
  | advance reach => simp [perform, Cursor.advance_precededBy earlier hc]
  | stepBack => simp [perform, Cursor.unshift_precededBy earlier hfits.2.1]
  | resynchronize => simp [perform, Cursor.resynchronize_precededBy earlier hfits]
  | takeLine =>
    simp [perform, Cursor.lineText, Cursor.toEndOfLine, Cursor.restOfLine,
      Cursor.shiftBy_precededBy earlier hc]

/-- A procedure ends in the same behind other tokens, if the goals it calls do. -/
lemma Procedure.Treads.perform_precededBy {α : Type} {K : Contract} {p : Procedure α} {s : State}
    {ok : α → State → Prop} {err : ParseError → State → Prop} (h : p.Treads K s ok err)
    (hlist : s.cursor.toList ≠ []) (hpos : 0 < s.cursor.position)
    {callee : (g : Goal) → State → Outcome g.Result}
    (hcallee : ∀ g s r t, K.enter g s → s.cursor.toList ≠ [] → callee g s = .finished r t →
      K.Ends g s r t ∧ t.cursor.toList = s.cursor.toList ∧ 0 < t.cursor.position ∧
        callee g (s.precededBy earlier) = .finished r (t.precededBy earlier))
    {r : Except ParseError α} {t : State} (hr : p.perform callee s = .finished r t) :
    p.perform callee (s.precededBy earlier) = .finished r (t.precededBy earlier) := by
  induction p generalizing s with
  | done a =>
    cases hr
    rfl
  | fail e =>
    cases hr
    rfl
  -- what an instruction asks back for is there, so the earlier tokens do not show
  | ask i next ih =>
    have hnext := ih _ h.2 ((i.toList_perform s.cursor).trans_ne hlist)
      (i.position_perform_pos hpos h.1) hr
    rw [Procedure.perform, State.precededBy, State.cursor_moveTo,
      Instruction.perform_precededBy hlist hpos h.1]
    exact hnext
  | call g next ih =>
    obtain ⟨henter, hvalue, herror⟩ := h
    simp only [Procedure.perform] at hr ⊢
    rcases hc : callee g s with ⟨r', u⟩ | _
    · obtain ⟨hends, hu, hupos, heq⟩ := hcallee g s r' u henter hlist hc
      rw [hc] at hr
      rw [heq]
      have hulist : u.cursor.toList ≠ [] := hu.trans_ne hlist
      rcases r' with e | a
      · exact ih _ (herror e u hends) hulist hupos hr
      · exact ih _ (hvalue a u hends) hulist hupos hr
    · simp [hc] at hr
  | note e next ih => exact ih (s := s.note e) h.2 hlist hpos hr

namespace Goal

lemma run_precededBy (bound room : Nat) (g : Goal) (s : State) (r : Except ParseError g.Result)
    (t : State) (henter : footing.enter g s) (hlist : s.cursor.toList ≠ [])
    (hr : g.run bound room s = .finished r t) :
    g.run bound room (s.precededBy earlier) = .finished r (t.precededBy earlier) := by
  induction bound generalizing room g s r t with
  | zero => simp [run] at hr
  | succ below ih =>
    rw [run] at hr ⊢
    rcases hroom : g.roomInside? room with _ | inside
    · rw [hroom] at hr
      cases hr
      rw [State.precededBy, State.cursor_moveTo, Cursor.error_precededBy earlier hlist henter.1]
    · rw [hroom] at hr
      refine (procedure_treads henter).perform_precededBy hlist henter.1
        (fun g s r t henter hlist hr => ?_) hr
      have hends := (run_footing below inside g s r t henter hr).1
      have honward : g ≠ .submodules → s.cursor.position ≤ t.cursor.position :=
        fun hg => (Reads.onward hg ⟨below, hr⟩).2
      refine ⟨?_, (Reads.onward_back ⟨below, hr⟩).toList_eq, ?_, ih inside g s r t henter hlist hr⟩
      · rcases r with e | a <;> exact ⟨honward, hends⟩
      · rcases r with e | a <;> exact hends.1

/-- A reading from where a goal may be called ends in the same behind other tokens. -/
theorem Reads.precededBy {room : Nat} {g : Goal} {s t : State} {r : Except ParseError g.Result}
    (h : g.Reads room s r t) (henter : FrontEnd.footing.enter g s) (hlist : s.cursor.toList ≠ []) :
    g.Reads room (s.precededBy earlier) r (t.precededBy earlier) :=
  h.imp fun bound hr => run_precededBy bound room g s r t henter hlist hr

end Goal

namespace TopLevel

variable {room : Nat} (before : List Declaration)

lemma takeUp_precededBy (found : List Declaration) (s : State) (r : Except ParseError (Kept Declaration)) :
    takeUp (found ++ before) r (s.precededBy earlier) =
      ((takeUp found r s).1 ++ before, (takeUp found r s).2.precededBy earlier) := by
  rcases r with e | ⟨d, _ | e⟩ <;> rfl

/-- A turn of the loop over the top level is the same behind other tokens and declarations. -/
lemma Step.precededBy {p q : List Declaration × State} (hpos : 0 < p.2.cursor.position)
    (h : Step room p q) :
    Step room (p.1 ++ before, p.2.precededBy earlier) (q.1 ++ before, q.2.precededBy earlier) := by
  have hcurrent (s : State) : (s.precededBy earlier).cursor.current? = s.cursor.current? :=
    s.cursor.current?_precededBy earlier
  have hstart (s : State) :
      (s.precededBy earlier).cursor.startsDeclaration = s.cursor.startsDeclaration := by
    rw [Cursor.startsDeclaration, hcurrent, State.precededBy, State.cursor_moveTo,
      Cursor.remaining_precededBy, Cursor.startsDeclaration]
  have hlist {s : State} (h : s.cursor.current?.isSome) : s.cursor.toList ≠ [] := by
    rcases hc : s.cursor with a | ⟨b, t, a⟩ | b <;> simp [hc, Cursor.current?] at h ⊢
  -- what the loop looks at lies ahead, where nothing has changed
  cases h with
  | @declaration found s t r hsome hstarts hreads =>
    have htpos : 0 < t.cursor.position := hpos.trans_le (hreads.onward (by simp)).2
    have hreads' : (Goal.declaration .topLevel).Reads room (s.precededBy earlier) r
        (t.precededBy earlier) := hreads.precededBy ⟨hpos, .inl hstarts⟩ (hlist hsome)
    have hstep : Step room (found ++ before, s.precededBy earlier) _ :=
      .declaration (by rwa [hcurrent]) ((hstart s).trans hstarts) hreads'
    rw [takeUp_precededBy] at hstep
    simp only [State.precededBy, State.cursor_moveTo, Cursor.shift_precededBy earlier htpos] at hstep ⊢
    exact hstep
  | @pass found s token hsome hstarts =>
    have hstep : Step room (found ++ before, s.precededBy earlier) _ :=
      .pass ((hcurrent s).trans hsome) ((hstart s).trans hstarts)
    have hpass : passOver token (s.precededBy earlier) = (passOver token s).precededBy earlier := by
      have hnonempty := hlist (Option.isSome_of_mem hsome)
      unfold passOver
      split
      · rw [State.precededBy, State.cursor_moveTo, Cursor.error_precededBy earlier hnonempty hpos]
        rfl
      · rfl
    rw [hpass] at hstep
    simp only [State.precededBy, State.cursor_moveTo, Cursor.shift_precededBy earlier hpos] at hstep ⊢
    exact hstep

/-- The loop over the top level goes the same way behind other tokens and declarations. -/
theorem run_precededBy {p q : List Declaration × State} (hpos : 0 < p.2.cursor.position)
    (h : Relation.ReflTransGen (Step room) p q) :
    Relation.ReflTransGen (Step room) (p.1 ++ before, p.2.precededBy earlier)
      (q.1 ++ before, q.2.precededBy earlier) := by
  induction h using Relation.ReflTransGen.head_induction_on with
  | refl => exact .refl
  | head hstep _ ih => exact .head (hstep.precededBy before hpos) (ih (hpos.trans hstep.position_lt))

end TopLevel

end FrontEnd
