/-
The limit on the levels of nesting only cuts off.

* `Goal.Reads.cut_or_reads`: with more room a goal reads the same, unless there is an error
  for want of room.
* `Goal.Reads.not_cut`: with two levels for each token that is left, and the weight of the
  goal, there is no such error.
* `Parser.limit_only_cuts_off`: both for the reading of a list of tokens.
-/
import FrontEnd.Parser
import FrontEnd.Proofs.Limit.Grammar
import FrontEnd.Proofs.Progress.Steps

namespace FrontEnd

/-- Some error noted so far is one for want of room. -/
def State.Limited (s : State) : Prop :=
  ∃ e ∈ s.noted, e.IsLimit

/-- A reading was cut off: it ends in an error for want of room, or has noted one. -/
def Cut {α : Type} (r : Except ParseError α) (s : State) : Prop :=
  (∃ e, r = .error e ∧ e.IsLimit) ∨ s.Limited

lemma State.Limited.mono {s t : State} (h : s.Limited) (hst : s.noted <:+ t.noted) : t.Limited := by
  obtain ⟨e, he, hlimit⟩ := h
  exact ⟨e, hst.subset he, hlimit⟩

lemma State.limited_note {s : State} {e : ParseError} :
    (s.note e).Limited ↔ e.IsLimit ∨ s.Limited := by
  simp [Limited, note]

namespace Procedure

variable {α : Type} {may : Goal → Prop} {p : Procedure α} {deep : Prop} {ok : Prop → α → Prop}
  {callee callee' : (g : Goal) → State → Outcome g.Result} {r : Except ParseError α}
  {s s' : State}

lemma answers_perform (i : Instruction) (c : Cursor) : i.Answers (i.perform c).1 := by
  cases i <;> trivial

/-- A candid procedure ends in what is wanted. -/
lemma Candid.value (h : p.Candid may deep ok)
    (hplain : ∀ g s v s', callee g s = .finished (.ok v) s' → g.Plain v) {a : α}
    (hr : p.perform callee s = .finished (.ok a) s') : ∃ deep, ok deep a := by
  induction p generalizing s deep with
  | done b =>
    cases hr
    exact ⟨deep, h⟩
  | fail e => cases hr
  | ask i next ih => exact ih _ (h _ (answers_perform i s.cursor)) hr
  | call g next ih =>
    obtain ⟨-, -, hvalue, herror⟩ := h
    simp only [perform] at hr
    rcases hc : callee g s with ⟨e | v, t⟩ | _
    all_goals rw [hc] at hr
    · exact ih _ (herror e) hr
    · exact ih _ (hvalue v (hplain _ _ _ _ hc)) hr
    · cases hr
  | note e next ih => exact ih h.2 hr

/-- If goals that are not cut off read the same with other callees, so does a candid
procedure. -/
lemma Candid.cut_or_perform (h : p.Candid may deep ok)
    (hplain : ∀ g s v s', callee g s = .finished (.ok v) s' → g.Plain v)
    (hnoted : ∀ g s r s', callee g s = .finished r s' → s.noted <:+ s'.noted)
    (hcallee : ∀ g s r s', callee g s = .finished r s' →
      Cut r s' ∨ callee' g s = .finished r s')
    (hok : ∀ deep a, ok deep a → ¬ deep) (hr : p.perform callee s = .finished r s') :
    Cut r s' ∨ ¬ deep ∧ p.perform callee' s = .finished r s' := by
  induction p generalizing s deep with
  | done a => exact .inr ⟨hok deep a h, hr⟩
  | fail e =>
    cases hr
    by_cases hdeep : deep
    · exact .inl (.inl ⟨e, rfl, h.mpr hdeep⟩)
    · exact .inr ⟨hdeep, rfl⟩
  | ask i next ih => exact ih _ (h _ (answers_perform i s.cursor)) hr
  | call g next ih =>
    obtain ⟨hdeep, -, hvalue, herror⟩ := h
    simp only [perform] at hr ⊢
    rcases hc : callee g s with ⟨r', t⟩ | _
    · rw [hc] at hr
      have hgrows : t.noted <:+ s'.noted := noted_suffix_of_perform hnoted hr
      -- an error in hand is the limit or not; a value leaves that as it was
      have hnext : ∃ deep', (next r').Candid may deep' ok ∧
          ((∃ e, r' = .error e ∧ e.IsLimit) → deep') := by
        rcases r' with e | v
        · exact ⟨e.IsLimit, herror e, by simp⟩
        · exact ⟨deep, hvalue v (hplain _ _ _ _ hc), by simp⟩
      obtain ⟨deep', hcandid, hlimit⟩ := hnext
      rcases ih r' hcandid hr with hcut | ⟨hdeep', hrest⟩
      · exact .inl hcut
      -- if the goal was cut off, the limit is in hand, which the rest excludes, or it is noted and
      -- stays so
      rcases hcallee g s r' t hc with (herr | hnote) | hsame
      · exact absurd (hlimit herr) hdeep'
      · exact .inl (.inr (hnote.mono hgrows))
      · rw [hsame]
        exact .inr ⟨hdeep, hrest⟩
    · rw [hc] at hr
      cases hr
  | note e next ih =>
    have hgrows : (s.note e).noted <:+ s'.noted :=
      noted_suffix_of_perform (p := next) (s := s.note e) hnoted hr
    rcases ih h.2 hr with hcut | ⟨-, hrest⟩
    · exact .inl hcut
    by_cases hdeep : deep
    · exact .inl (.inr ((State.limited_note.mpr (.inl (h.1.mpr hdeep))).mono hgrows))
    · exact .inr ⟨hdeep, hrest⟩

/-- If no goal that is called within a contract is cut off, a candid procedure is not. -/
lemma Candid.not_cut {K : Contract} {way : List Event} {ok' : List Event → α → State → Prop}
    {err' : List Event → ParseError → State → Prop} (h : p.Candid may deep ok) (hdeep : ¬ deep)
    (hmeets : p.Meets K way s ok' err')
    (hplain : ∀ g s v s', callee g s = .finished (.ok v) s' → g.Plain v)
    (hvalue : ∀ g s v s', callee g s = .finished (.ok v) s' → K.value g s v s')
    (herror : ∀ g s e s', callee g s = .finished (.error e) s' → K.error g s e s')
    (hcallee : ∀ g s r s', may g → K.enter g s → callee g s = .finished r s' → ¬ s.Limited →
      ¬ Cut r s')
    (hs : ¬ s.Limited) (hr : p.perform callee s = .finished r s') : ¬ Cut r s' := by
  induction p generalizing s deep way with
  | done a =>
    cases hr
    simpa [Cut] using hs
  | fail e =>
    cases hr
    rw [Candid, iff_false_right hdeep] at h
    simpa [Cut, h] using hs
  | ask i next ih => exact ih _ (h _ (answers_perform i s.cursor)) hdeep hmeets hs hr
  | call g next ih =>
    obtain ⟨-, hmay, hok, herr⟩ := h
    obtain ⟨henter, hmeetsValue, hmeetsError⟩ := hmeets
    simp only [perform] at hr
    rcases hc : callee g s with ⟨e | v, t⟩ | _
    all_goals rw [hc] at hr
    · have hcut := hcallee _ _ _ _ hmay henter hc hs
      exact ih _ (herr e) (fun hlimit => hcut (.inl ⟨e, rfl, hlimit⟩))
        (hmeetsError e t (herror _ _ _ _ hc)) (fun ht => hcut (.inr ht)) hr
    · have hcut := hcallee _ _ _ _ hmay henter hc hs
      exact ih _ (hok v (hplain _ _ _ _ hc)) hdeep (hmeetsValue v t (hvalue _ _ _ _ hc))
        (fun ht => hcut (.inr ht)) hr
    · cases hr
  | note e next ih =>
    obtain ⟨hlimit, hnext⟩ := h
    refine ih hnext not_false hmeets (fun hnote => ?_) hr
    rcases State.limited_note.mp hnote with he | hs'
    · exact hdeep (hlimit.mp he)
    · exact hs hs'

end Procedure

namespace Goal

/-- What is read is not complained of for want of room. -/
lemma plain_of_run (bound room : Nat) (g : Goal) (s : State) (v : g.Result) (s' : State)
    (hr : g.run bound room s = .finished (.ok v) s') : g.Plain v := by
  induction bound generalizing room g s v s' with
  | zero => simp [run] at hr
  | succ below ih =>
    rw [run] at hr
    rcases hroom : g.roomInside? room with _ | inside
    · simp [hroom] at hr
    · rw [hroom] at hr
      obtain ⟨-, -, hplain⟩ := g.candid.value (ih inside) hr
      exact hplain

/-- With more room a goal reads the same, unless it is cut off. -/
lemma cut_or_run (bound : Nat) {room room' : Nat} (hle : room ≤ room') (g : Goal) (s : State)
    (r : Except ParseError g.Result) (s' : State) (hr : g.run bound room s = .finished r s') :
    Cut r s' ∨ g.run bound room' s = .finished r s' := by
  induction bound generalizing room room' g s r s' with
  | zero => simp [run] at hr
  | succ below ih =>
    rw [run] at hr ⊢
    rcases hroom : g.roomInside? room with _ | inside
    · rw [hroom] at hr
      cases hr
      exact .inl (.inl ⟨_, rfl, rfl⟩)
    · obtain ⟨inside', hroom', hinside⟩ : ∃ inside', g.roomInside? room' = some inside' ∧
          inside ≤ inside' := by
        unfold roomInside? at hroom ⊢
        split at hroom
        · rcases room with _ | room
          · cases hroom
          · rcases room' with _ | room'
            · exact absurd hle (Nat.not_succ_le_zero _)
            · cases hroom
              exact ⟨room', by simp_all, Nat.le_of_succ_le_succ hle⟩
        · cases hroom
          exact ⟨room', by simp_all, hle⟩
      rw [hroom] at hr
      rw [hroom']
      exact (g.candid.cut_or_perform (plain_of_run below inside) (noted_suffix_of_run below inside)
        (fun g s r s' => ih hinside g s r s') (fun deep a h => h.1) hr).imp_right And.right

/-- With two levels for each token that is left, and the weight of the goal, no goal is cut
off. -/
lemma run_not_cut (bound room : Nat) (g : Goal) (s : State) (r : Except ParseError g.Result)
    (s' : State) (hroom : 2 * s.cursor.left + g.weight ≤ room) (hs : ¬ s.Limited)
    (hr : g.run bound room s = .finished r s') : ¬ Cut r s' := by
  induction bound generalizing room g s r s' with
  | zero => simp [run] at hr
  | succ below ih =>
    rw [run] at hr
    have hinside : ∃ inside, g.roomInside? room = some inside ∧ room = inside + g.depth := by
      have hdepth := g.depth_le_weight
      unfold roomInside? depth at *
      split
      next hlevel =>
        rw [if_pos hlevel] at hdepth
        rcases room with _ | inside
        · omega
        · exact ⟨inside, rfl, rfl⟩
      next hlevel => exact ⟨room, rfl, rfl⟩
    obtain ⟨inside, hinside, hdepth⟩ := hinside
    rw [hinside] at hr
    -- what is called has fewer tokens left, or is of a lower rank
    have hmeets : g.procedure.Meets
        ((progress (16 * s.cursor.left + g.rank) 0).given fun _ _ _ => True) [] s _ _ :=
      g.procedure_meets (Nat.le_refl _)
    refine g.candid.not_cut not_false hmeets (plain_of_run below inside)
      (fun g s v s' hr => ⟨trivial, known_onward _ _ _ _ _ _ hr⟩)
      (fun g s e s' hr => ⟨trivial, known_onward _ _ _ _ _ _ hr⟩)
      (fun g' t r t' hadmits henter hr ht => ih inside g' t r t' ?_ ht hr) hs hr
    simp only [Contract.given_enter, progress_enter] at henter
    obtain ⟨hlater, hhere⟩ := hadmits
    have hrank := g.rank_lt
    rcases Nat.lt_or_ge t.cursor.left s.cursor.left with hlt | hge
    · omega
    · have := hhere (by omega)
      omega

/-- With more room a goal reads the same, unless it is cut off. -/
theorem Reads.cut_or_reads {room room' : Nat} (hle : room ≤ room') {g : Goal} {s s' : State}
    {r : Except ParseError g.Result} (h : g.Reads room s r s') :
    Cut r s' ∨ g.Reads room' s r s' := by
  obtain ⟨bound, hr⟩ := h
  exact (cut_or_run bound hle g s r s' hr).imp_right fun h => ⟨bound, h⟩

/-- With two levels for each token that is left, and the weight of the goal, no reading is cut
off. -/
theorem Reads.not_cut {room : Nat} {g : Goal} {s s' : State} {r : Except ParseError g.Result}
    (h : g.Reads room s r s') (hroom : 2 * s.cursor.left + g.weight ≤ room)
    (hs : ¬ s.Limited) : ¬ Cut r s' := by
  obtain ⟨bound, hr⟩ := h
  exact run_not_cut bound room g s r s' hroom hs hr

end Goal

namespace TopLevel

variable {room room' : Nat} {p q : List Declaration × State}

/-- What is taken up of a reading that was cut off is limited. -/
lemma limited_takeUp_of_cut {found : List Declaration} {s : State}
    {r : Except ParseError (Kept Declaration)} (h : Cut r s) : (takeUp found r s).2.Limited := by
  rcases h with ⟨e, rfl, he⟩ | hs
  · exact State.limited_note.mpr (.inl he)
  · rcases r with e | ⟨d, _ | e⟩
    · exact State.limited_note.mpr (.inr hs)
    · exact hs
    · exact State.limited_note.mpr (.inr hs)

/-- With more room the loop takes the same turn, unless it is cut off. -/
lemma Step.limited_or_step (hle : room ≤ room') (h : Step room p q) :
    q.2.Limited ∨ Step room' p q := by
  cases h with
  | declaration hcurrent hstarts hreads =>
    rcases hreads.cut_or_reads hle with hcut | hreads'
    · exact .inl (limited_takeUp_of_cut hcut)
    · exact .inr (.declaration hcurrent hstarts hreads')
  | pass hcurrent hstarts => exact .inr (.pass hcurrent hstarts)

/-- With more room the loop takes the same course, unless it is cut off. -/
lemma limited_or_run (hle : room ≤ room') (h : Relation.ReflTransGen (Step room) p q) :
    q.2.Limited ∨ Relation.ReflTransGen (Step room') p q := by
  induction h with
  | refl => exact .inr .refl
  | tail _ hstep ih =>
    rcases ih with hlimited | hrun
    · exact .inl (hlimited.mono hstep.noted_suffix)
    · exact (hstep.limited_or_step hle).imp_right hrun.tail

/-- With two levels for each token that is left and two more, no turn is cut off. -/
lemma Step.not_limited (h : Step room p q) (hroom : 2 * p.2.cursor.left + 2 ≤ room)
    (hp : ¬ p.2.Limited) : ¬ q.2.Limited := by
  cases h with
  | @declaration _ _ t r hcurrent hstarts hreads =>
    have hcut := hreads.not_cut hroom hp
    obtain ⟨bound, hr⟩ := hreads
    rcases r with e | ⟨d, _ | e⟩
    · exact fun h => hcut ((State.limited_note.mp h).imp (fun he => ⟨e, rfl, he⟩) id)
    · exact fun h => hcut (.inr h)
    · have hplain := Goal.plain_of_run _ _ _ _ _ _ hr
      exact fun h => (State.limited_note.mp h).elim (hplain e rfl) fun h => hcut (.inr h)
  | @pass _ _ token hcurrent hstarts =>
    unfold passOver
    split
    · exact fun h => (State.limited_note.mp h).elim nofun hp
    · exact hp

/-- With two levels for each token and two more, no run is cut off. -/
lemma run_not_limited (h : Relation.ReflTransGen (Step room) p q)
    (hroom : 2 * p.2.cursor.left + 2 ≤ room) (hp : ¬ p.2.Limited) :
    q.2.cursor.left ≤ p.2.cursor.left ∧ ¬ q.2.Limited := by
  induction h with
  | refl => exact ⟨Nat.le_refl _, hp⟩
  | tail _ hstep ih =>
    obtain ⟨hleft, hq⟩ := ih
    exact ⟨hstep.left_lt.2.le.trans hleft, hstep.not_limited (by omega) hq⟩

end TopLevel

/-- The limit on the levels of nesting only ever cuts off.  If no error of a reading is for
want of room, every higher limit gives the same reading; and a limit of two levels for each
token and two more is high enough for all lists of so many tokens. -/
theorem Parser.limit_only_cuts_off (tokens : List Token) :
    (∀ limit limit', limit ≤ limit' →
      (∀ e ∈ ((Parser.mk limit).readTokens tokens).errors, e.kind ≠ .nestingTooDeep) →
      (Parser.mk limit').readTokens tokens = (Parser.mk limit).readTokens tokens) ∧
    ∀ limit, 2 * tokens.length + 2 ≤ limit →
      ∀ e ∈ ((Parser.mk limit).readTokens tokens).errors, e.kind ≠ .nestingTooDeep := by
  refine ⟨fun limit limit' hle herrors => ?_, fun limit hlimit e he hkind => ?_⟩
  · obtain ⟨found, s, hrun, hend, heq⟩ := (Parser.mk limit).exists_steps tokens
    rw [heq] at herrors ⊢
    rcases TopLevel.limited_or_run hle hrun with ⟨e, he, hkind⟩ | hrun'
    · exact absurd hkind (herrors e (List.mem_reverse.mpr he))
    · exact (Parser.mk limit').readTokens_eq_of_run hrun' hend
  · obtain ⟨found, s, hrun, -, heq⟩ := (Parser.mk limit).exists_steps tokens
    rw [heq] at he
    have hleft : (Cursor.start tokens).shift.left = tokens.length := by
      rw [Cursor.left_shift, Cursor.left, Nat.add_sub_cancel]
    have hstart : ¬ (State.mk (Cursor.start tokens).shift []).Limited := by
      simp [State.Limited]
    refine (TopLevel.run_not_limited hrun ?_ hstart).2 ⟨e, List.mem_reverse.mp he, hkind⟩
    simpa only [hleft] using hlimit

theorem Parser.limit_only_cuts_off_call :
    let tokens := Token.ofText "let x = f((1))"
    (∀ e ∈ ((Parser.mk 9).readTokens tokens).errors, e.kind ≠ .nestingTooDeep) ∧
      (Parser.mk 256).readTokens tokens = (Parser.mk 9).readTokens tokens := by
  have hquiet : ∀ e ∈ ((Parser.mk 9).readTokens (Token.ofText "let x = f((1))")).errors,
      e.kind ≠ .nestingTooDeep := by decide +kernel
  exact ⟨hquiet, (limit_only_cuts_off _).1 9 256 (by decide) hquiet⟩

end FrontEnd
