/-
Readings of texts that differ in what a view does not show.

Two cursors over different lists may be coupled so that every instruction that is given from
where it fits answers alike through a view, and leads to coupled cursors again (`Coupling`).
Then so does every goal that is read from where it may be called (`Goal.Reads.alike`): its
procedure looks at answers only as the view shows them, and keeps its footing on both sides.
The loop over the top level does the same, where the two sides may pass over blanks at
different times (`TopLevel.exists_ends_alike`).
-/
import FrontEnd.Proofs.Footing.Reading
import FrontEnd.Proofs.Progress.Steps
import FrontEnd.Proofs.View.Declaration

namespace FrontEnd

/-- Instructions that fit on both sides answer alike, and lead to coupled cursors. -/
structure Coupling (v : View) (C : Cursor → Cursor → Prop) : Prop where
  answer {c c' : Cursor} (h : C c c') {i : Instruction} (hfits : i.Fits c) (hfits' : i.Fits c') :
    i.view v (i.perform c).1 = i.view v (i.perform c').1
  moved {c c' : Cursor} (h : C c c') {i : Instruction} (hfits : i.Fits c) (hfits' : i.Fits c') :
    C (i.perform c).2 (i.perform c').2

/-- Two states with coupled cursors, whose errors look alike. -/
structure State.Coupled (v : View) (C : Cursor → Cursor → Prop) (s s' : State) : Prop where
  cursor : C s.cursor s'.cursor
  noted : s.noted.map (·.view v) = s'.noted.map (·.view v)

section

variable {v : View} {C : Cursor → Cursor → Prop}

lemma State.Coupled.note {s s' : State} (h : s.Coupled v C s') {e e' : ParseError}
    (he : e.view v = e'.view v) : (s.note e).Coupled v C (s'.note e') :=
  ⟨h.cursor, by simp [State.note, he, h.noted]⟩

lemma State.Coupled.moveTo {s s' : State} (h : s.Coupled v C s') {D : Cursor → Cursor → Prop}
    {c c' : Cursor} (hc : D c c') : (s.moveTo c).Coupled v D (s'.moveTo c') :=
  ⟨hc, h.noted⟩

/-- Two ends whose values correspond to one value, or whose errors look alike. -/
def EndsAlike {α α' β : Type} (v : View) (ok : α → β → Prop) (ok' : α' → β → Prop) :
    Except ParseError α → Except ParseError α' → Prop
  | .ok a, .ok a' => ∃ b, ok a b ∧ ok' a' b
  | .error e, .error e' => e.view v = e'.view v
  | _, _ => False

lemma EndsAlike.viewEnd_eq {g : Goal} {r r' : Except ParseError g.Result}
    (h : EndsAlike v (fun a b => b = g.view v a) (fun a b => b = g.view v a) r r') :
    g.viewEnd v r = g.viewEnd v r' := by
  rcases r with e | a <;> rcases r' with e' | a'
  · exact congrArg Except.error h
  · exact h.elim
  · exact h.elim
  · obtain ⟨b, rfl, hb⟩ := h
    exact congrArg Except.ok hb

/-- Two procedures that correspond to one that gets its answers through a view end alike from
coupled states, if the goals they call do. -/
lemma Procedure.Natural.perform_alike {α α' β : Type} (hC : Coupling v C)
    {ok : α → β → Prop} {ok' : α' → β → Prop} {p : Procedure α} {p' : Procedure α'}
    {q : Procedure β} (h : p.Natural v ok q) (h' : p'.Natural v ok' q) {K : Contract}
    {s s' : State} (hs : s.Coupled v C s')
    {fine : α → State → Prop} {err : ParseError → State → Prop} (ht : p.Treads K s fine err)
    {fine' : α' → State → Prop} {err' : ParseError → State → Prop}
    (ht' : p'.Treads K s' fine' err')
    {callee callee' : (g : Goal) → State → Outcome g.Result}
    (hcallee : ∀ g s s' r t r' t', K.enter g s → K.enter g s' → s.Coupled v C s' →
      callee g s = .finished r t → callee' g s' = .finished r' t' →
      g.viewEnd v r = g.viewEnd v r' ∧ t.Coupled v C t' ∧ K.Ends g s r t ∧ K.Ends g s' r' t')
    {r : Except ParseError α} {t : State} (hr : p.perform callee s = .finished r t)
    {r' : Except ParseError α'} {t' : State} (hr' : p'.perform callee' s' = .finished r' t') :
    EndsAlike v ok ok' r r' ∧ t.Coupled v C t' := by
  -- the two procedures have the same shape, since both correspond to one
  induction h generalizing p' s s' with
  | done h =>
    cases h' with | done h' => ?_
    cases hr
    cases hr'
    exact ⟨⟨_, h, h'⟩, hs⟩
  | fail h =>
    cases h' with | fail h' => ?_
    cases hr
    cases hr'
    exact ⟨h.symm.trans h', hs⟩
  | @ask i next next' h ih =>
    cases h' with | ask h' => ?_
    have hmoved := hs.moveTo (hC.moved hs.cursor ht.1 ht'.1)
    have hnext := h' (i.perform s'.cursor).1
    rw [← hC.answer hs.cursor ht.1 ht'.1] at hnext
    exact ih _ hnext hmoved ht.2 ht'.2 hr hr'
  | @call g next next' h ih =>
    cases h' with | call h' => ?_
    simp only [Procedure.perform] at hr hr'
    rcases hc : callee g s with ⟨r₁, t₁⟩ | _
    swap
    · simp [hc] at hr
    rcases hc' : callee' g s' with ⟨r₁', t₁'⟩ | _
    swap
    · simp [hc'] at hr'
    rw [hc] at hr
    rw [hc'] at hr'
    obtain ⟨hview, ht₁, hends, hends'⟩ := hcallee g s s' r₁ t₁ r₁' t₁' ht.1 ht'.1 hs hc hc'
    -- whatever the goal came to, the rest keeps its footing
    have htreads {α : Type} {next : Except ParseError g.Result → Procedure α} {s : State}
        {fine : α → State → Prop} {err : ParseError → State → Prop}
        (ht : (Procedure.call g next).Treads K s fine err) {r : Except ParseError g.Result} {t : State}
        (hends : K.Ends g s r t) : (next r).Treads K t fine err := by
      rcases r with e | a
      · exact ht.2.2 e t hends
      · exact ht.2.1 a t hends
    have hnext := h' r₁'
    rw [← hview] at hnext
    exact ih r₁ hnext ht₁ (htreads ht hends) (htreads ht' hends') hr hr'
  | note he h ih =>
    cases h' with | note he' h' => ?_
    exact ih h' (hs.note (he.symm.trans he')) ht.2 ht'.2 hr hr'

namespace Goal

/-- Readings that finish from coupled states end alike. -/
lemma run_alike (hC : Coupling v C) (bound room : Nat) (g : Goal) {s s' : State}
    (hs : s.Coupled v C s') (henter : footing.enter g s) (henter' : footing.enter g s')
    {r r' : Except ParseError g.Result} {t t' : State}
    (hr : g.run bound room s = .finished r t) (hr' : g.run bound room s' = .finished r' t') :
    g.viewEnd v r = g.viewEnd v r' ∧ t.Coupled v C t' := by
  induction bound generalizing room g s s' r r' t t' with
  | zero => simp [run] at hr
  | succ below ih =>
    rw [run] at hr hr'
    rcases hroom : g.roomInside? room with _ | inside
    · rw [hroom] at hr hr'
      cases hr
      cases hr'
      have hfits {s : State} (henter : footing.enter g s) :
          (Instruction.errorHere .nestingTooDeep).Fits s.cursor :=
        ⟨by simp, placeable_of_roomInside?_eq_none hroom henter.2⟩
      exact ⟨congrArg Except.error (hC.answer hs.cursor (hfits henter) (hfits henter')), hs⟩
    · rw [hroom] at hr hr'
      have hends {g : Goal} {s t : State} {r : Except ParseError g.Result}
          (henter : footing.enter g s) (hr : g.run below inside s = .finished r t) :
          footingOnward.Ends g s r t := by
        have hfooting := (Reads.footing ⟨below, hr⟩ henter).1
        have honward : g ≠ .submodules → s.cursor.position ≤ t.cursor.position :=
          fun hg => (Reads.onward hg ⟨below, hr⟩).2
        rcases r with e | a <;> exact ⟨honward, hfooting⟩
      obtain ⟨halike, ht⟩ := (g.natural v).perform_alike hC (g.natural v) hs
        (procedure_treads henter) (procedure_treads henter')
        (fun g s s' r t r' t' henter henter' hs hr hr' => by
          obtain ⟨hview, ht⟩ := ih inside g hs henter henter' hr hr'
          exact ⟨hview, ht, hends henter hr, hends henter' hr'⟩) hr hr'
      exact ⟨halike.viewEnd_eq, ht⟩

/-- Two readings of a goal from coupled states end alike. -/
theorem Reads.alike (hC : Coupling v C) {room : Nat} {g : Goal} {s s' t t' : State}
    {r r' : Except ParseError g.Result} (hr : g.Reads room s r t) (hr' : g.Reads room s' r' t')
    (hs : s.Coupled v C s') (henter : FrontEnd.footing.enter g s)
    (henter' : FrontEnd.footing.enter g s') :
    g.viewEnd v r = g.viewEnd v r' ∧ t.Coupled v C t' := by
  obtain ⟨bound, hr⟩ := hr
  obtain ⟨bound', hr'⟩ := hr'
  exact run_alike hC (max bound bound') room g hs henter henter'
    (run_mono (Nat.le_max_left _ _) hr) (run_mono (Nat.le_max_right _ _) hr')

end Goal

/-! ### The top level -/

/-- A cursor passes over blanks. -/
def Cursor.Drifts : Cursor → Cursor → Prop :=
  Relation.ReflTransGen fun c d =>
    ∃ token, c.current? = some token ∧ token.isBlank = true ∧ d = c.shift

lemma Cursor.startsDeclaration_of_isBlank {c : Cursor} {token : Token}
    (hcurrent : c.current? = some token) (hblank : token.isBlank = true) :
    c.startsDeclaration = false := by
  rw [startsDeclaration, hcurrent]
  obtain ⟨kind, span, range⟩ := token
  cases kind <;> simp [Token.isBlank, TokenKind.isBlank, TokenKind.isLineBreak,
    TokenKind.isInlineBlank] at hblank <;>
    simp [HeaderPlace.leadsOn, TokenKind.isDeclarationKeyword, TokenKind.role?]

namespace TopLevel

variable {room : Nat} {found : List Declaration} {s : State}

/-- The loop over the top level passes over blanks without a word. -/
lemma run_of_drifts {d : Cursor} (h : s.cursor.Drifts d) :
    Relation.ReflTransGen (Step room) (found, s) (found, s.moveTo d) := by
  obtain ⟨c, noted⟩ := s
  simp only [State.moveTo] at h ⊢
  induction h with
  | refl => exact .refl
  | @tail c e _ hblank ih =>
    refine ih.tail ?_
    obtain ⟨token, hcurrent, hblank, rfl⟩ := hblank
    have hstep : Step room (found, ⟨c, noted⟩) _ :=
      .pass hcurrent (Cursor.startsDeclaration_of_isBlank hcurrent hblank)
    have hvalid : token.kind.isInvalid = false := by
      revert hblank
      rw [Token.isBlank]
      cases token.kind <;> simp [TokenKind.isBlank, TokenKind.isLineBreak,
        TokenKind.isInlineBlank, TokenKind.isInvalid]
    simpa [passOver, hvalid, State.moveTo] using hstep

lemma left_le_of_drifts {c d : Cursor} (h : c.Drifts d) : d.left ≤ c.left := by
  induction h with
  | refl => exact Nat.le_refl _
  | tail _ hblank ih =>
    obtain ⟨-, -, -, rfl⟩ := hblank
    rw [Cursor.left_shift]
    omega

variable {C D : Cursor → Cursor → Prop}

/-- Passing over a token, alike on both sides. -/
lemma passOver_coupled (hC : Coupling v C) {s s' : State} (hs : s.Coupled v C s')
    {token token' : Token} (hcurrent : s.cursor.current? = some token)
    (hcurrent' : s'.cursor.current? = some token') :
    (passOver token s).Coupled v C (passOver token' s') := by
  have hfits {s : State} {token : Token} (hcurrent : s.cursor.current? = some token)
      (hinvalid : token.kind.isInvalid = true) :
      (Instruction.errorHere .unknown).Fits s.cursor := by
    have hhere : s.cursor.here? = some token.kind.plain := by
      simp [Cursor.here?, Cursor.kind?, hcurrent]
    refine ⟨by simp, (Cursor.clear_of_here? hhere ?_).onLine.placeable⟩
    · revert hinvalid
      cases token.kind <;> simp [TokenKind.isInvalid, TokenKind.plain, TokenKind.isBlank,
        TokenKind.isLineBreak, TokenKind.isInlineBlank]
  have hkind : token.kind.isInvalid = token'.kind.isInvalid := by
    have hhere : s.cursor.here? = s'.cursor.here? :=
      hC.answer hs.cursor (i := .here) trivial trivial
    have hplain (kind : TokenKind) : kind.plain.isInvalid = kind.isInvalid := by
      cases kind <;> rfl
    simp only [Cursor.here?, Cursor.kind?, hcurrent, hcurrent', Option.map_some,
      Option.some.injEq] at hhere
    rw [← hplain, hhere, hplain]
  unfold passOver
  by_cases h : token.kind.isInvalid = true
  · rw [if_pos h, if_pos (hkind ▸ h)]
    exact hs.note (hC.answer hs.cursor (hfits hcurrent h) (hfits hcurrent' (hkind ▸ h)))
  · rw [if_neg h, if_neg (hkind ▸ h)]
    exact hs

/-- Taking up what was read, alike on both sides. -/
lemma takeUp_coupled {found found' : List Declaration} {s s' : State} (hs : s.Coupled v C s')
    (hfound : found.map (·.view v) = found'.map (·.view v))
    {r r' : Except ParseError (Kept Declaration)}
    (hr : (Goal.declaration .topLevel).viewEnd v r = (Goal.declaration .topLevel).viewEnd v r') :
    (takeUp found r s).2.Coupled v C (takeUp found' r' s').2 ∧
      (takeUp found r s).1.map (·.view v) = (takeUp found' r' s').1.map (·.view v) := by
  rcases r with e | ⟨d, complaint⟩ <;> rcases r' with e' | ⟨d', complaint'⟩ <;>
    simp only [Goal.viewEnd, Goal.view, Kept.view, Except.error.injEq, Except.ok.injEq,
      Kept.mk.injEq, reduceCtorEq] at hr
  · exact ⟨hs.note hr, hfound⟩
  · obtain ⟨hd, hcomplaint⟩ := hr
    rcases complaint with _ | e <;> rcases complaint' with _ | e' <;>
      simp only [Option.map_none, Option.map_some, reduceCtorEq, Option.some.injEq] at hcomplaint
    · exact ⟨hs, by simp [takeUp, hd, hfound]⟩
    · exact ⟨hs.note hcomplaint, by simp [takeUp, hd, hfound]⟩

/-- A turn of the loop over the top level from coupled cursors. -/
lemma exists_step_alike (room : Nat) (hC : Coupling v C)
    (hpos : ∀ c c', C c c' → 0 < c.position ∧ 0 < c'.position)
    {found found' : List Declaration} {s s' : State} (hs : s.Coupled v C s')
    (hfound : found.map (·.view v) = found'.map (·.view v)) (hcurrent : s.cursor.current?.isSome)
    (hcurrent' : s'.cursor.current?.isSome) :
    ∃ (next next' : List Declaration) (t t' : State),
      Step room (found, s) (next, t.moveTo t.cursor.shift) ∧
      Step room (found', s') (next', t'.moveTo t'.cursor.shift) ∧ t.Coupled v C t' ∧
      next.map (·.view v) = next'.map (·.view v) := by
  have hstarts : s.cursor.startsDeclaration = s'.cursor.startsDeclaration :=
    hC.answer hs.cursor (i := .startsDeclaration) trivial trivial
  rcases h : s.cursor.startsDeclaration with _ | _
  · obtain ⟨token, htoken⟩ := Option.isSome_iff_exists.mp hcurrent
    obtain ⟨token', htoken'⟩ := Option.isSome_iff_exists.mp hcurrent'
    refine ⟨found, found', passOver token s, passOver token' s', ?_, ?_,
      passOver_coupled hC hs htoken htoken', hfound⟩
    · rw [cursor_passOver]
      exact .pass htoken h
    · rw [cursor_passOver]
      exact .pass htoken' (hstarts ▸ h)
  · obtain ⟨r, t, hr⟩ := Goal.exists_reads room (.declaration .topLevel) s
    obtain ⟨r', t', hr'⟩ := Goal.exists_reads room (.declaration .topLevel) s'
    obtain ⟨hends, ht⟩ := hr.alike hC hr' hs ⟨(hpos _ _ hs.cursor).1, .inl h⟩
      ⟨(hpos _ _ hs.cursor).2, .inl (hstarts ▸ h)⟩
    obtain ⟨hcoupled, hnext⟩ := takeUp_coupled ht hfound hends
    refine ⟨_, _, _, _, ?_, ?_, hcoupled, hnext⟩
    · rw [cursor_takeUp]
      exact .declaration hcurrent h hr
    · rw [cursor_takeUp]
      exact .declaration hcurrent' (hstarts ▸ h) hr'

/-- Where two sides pass over blanks to coupled cursors, the loop over the top level ends alike
on both. -/
theorem exists_ends_alike (room : Nat) (hC : Coupling v C)
    (hpos : ∀ c c', C c c' → 0 < c.position ∧ 0 < c'.position)
    (hdrifts : ∀ c c', D c c' → ∃ d d', c.Drifts d ∧ c'.Drifts d' ∧ C d d')
    (hshift : ∀ c c', C c c' → D c.shift c'.shift)
    {found found' : List Declaration} {s s' : State} (hs : s.Coupled v D s')
    (hfound : found.map (·.view v) = found'.map (·.view v)) :
    ∃ (last last' : List Declaration) (t t' : State),
      Relation.ReflTransGen (Step room) (found, s) (last, t) ∧
      Relation.ReflTransGen (Step room) (found', s') (last', t') ∧
      t.cursor.current? = none ∧ t'.cursor.current? = none ∧
      last.map (·.view v) = last'.map (·.view v) ∧
      t.noted.map (·.view v) = t'.noted.map (·.view v) := by
  -- the two sides may pass over different blanks, so the induction is on what is left on the first
  induction hleft : s.cursor.left using Nat.strong_induction_on generalizing found found' s s' with
  | _ left ih =>
    obtain ⟨d, d', hd, hd', hC'⟩ := hdrifts _ _ hs.cursor
    have hcoupled : (s.moveTo d).Coupled v C (s'.moveTo d') := hs.moveTo hC'
    have hhere : d.here? = d'.here? := hC.answer hC' (i := .here) trivial trivial
    have hcurrent : d.current?.isSome = d'.current?.isSome := by
      simpa [Cursor.here?, Cursor.kind?] using congrArg Option.isSome hhere
    rcases h : d.current?.isSome with _ | _
    · refine ⟨found, found', s.moveTo d, s'.moveTo d', run_of_drifts hd, run_of_drifts hd', ?_, ?_,
        hfound, hs.noted⟩
      · simpa using h
      · rw [h] at hcurrent
        simpa using hcurrent.symm
    · -- a turn on both sides, coupled again once the loop has taken the last token
      obtain ⟨next, next', t, t', hstep, hstep', ht, hnext⟩ :=
        exists_step_alike room hC hpos hcoupled hfound h (hcurrent ▸ h)
      have hlt : t.cursor.shift.left < left := by
        have hstep := hstep.left_lt.2
        have hdrift := left_le_of_drifts hd
        simp only [State.cursor_moveTo] at hstep
        omega
      obtain ⟨last, last', e, e', hrun, hrun', hends⟩ :=
        ih _ hlt (ht.moveTo (hshift _ _ ht.cursor)) hnext rfl
      exact ⟨last, last', e, e', (run_of_drifts hd).trans (hrun.head hstep),
        (run_of_drifts hd').trans (hrun'.head hstep'), hends⟩

end TopLevel

open TopLevel in
/-- Two lists of tokens from whose first tokens the loop over the top level ends alike are read
alike. -/
theorem Parser.readTokens_alike {C D : Cursor → Cursor → Prop} (hC : Coupling v C)
    (hpos : ∀ c c', C c c' → 0 < c.position ∧ 0 < c'.position)
    (hdrifts : ∀ c c', D c c' → ∃ d d', c.Drifts d ∧ c'.Drifts d' ∧ C d d')
    (hshift : ∀ c c', C c c' → D c.shift c'.shift) (p : Parser) {tokens tokens' : List Token}
    (hstart : D (Cursor.start tokens).shift (Cursor.start tokens').shift) :
    (p.readTokens tokens).root.declarations.map (·.view v) =
        (p.readTokens tokens').root.declarations.map (·.view v) ∧
      (p.readTokens tokens).errors.map (·.view v) = (p.readTokens tokens').errors.map (·.view v) := by
  have hcoupled : State.Coupled v D ⟨(Cursor.start tokens).shift, []⟩
      ⟨(Cursor.start tokens').shift, []⟩ := ⟨hstart, rfl⟩
  obtain ⟨last, last', t, t', hrun, hrun', hend, hend', hlast, hnoted⟩ :=
    exists_ends_alike p.maxDepth hC hpos hdrifts hshift hcoupled (List.map_nil.trans List.map_nil.symm)
  rw [p.readTokens_eq_of_run hrun hend, p.readTokens_eq_of_run hrun' hend']
  simp only [List.map_reverse, hlast, hnoted, and_self]

end

end FrontEnd
