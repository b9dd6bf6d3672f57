/-
No error of a reading is internal.

* `Goal.procedure_treads`: every procedure of the grammar keeps its footing.
* `Goal.Reads.footing`: so does every reading of a goal from where it may be called.
* `Parser.readTokens_no_internal`: no error of a reading of tokens is internal, since the top
  level calls a declaration only where one starts.
-/
import FrontEnd.Parser
import FrontEnd.Proofs.Footing.Declaration

namespace FrontEnd

/-- No error noted so far is internal. -/
def State.Sane (s : State) : Prop :=
  ∀ e ∈ s.noted, e.kind ≠ .internal

lemma State.Sane.note {s : State} {e : ParseError} (h : s.Sane) (he : e.kind ≠ .internal) :
    (s.note e).Sane :=
  List.forall_mem_cons.mpr ⟨he, h⟩

/-- A reading has ended as wanted, in a value or in an error. -/
def Ends {α : Type} (ok : α → State → Prop) (err : ParseError → State → Prop) :
    Except ParseError α → State → Prop
  | .ok a, s => ok a s
  | .error e, s => err e s

/-- A reading has ended as a contract says. -/
def Contract.Ends (K : Contract) (g : Goal) (s : State) (r : Except ParseError g.Result)
    (s' : State) : Prop :=
  FrontEnd.Ends (K.value g s) (K.error g s) r s'

/-- What a procedure ends in is what its contract says, and it notes no internal error, if the
goals it calls do so. -/
lemma Procedure.Treads.perform {α : Type} {K : Contract} {p : Procedure α} {s : State}
    {ok : α → State → Prop} {err : ParseError → State → Prop} (h : p.Treads K s ok err)
    {callee : (g : Goal) → State → Outcome g.Result}
    (hcallee : ∀ g s r s', K.enter g s → callee g s = .finished r s' →
      K.Ends g s r s' ∧ (s.Sane → s'.Sane))
    {r : Except ParseError α} {s' : State} (hr : p.perform callee s = .finished r s') :
    Ends ok err r s' ∧ (s.Sane → s'.Sane) := by
  induction p generalizing s with
  | done a =>
    cases hr
    exact ⟨h, id⟩
  | fail e =>
    cases hr
    exact ⟨h, id⟩
  | ask i next ih =>
    have hnext := ih _ h.2 hr
    exact hnext
  | call g next ih =>
    obtain ⟨henter, hvalue, herror⟩ := h
    simp only [Procedure.perform] at hr
    rcases hc : callee g s with ⟨e | a, t⟩ | _
    · obtain ⟨hends, hsane⟩ := hcallee _ _ _ _ henter hc
      rw [hc] at hr
      exact (ih _ (herror e t hends) hr).imp_right fun h hs => h (hsane hs)
    · obtain ⟨hends, hsane⟩ := hcallee _ _ _ _ henter hc
      rw [hc] at hr
      exact (ih _ (hvalue a t hends) hr).imp_right fun h hs => h (hsane hs)
    · simp [hc] at hr
  | note e next ih => exact (ih h.2 hr).imp_right fun hsane hs => hsane (hs.note h.1)

namespace Goal

open Grammar in
/-- Every procedure keeps its footing. -/
lemma procedure_treads {g : Goal} {s : State} (henter : footing.enter g s) :
    g.procedure.Treads footingOnward s (footing.value g s) (footing.error g s) := by
  obtain ⟨hpos, happroach⟩ := henter
  cases g with
  | type => exact type_stands hpos happroach
  | types => exact types_stands hpos happroach
  | typePath => exact typePath_stands hpos happroach
  | typeMarks => exact typeMarks_stands hpos happroach
  | expression floor => exact expression_stands floor hpos happroach
  | operations floor => exact operations_stands floor hpos happroach
  | operand => exact operand_stands hpos happroach
  | suffixes => exact suffixes_stands hpos happroach
  | arguments closer => exact arguments_stands closer hpos happroach
  | elements => exact elements_stands
  | entries => exact entries_stands
  | pattern mode => exact pattern_stands mode hpos happroach
  | patterns mode => exact patterns_stands mode hpos happroach
  | patternMarks => exact patternMarks_stands hpos happroach
  | block => exact block_stands hpos happroach
  | statements stop => exact statements_stands stop hpos
  | item => exact item_treads hpos happroach
  | statement => exact statement_treads hpos happroach
  | elseIf => exact elseIf_stands happroach
  | conditions => exact conditions_stands hpos happroach
  | handlers => exact handlers_stands hpos happroach
  | switchBody => exact switchBody_stands
  | arms => exact arms_stands hpos happroach
  | caseItems => exact caseItems_stands
  | declaration context => exact declaration_treads context hpos happroach
  | attributes => exact attributes_treads hpos happroach
  | modifiers => exact modifiers_treads hpos happroach
  | submodules => exact submodules_stands hpos happroach
  | bindings => exact bindings_stands
  | parameters => exact parameters_stands hpos happroach
  | typeBody context => exact typeBody_stands context hpos
  | members context => exact members_stands context hpos
  | caseNames => exact caseNames_stands

/-- Where there is no room for a goal, the error can be placed. -/
lemma placeable_of_roomInside?_eq_none {g : Goal} {room : Nat} {c : Cursor}
    (hroom : g.roomInside? room = none) (happroach : g.Approach c) : c.Placeable := by
  have hlevel : g.isLevel = true := by
    by_contra hlevel
    simp [roomInside?, hlevel] at hroom
  cases g <;> simp [isLevel] at hlevel <;> exact (Cursor.Clear.onLine happroach).placeable

/-- A reading that finishes keeps its footing, and notes no internal error. -/
lemma run_footing (bound room : Nat) (g : Goal) (s : State) (r : Except ParseError g.Result)
    (s' : State) (henter : footing.enter g s) (hr : g.run bound room s = .finished r s') :
    footing.Ends g s r s' ∧ (s.Sane → s'.Sane) := by
  induction bound generalizing room g s r s' with
  | zero => simp [run] at hr
  | succ below ih =>
    rw [run] at hr
    rcases hroom : g.roomInside? room with _ | inside
    · rw [hroom] at hr
      cases hr
      have hplaceable := placeable_of_roomInside?_eq_none hroom henter.2
      exact ⟨⟨henter.1, by simp, hplaceable⟩, id⟩
    · rw [hroom] at hr
      refine (procedure_treads henter).perform (fun g s r s' henter hr => ?_) hr
      obtain ⟨hends, hsane⟩ := ih inside g s r s' henter hr
      refine ⟨?_, hsane⟩
      have honward : g ≠ .submodules → s.cursor.position ≤ s'.cursor.position :=
        fun hg => (Reads.onward hg ⟨below, hr⟩).2
      cases r with
      | ok a => exact ⟨honward, hends⟩
      | error e => exact ⟨honward, hends⟩

/-- A reading of a goal from where it may be called keeps its footing, and notes no internal
error. -/
theorem Reads.footing {room : Nat} {g : Goal} {s s' : State} {r : Except ParseError g.Result}
    (h : g.Reads room s r s') (henter : FrontEnd.footing.enter g s) :
    FrontEnd.footing.Ends g s r s' ∧ (s.Sane → s'.Sane) := by
  obtain ⟨bound, hr⟩ := h
  exact run_footing bound room g s r s' henter hr

end Goal

namespace TopLevel

variable {room : Nat} {found found' : List Declaration} {s s' : State}

/-- A turn of the loop over the top level finds no internal error. -/
lemma Step.sane (h : Step room (found, s) (found', s')) (hpos : 0 < s.cursor.position)
    (hsane : s.Sane) : s'.Sane := by
  cases h with
  | @declaration _ _ t r hcurrent hstarts hreads =>
    obtain ⟨hends, htsane⟩ := hreads.footing ⟨hpos, .inl hstarts⟩
    rcases r with e | ⟨d, _ | e⟩
    · exact (htsane hsane).note hends.2.1
    · exact htsane hsane
    · exact (htsane hsane).note (hends.2 e rfl)
  | pass hcurrent hstarts =>
    unfold passOver
    split
    · exact hsane.note (by simp)
    · exact hsane

end TopLevel

open TopLevel in
/-- No error of a reading of tokens is internal: where a declaration is called, the attributes
and modifiers end on a keyword that says which declaration it is or behind a modifier, and no
step back is taken without a current token. -/
theorem Parser.readTokens_no_internal (p : Parser) (tokens : List Token) :
    (p.readTokens tokens).errors.all (·.kind ≠ .internal) := by
  obtain ⟨found, s, hrun, -, heq⟩ := p.exists_steps tokens
  have hsteps (last : List Declaration × State)
      (hrun : Relation.ReflTransGen (Step p.maxDepth) ([], ⟨(Cursor.start tokens).shift, []⟩)
        last) : 0 < last.2.cursor.position ∧ last.2.Sane := by
    induction hrun with
    | refl => exact ⟨Cursor.position_shift_pos _, by simp [State.Sane]⟩
    | tail _ hstep ih => exact ⟨ih.1.trans hstep.position_lt, hstep.sane ih.1 ih.2⟩
  rw [heq]
  simpa [State.Sane] using (hsteps _ hrun).2

end FrontEnd
