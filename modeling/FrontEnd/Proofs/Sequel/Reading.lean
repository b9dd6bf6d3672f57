/-
Readings keep abreast.

* `Goal.procedure_paces`: every procedure of the grammar keeps abreast in a list without
  attributes.
* `Goal.Reads.followedBy`: so a reading that notes no error and ends in a value inside the list is
  also one in the list that goes on, or it has come to where the end of the list makes a difference.
-/
import FrontEnd.Proofs.Sequel.Declaration

namespace FrontEnd

/-- There is no `@` in a list of tokens. -/
def Unattributed (tokens : List Token) : Prop :=
  ∀ t ∈ tokens, t.kind ≠ .punctuator .atSign

variable {q : Sequel} {s : State}

lemma Cursor.here?_ne_atSign {c : Cursor} (h : Unattributed c.toList) :
    c.here? ≠ some (.punctuator .atSign) := by
  intro hhere
  obtain ⟨b, t, a, rfl⟩ := exists_on_of_here? (c := c) (by simp [hhere])
  refine h t (by simp) ?_
  have hplain : t.kind.plain = .punctuator .atSign := by simpa [here?, kind?, current?] using hhere
  revert hplain
  cases t.kind <;> simp [TokenKind.plain]

namespace Goal

open Grammar in
/-- Every procedure keeps abreast. -/
lemma procedure_paces (g : Goal) (hs : s.cursor.here? ≠ none) (hno : Unattributed s.cursor.toList) :
    g.procedure.Paces q s fun a s' => g.Parts a s'.cursor := by
  have hsign : s.cursor.here? ≠ some (.punctuator .atSign) := Cursor.here?_ne_atSign hno
  cases g with
  | type => exact type_paces hs
  | types => exact types_paces hs
  | typePath => exact typePath_paces hs
  | typeMarks => exact typeMarks_paces hs
  | expression floor => exact expression_paces floor hs
  | operations floor => exact operations_paces floor hs
  | operand => exact operand_paces hs
  | suffixes => exact suffixes_paces hs
  | arguments closer => exact arguments_paces closer hs
  | elements => exact elements_paces hs
  | entries => exact entries_paces hs
  | pattern mode => exact pattern_paces mode hs
  | patterns mode => exact patterns_paces mode hs
  | patternMarks => exact patternMarks_paces hs
  | block => exact block_paces hs
  | statements stop => exact statements_paces stop hs
  | item => exact item_paces hs hsign
  | statement => exact statement_paces hs
  | elseIf => exact elseIf_paces hs
  | conditions => exact conditions_paces hs
  | handlers => exact handlers_paces hs
  | switchBody => exact switchBody_paces hs
  | arms => exact arms_paces hs
  | caseItems => exact caseItems_paces hs
  | declaration context => exact declaration_paces context hs
  | attributes => exact attributes_paces hs hsign
  | modifiers => exact modifiers_paces hs
  | submodules => exact submodules_paces hs
  | bindings => exact bindings_paces hs
  | parameters => exact parameters_paces hs
  | typeBody context => exact typeBody_paces context hs
  | members context =>
    refine members_paces context hs (Cursor.here?_ne_atSign ?_)
    rwa [Cursor.toList_advance]
  | caseNames => exact caseNames_paces hs

/-- A reading that notes no error and ends in a value inside the list is also one in the list that
goes on. -/
theorem Reads.followedBy {room : Nat} {g : Goal} {s t : State} {a : g.Result}
    (h : g.Reads room s (.ok a) t) (hquiet : t.noted = s.noted) (hs : s.cursor.here? ≠ none)
    (hno : Unattributed s.cursor.toList) :
    (g.Reads room (s.followedBy q) (.ok a) (t.followedBy q) ∧ t.cursor.here? ≠ none) ∨
      g.Parts a t.cursor := by
  obtain ⟨bound, hr⟩ := h
  induction bound generalizing room g s a t with
  | zero => simp [run] at hr
  | succ below ih =>
    rw [run] at hr
    rcases hroom : g.roomInside? room with _ | inside
    · simp [hroom] at hr
    · rw [hroom] at hr
      refine ((g.procedure_paces hs hno).perform (noted_suffix_of_run below inside)
        (fun g s a s' hr hquiet => ?_) (fun g s a s' hlist hs hr hquiet => ?_) rfl hr hquiet
        []).imp_left fun h => ⟨Reads.of_meets hroom h.1, h.2⟩
      · exact ⟨Reads.onward_back ⟨below, hr⟩, Reads.fed ⟨below, hr⟩ hquiet⟩
      · exact ih hquiet hs (hlist ▸ hno) hr

end Goal

end FrontEnd
