/-
Reading ends, and goes onward on its way.

* `Goal.run_ne_stalled`: no reading reaches a bound on the depth of calls that
  allows for sixteen calls a token.
* `Goal.Reads.onward`: no goal but the names behind the module of an import ends
  before the place where it started.
* `Goal.Calls.statements_lt`, `Goal.Calls.members_lt`: each turn of the loops over
  statements and members looks at a later token than the turn before.
* `Parser.reading_goes_onward`: all this for the reading of a list of tokens, whose
  top level goes on until no token is left.
-/
import Mathlib.Logic.Relation
import FrontEnd.Parser
import FrontEnd.Proofs.Progress.Declaration
import FrontEnd.Proofs.Progress.Expression
import FrontEnd.Proofs.Reads

namespace FrontEnd

open Grammar in
/-- Every goal leads onward. -/
lemma Goal.procedure_meets {below room : Nat} {way : List Event} {s : State} (g : Goal)
    (hbound : 16 * s.cursor.left + g.rank ≤ below) :
    g.procedure.Meets ((progress below room).given fun _ _ _ => True) way s
      (fun _ _ s' => s.cursor.Onward g.givesBack s'.cursor)
      (fun _ _ s' => s.cursor.Onward g.givesBack s'.cursor) := by
  cases g with
  | type => exact type_progresses hbound room way
  | types => exact types_progresses hbound room way
  | typePath => exact typePath_progresses hbound room way
  | typeMarks => exact typeMarks_progresses hbound room way
  | expression floor => exact expression_progresses floor hbound room way
  | operations floor => exact operations_progresses floor hbound room way
  | operand => exact operand_progresses hbound room way
  | suffixes => exact suffixes_progresses hbound room way
  | arguments closer => exact arguments_progresses closer hbound room way
  | elements => exact elements_progresses hbound room way
  | entries => exact entries_progresses hbound room way
  | pattern mode => exact pattern_progresses mode hbound room way
  | patterns mode => exact patterns_progresses mode hbound room way
  | patternMarks => exact patternMarks_progresses hbound room way
  | block => exact block_progresses hbound room way
  | statements stop => exact statements_progresses stop hbound room way
  | item => exact item_progresses hbound room way
  | statement => exact statement_progresses hbound room way
  | elseIf => exact elseIf_progresses hbound room way
  | conditions => exact conditions_progresses hbound room way
  | handlers => exact handlers_progresses hbound room way
  | switchBody => exact switchBody_progresses hbound room way
  | arms => exact arms_progresses hbound room way
  | caseItems => exact caseItems_progresses hbound room way
  | declaration context => exact declaration_progresses context hbound room way
  | attributes => exact attributes_progresses hbound room way
  | modifiers => exact modifiers_progresses hbound room way
  | submodules => exact submodules_meets hbound
  | bindings => exact bindings_progresses hbound room way
  | parameters => exact parameters_progresses hbound room way
  | typeBody context => exact typeBody_progresses context hbound room way
  | members context => exact members_progresses context hbound room way
  | caseNames => exact caseNames_progresses hbound room way

lemma progress_kept : progress.Kept fun _ _ _ => True where
  procedure _ _ _ g _ _ henter :=
    (g.procedure_meets (Nat.lt_succ_iff.mp henter)).imp (fun _ _ _ h _ _ => h) fun _ _ _ h _ _ => h
  noRoom _ _ _ _ _ _ := ⟨rfl, Nat.le_add_right _ _⟩

/-- Of every reading it is known that it is one. -/
lemma known_true : Contract.Known fun _ _ _ => True :=
  fun _ _ _ _ _ _ _ => trivial

namespace Goal

variable {bound room : Nat} {g : Goal} {s s' : State} {r : Except ParseError g.Result}

/-- A bound of sixteen calls for each token that is left, and a few more, is never
reached. -/
theorem run_ne_stalled (h : 16 * s.cursor.left + g.rank < bound) :
    g.run bound room s ≠ .stalled :=
  progress_kept.not_stalled known_true (fun _ _ _ => Nat.not_lt_zero _) bound room g s h

/-- From every state every goal reads something, or ends in an error. -/
theorem exists_reads (room : Nat) (g : Goal) (s : State) : ∃ r s', g.Reads room s r s' := by
  have h : g.run (16 * s.cursor.left + g.rank).succ room s ≠ .stalled :=
    run_ne_stalled (Nat.lt_succ_self _)
  rcases hr : g.run (16 * s.cursor.left + g.rank).succ room s with ⟨r, s'⟩ | _
  · exact ⟨r, s', _, hr⟩
  · exact absurd hr h

/-- A goal stays in its list, and ends at most as far back as it may step. -/
lemma Reads.onward_back (h : g.Reads room s r s') :
    s.cursor.Onward g.givesBack s'.cursor := by
  obtain ⟨bound, h⟩ := h
  have hmono := run_mono (Nat.le_add_right bound (16 * s.cursor.left + g.rank + 1)) h
  have hkept := progress_kept.finished known_true _ room g s
    (show 16 * s.cursor.left + g.rank < bound + (16 * s.cursor.left + g.rank + 1) by omega)
  rcases r with e | a
  · exact hkept.2 e s' hmono
  · exact hkept.1 a s' hmono

/-- No goal but the names behind a module ends before the place where it started. -/
theorem Reads.onward (hg : g ≠ submodules) (h : g.Reads room s r s') :
    s'.cursor.toList = s.cursor.toList ∧ s.cursor.position ≤ s'.cursor.position := by
  have hback : g.givesBack = 0 := by
    cases g <;> simp [givesBack] at hg ⊢
  obtain ⟨hlist, hleft⟩ := h.onward_back
  have h₁ := s.cursor.position_add_left
  have h₂ := s'.cursor.position_add_left
  rw [hlist] at h₂
  exact ⟨hlist, by omega⟩

/-- Of every reading it is known that it leads onward. -/
lemma known_onward :
    Contract.Known fun g s s' => s.cursor.Onward g.givesBack s'.cursor :=
  fun bound _ _ _ _ _ h => Reads.onward_back ⟨bound, h⟩

/-- What the events on the way of a reading satisfy, if all ways through the
procedure do. -/
lemma Calls.of_meets {g' : Goal} {t : State} {P : List Event → Prop}
    (h : g.Calls room s g' t)
    (hP : ∀ below inside, 16 * s.cursor.left + g.rank ≤ below →
      g.procedure.Meets ((progress below inside).given fun _ _ _ => True) [] s
        (fun way _ _ => P way) fun way _ _ => P way) :
    ∃ way, .called g' t ∈ way ∧ P way := by
  obtain ⟨bound, inside, -, hfin, hcalled⟩ := h
  have hmeets := (hP (16 * s.cursor.left + g.rank) inside (Nat.le_refl _)).perform
    (run bound inside) (fun g s a s' _ hr => ⟨trivial, Reads.onward_back ⟨bound, hr⟩⟩)
    (fun g s e s' _ hr => ⟨trivial, Reads.onward_back ⟨bound, hr⟩⟩)
  refine ⟨_, hcalled, ?_⟩
  rcases hr : g.procedure.perform (run bound inside) s with ⟨e | a, s'⟩ | _
  · exact hmeets.2 e s' hr
  · exact hmeets.1 a s' hr
  · exact absurd hr hfin

end Goal

/-! ### The loops -/

namespace Goal

variable {room : Nat} {s t : State}

open Procedure Grammar

/-- The next turn of the loop over the statements of a block looks at a later
token. -/
theorem Calls.statements_lt {stop stop' : BlockEnd}
    (h : (statements stop).Calls room s (statements stop') t) :
    (s.cursor.advance .anyLine).position < (t.cursor.advance .anyLine).position := by
  obtain ⟨way, hmem, hway⟩ := h.of_meets (fun below inside hbound =>
    Grammar.statements_meets_later stop hbound)
  exact hway stop' t hmem

/-- The next turn of the loop over the members of a type looks at a later token. -/
theorem Calls.members_lt {context context' : Context}
    (h : (members context).Calls room s (members context') t) :
    (s.cursor.advance .anyLine).position < (t.cursor.advance .anyLine).position := by
  obtain ⟨way, hmem, hway⟩ := h.of_meets (fun below inside hbound =>
    Grammar.members_meets_later context hbound)
  exact hway context' t hmem

end Goal

namespace TopLevel

/-- Passes over a token that starts no declaration; an invalid one is an error. -/
def passOver (token : Token) (s : State) : State :=
  if token.kind.isInvalid then s.note (s.cursor.error .unknown) else s

lemma cursor_passOver (token : Token) (s : State) : (passOver token s).cursor = s.cursor := by
  unfold passOver
  split <;> rfl

/-- One turn of the loop over the top level: what was found and where the reading stands,
before and after. -/
inductive Step (room : Nat) : List Declaration × State → List Declaration × State → Prop where
  /-- A declaration starts here. -/
  | declaration {found : List Declaration} {s s' : State}
      {r : Except ParseError (Kept Declaration)} (hcurrent : s.cursor.current?.isSome)
      (hstarts : s.cursor.startsDeclaration)
      (hreads : (Goal.declaration .topLevel).Reads room s r s') :
      Step room (found, s)
        ((takeUp found r s').1, (takeUp found r s').2.moveTo s'.cursor.shift)
  /-- No declaration starts here. -/
  | pass {found : List Declaration} {s : State} {token : Token}
      (hcurrent : s.cursor.current? = some token)
      (hstarts : s.cursor.startsDeclaration = false) :
      Step room (found, s) (found, (passOver token s).moveTo s.cursor.shift)

lemma cursor_takeUp (found : List Declaration) (r : Except ParseError (Kept Declaration))
    (s : State) : (takeUp found r s).2.cursor = s.cursor := by
  rcases r with e | ⟨d, _ | e⟩ <;> rfl

variable {room : Nat} {found found' : List Declaration} {s s' : State}

/-- A turn stays in the list and takes at least one token. -/
lemma Step.left_lt (h : Step room (found, s) (found', s')) :
    s'.cursor.toList = s.cursor.toList ∧ s'.cursor.left < s.cursor.left := by
  cases h with
  | declaration hcurrent hstarts hreads =>
    obtain ⟨hlist, hleft⟩ := hreads.onward_back
    have hpos := Cursor.left_pos_of_current? hcurrent
    simp only [State.cursor_moveTo, Cursor.toList_shift, Cursor.left_shift]
    simp only [Goal.givesBack, Nat.add_zero] at hleft
    exact ⟨hlist, by omega⟩
  | pass hcurrent hstarts =>
    have hpos := Cursor.left_pos_of_current? (Option.isSome_of_mem hcurrent)
    simp only [State.cursor_moveTo, Cursor.toList_shift, Cursor.left_shift]
    exact ⟨trivial, by omega⟩

/-- A turn of the loop over the top level goes on to a later token. -/
theorem Step.position_lt (h : Step room (found, s) (found', s')) :
    s.cursor.position < s'.cursor.position := by
  obtain ⟨hlist, hleft⟩ := h.left_lt
  have h₁ := s.cursor.position_add_left
  have h₂ := s'.cursor.position_add_left
  rw [hlist] at h₂
  omega

/-- With enough turns and a bound that no declaration reaches, the loop over the top
level goes on until no token is left. -/
lemma sweep_eq_of_steps (bound room steps : Nat) (found : List Declaration) (s : State)
    (hbound : 16 * s.cursor.left + 16 ≤ bound) (hsteps : s.cursor.left ≤ steps) :
    ∃ found' s', Relation.ReflTransGen (Step room) (found, s) (found', s') ∧
      s'.cursor.current? = none ∧
      sweep ((Goal.declaration .topLevel).run bound room) steps found s = (found', s') := by
  -- each turn takes a token, so as many turns as tokens are enough
  induction steps generalizing found s with
  | zero =>
    refine ⟨found, s, .refl, ?_, rfl⟩
    rcases hcurrent : s.cursor.current? with _ | token
    · rfl
    · have := Cursor.left_pos_of_current? (Option.isSome_of_mem hcurrent)
      omega
  | succ steps ih =>
    rw [sweep]
    rcases hcurrent : s.cursor.current? with _ | token
    · exact ⟨found, s, .refl, hcurrent, rfl⟩
    rcases hstarts : s.cursor.startsDeclaration with _ | _
    · have hstep : Step room (found, s) _ := .pass hcurrent hstarts
      have hleft := hstep.left_lt.2
      obtain ⟨found', s', hrun, hend, heq⟩ :=
        ih found ((passOver token s).moveTo s.cursor.shift) (by omega) (by omega)
      refine ⟨found', s', .head hstep hrun, hend, ?_⟩
      rw [← cursor_passOver token s] at heq
      simpa [passOver] using heq
    · -- the bound is above the rank of the goal, so its run is not stalled
      have hfin : (Goal.declaration .topLevel).run bound room s ≠ .stalled :=
        Goal.run_ne_stalled (by simp only [Goal.rank]; omega)
      rcases hr : (Goal.declaration .topLevel).run bound room s with ⟨r, t⟩ | _
      · have hstep : Step room (found, s) _ :=
          .declaration (Option.isSome_of_mem hcurrent) hstarts ⟨bound, hr⟩
        have hleft := hstep.left_lt.2
        obtain ⟨found', s', hrun, hend, heq⟩ := ih (takeUp found r t).1
          ((takeUp found r t).2.moveTo t.cursor.shift) (by omega) (by omega)
        refine ⟨found', s', .head hstep hrun, hend, ?_⟩
        simpa [cursor_takeUp] using heq
      · exact absurd hr hfin

end TopLevel

open TopLevel in
/-- Reading a list of tokens is a run of the loop over the top level, up to where no token
is left. -/
lemma Parser.exists_steps (p : Parser) (tokens : List Token) :
    ∃ found s, Relation.ReflTransGen (Step p.maxDepth)
        ([], ⟨(Cursor.start tokens).shift, []⟩) (found, s) ∧ s.cursor.current? = none ∧
      p.readTokens tokens = ⟨⟨rootRange tokens, found.reverse⟩, s.noted.reverse⟩ := by
  have hleft : (Cursor.start tokens).shift.left = tokens.length := by
    rw [Cursor.left_shift, Cursor.left, Nat.add_sub_cancel]
  obtain ⟨found, s, hrun, hend, heq⟩ := sweep_eq_of_steps (callBound tokens.length) p.maxDepth
    (tokens.length + 1) [] ⟨(Cursor.start tokens).shift, []⟩
    (by simp only [hleft, callBound]; omega) (by simp only [hleft]; omega)
  refine ⟨found, s, hrun, hend, ?_⟩
  simp only [Parser.readTokens, heq]

open TopLevel in
/-- Reading a list of tokens ends, and goes onward on its way.

The bound on the depth of calls hangs on the number of tokens alone, and no goal
reaches it.  The loop over the top level goes on until no token is left, and every
turn of it looks at a later token than the turn before.  No goal but the names
behind the module of an import, whether it ends in a value or an error, ends before
the token where it started, and each turn of the loops over statements and members
looks at a later token than the turn before. -/
theorem Parser.reading_goes_onward (p : Parser) (tokens : List Token) :
    (∀ room g s, s.cursor.toList = tokens →
      Goal.run (callBound tokens.length) room g s ≠ .stalled) ∧
    (∃ found s, Relation.ReflTransGen (Step p.maxDepth) ([], ⟨(Cursor.start tokens).shift, []⟩)
        (found, s) ∧ s.cursor.current? = none ∧
      p.readTokens tokens = ⟨⟨rootRange tokens, found.reverse⟩, s.noted.reverse⟩) ∧
    (∀ room found s found' s', Step room (found, s) (found', s') →
      s.cursor.position < s'.cursor.position) ∧
    (∀ room g s r s', g ≠ Goal.submodules → g.Reads room s r s' →
      s'.cursor.toList = s.cursor.toList ∧ s.cursor.position ≤ s'.cursor.position) ∧
    (∀ room stop stop' s t, (Goal.statements stop).Calls room s (.statements stop') t →
      (s.cursor.advance .anyLine).position < (t.cursor.advance .anyLine).position) ∧
    ∀ room context context' s t, (Goal.members context).Calls room s (.members context') t →
      (s.cursor.advance .anyLine).position < (t.cursor.advance .anyLine).position := by
  have hcalls : ∀ room g s, s.cursor.toList = tokens →
      Goal.run (callBound tokens.length) room g s ≠ .stalled := by
    rintro room g s rfl
    have hlength := s.cursor.position_add_left
    have hrank := g.rank_lt
    refine Goal.run_ne_stalled ?_
    simp only [callBound]
    omega
  exact ⟨hcalls, p.exists_steps tokens, fun _ _ _ _ _ h => h.position_lt,
    fun _ _ _ _ _ hg h => h.onward hg, fun _ _ _ _ _ h => h.statements_lt,
    fun _ _ _ _ _ h => h.members_lt⟩

end FrontEnd
