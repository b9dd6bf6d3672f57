/-
What is read without an error has its brackets in order.

* `Goal.procedure_yields`: every procedure of the grammar matches its brackets.
* `TopLevel.Accepted`: what the loop over the top level has accepted, as long as no error was
  noted.
* `Parser.readText_bracketed`: the tokens of a declaration are properly nested.
* `Parser.readText_accounted`: no token is invalid, and no keyword of a declaration stands
  outside of the declarations.
-/
import FrontEnd.Parser
import FrontEnd.Proofs.Brackets.Declaration
import FrontEnd.Proofs.Cursor.Segment
import FrontEnd.Proofs.Placement.Reading
import FrontEnd.Proofs.Progress.Steps

namespace FrontEnd

namespace Goal

variable {tokens : List Token} {s s' : State}

open Grammar in
/-- Every procedure matches its brackets. -/
lemma procedure_yields {g : Goal} (hhash : ∀ t ∈ tokens, t.kind ≠ .punctuator .hash)
    (henter : (matching tokens).enter g s) :
    g.procedure.Yields (matching tokens) s ((matching tokens).value g s) := by
  obtain ⟨hlist, hstarts⟩ := henter
  -- most goals leave the brackets as they are, or close what the call has opened
  have settled {p : Procedure g.Result} {left : List (Nat × TokenKind)}
      (h : p.Settles tokens left s) : p.Yields (matching tokens) s fun _ s' =>
        s'.cursor.toList = tokens ∧ s'.cursor.shift.unmatched = left ∧ True :=
    h.imp fun _ _ hlist hleft => ⟨hlist, hleft, trivial⟩
  cases g with
  | type => exact settled (type_settles hlist)
  | types => exact settled (types_settles hlist)
  | typePath => exact settled (typePath_settles hlist)
  | typeMarks => exact settled (typeMarks_settles hlist)
  | expression floor => exact settled (expression_settles floor hlist)
  | operations floor => exact settled (operations_settles floor hlist)
  | operand => exact settled (operand_settles hlist)
  | suffixes => exact settled (suffixes_settles hlist)
  | arguments closer => exact arguments_yields closer hlist
  | elements => exact elements_yields hlist
  | entries => exact entries_yields hlist hstarts
  | pattern mode => exact settled (pattern_settles mode hlist)
  | patterns mode => exact settled (patterns_settles mode hlist)
  | patternMarks => exact settled (patternMarks_settles hlist)
  | block => exact settled (block_settles hlist hstarts)
  | statements stop => exact statements_yields stop hlist
  | item => exact item_yields hlist
  | statement => exact settled (statement_settles hlist hhash)
  | elseIf => exact settled (elseIf_settles hlist (Cursor.unmatched_shift_of_isKeyword hstarts))
  | conditions => exact settled (conditions_settles hlist)
  | handlers => exact settled (handlers_settles hlist)
  | switchBody => exact settled (switchBody_settles hlist hstarts)
  | arms => exact arms_yields hlist
  | caseItems => exact settled (caseItems_settles hlist)
  | declaration context => exact declaration_yields context hlist
  | attributes => exact attributes_yields hlist
  | modifiers => exact modifiers_yields hlist
  | submodules => exact settled (submodules_settles hlist)
  | bindings => exact settled (bindings_settles hlist)
  | parameters => exact parameters_yields hlist
  | typeBody context => exact settled (typeBody_settles context hlist hstarts)
  | members context => exact members_yields context hlist
  | caseNames => exact settled (caseNames_settles hlist)

end Goal

/-! ### The range of a declaration -/

/-- A declaration that spans its tokens ends on a token that it passed, or on the last one of
all. -/
lemma Declaration.Spans.exists_last {d : Declaration} {tokens : List Token}
    {left : List (Nat × TokenKind)} {c last c' : Cursor} (hc : c.Placed)
    (hlist : c.toList = tokens) (hleft : c'.left ≤ c.left)
    (h : d.Spans tokens left c.startLocation last c') (hlt : d.range.start < d.range.stop)
    (hle : d.range.stop ≤ c'.stopLocation) :
    ∃ last, last.left ≤ c.left ∧ d.Spans tokens left c.startLocation last c' := by
  have hlast : last.toList = c.toList := h.last_settled.toList_eq.trans hlist.symm
  rcases Nat.eq_zero_or_pos last.position with hzero | hpos
  · -- a cursor before the first token gives the end of all tokens for its place
    have hc' : c'.Placed := hc.of_left_le (h.settled.toList_eq.trans hlist.symm) hleft
    have hend : (Cursor.finish tokens.reverse).toList = c'.toList := by
      rw [Cursor.toList_finish, List.reverse_reverse, h.settled.toList_eq]
    have hstop : c'.stopLocation ≤ last.stopLocation := by
      refine (hc'.stop_le_stop hend (Nat.zero_le _)).trans (le_of_eq ?_)
      rw [(Cursor.location_of_left_eq_zero (c := .finish tokens.reverse) rfl).2, hend,
        h.settled.toList_eq, ← h.last_settled.toList_eq]
      rcases last with a | ⟨b, t, a⟩ | b
      · simp [Cursor.stopLocation, Cursor.range, Cursor.current?, Cursor.last?, Range.point]
      · cases hzero
      · cases hzero
    have hrange : d.range = ⟨c.startLocation, c'.stopLocation⟩ := by
      rw [h.range_eq] at hle
      rw [h.range_eq, hstop.antisymm hle]
    exact ⟨c', hleft, hrange, h.settled, h.settled, rfl⟩
  · refine ⟨last, ?_, h⟩
    by_contra hbefore
    have hplaced : last.Placed := ⟨hlast ▸ hc.inOrder, hpos⟩
    have hstop := hplaced.stop_le_start hlast.symm (not_le.mp hbefore)
    rw [h.range_eq] at hlt
    exact absurd hlt (not_lt.mpr hstop)

namespace TopLevel

variable {room : Nat} {tokens : List Token} {found found' : List Declaration} {s s' : State}

/-- What the loop over the top level has accepted without an error: no token that it passed is
invalid, each keyword of a declaration among them lies within a declaration that it found,
and the tokens of each of these are properly nested. -/
structure Accepted (tokens : List Token) (found : List Declaration) (s : State) : Prop where
  toList_eq : s.cursor.toList = tokens
  cursor : s.cursor.Placed
  valid : ∀ t ∈ s.cursor.behind, t.kind.isInvalid = false
  headed : ∀ t ∈ s.cursor.behind, t.kind.isDeclarationKeyword →
    ∃ d ∈ found, t.range.Within d.range
  bracketed : ∀ d ∈ found, Token.Bracketed (tokens.filter (·.range.Within d.range))

/-- A declaration that is accepted. -/
lemma Accepted.declaration (hhash : ∀ t ∈ tokens, t.kind ≠ .punctuator .hash)
    (h : Accepted tokens found s) {d : Declaration} {t : State}
    (hreads : (Goal.declaration .topLevel).Reads room s (.ok ⟨d, none⟩) t)
    (hquiet : t.noted = s.noted) :
    Accepted tokens (d :: found) (t.moveTo t.cursor.shift) := by
  obtain ⟨hon, hleft⟩ := hreads.onward_back
  simp only [Goal.givesBack, Nat.add_zero] at hleft
  have hplaces := hreads.places ⟨h.cursor, by simp⟩
  obtain ⟨-, hordered, hstop⟩ := hplaces
  rw [Declaration.range_tree] at hstop
  have hlt := hordered.start_lt_stop
  rw [Declaration.range_tree] at hlt
  -- the tokens from the first one of the declaration to its last one leave no bracket open
  obtain ⟨last, hspans⟩ := hreads.quiet (K := matching tokens)
    (fun g s henter => Goal.procedure_yields hhash henter) ⟨h.toList_eq, trivial⟩ hquiet rfl
  obtain ⟨last, hlast, hspans⟩ := hspans.exists_last h.cursor h.toList_eq hleft hlt hstop
  have hlist : last.toList = s.cursor.toList :=
    hspans.last_settled.toList_eq.trans h.toList_eq.symm
  -- what the range of the declaration takes in, and what was read with the separator
  obtain ⟨passed, hpassed⟩ := Cursor.exists_passed (d := last.shift)
    ((Cursor.toList_shift last).trans hlist) h.cursor.position_pos
    ((Cursor.left_shift last).trans_le ((Nat.sub_le _ _).trans hlast))
  obtain ⟨read, hread⟩ := Cursor.exists_passed (d := t.cursor.shift)
    ((Cursor.toList_shift t.cursor).trans hon) h.cursor.position_pos
    ((Cursor.left_shift t.cursor).trans_le ((Nat.sub_le _ _).trans hleft))
  have hfilter := h.cursor.filter_within hlist hlast hpassed
  rw [h.toList_eq, ← hspans.range_eq] at hfilter
  have hunmatched := hspans.last_settled.unmatched_eq
  rw [Cursor.unmatched, hpassed, Cursor.unmatched, ← List.reverse_reverse passed] at hunmatched
  have hend := hspans.settled.unmatched_eq
  rw [Cursor.unmatched, hread, Cursor.unmatched, ← List.reverse_reverse read] at hend
  refine ⟨by simpa using hspans.settled.toList_eq, ?_, ?_, ?_, ?_⟩
  · exact h.cursor.of_left_le ((Cursor.toList_shift t.cursor).trans hon)
      ((Cursor.left_shift t.cursor).trans_le ((Nat.sub_le _ _).trans hleft))
  · intro u hu
    rw [State.cursor_moveTo, hread, List.mem_append] at hu
    rcases hu with hu | hu
    · exact (Token.bracketed_of_unmatched_eq hend).2 u (List.mem_reverse.mpr hu)
    · exact h.valid u hu
  · intro u hu hkeyword
    have hheading : u ∈ last.shift.headings := by
      rw [← hspans.headings_eq]
      exact List.mem_filter.mpr ⟨hu, hkeyword⟩
    have hbehind := List.mem_of_mem_filter hheading
    rw [hpassed, List.mem_append] at hbehind
    rcases hbehind with hu | hu
    · rw [← List.mem_reverse, ← hfilter] at hu
      exact ⟨d, List.mem_cons_self, of_decide_eq_true (List.mem_filter.mp hu).2⟩
    · obtain ⟨d', hd', hwithin⟩ := h.headed u hu hkeyword
      exact ⟨d', List.mem_cons_of_mem _ hd', hwithin⟩
  · refine List.forall_mem_cons.mpr ⟨?_, h.bracketed⟩
    rw [hfilter]
    exact (Token.bracketed_of_unmatched_eq hunmatched).1

lemma isDeclarationKeyword_of_startsDeclaration {c : Cursor} {token : Token}
    (hcurrent : c.current? = some token) (hstarts : c.startsDeclaration = false) :
    token.kind.isDeclarationKeyword = false := by
  rw [Cursor.startsDeclaration, hcurrent] at hstarts
  cases hkind : token.kind <;>
    simp_all [HeaderPlace.leadsOn, TokenKind.isDeclarationKeyword, TokenKind.role?]

/-- A token that is passed over. -/
lemma Accepted.pass (h : Accepted tokens found s) {token : Token}
    (hcurrent : s.cursor.current? = some token)
    (hstarts : s.cursor.startsDeclaration = false) (hvalid : token.kind.isInvalid = false) :
    Accepted tokens found (s.moveTo s.cursor.shift) := by
  have hbehind : s.cursor.shift.behind = token :: s.cursor.behind := by
    rw [Cursor.behind_shift, hcurrent, Option.toList_some, List.singleton_append]
  refine ⟨by simpa using h.toList_eq, ?_, ?_, ?_, h.bracketed⟩
  · exact h.cursor.of_left_le (Cursor.toList_shift _)
      ((Cursor.left_shift _).trans_le (Nat.sub_le _ _))
  · rw [State.cursor_moveTo, hbehind]
    exact List.forall_mem_cons.mpr ⟨hvalid, h.valid⟩
  · rw [State.cursor_moveTo, hbehind]
    refine List.forall_mem_cons.mpr ⟨fun hkeyword => ?_, h.headed⟩
    rw [isDeclarationKeyword_of_startsDeclaration hcurrent hstarts] at hkeyword
    cases hkeyword

/-- A turn without an error accepts what it passes. -/
lemma Accepted.step (hhash : ∀ t ∈ tokens, t.kind ≠ .punctuator .hash)
    (hstep : Step room (found, s) (found', s')) (hquiet : s'.noted = s.noted)
    (h : Accepted tokens found s) : Accepted tokens found' s' := by
  cases hstep with
  | @declaration _ _ t r hcurrent hstarts hreads =>
    have hnoted : ∀ e, ¬ e :: t.noted = s.noted := by
      obtain ⟨bound, hr⟩ := hreads
      intro e heq
      have hlength := (Goal.noted_suffix_of_run _ _ _ _ _ _ hr).length_le
      rw [← heq, List.length_cons] at hlength
      exact absurd hlength (Nat.not_succ_le_self _)
    rcases r with e | ⟨d, _ | e⟩
    · exact absurd hquiet (hnoted e)
    · exact h.declaration hhash hreads hquiet
    · exact absurd hquiet (hnoted e)
  | @pass _ _ token hcurrent hstarts =>
    rcases hinvalid : token.kind.isInvalid with _ | _
    · simpa [passOver, hinvalid] using h.pass hcurrent hstarts hinvalid
    · rw [passOver, if_pos hinvalid] at hquiet
      exact absurd hquiet (List.cons_ne_self _ _)

/-- A run without an error accepts what it passes. -/
lemma Accepted.run (hhash : ∀ t ∈ tokens, t.kind ≠ .punctuator .hash)
    {p q : List Declaration × State} (hrun : Relation.ReflTransGen (Step room) p q)
    (hquiet : q.2.noted = []) (h : Accepted tokens p.1 p.2) : Accepted tokens q.1 q.2 := by
  induction hrun with
  | refl => exact h
  | @tail q r hrun hstep ih =>
    have hq : q.2.noted = [] := List.suffix_nil.mp (hquiet ▸ hstep.noted_suffix)
    exact (ih hq).step hhash hstep (hquiet.trans hq.symm)

end TopLevel

/-- A reading without an error accepts all tokens. -/
lemma Parser.exists_accepted (p : Parser) {text : String}
    (hhash : ∀ t ∈ Token.ofText text, t.kind ≠ .punctuator .hash)
    (herrors : (p.readText text).errors = []) :
    ∃ s, TopLevel.Accepted (Token.ofText text) (p.readText text).root.declarations.reverse s ∧
      s.cursor.behind.reverse = Token.ofText text := by
  obtain ⟨found, s, hrun, hend, heq⟩ := p.exists_steps (Token.ofText text)
  rw [readText, heq] at herrors ⊢
  have hplaced := TopLevel.placed_start (Token.inOrder_ofText text)
  have hstart : TopLevel.Accepted (Token.ofText text) []
      ⟨(Cursor.start (Token.ofText text)).shift, []⟩ := by
    have hbehind : (Cursor.start (Token.ofText text)).shift.behind = [] := by
      rw [Cursor.behind_shift]
      rfl
    exact ⟨hplaced.toList_eq, hplaced.cursor, by simp [hbehind], by simp [hbehind], by simp⟩
  have haccepted := hstart.run hhash hrun (List.reverse_eq_nil_iff.mp herrors)
  refine ⟨s, by simpa using haccepted, ?_⟩
  have hlist := haccepted.toList_eq
  have hpos := haccepted.cursor.position_pos
  rcases hs : s.cursor with a | ⟨b, t, a⟩ | b
  · exact absurd hpos (by simp [hs, Cursor.position])
  · simp [hs, Cursor.current?] at hend
  · rw [hs, Cursor.toList_finish] at hlist
    exact hlist

/-- In a text without `#` that is read without an error, the tokens within the range of each
declaration of the top level are properly nested. -/
theorem Parser.readText_bracketed (p : Parser) (text : String)
    (hhash : ∀ t ∈ Token.ofText text, t.kind ≠ .punctuator .hash)
    (herrors : (p.readText text).errors = []) :
    ∀ d ∈ (p.readText text).root.declarations,
      Token.Bracketed ((Token.ofText text).filter (·.range.Within d.range)) := by
  obtain ⟨s, haccepted, -⟩ := p.exists_accepted hhash herrors
  exact fun d hd => haccepted.bracketed d (List.mem_reverse.mpr hd)

theorem Parser.readText_bracketed_call :
    let reading := (Parser.mk 256).readText "func f() { g([1]) }\nlet x = (1, 2)"
    reading.root.declarations.length = 2 ∧ ∀ d ∈ reading.root.declarations,
      Token.Bracketed ((Token.ofText "func f() { g([1]) }\nlet x = (1, 2)").filter
        (·.range.Within d.range)) := by
  obtain ⟨hlength, herrors, hhash⟩ :
      ((Parser.mk 256).readText "func f() { g([1]) }\nlet x = (1, 2)").root.declarations.length = 2 ∧
      ((Parser.mk 256).readText "func f() { g([1]) }\nlet x = (1, 2)").errors = [] ∧
      ∀ t ∈ Token.ofText "func f() { g([1]) }\nlet x = (1, 2)", t.kind ≠ .punctuator .hash := by
    decide +kernel
  exact ⟨hlength, readText_bracketed _ _ hhash herrors⟩

/-- In a text without `#` that is read without an error, no token is invalid, and every
keyword of a declaration lies within the range of a declaration of the top level. -/
theorem Parser.readText_accounted (p : Parser) (text : String)
    (hhash : ∀ t ∈ Token.ofText text, t.kind ≠ .punctuator .hash)
    (herrors : (p.readText text).errors = []) :
    (∀ t ∈ Token.ofText text, t.kind.isInvalid = false) ∧
      ∀ t ∈ Token.ofText text, t.kind.isDeclarationKeyword →
        ∃ d ∈ (p.readText text).root.declarations, t.range.Within d.range := by
  obtain ⟨s, haccepted, hall⟩ := p.exists_accepted hhash herrors
  have hmem {t : Token} (ht : t ∈ Token.ofText text) : t ∈ s.cursor.behind := by
    rw [← hall] at ht
    exact List.mem_reverse.mp ht
  refine ⟨fun t ht => haccepted.valid t (hmem ht), fun t ht hkeyword => ?_⟩
  obtain ⟨d, hd, hwithin⟩ := haccepted.headed t (hmem ht) hkeyword
  exact ⟨d, List.mem_reverse.mp hd, hwithin⟩

theorem Parser.readText_accounted_members :
    let reading := (Parser.mk 256).readText "class A { let x = 1 }\n;var y = 2"
    (∀ t ∈ Token.ofText "class A { let x = 1 }\n;var y = 2", t.kind.isInvalid = false) ∧
      ∀ t ∈ Token.ofText "class A { let x = 1 }\n;var y = 2", t.kind.isDeclarationKeyword →
        ∃ d ∈ reading.root.declarations, t.range.Within d.range := by
  obtain ⟨herrors, hhash⟩ :
      ((Parser.mk 256).readText "class A { let x = 1 }\n;var y = 2").errors = [] ∧
      ∀ t ∈ Token.ofText "class A { let x = 1 }\n;var y = 2", t.kind ≠ .punctuator .hash := by
    decide +kernel
  exact readText_accounted _ _ hhash herrors

end FrontEnd
