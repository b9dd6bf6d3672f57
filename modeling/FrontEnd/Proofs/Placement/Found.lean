/-
Where the declarations of a text were read.

Each declaration of the top level comes from one turn of the loop, which read it from a place where
a declaration starts.  In a text without errors this reading noted none either.
-/
import FrontEnd.Proofs.Placement.Reading
import FrontEnd.Proofs.Progress.Steps

namespace FrontEnd

namespace TopLevel

variable {room : Nat} {tokens : List Token} {d : Declaration}

/-- A declaration is read without an error from a place in tokens that stand in order. -/
structure ReadFrom (room : Nat) (tokens : List Token) (d : Declaration) (s t : State) : Prop where
  reads : (Goal.declaration .topLevel).Reads room s (.ok ⟨d, none⟩) t
  quiet : t.noted = s.noted
  starts : s.cursor.startsDeclaration = true
  toList_eq : s.cursor.toList = tokens
  placed : s.cursor.Placed

/-- Every declaration that is found was read from a place in the tokens, and what was noted up to its
end, with what it is complained of for, stays noted. -/
lemma exists_reads_of_run {p q : List Declaration × State}
    (hrun : Relation.ReflTransGen (Step room) p q) (h : Placed tokens p.1 p.2) (hd : d ∈ q.1) :
    d ∈ p.1 ∨ ∃ complaint s t, (Goal.declaration .topLevel).Reads room s (.ok ⟨d, complaint⟩) t ∧
      s.cursor.startsDeclaration = true ∧ s.cursor.toList = tokens ∧ s.cursor.Placed ∧
      complaint.toList ++ t.noted <:+ q.2.noted := by
  induction hrun with
  | refl => exact .inl hd
  | @tail q r hrun hstep ih =>
    -- what was found in an earlier turn
    have hearlier (hd : d ∈ q.1) : d ∈ p.1 ∨ ∃ complaint s t,
        (Goal.declaration .topLevel).Reads room s (.ok ⟨d, complaint⟩) t ∧
          s.cursor.startsDeclaration = true ∧ s.cursor.toList = tokens ∧ s.cursor.Placed ∧
          complaint.toList ++ t.noted <:+ r.2.noted := by
      obtain hp | ⟨complaint, s, t, hreads, hstarts, hlist, hplaced, hnoted⟩ := ih hd
      · exact .inl hp
      · exact .inr ⟨complaint, s, t, hreads, hstarts, hlist, hplaced,
          hnoted.trans hstep.noted_suffix⟩
    have hplaced := h.run hrun
    cases hstep with
    | pass hcurrent hstarts => exact hearlier hd
    | @declaration found s t result hcurrent hstarts hreads =>
      rcases result with e | ⟨d', _ | e⟩
      · exact hearlier hd
      all_goals
        rcases List.mem_cons.mp hd with rfl | hfound
        · exact .inr ⟨_, s, t, hreads, hstarts, hplaced.toList_eq, hplaced.cursor, List.suffix_rfl⟩
        · exact hearlier hfound

/-- In a run without errors every declaration that is found was read without one. -/
lemma exists_readFrom_of_run {p q : List Declaration × State}
    (hrun : Relation.ReflTransGen (Step room) p q) (h : Placed tokens p.1 p.2)
    (hquiet : q.2.noted = []) (hd : d ∈ q.1) : d ∈ p.1 ∨ ∃ s t, ReadFrom room tokens d s t := by
  obtain hp | ⟨complaint, s, t, ⟨bound, hr⟩, hstarts, hlist, hplaced, hnoted⟩ :=
    exists_reads_of_run hrun h hd
  · exact .inl hp
  · obtain ⟨hcomplaint, ht⟩ := List.append_eq_nil_iff.mp (List.suffix_nil.mp (hquiet ▸ hnoted))
    obtain rfl := Option.toList_eq_nil_iff.mp hcomplaint
    have hs : s.noted = [] := List.suffix_nil.mp (ht ▸ Goal.noted_suffix_of_run _ _ _ _ _ _ hr)
    exact .inr ⟨s, t, ⟨bound, hr⟩, ht.trans hs.symm, hstarts, hlist, hplaced⟩

end TopLevel

open TopLevel in
/-- In a text without errors every declaration of the top level was read without one. -/
theorem Parser.exists_readFrom (p : Parser) {text : String} (herrors : (p.readText text).errors = [])
    {d : Declaration} (hd : d ∈ (p.readText text).root.declarations) :
    ∃ s t, ReadFrom p.maxDepth (Token.ofText text) d s t := by
  obtain ⟨found, s, hrun, -, heq⟩ := p.exists_steps (Token.ofText text)
  rw [readText, heq] at herrors hd
  have hstart := TopLevel.placed_start (Token.inOrder_ofText text)
  rcases exists_readFrom_of_run hrun hstart (List.reverse_eq_nil_iff.mp herrors)
    (List.mem_reverse.mp hd) with hnil | hread
  · cases hnil
  · exact hread

end FrontEnd
