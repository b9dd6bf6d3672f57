/-
The loop over the top level has one course.

A turn of the loop is determined by where it starts, and there is none where no token is
left.  So a run of the loop up to there is the reading of the list.
-/
import FrontEnd.Proofs.Contract.Quiet
import FrontEnd.Proofs.Progress.Termination

namespace FrontEnd

namespace TopLevel

variable {room : Nat} {p q q' : List Declaration × State}

/-- A turn of the loop is determined by where it starts. -/
lemma Step.unique (h : Step room p q) (h' : Step room p q') : q = q' := by
  cases h with
  | declaration hcurrent hstarts hreads =>
    cases h' with
    | declaration _ _ hreads' =>
      obtain ⟨rfl, rfl⟩ := hreads.unique hreads'
      rfl
    | pass _ hstarts' => simp [hstarts] at hstarts'
  | pass hcurrent hstarts =>
    cases h' with
    | declaration _ hstarts' _ => simp [hstarts] at hstarts'
    | pass hcurrent' _ =>
      rw [hcurrent, Option.some.injEq] at hcurrent'
      rw [hcurrent']

/-- There is a current token at the start of a turn. -/
lemma Step.current?_isSome (h : Step room p q) : p.2.cursor.current?.isSome := by
  cases h with
  | declaration hcurrent _ _ => exact hcurrent
  | pass hcurrent _ => exact Option.isSome_of_mem hcurrent

/-- A turn only adds to the errors noted so far. -/
lemma Step.noted_suffix (h : Step room p q) : p.2.noted <:+ q.2.noted := by
  cases h with
  | @declaration _ _ t r hcurrent hstarts hreads =>
    obtain ⟨bound, hr⟩ := hreads
    have hsuffix := Goal.noted_suffix_of_run _ _ _ _ _ _ hr
    rcases r with e | ⟨d, _ | e⟩
    · exact hsuffix.trans (List.suffix_cons _ _)
    · exact hsuffix
    · exact hsuffix.trans (List.suffix_cons _ _)
  | pass hcurrent hstarts =>
    unfold passOver
    split
    · exact List.suffix_cons _ _
    · exact List.suffix_rfl

/-- A turn only adds to the declarations found so far. -/
lemma Step.found_suffix (h : Step room p q) : p.1 <:+ q.1 := by
  cases h with
  | @declaration _ _ t r hcurrent hstarts hreads =>
    rcases r with e | ⟨d, _ | e⟩
    · exact List.suffix_rfl
    · exact List.suffix_cons _ _
    · exact List.suffix_cons _ _
  | pass hcurrent hstarts => exact List.suffix_rfl

/-- A run of the loop only adds to what was found and noted. -/
lemma run_suffix (h : Relation.ReflTransGen (Step room) p q) :
    p.1 <:+ q.1 ∧ p.2.noted <:+ q.2.noted := by
  induction h with
  | refl => exact ⟨List.suffix_rfl, List.suffix_rfl⟩
  | tail _ hstep ih => exact ⟨ih.1.trans hstep.found_suffix, ih.2.trans hstep.noted_suffix⟩

/-- Two runs of the loop from one place to where no token is left end alike. -/
lemma run_unique (h : Relation.ReflTransGen (Step room) p q)
    (h' : Relation.ReflTransGen (Step room) p q') (hq : q.2.cursor.current? = none)
    (hq' : q'.2.cursor.current? = none) : q = q' := by
  have hend {q r : List Declaration × State} (hq : q.2.cursor.current? = none)
      (h : Relation.ReflTransGen (Step room) q r) : q = r := by
    rcases h.cases_head with heq | ⟨t, hstep, -⟩
    · exact heq
    · simpa [hq] using hstep.current?_isSome
  have hunique : Relator.RightUnique (Step room) := fun _ _ _ => Step.unique
  rcases Relation.ReflTransGen.total_of_right_unique hunique h h' with h | h
  · exact hend hq h
  · exact (hend hq' h).symm

end TopLevel

open TopLevel in
/-- A run of the loop up to where no token is left is the reading of the list. -/
lemma Parser.readTokens_eq_of_run (p : Parser) {tokens : List Token} {found : List Declaration}
    {s : State} (hrun : Relation.ReflTransGen (Step p.maxDepth)
      ([], ⟨(Cursor.start tokens).shift, []⟩) (found, s)) (hend : s.cursor.current? = none) :
    p.readTokens tokens = ⟨⟨rootRange tokens, found.reverse⟩, s.noted.reverse⟩ := by
  obtain ⟨found', s', hrun', hend', heq⟩ := p.exists_steps tokens
  have hsame := run_unique hrun hrun' hend hend'
  cases hsame
  exact heq

end FrontEnd
