/-
The ranges of what is read form a tree.

* `Goal.Reads.places`: what a goal reads is placed in its range, whether or not errors
  were met on the way.
* `Parser.readText_ordered`: the declarations of a text stand in order within the range
  of the text, the ranges below each of them form a tree, and a visit meets the nodes in
  the order in which they start.
-/
import FrontEnd.Proofs.Placement.Declaration
import FrontEnd.Proofs.Placement.Visit

namespace FrontEnd

open RangeTree

open Grammar in
/-- Every goal places what it reads. -/
lemma Goal.procedure_places {way : List Event} {s : State} (g : Goal)
    (henter : placement.enter g s) :
    g.procedure.Meets placing way s (fun _ a s' => g.Places s s' a) fun _ _ _ => True := by
  obtain ⟨hs, hleft⟩ := henter
  cases g with
  | expression floor => exact (expression_places floor hs).imp fun _ _ _ _ h => h
  | operations floor => exact (operations_places floor hs).imp fun _ _ _ _ h => h
  | operand => exact (operand_places hs).imp fun _ _ _ _ h => h
  | suffixes => exact (suffixes_places hs).imp fun _ _ _ _ h => h
  | arguments closer => exact (arguments_places closer hs).imp fun _ _ _ _ h => h
  | elements => exact (elements_places hs).imp fun _ _ _ _ h => h
  | entries => exact (entries_places hs).imp fun _ _ _ _ h => h
  | pattern mode => exact (pattern_places mode hs).imp fun _ _ _ _ h => h
  | patterns mode => exact (patterns_places mode hs).imp fun _ _ _ _ h => h
  | patternMarks => exact (patternMarks_places hs).imp fun _ _ _ _ h => h
  | block => exact (block_places hs (hleft (.inl rfl))).imp fun _ _ _ _ h => h
  | statements stop => exact (statements_places stop hs).imp fun _ _ _ _ h => h
  | item => exact (item_places hs).imp fun _ _ _ _ h => h
  | statement => exact (statement_places hs).imp fun _ _ _ _ h => h
  | elseIf => exact (elseIf_places hs (hleft (.inr rfl))).imp fun _ _ _ _ h => h
  | conditions => exact (conditions_places hs).imp fun _ _ _ _ h => h
  | handlers => exact (handlers_places hs).imp fun _ _ _ _ h => h
  | switchBody => exact (switchBody_places hs).imp fun _ _ _ _ h => h
  | arms => exact (arms_places hs).imp fun _ _ _ _ h => h
  | caseItems => exact (caseItems_places hs).imp fun _ _ _ _ h => h
  | declaration context => exact (declaration_places context hs).imp fun _ _ _ _ h => h
  | bindings => exact (bindings_places hs).imp fun _ _ _ _ h => h
  | parameters => exact (parameters_places hs).imp fun _ _ _ _ h => h
  | typeBody context => exact (typeBody_places context hs).imp fun _ _ _ _ h => h
  | members context => exact (members_places context hs).imp fun _ _ _ _ h => h
  -- types, names and modifiers have no nodes, but what they call must be entered on tokens
  | type => exact (type_places hs).imp fun _ _ _ _ _ => trivial
  | types => exact (types_places hs).imp fun _ _ _ _ _ => trivial
  | typePath => exact (typePath_places hs).imp fun _ _ _ _ _ => trivial
  | typeMarks => exact (typeMarks_places hs).imp fun _ _ _ _ _ => trivial
  | attributes => exact (attributes_places hs).imp fun _ _ _ _ _ => trivial
  | modifiers => exact (modifiers_places hs).imp fun _ _ _ _ _ => trivial
  | submodules => exact (submodules_places hs).imp (fun _ _ _ _ => trivial) fun _ _ _ _ => trivial
  | caseNames => exact (caseNames_places hs).imp fun _ _ _ _ _ => trivial

/-- The contract `placement`, whatever the bound and the room. -/
lemma placement_kept :
    Contract.Family.Kept (fun g s s' => s.cursor.Onward g.givesBack s'.cursor)
      fun _ _ => placement where
  procedure _ _ _ g _ _ henter :=
    (g.procedure_places henter).imp (fun _ _ _ h _ _ => h) fun _ _ _ _ _ _ => trivial
  noRoom _ _ _ _ _ _ := trivial

/-- What a goal reads is placed in its range. -/
theorem Goal.Reads.places {room : Nat} {g : Goal} {s s' : State} {a : g.Result}
    (h : g.Reads room s (.ok a) s') (henter : placement.enter g s) : g.Places s s' a := by
  obtain ⟨bound, h⟩ := h
  exact (placement_kept.finished known_onward bound room g s henter).1 a s' h

/-! ### The top level -/

/-- The range of a text is that of its first and last tokens. -/
lemma Parser.rootRange_eq (tokens : List Token) :
    rootRange tokens = ⟨(Cursor.start tokens).shift.startLocation,
      tokens.getLast?.elim .origin (·.range.stop)⟩ := by
  cases tokens with
  | nil => rfl
  | cons first later =>
    simp [rootRange, List.getLast?_cons, Range.through, Cursor.shift, Cursor.startLocation,
      Cursor.range, Cursor.current?]

namespace TopLevel

/-- The loop over the top level has placed the declarations that it found between the
start of the text and its cursor. -/
structure Placed (tokens : List Token) (found : List Declaration) (s : State) : Prop where
  toList_eq : s.cursor.toList = tokens
  cursor : s.cursor.Placed
  laid : Laid (Parser.rootRange tokens).start (found.reverse.map Declaration.tree)
    s.cursor.startLocation

variable {room : Nat} {tokens : List Token}

lemma Placed.of_left_le {found : List Declaration} {s t : State} (h : Placed tokens found s)
    (hlist : t.cursor.toList = s.cursor.toList) (hleft : t.cursor.left ≤ s.cursor.left) :
    Placed tokens found t where
  toList_eq := hlist.trans h.toList_eq
  cursor := h.cursor.of_left_le hlist hleft
  laid := h.laid.widen (le_refl _) (h.cursor.start_le_start hlist hleft)

/-- Before the first turn nothing has been found. -/
lemma placed_start (htokens : Token.InOrder tokens) :
    Placed tokens [] ⟨(Cursor.start tokens).shift, []⟩ := by
  have hlist : (Cursor.start tokens).shift.toList = tokens := by
    rw [Cursor.toList_shift, Cursor.toList_start]
  refine ⟨hlist, ⟨hlist.symm ▸ htokens, ?_⟩, ?_⟩
  · cases tokens <;> simp [Cursor.shift, Cursor.position]
  · rw [Parser.rootRange_eq]
    exact le_refl _

/-- What is found in a turn stands behind what was found before. -/
lemma Placed.step {p q : List Declaration × State} (hstep : Step room p q)
    (h : Placed tokens p.1 p.2) : Placed tokens q.1 q.2 := by
  obtain ⟨found, s⟩ := p
  obtain ⟨found', s'⟩ := q
  obtain ⟨hlist, hlt⟩ := hstep.left_lt
  have hmoved : Placed tokens found s' := h.of_left_le hlist hlt.le
  cases hstep with
  | pass hcurrent hstarts => exact hmoved
  | @declaration _ _ t r hcurrent hstarts hreads =>
    rcases r with e | ⟨d, complaint⟩
    · exact hmoved
    · obtain ⟨hon, hleft⟩ := hreads.onward_back
      have ht : t.cursor.Placed := h.cursor.of_left_le hon hleft
      have hd := hreads.places ⟨h.cursor, by simp⟩
      have hfound : (takeUp found (.ok ⟨d, complaint⟩) t).1 = d :: found := by
        cases complaint <;> rfl
      refine ⟨hmoved.toList_eq, hmoved.cursor, ?_⟩
      rw [hfound, List.reverse_cons, List.map_append, State.cursor_moveTo]
      exact h.laid.append (hd.widen (le_refl _) ht.stop_le_start_shift)

/-- The declarations that a run of the loop finds stand one behind the other. -/
lemma Placed.run {p q : List Declaration × State}
    (hrun : Relation.ReflTransGen (Step room) p q) (h : Placed tokens p.1 p.2) :
    Placed tokens q.1 q.2 := by
  induction hrun with
  | refl => exact h
  | tail _ hstep ih => exact ih.step hstep

/-- When no token is left, the loop has placed the declarations in the range of the
text. -/
lemma Placed.laid_rootRange {found : List Declaration} {s : State} (h : Placed tokens found s)
    (hend : s.cursor.current? = none) :
    Laid (Parser.rootRange tokens).start (found.reverse.map Declaration.tree)
      (Parser.rootRange tokens).stop := by
  refine h.laid.widen (le_refl _) (le_of_eq ?_)
  have hleft : s.cursor.left = 0 := by
    rcases hc : s.cursor with a | ⟨b, t, a⟩ | b
    · exact absurd h.cursor.position_pos (by simp [hc, Cursor.position])
    · simp [hc, Cursor.current?] at hend
    · rfl
  obtain ⟨hstart, hstop⟩ := Cursor.location_of_left_eq_zero hleft
  rw [hstart, hstop, h.toList_eq, Parser.rootRange_eq]

end TopLevel

/-- The ranges of a text form a tree.

The declarations of the top level lie within the range of the text, one behind the
other.  Below each of them, no range of a declaration, statement, block, expression or
pattern is empty, the ranges of its children lie within it, and they stand one behind the
other in the order of a visit.  So a visit meets nodes in the order in which they
start. -/
theorem Parser.readText_ordered (p : Parser) (text : String) :
    let root := (p.readText text).root
    (∀ d ∈ root.declarations, d.tree.Ordered ∧
      root.range.start ≤ d.range.start ∧ d.range.stop ≤ root.range.stop) ∧
    root.declarations.IsChain (fun d next => d.range.stop ≤ next.range.start) ∧
    ∀ goesBelow, (root.visit goesBelow).Pairwise fun n m => n.range.start ≤ m.range.start := by
  intro root
  obtain ⟨found, s, hrun, hend, heq⟩ := p.exists_steps (Token.ofText text)
  have hplaced := (TopLevel.placed_start (Token.inOrder_ofText text)).run hrun
  have hlaid := hplaced.laid_rootRange hend
  have hroot : root = ⟨rootRange (Token.ofText text), found.reverse⟩ := by
    simp only [root, readText, heq]
  rw [hroot]
  obtain ⟨hwithin, hchain, hordered⟩ := hlaid.spec
  refine ⟨fun d hd => ?_, ?_, fun goesBelow => ?_⟩
  · have hd' := List.mem_map_of_mem (f := Declaration.tree) hd
    have hrange := hwithin _ hd'
    rw [Declaration.range_tree] at hrange
    exact ⟨hordered _ hd', hrange⟩
  · simpa only [List.isChain_map, Declaration.range_tree] using hchain
  · rw [← Declaration.trees_eq_map] at hlaid
    have hvisit := Root.visit_sublist goesBelow ⟨rootRange (Token.ofText text), found.reverse⟩
    have hpairwise := hlaid.pairwise_ranges.1.sublist hvisit
    exact (List.pairwise_map (R := fun r s : Range => r.start ≤ s.start)).mp hpairwise

end FrontEnd
