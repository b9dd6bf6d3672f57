/-
Chains are read as a whole.

Where an operator has blanks on both sides, it is an operator between two operands.  So from a
name on, with a chain behind it, an expression is read down to its floor: it shows the chain up
to the first operator that binds less tightly (`Goal.exists_reads_chain`).  With the lowest
floor that is the whole chain.
-/
import FrontEnd.Proofs.Contract.Run
import FrontEnd.Proofs.Cursor.Sees
import FrontEnd.Proofs.Grouping.Chain
import FrontEnd.Proofs.Grouping.Reading

namespace FrontEnd

/-- How the links of a chain are written: with blanks on both sides of each operator. -/
inductive Linked : List (String × String) → List TokenKind → Prop where
  | nil : Linked [] []
  | cons {operator name : String} {links : List (String × String)} {sign : TokenKind}
      {later : List TokenKind} (hsign : sign.binary? = some operator) (hlater : Linked links later) :
      Linked ((operator, name) :: links)
        (.whitespace :: sign :: .whitespace :: .identifier name :: later)

namespace Cursor

/-- A cursor on a name with the links of a chain behind it. -/
def OnChain (name : String) (links : List (String × String)) (c : Cursor) : Prop :=
  ∃ kinds, Linked links kinds ∧ c.Sees (.identifier name :: kinds)

variable {name : String} {links : List (String × String)} {c : Cursor}

lemma OnChain.here?_eq (h : c.OnChain name links) : c.here? = some (.identifier name) := by
  obtain ⟨kinds, -, hsees⟩ := h
  exact hsees.here?_eq

/-- Nothing is glued to a name of a chain. -/
lemma OnChain.glued?_eq_none (h : c.OnChain name links) : c.glued? 0 = none := by
  obtain ⟨kinds, hlinked, hsees⟩ := h
  rw [hsees.glued?_eq]
  cases hlinked <;> rfl

/-- At the end of a chain there is no operator. -/
lemma OnChain.binaryAhead?_nil (h : c.OnChain name []) : c.binaryAhead? = none := by
  obtain ⟨kinds, hlinked, hsees⟩ := h
  rw [hsees.binaryAhead?_eq]
  cases hlinked
  rfl

/-- The next operator of a chain, and the rest of the chain behind it. -/
lemma OnChain.binaryAhead?_cons {operator next : String}
    (h : c.OnChain name ((operator, next) :: links)) :
    c.binaryAhead? = some operator ∧
      ((c.advance .sameLine).advance .anyLine).OnChain next links := by
  obtain ⟨_, hlinked, hsees⟩ := h
  cases hlinked with
  | @cons _ _ _ sign later hsign hlater =>
    have hsolid := TokenKind.isBlank_of_binary? hsign
    refine ⟨?_, later, hlater, (hsees.advance_blank hsolid _).advance_blank rfl _⟩
    rw [hsees.binaryAhead?_eq, List.tail_cons, binaryAmong?_spaced hsolid rfl, hsign]

end Cursor

namespace Goal

variable {room : Nat} {s : State} {name : String} {links : List (String × String)}

open Procedure

/-- Where nothing is glued to an operand it has no suffix. -/
lemma reads_suffixes_nil (h : s.cursor.glued? 0 = none) : suffixes.Reads room s (.ok []) s := by
  refine Reads.of_meets (roomInside?_of_not_isLevel rfl) ?_
  simp [procedure, Grammar.suffixes, h]

/-- Where the next operator binds less tightly than the floor, there is no operation. -/
lemma reads_operations_nil {floor : Nat}
    (h : ∀ operator, s.cursor.binaryAhead? = some operator →
      (Precedence.ofOperator operator).level < floor) :
    (operations floor).Reads room s (.ok []) s := by
  refine Reads.of_meets (roomInside?_of_not_isLevel rfl) ?_
  simp only [procedure, Grammar.operations, meets_bind, meets_binaryAhead]
  split
  next => simp
  next operator hoperator => simp [h operator hoperator]

/-- A name with nothing glued to it is an operand. -/
lemma operand_meets (h : s.cursor.here? = some (.identifier name)) (hglued : s.cursor.glued? 0 = none)
    (way : List Event) (ok : List Event → Expression → State → Prop)
    (err : List Event → ParseError → State → Prop) :
    Grammar.operand.Meets (.reading room) way s ok err ↔
      ok (.called .suffixes s :: way) (.identifier s.cursor.range name) s := by
  simp only [Grammar.operand, Grammar.primary, meets_bind, meets_isWordHere, meets_here, meets_ite,
    h, Option.any_some, TokenKind.isKeyword, Bool.false_eq_true, false_imp_iff, true_and,
    not_false_eq_true, true_imp_iff, Option.bind_some, Grammar.unaryOperator?, meets_ranged,
    meets_pure, meets_read_of_reads (reads_suffixes_nil hglued), List.foldl_nil]
  rfl

/-- Operations are read from a chain: they show the links up to an operator that binds less
tightly than the floor. -/
def ClimbsLinks (n : Nat) : Prop :=
  ∀ room floor s name links, links.length = n → n ≤ room → s.cursor.OnChain name links →
    ∃ ops t used later last, (operations floor).Reads room s (.ok ops) t ∧ t.noted = s.noted ∧
      t.cursor.OnChain last later ∧ links = used ++ later ∧
      ∀ start left c, left.chain? = some c →
        (ops.foldl (Operation.apply start) left).chain? = some ⟨c.first, c.links ++ used⟩

/-- An expression is read from a chain: it shows the links up to an operator that binds less
tightly than the floor. -/
def ClimbsChain (n : Nat) : Prop :=
  ∀ room floor s name links, links.length = n → n < room → s.cursor.OnChain name links →
    ∃ e t used later last, (expression floor).Reads room s (.ok e) t ∧ t.noted = s.noted ∧
      t.cursor.OnChain last later ∧ links = used ++ later ∧ e.chain? = some ⟨name, used⟩

/-- Behind a name the links are read. -/
lemma climbsChain_of_climbsLinks {n : Nat} (h : ClimbsLinks n) : ClimbsChain n := by
  intro room floor s name links hn hroom hchain
  obtain ⟨inside, rfl⟩ := Nat.exists_eq_succ_of_ne_zero (Nat.ne_zero_of_lt hroom)
  obtain ⟨ops, t, used, later, last, hreads, hnoted, hon, hlinks, hfold⟩ :=
    h inside floor s name links hn (Nat.le_of_lt_succ hroom) hchain
  refine ⟨_, t, used, later, last, Reads.of_meets (a := ops.foldl
    (Operation.apply s.cursor.startLocation) (Expression.identifier s.cursor.range name))
    (roomInside?_of_isLevel rfl) ?_, hnoted, hon, hlinks, hfold _ _ ⟨name, []⟩ rfl⟩
  simp only [procedure, Grammar.expression, meets_bind, meets_startLocation,
    operand_meets hchain.here?_eq hchain.glued?_eq_none, meets_read_of_reads hreads, meets_pure,
    and_self]

/-- The next link is read, and then those behind its operand. -/
lemma climbsLinks_of_lt {n : Nat} (h : ∀ m < n, ClimbsLinks m) : ClimbsLinks n := by
  intro room floor s name links hn hroom hchain
  have hnone (hbelow : ∀ operator, s.cursor.binaryAhead? = some operator →
      (Precedence.ofOperator operator).level < floor) :
      ∃ ops t used later last, (operations floor).Reads room s (.ok ops) t ∧ t.noted = s.noted ∧
        t.cursor.OnChain last later ∧ links = used ++ later ∧
        ∀ start left c, left.chain? = some c →
          (ops.foldl (Operation.apply start) left).chain? = some ⟨c.first, c.links ++ used⟩ := by
    refine ⟨[], s, [], links, name, reads_operations_nil hbelow, rfl, hchain, rfl, ?_⟩
    intro start left c hleft
    rw [List.append_nil]
    exact hleft
  cases links with
  | nil =>
    refine hnone ?_
    rw [hchain.binaryAhead?_nil]
    exact nofun
  | cons link rest =>
    obtain ⟨operator, next⟩ := link
    obtain ⟨hahead, hnext⟩ := hchain.binaryAhead?_cons
    by_cases hbelow : (Precedence.ofOperator operator).level < floor
    · refine hnone fun other hother => ?_
      rw [hahead, Option.some.injEq] at hother
      rwa [← hother]
    -- the operand goes as far as the operator allows, the operations behind it down to the floor
    rw [List.length_cons] at hn
    obtain ⟨right, t, used, later, last, hright, hnoted, hon, rfl, hshown⟩ :=
      climbsChain_of_climbsLinks (h rest.length (by omega)) room
        (Precedence.ofOperator operator).rightFloor
        (s.moveTo ((s.cursor.advance .sameLine).advance .anyLine)) next rest rfl (by omega) hnext
    rw [List.length_append] at hn
    obtain ⟨ops, u, used', later', last', hops, hnoted', hon', rfl, hfold⟩ :=
      h later.length (by omega) room floor t last later rfl (by omega) hon
    refine ⟨⟨operator, right, t.cursor.stopLocation⟩ :: ops, u, (operator, next) :: (used ++ used'),
      later', last', Reads.of_meets (roomInside?_of_not_isLevel rfl) ?_, hnoted'.trans hnoted, hon',
      by simp, ?_⟩
    · simp only [procedure, Grammar.operations, meets_bind, meets_binaryAhead, hahead, meets_ite,
        hbelow, false_imp_iff, not_false_eq_true, true_imp_iff, meets_advance, State.cursor_moveTo,
        State.moveTo_moveTo, meets_read_of_reads hright, meets_stopLocation,
        meets_read_of_reads hops, meets_pure, and_self]
    · intro start left c hleft
      rw [List.foldl_cons, hfold _ _ _ (Expression.chain?_apply start hleft hshown)]
      simp [Chain.join]

/-- A chain is read from its first name on, down to the floor. -/
theorem exists_reads_chain {n : Nat} : ClimbsChain n := by
  refine climbsChain_of_climbsLinks ?_
  induction n using Nat.strong_induction_on with
  | _ n ih => exact climbsLinks_of_lt ih

/-- Where an expression with the lowest floor has been read from a chain, it shows the whole
chain. -/
theorem exists_reads_wholeChain (h : s.cursor.OnChain name links) (hroom : links.length < room) :
    ∃ e t last, (expression 0).Reads room s (.ok e) t ∧ t.noted = s.noted ∧
      t.cursor.OnChain last [] ∧ e.chain? = some ⟨name, links⟩ := by
  obtain ⟨e, t, used, later, last, hreads, hnoted, hon, rfl, hshown⟩ :=
    exists_reads_chain room 0 s name links rfl hroom h
  cases later with
  | nil =>
    rw [List.append_nil]
    exact ⟨e, t, last, hreads, hnoted, hon, hshown⟩
  | cons link later =>
    have hends := hreads.groups.2 link.1 hon.binaryAhead?_cons.1
    exact absurd hends (Nat.not_lt_zero _)

end Goal

end FrontEnd
