/-
Every goal leads onward.

The reading of a goal stays in its list of tokens, and ends no further from the end
of the list than it started.  Only the names behind the module of an import may
give one token back.  So the calls of goals are well founded: a goal either calls
another one with fewer tokens left, or one of a lower rank, and `16 * left + rank`
goes down from call to call.

`progress` is this as a contract.  The modules of this directory show that every
procedure of the grammar meets it.
-/
import FrontEnd.Proofs.Contract.Words
import FrontEnd.Proofs.Cursor.Left

namespace FrontEnd

/-- No instruction loses a token. -/
lemma Instruction.toList_perform (c : Cursor) (i : Instruction) :
    (i.perform c).2.toList = c.toList := by
  cases i <;> simp [perform, Cursor.toList_resynchronize, Cursor.toList_toEndOfLine]

/-- Two places of one list, the second one at most `back` tokens before the first. -/
@[grind] structure Cursor.Onward (back : Nat) (c d : Cursor) : Prop where
  toList_eq : d.toList = c.toList
  left_le : d.left ≤ c.left + back

namespace Goal

/-- How many tokens a goal may give back. -/
@[grind =] def givesBack : Goal → Nat
  | submodules => 1
  | _ => 0

/-- A goal calls goals of a lower rank as long as it has not gone on. -/
@[grind =] def rank : Goal → Nat
  | type | expression _ | operand | block | typeBody _ => 1
  | types | arguments _ | entries | pattern _ | parameters => 2
  | patterns _ | conditions | caseItems | bindings => 3
  | arms | elseIf | declaration _ => 4
  | switchBody => 5
  | statement => 6
  | item => 7
  | typePath | typeMarks | operations _ | suffixes | elements | patternMarks | statements _
  | handlers | attributes | modifiers | submodules | members _ | caseNames => 0

lemma rank_lt (g : Goal) : g.rank < 16 := by
  cases g <;> simp [rank]

end Goal

/-- A goal may be called while the bound on the depth of calls allows for the tokens
that are left and its rank, and leads onward. -/
def progress : Contract.Family := fun bound _ =>
  { enter := fun g s => 16 * s.cursor.left + g.rank < bound
    value := fun g s _ s' => s.cursor.Onward g.givesBack s'.cursor
    error := fun g s _ s' => s.cursor.Onward g.givesBack s'.cursor }

namespace Procedure

variable {α : Type} {below room : Nat} {s : State} {way : List Event}

/-- The calls of a procedure are within a bound, and every way through it leads
onward. -/
def Progresses (below : Nat) (p : Procedure α) (s : State) : Prop :=
  ∀ room way, p.Meets ((progress below room).given fun _ _ _ => True) way s
    (fun _ _ s' => s.cursor.Onward 0 s'.cursor) (fun _ _ s' => s.cursor.Onward 0 s'.cursor)

lemma Progresses.imp {p : Procedure α} (h : p.Progresses below s)
    {ok : List Event → α → State → Prop} {err : List Event → ParseError → State → Prop}
    (hok : ∀ way a s', s.cursor.Onward 0 s'.cursor → ok way a s')
    (herr : ∀ way e s', s.cursor.Onward 0 s'.cursor → err way e s') :
    p.Meets ((progress below room).given fun _ _ _ => True) way s ok err :=
  (h room way).imp hok herr

end Procedure

@[simp] lemma progress_enter (bound room : Nat) (g : Goal) (s : State) :
    (progress bound room).enter g s ↔ 16 * s.cursor.left + g.rank < bound := Iff.rfl

@[simp] lemma progress_value (bound room : Nat) (g : Goal) (s : State) (a : g.Result)
    (s' : State) :
    (progress bound room).value g s a s' ↔ s.cursor.Onward g.givesBack s'.cursor := Iff.rfl

@[simp] lemma progress_error (bound room : Nat) (g : Goal) (s : State) (e : ParseError)
    (s' : State) :
    (progress bound room).error g s e s' ↔ s.cursor.Onward g.givesBack s'.cursor := Iff.rfl

end FrontEnd
