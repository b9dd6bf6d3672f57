/-
Every goal keeps its footing.

A goal that starts on its first token is called from a token that is not blank, and so is
one that looks for a continuation; those that first go on to the next token may be called
from anywhere.  A goal ends on a token that is not blank, but for a statement, which may
end with the line of a directive, and for the goals that read a separator too.  No error is
internal, and each is placed where it fits.

The last point hangs on the goals in front of a declaration: what `startsDeclaration`
found out about the tokens ahead is still true behind the attributes, and where there are no
modifiers the cursor has not moved on.

`footing` is this as a contract.  The modules of this directory show that every procedure of
the grammar keeps it.
-/
import FrontEnd.Proofs.Footing.Words
import FrontEnd.Proofs.Progress.Termination

namespace FrontEnd

namespace Goal

/-- From where a goal may be called. -/
@[simp] def Approach : Goal → Cursor → Prop
  | entries, _ | statements _, _ | members _, _ | caseItems, _ | bindings, _
  | caseNames, _ => True
  | submodules, c => c.current?.isSome → 1 < c.position ∧ c.unshift.Clear
  | declaration context, c => c.startsDeclaration ∨
      context = .enumBody ∧ c.here?.any (·.isKeyword "case")
  | _, c => c.Clear

/-- What holds where a goal ends in a value. -/
@[simp] def Stand : (g : Goal) → Cursor → g.Result → Cursor → Prop
  | item, _, kept, _ | declaration _, _, kept, _ =>
    ∀ e, kept.complaint = some e → e.kind ≠ .internal
  | statement, _, _, d => d.OnLine
  | attributes, c, _, d => d.Clear ∧
      (c.startsDeclaration → d.here?.any (·.isDeclarationKeyword)) ∧
      (c.here? ≠ some (.punctuator .atSign) → d = c)
  | modifiers, c, words, d => d.Clear ∧ (words = [] → d = c)
  | _, _, _, d => d.Clear

end Goal

/-- The footing of a goal: the cursor stands behind the start of the list, and where it may
stand. -/
def footing : Contract where
  enter g s := 0 < s.cursor.position ∧ g.Approach s.cursor
  value g s a s' := 0 < s'.cursor.position ∧ g.Stand s.cursor a s'.cursor
  error _ _ e s' := 0 < s'.cursor.position ∧ e.kind ≠ .internal ∧ s'.cursor.Placeable

/-- What the goals that are called promise: they lead onward and keep their footing. -/
abbrev footingOnward : Contract :=
  footing.given fun g s s' => g ≠ .submodules → s.cursor.position ≤ s'.cursor.position

section

variable (g : Goal) (s s' : State)

@[simp] lemma footing_enter :
    footing.enter g s ↔ 0 < s.cursor.position ∧ g.Approach s.cursor := Iff.rfl

@[simp] lemma footing_value (a : g.Result) :
    footing.value g s a s' ↔ 0 < s'.cursor.position ∧ g.Stand s.cursor a s'.cursor := Iff.rfl

@[simp] lemma footing_error (e : ParseError) :
    footing.error g s e s' ↔
      0 < s'.cursor.position ∧ e.kind ≠ .internal ∧ s'.cursor.Placeable := Iff.rfl

end

@[simp, grind =] lemma Cursor.kind_error (c : Cursor) (kind : ErrorKind) :
    (c.error kind).kind = kind := rfl

namespace Procedure

variable {α : Type} {s : State}

/-- Every way through a procedure keeps its footing and ends on a token that is not
blank. -/
def Stands (p : Procedure α) (s : State) : Prop :=
  p.Treads footingOnward s (fun _ s' => 0 < s'.cursor.position ∧ s'.cursor.Clear)
    fun e s' => 0 < s'.cursor.position ∧ e.kind ≠ .internal ∧ s'.cursor.Placeable

lemma Stands.imp {p : Procedure α} (h : p.Stands s) {ok : α → State → Prop}
    {err : ParseError → State → Prop}
    (hok : ∀ a s', 0 < s'.cursor.position → s'.cursor.Clear → ok a s')
    (herr : ∀ e s', 0 < s'.cursor.position → e.kind ≠ .internal → s'.cursor.Placeable →
      err e s') : p.Treads footingOnward s ok err :=
  Treads.imp h (fun a s' ha => hok a s' ha.1 ha.2) fun e s' he => herr e s' he.1 he.2.1 he.2.2

end Procedure

end FrontEnd
