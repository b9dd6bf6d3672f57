/-
Every goal matches its brackets.

Where a goal is read without an error, it leaves no bracket of its own open, closes none that
was open before, and passes over no invalid token.  A goal that starts on its first token is
measured from before that token, one that goes on behind the current token from behind it
(`Goal.outset`).  In the same way a goal ends behind its last token, or before the token that
ends a list (`Goal.upto`), which must be of a certain kind (`Goal.Stops`).

A directive may pass over anything, so this holds of tokens without `#`.

`matching` is this as a contract.  The modules of this directory show that every procedure of
the grammar keeps it.
-/
import FrontEnd.Proofs.Brackets.Unmatched
import FrontEnd.Proofs.Contract.Quiet

namespace FrontEnd

/-- The declaration keywords before the current token, the latest first. -/
def Cursor.headings (c : Cursor) : List Token :=
  c.behind.filter (·.kind.isDeclarationKeyword)

namespace Goal

/-- Where the reading of a goal from a cursor starts. -/
@[simp] def outset : Goal → Cursor → Cursor
  | operations _, c | suffixes, c | elements, c | entries, c | patternMarks, c | typeMarks, c
  | statements _, c | members _, c | handlers, c | caseItems, c | bindings, c | caseNames, c =>
    c.shift
  | _, c => c

/-- Where the reading of a goal that leaves a cursor ends. -/
@[simp] def upto : Goal → Cursor → Cursor
  | statements _, c | members _, c | arms, c | attributes, c | modifiers, c | arguments _, c
  | elements, c | entries, c | parameters, c => c
  | _, c => c.shift

/-- From where a goal may be called. -/
@[simp] def Starts : Goal → Cursor → Prop
  | block, c | switchBody, c | typeBody _, c => c.here? = some (.punctuator .leftBrace)
  | elseIf, c => c.here?.any (·.isKeyword "if")
  | entries, c => c.following? .anyLine = some (.punctuator .colon)
  | _, _ => True

/-- What a goal ends on. -/
@[simp] def Stops : Goal → Cursor → Prop
  | arms, c | members _, c => c.here? = some (.punctuator .rightBrace)
  | statements stop, c => stop = .brace → c.here? = some (.punctuator .rightBrace)
  | arguments closer, c => c.here? = some (.punctuator closer)
  | elements, c | entries, c => c.here? = some (.punctuator .rightSquare)
  | parameters, c => c.here? = some (.punctuator .rightParen)
  | _, _ => True

end Goal

/-- A cursor in given tokens, with given unmatched tokens behind the current one. -/
@[grind] structure Cursor.Settled (tokens : List Token) (left : List (Nat × TokenKind))
    (c : Cursor) : Prop where
  toList_eq : c.toList = tokens
  unmatched_eq : c.shift.unmatched = left

/-- A declaration from a place on was read up to a cursor: its last token ends its range,
behind that as much is unmatched as before, and no keyword of a declaration was passed on the
way to the separator. -/
structure Declaration.Spans (d : Declaration) (tokens : List Token)
    (left : List (Nat × TokenKind)) (start : Location) (last c : Cursor) : Prop where
  range_eq : d.range = ⟨start, last.stopLocation⟩
  last_settled : last.Settled tokens left
  settled : c.Settled tokens left
  headings_eq : c.shift.headings = last.shift.headings

/-- What holds of tokens where a goal ends in a value. -/
@[simp] def Goal.Matches (tokens : List Token) : (g : Goal) → Cursor → g.Result → Cursor → Prop
  | item, c, kept, c' => kept.complaint = none → c'.Settled tokens c.unmatched
  | declaration _, c, kept, c' =>
    kept.complaint = none → ∃ last, kept.value.Spans tokens c.unmatched c.startLocation last c'
  | g, c, _, c' =>
    c'.toList = tokens ∧ (g.upto c').unmatched = (g.outset c).unmatched ∧ g.Stops c'

/-- The brackets of a goal in given tokens. -/
def matching (tokens : List Token) : Contract where
  enter g s := s.cursor.toList = tokens ∧ g.Starts s.cursor
  value g s a s' := g.Matches tokens s.cursor a s'.cursor
  error _ _ _ _ := True

section

variable (tokens : List Token) (g : Goal) (s s' : State)

@[simp] lemma matching_enter :
    (matching tokens).enter g s ↔ s.cursor.toList = tokens ∧ g.Starts s.cursor := Iff.rfl

@[simp] lemma matching_value (a : g.Result) :
    (matching tokens).value g s a s' ↔ g.Matches tokens s.cursor a s'.cursor := Iff.rfl

end

namespace Procedure

variable {α : Type} {tokens : List Token} {left : List (Nat × TokenKind)} {s : State}

/-- Every way through a procedure without an error ends in a place where the given tokens are
unmatched. -/
def Settles (p : Procedure α) (tokens : List Token) (left : List (Nat × TokenKind)) (s : State) :
    Prop :=
  p.Yields (matching tokens) s fun _ s' => s'.cursor.Settled tokens left

lemma Settles.imp {p : Procedure α} (h : p.Settles tokens left s) {ok : α → State → Prop}
    (hok : ∀ a s', s'.cursor.toList = tokens → s'.cursor.shift.unmatched = left → ok a s') :
    p.Yields (matching tokens) s ok :=
  Yields.imp h fun a s' ha => hok a s' ha.1 ha.2

end Procedure

end FrontEnd
