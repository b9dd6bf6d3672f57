/-
The grammar as a whole.

Each goal has its procedure, and `Goal.run` interprets the procedure of a goal
by running the goals that it calls.  A goal that is a level of nesting needs
room for one; without room it ends in an error at once.  The bound on the depth
of calls makes the interpretation total, and is chosen so that no reading
reaches it.
-/
import FrontEnd.Grammar.Declaration
import FrontEnd.Grammar.Expression
import FrontEnd.Grammar.Pattern
import FrontEnd.Grammar.Type

namespace FrontEnd

namespace Goal

/-- The procedure that reads a goal. -/
def procedure : (g : Goal) → Procedure g.Result
  | type => Grammar.type
  | types => Grammar.types
  | typePath => Grammar.typePath
  | typeMarks => Grammar.typeMarks
  | expression floor => Grammar.expression floor
  | operations floor => Grammar.operations floor
  | operand => Grammar.operand
  | suffixes => Grammar.suffixes
  | arguments closer => Grammar.arguments closer
  | elements => Grammar.elements
  | entries => Grammar.entries
  | pattern mode => Grammar.pattern mode
  | patterns mode => Grammar.patterns mode
  | patternMarks => Grammar.patternMarks
  | block => Grammar.block
  | statements stop => Grammar.statements stop
  | item => Grammar.item
  | statement => Grammar.statement
  | elseIf => Grammar.elseIf
  | conditions => Grammar.conditions
  | handlers => Grammar.handlers
  | switchBody => Grammar.switchBody
  | arms => Grammar.arms
  | caseItems => Grammar.caseItems
  | declaration context => Grammar.declaration context
  | attributes => Grammar.attributes
  | modifiers => Grammar.modifiers
  | submodules => Grammar.submodules
  | bindings => Grammar.bindings
  | parameters => Grammar.parameters
  | typeBody context => Grammar.typeBody context
  | members context => Grammar.members context
  | caseNames => Grammar.caseNames

/-- The room that is left inside a goal, if the goal may be entered at all. -/
def roomInside? (g : Goal) (room : Nat) : Option Nat :=
  if g.isLevel then
    match room with
    | 0 => none
    | inside + 1 => some inside
  else some room

/-- Reads a goal, with room for so many levels of nesting and calls at most as
deep as the bound says. -/
def run (bound room : Nat) (g : Goal) (s : State) : Outcome g.Result :=
  match bound with
  | 0 => .stalled
  | below + 1 =>
    match g.roomInside? room with
    | none => .finished (.error (s.cursor.error .nestingTooDeep)) s
    | some inside => g.procedure.perform (run below inside) s

end Goal

end FrontEnd
