/-
The log of diagnostics.

A log keeps diagnostics in the order in which they were found.  It only grows,
until it is cleared; all counts are read off its entries.
-/
import FrontEnd.Diagnostic.Basic

namespace FrontEnd

/-- Diagnostics in the order of their discovery. -/
structure Log where
  entries : Array Diagnostic
deriving DecidableEq, Repr, Inhabited

namespace Log

/-- The log before any finding. -/
def empty : Log :=
  ⟨#[]⟩

/-- The log with one more finding. -/
def add (log : Log) (d : Diagnostic) : Log :=
  ⟨log.entries.push d⟩

/-- The log with further findings, in their order. -/
def extend (log : Log) (ds : List Diagnostic) : Log :=
  ⟨log.entries ++ ds⟩

/-- The findings as a list. -/
def toList (log : Log) : List Diagnostic :=
  log.entries.toList

/-- The number of findings. -/
def size (log : Log) : Nat :=
  log.entries.size

/-- A log without findings. -/
def isEmpty (log : Log) : Bool :=
  log.entries.isEmpty

/-- The messages, in order. -/
def messages (log : Log) : List String :=
  log.toList.map (·.message)

/-- How many findings have a level. -/
def countLevel (log : Log) (level : Level) : Nat :=
  log.toList.countP (·.level = level)

/-- How many findings carry a code. -/
def countCode (log : Log) (code : String) : Nat :=
  log.toList.countP (·.code = some code)

/-- Whether an error is among the findings. -/
def hasErrors (log : Log) : Bool :=
  log.toList.any (·.level.isError)

@[simp] theorem toList_empty : empty.toList = [] := rfl

@[simp] theorem toList_add (log : Log) (d : Diagnostic) :
    (log.add d).toList = log.toList ++ [d] := by
  simp [toList, add]

@[simp] theorem toList_extend (log : Log) (ds : List Diagnostic) :
    (log.extend ds).toList = log.toList ++ ds := by
  simp [toList, extend]

end Log

end FrontEnd
