/-
Locations and ranges.

A location is a line and a column, both counted from one; columns count the
bytes of the UTF-8 form, not characters.  A range is a pair of locations whose
end lies just behind the last character.
-/

namespace FrontEnd

/-- A place in a text, by line and column. -/
structure Location where
  line : Nat
  column : Nat
deriving DecidableEq, Repr

namespace Location

/-- The first place of every text. -/
def origin : Location :=
  ⟨1, 1⟩

instance : Inhabited Location :=
  ⟨origin⟩

/-- Written as `line:column`. -/
def text (l : Location) : String :=
  s!"{l.line}:{l.column}"

/-- Reading order: by line, and by column within a line. -/
def compare (l m : Location) : Ordering :=
  (Ord.compare l.line m.line).then (Ord.compare l.column m.column)

/-- `l` stands before `m`. -/
def Before (l m : Location) : Prop :=
  l.line < m.line ∨ l.line = m.line ∧ l.column < m.column

instance (l m : Location) : Decidable (l.Before m) :=
  inferInstanceAs (Decidable (_ ∨ _))

end Location

/-- The part of a text between two places. -/
structure Range where
  start : Location
  stop : Location
deriving DecidableEq, Repr, Inhabited

namespace Range

/-- The empty range at a place. -/
def point (l : Location) : Range :=
  ⟨l, l⟩

/-- From the start of one range to the end of another. -/
def through (r s : Range) : Range :=
  ⟨r.start, s.stop⟩

/-- Written as `start-stop`. -/
def text (r : Range) : String :=
  s!"{r.start.text}-{r.stop.text}"

end Range

end FrontEnd
