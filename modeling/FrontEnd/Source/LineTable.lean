/-
The line table of a text.

A line ends behind a line feed, and behind a carriage return that no line feed
follows, so that the pair of both ends one line only.  The table holds the byte
offset at which each line starts, in ascending order; the first is zero.  An
offset lies on the last line that starts at or before it, also when it lies
beyond the text; that line is found by halving the table.

Offsets that come from outside are machine words, and `locateWord` computes
their columns in words.  No text is so long that a place in it is no word, so
`locate` gives the places of tokens.
-/
import FrontEnd.Source.Span
import FrontEnd.Source.Location

namespace FrontEnd

/-- The byte offsets at which the lines of a text start. -/
structure LineTable where
  starts : Array Nat
deriving DecidableEq, Repr

namespace LineTable

/-- Whether a line ends behind `c`, when `rest` is what follows it. -/
def breaksAfter (c : Char) (rest : List Char) : Bool :=
  c = '\n' || c = '\r' && rest.head? ≠ some '\n'

/-- The starts of all lines but the first, for a text whose first byte has the
given offset. -/
def laterStarts (offset : Nat) : List Char → List Nat
  | [] => []
  | c :: rest =>
    let next := offset + c.utf8Size
    if breaksAfter c rest then next :: laterStarts next rest else laterStarts next rest

/-- The table of a text. -/
def ofChars (text : List Char) : LineTable :=
  ⟨(0 :: laterStarts 0 text).toArray⟩

/-- Where a line, counted from zero, starts. -/
def start (table : LineTable) (line : Nat) : Nat :=
  table.starts.getD line 0

/-- What the search for an offset ends in: a line that starts there, or the first line that starts
behind it. -/
inductive Search
  | found (line : Nat)
  | missing (next : Nat)
deriving DecidableEq, Repr

/-- The search among the lines from `low` up to but not including `high`. -/
def searchBetween (table : LineTable) (offset low high : Nat) : Search :=
  if high ≤ low then .missing low
  else
    let middle := (low + high) / 2
    if table.start middle = offset then .found middle
    else if table.start middle < offset then table.searchBetween offset (middle + 1) high
    else table.searchBetween offset low middle
termination_by high - low

/-- The search among all lines. -/
def search (table : LineTable) (offset : Nat) : Search :=
  table.searchBetween offset 0 table.starts.size

/-- The line of an offset, counted from zero: where no line starts at it, the one before the
next. -/
def lineAt (table : LineTable) (offset : Nat) : Nat :=
  match table.search offset with
  | .found line => line
  | .missing next => next - 1

/-- The place of a byte offset. -/
def locate (table : LineTable) (offset : Nat) : Location :=
  let line := table.lineAt offset
  ⟨line + 1, offset - table.start line + 1⟩

/-- The places of both ends of a span. -/
def range (table : LineTable) (span : Span) : Range :=
  ⟨table.locate span.start, table.locate span.stop⟩

/-- The place of an offset that is a word.  The column is computed in words, too, so that the one
behind the greatest is zero. -/
def locateWord (table : LineTable) (offset : UInt64) : Location :=
  let line := table.lineAt offset.toNat
  ⟨line + 1, (offset - .ofNat (table.start line) + 1).toNat⟩

/-- The places of two offsets that are words. -/
def rangeWord (table : LineTable) (start stop : UInt64) : Range :=
  ⟨table.locateWord start, table.locateWord stop⟩

end LineTable

end FrontEnd
