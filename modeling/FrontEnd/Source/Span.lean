/-
Byte spans.

A span is a pair of offsets into the UTF-8 form of a text.  Spans come from
outside as well as from the lexer, so `start` may exceed `stop`; such a span
covers nothing and has length zero.
-/

namespace FrontEnd

/-- The number of bytes in the UTF-8 form of a text. -/
def Text.byteSize : List Char → Nat
  | [] => 0
  | c :: rest => c.utf8Size + byteSize rest

/-- The bytes of a text from `start` up to, but not including, `stop`. -/
structure Span where
  start : Nat
  stop : Nat
deriving DecidableEq, Repr, Inhabited

namespace Span

/-- The empty span at an offset. -/
def point (offset : Nat) : Span :=
  ⟨offset, offset⟩

/-- The span of a text that starts at an offset. -/
def covering (offset : Nat) (text : List Char) : Span :=
  ⟨offset, offset + Text.byteSize text⟩

/-- The number of bytes that a span covers. -/
def length (s : Span) : Nat :=
  s.stop - s.start

/-- A span that covers no byte. -/
def isEmpty (s : Span) : Bool :=
  s.stop ≤ s.start

/-- The least span that reaches over both arguments, whatever their order. -/
def cover (s t : Span) : Span :=
  ⟨min s.start t.start, max s.stop t.stop⟩

@[simp] theorem length_point (offset : Nat) : (point offset).length = 0 := by
  simp [point, length]

@[simp] theorem length_covering (offset : Nat) (text : List Char) :
    (covering offset text).length = Text.byteSize text := by
  simp [covering, length]

theorem isEmpty_iff_length_eq_zero (s : Span) : s.isEmpty = true ↔ s.length = 0 := by
  simp only [isEmpty, length, decide_eq_true_eq]
  omega

end Span

end FrontEnd
