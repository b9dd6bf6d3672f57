/-
A cursor over a list of tokens.

The cursor stands before the first token, on a token, or behind the last one.
Shifting moves it one token on, and stays where it is behind the last token.
Unshifting moves it one token back; it needs a current token.  No move loses a
token: `Cursor.toList` is what it was.
-/
import FrontEnd.Token.Basic

namespace FrontEnd

/-- How far a search for the next token of interest may look. -/
inductive Reach where
  /-- Blanks and comments are passed, line breaks are not. -/
  | sameLine
  /-- Blanks, comments and line breaks are passed. -/
  | anyLine
deriving DecidableEq, Repr, Inhabited

/-- Whether a search passes over tokens of a kind. -/
def Reach.passes (reach : Reach) (kind : TokenKind) : Bool :=
  match reach with
  | .sameLine => kind.isInlineBlank
  | .anyLine => kind.isBlank

/-- A list of tokens with a place in it.  The tokens behind the place are kept
with the nearest first. -/
inductive Cursor where
  /-- Before the first token. -/
  | start (ahead : List Token)
  /-- On a token. -/
  | on (behind : List Token) (token : Token) (ahead : List Token)
  /-- Behind the last token. -/
  | finish (behind : List Token)
deriving DecidableEq, Repr, Inhabited

namespace Cursor

/-! ### The three parts -/

/-- The token that the cursor stands on. -/
def current? : Cursor → Option Token
  | on _ token _ => some token
  | _ => none

/-- The tokens after the current one, in order. -/
def remaining : Cursor → List Token
  | start ahead | on _ _ ahead => ahead
  | finish _ => []

/-- The tokens before the current one, the nearest first. -/
def behind : Cursor → List Token
  | start _ => []
  | on behind _ _ | finish behind => behind

/-- The tokens before the current one, in order. -/
def consumed (c : Cursor) : List Token :=
  c.behind.reverse

/-- All tokens, in order. -/
def toList (c : Cursor) : List Token :=
  c.consumed ++ c.current?.toList ++ c.remaining

/-- The kind of the current token. -/
def kind? (c : Cursor) : Option TokenKind :=
  c.current?.map (·.kind)

/-- Whether the cursor stands behind the last token. -/
def isAtEnd : Cursor → Bool
  | finish _ => true
  | _ => false

/-! ### Places -/

/-- The last token of the whole list. -/
def last? : Cursor → Option Token
  | start ahead => ahead.getLast?
  | on _ token ahead => (token :: ahead).getLast?
  | finish behind => behind.head?

/-- The bytes of the current token; without one, the empty span at the end of
the list. -/
def span (c : Cursor) : Span :=
  match c.current? with
  | some token => token.span
  | none => Span.point (c.last?.elim 0 (·.span.stop))

/-- The lines and columns of the current token; without one, the empty range
at the end of the list. -/
def range (c : Cursor) : Range :=
  match c.current? with
  | some token => token.range
  | none => Range.point (c.last?.elim .origin (·.range.stop))

/-- Where the current token starts. -/
def startLocation (c : Cursor) : Location :=
  c.range.start

/-- Where the current token ends. -/
def stopLocation (c : Cursor) : Location :=
  c.range.stop

/-! ### Moves -/

/-- One token on. -/
def shift : Cursor → Cursor
  | start [] => finish []
  | start (token :: ahead) => on [] token ahead
  | on behind token [] => finish (token :: behind)
  | on behind token (next :: ahead) => on (token :: behind) next ahead
  | finish behind => finish behind

/-- One token back, from a current token. -/
def unshift? : Cursor → Option Cursor
  | on [] token ahead => some (start (token :: ahead))
  | on (previous :: behind) token ahead => some (on behind previous (token :: ahead))
  | _ => none

/-- One token back, where there is a current token. -/
def unshift (c : Cursor) : Cursor :=
  c.unshift?.getD c

/-- From a token on to the first one that a search does not pass. -/
def seek (passes : TokenKind → Bool) (behind : List Token) (token : Token) :
    List Token → Cursor
  | [] => if passes token.kind then finish (token :: behind) else on behind token []
  | next :: ahead =>
    if passes token.kind then seek passes (token :: behind) next ahead
    else on behind token (next :: ahead)

/-- On past the current token and its like, as long as a search passes them. -/
def skipCurrent (reach : Reach) : Cursor → Cursor
  | on behind token ahead => seek reach.passes behind token ahead
  | c => c

/-- One token on, and then on to the first token that a search does not
pass. -/
def advance (reach : Reach) (c : Cursor) : Cursor :=
  c.shift.skipCurrent reach

/-! ### Looking ahead -/

/-- The first token after the current one that a search does not pass. -/
def next? (reach : Reach) (c : Cursor) : Option Token :=
  c.remaining.find? fun token => !reach.passes token.kind

/-- The tokens of a list from its first one that is not blank. -/
def dropBlanks (tokens : List Token) : List Token :=
  tokens.dropWhile Token.isBlank

/-! ### Nothing is lost -/

@[simp] theorem toList_start (ahead : List Token) : (start ahead).toList = ahead := by
  simp [toList, consumed, behind, current?, remaining]

@[simp] theorem toList_on (behind : List Token) (token : Token) (ahead : List Token) :
    (on behind token ahead).toList = behind.reverse ++ token :: ahead := by
  simp [toList, consumed, Cursor.behind, current?, remaining]

@[simp] theorem toList_finish (behind : List Token) :
    (finish behind).toList = behind.reverse := by
  simp [toList, consumed, Cursor.behind, current?, remaining]

@[simp] theorem toList_shift (c : Cursor) : c.shift.toList = c.toList := by
  rcases c with (_ | ⟨t, a⟩) | ⟨b, t, (_ | ⟨n, a⟩)⟩ | b <;> simp [shift]

@[simp] theorem toList_unshift (c : Cursor) : c.unshift.toList = c.toList := by
  rcases c with a | ⟨(_ | ⟨p, b⟩), t, a⟩ | b <;> simp [unshift, unshift?]

@[simp] theorem toList_seek (passes : TokenKind → Bool) (behind : List Token) (token : Token)
    (ahead : List Token) :
    (seek passes behind token ahead).toList = behind.reverse ++ token :: ahead := by
  induction ahead generalizing behind token with
  | nil => unfold seek; split <;> simp
  | cons next ahead ih => unfold seek; split <;> simp [ih]

@[simp] theorem toList_advance (reach : Reach) (c : Cursor) :
    (c.advance reach).toList = c.toList := by
  rw [advance, ← toList_shift c]
  cases c.shift <;> simp [skipCurrent]

end Cursor

end FrontEnd
