/-
Regular expressions over characters.

Matching goes by derivatives: `derivative r c` matches what may follow a `c`
in the texts of `r`.  Derivatives are simplified as they are built, so that an
expression which can match nothing more is `never`, and the search for the
longest match stops there.
-/

namespace FrontEnd

/-- A regular expression. -/
inductive Regex where
  /-- No text. -/
  | never
  /-- The empty text. -/
  | empty
  /-- One character of a class. -/
  | one (accepts : Char → Bool)
  | seq (first second : Regex)
  | alt (left right : Regex)
  /-- Any number of texts, one after the other. -/
  | many (body : Regex)

namespace Regex

/-- `Matches r text` says that `r` describes `text`. -/
inductive Matches : Regex → List Char → Prop where
  | empty : Matches empty []
  | one {accepts : Char → Bool} {c : Char} : accepts c = true → Matches (one accepts) [c]
  | seq {r s : Regex} {t u : List Char} : Matches r t → Matches s u → Matches (seq r s) (t ++ u)
  | left {r s : Regex} {t : List Char} : Matches r t → Matches (alt r s) t
  | right {r s : Regex} {t : List Char} : Matches s t → Matches (alt r s) t
  | done {r : Regex} : Matches (many r) []
  | more {r : Regex} {t u : List Char} :
      Matches r t → Matches (many r) u → Matches (many r) (t ++ u)

/-! ### Building expressions -/

/-- A character of a list. -/
def oneOf (chars : List Char) : Regex :=
  one chars.contains

/-- A character outside a list. -/
def noneOf (chars : List Char) : Regex :=
  one fun c => !chars.contains c

/-- Exactly this text. -/
def literal : List Char → Regex
  | [] => empty
  | c :: rest => seq (one (· = c)) (literal rest)

/-- The expressions in a row. -/
def inOrder : List Regex → Regex
  | [] => empty
  | [r] => r
  | r :: rest => seq r (inOrder rest)

/-- At least one. -/
def atLeastOne (r : Regex) : Regex :=
  seq r (many r)

/-- One or none. -/
def optional (r : Regex) : Regex :=
  alt r empty

/-! ### Derivatives -/

/-- Sequence, simplified where one side is `never` or the first is `empty`. -/
def seqSimple : Regex → Regex → Regex
  | never, _ => never
  | _, never => never
  | empty, s => s
  | r, s => seq r s

/-- Alternative, simplified where one side is `never`. -/
def altSimple : Regex → Regex → Regex
  | never, s => s
  | r, never => r
  | r, s => alt r s

/-- Whether the empty text matches. -/
def nullable : Regex → Bool
  | never => false
  | empty => true
  | one _ => false
  | seq r s => r.nullable && s.nullable
  | alt r s => r.nullable || s.nullable
  | many _ => true

/-- What may follow the character `c`. -/
def derivative (c : Char) : Regex → Regex
  | never => never
  | empty => never
  | one accepts => if accepts c then empty else never
  | seq r s =>
    if r.nullable then altSimple (seqSimple (r.derivative c) s) (s.derivative c)
    else seqSimple (r.derivative c) s
  | alt r s => altSimple (r.derivative c) (s.derivative c)
  | many r => seqSimple (r.derivative c) (many r)

/-- Whether an expression is plainly without texts. -/
def isNever : Regex → Bool
  | never => true
  | _ => false

/-- The length of the longest beginning of a text that matches and is not
empty, or zero if there is none. -/
def longest (r : Regex) : List Char → Nat
  | [] => 0
  | c :: rest =>
    let r' := r.derivative c
    if r'.isNever then 0
    else
      match longest r' rest with
      | 0 => if r'.nullable then 1 else 0
      | n + 1 => n + 2

end Regex

end FrontEnd
