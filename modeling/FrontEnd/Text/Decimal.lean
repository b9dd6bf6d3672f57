/-
Reading decimal numbers.

A number is one or more decimal digits, with a plus sign in front if wanted,
and lies below a bound.
-/

namespace FrontEnd

namespace Text

/-- The value of digits that follow digits of a given value. -/
def digitsValue? (value : Nat) : List Char → Option Nat
  | [] => some value
  | c :: rest => if c.isDigit then digitsValue? (10 * value + (c.toNat - '0'.toNat)) rest else none

/-- The number that a text writes, if it lies below a bound. -/
def decimalBelow? (bound : Nat) (text : List Char) : Option Nat :=
  let digits := if text.head? = some '+' then text.tail else text
  if digits.isEmpty then none else (digitsValue? 0 digits).filter (· < bound)

end Text

end FrontEnd
