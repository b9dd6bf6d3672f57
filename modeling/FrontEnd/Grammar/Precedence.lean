/-
How tightly binary operators bind.

An operator of a higher level takes its operands before one of a lower level.
Among neighbours of one level the operators that associate to the right take
them from the right, all others from the left.  Assignment has the lowest level
of all; operators that the table does not list come next.
-/

namespace FrontEnd

/-- How tightly an operator binds, and to which side. -/
structure Precedence where
  level : Nat
  toTheRight : Bool
deriving DecidableEq, Repr, Inhabited

namespace Precedence

/-- The level of assignments. -/
def assignmentLevel : Nat :=
  90

/-- The least level of an expression that holds no assignment at its top. -/
def aboveAssignment : Nat :=
  assignmentLevel + 1

/-- The operators of the language by their precedence. -/
def table : List (Precedence × List String) :=
  [(⟨assignmentLevel, true⟩,
      ["=", "*=", "/=", "%=", "+=", "-=", "<<=", ">>=", "&=", "|=", "^="]),
    (⟨110, false⟩, ["||"]),
    (⟨120, false⟩, ["&&"]),
    (⟨130, false⟩, ["==", "!=", "===", "!==", "<", "<=", ">", ">=", "~="]),
    (⟨131, true⟩, ["??"]),
    (⟨135, false⟩, ["...", "..<"]),
    (⟨140, false⟩, ["+", "-", "&+", "&-", "|", "^"]),
    (⟨150, false⟩, ["*", "/", "%", "&*", "&"]),
    (⟨160, false⟩, ["<<", ">>"])]

/-- The precedence of an operator. -/
def ofOperator (operator : String) : Precedence :=
  match table.find? fun (_, operators) => operators.contains operator with
  | some (precedence, _) => precedence
  | none => ⟨100, false⟩

/-- The least level of the operators in the right operand. -/
def rightFloor (p : Precedence) : Nat :=
  if p.toTheRight then p.level else p.level + 1

end Precedence

end FrontEnd
