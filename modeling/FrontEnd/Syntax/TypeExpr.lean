/-
Type expressions.

A type expression carries no place of its own: an outline shows it by its text
alone, and `TypeExpr.text` is that text.
-/
import FrontEnd.Text.Lines

namespace FrontEnd

mutual

/-- A type as it is written. -/
inductive TypeExpr where
  /-- A path of names, as in `A.B<C>`. -/
  | named (path : List TypeSegment)
  | array (element : TypeExpr)
  | dictionary (key value : TypeExpr)
  /-- Marked by `?`. -/
  | optional (wrapped : TypeExpr)
  /-- Marked by `!`. -/
  | unwrapped (wrapped : TypeExpr)
  | tuple (elements : List TypeExpr)
  | function (parameters : List TypeExpr) (throws : Bool) (result : TypeExpr)
deriving Inhabited

/-- One name of a path, with its generic arguments. -/
inductive TypeSegment where
  | mk (name : String) (arguments : List TypeExpr)
deriving Inhabited

end

/-- A mark behind a type. -/
inductive TypeMark where
  | question
  | exclamation
deriving DecidableEq, Repr, Inhabited

namespace TypeExpr

/-- The type that consists of one name. -/
def simple (name : String) : TypeExpr :=
  named [⟨name, []⟩]

/-- A type with a mark behind it. -/
def mark (type : TypeExpr) : TypeMark → TypeExpr
  | .question => optional type
  | .exclamation => unwrapped type

end TypeExpr

mutual

/-- A type as one line of text. -/
def TypeExpr.text : TypeExpr → String
  | .named path => String.intercalate "." (TypeSegment.texts path)
  | .array element => s!"[{element.text}]"
  | .dictionary key value => s!"[{key.text}: {value.text}]"
  | .optional wrapped => s!"{wrapped.text}?"
  | .unwrapped wrapped => s!"{wrapped.text}!"
  | .tuple elements => s!"({Text.commas (TypeExpr.texts elements)})"
  | .function parameters throws result =>
    let marker := if throws then " throws" else ""
    s!"({Text.commas (TypeExpr.texts parameters)}){marker} -> {result.text}"

/-- The texts of several types. -/
def TypeExpr.texts : List TypeExpr → List String
  | [] => []
  | type :: rest => type.text :: TypeExpr.texts rest

/-- The texts of the names of a path. -/
def TypeSegment.texts : List TypeSegment → List String
  | [] => []
  | ⟨name, []⟩ :: rest => name :: TypeSegment.texts rest
  | ⟨name, argument :: others⟩ :: rest =>
    s!"{name}<{Text.commas (TypeExpr.texts (argument :: others))}>" ::
      TypeSegment.texts rest

end

end FrontEnd
