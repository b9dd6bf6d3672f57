/-
Patterns.

A pattern names the parts of a value, or tests a value.  An outline shows a
pattern by its text alone.
-/
import FrontEnd.Syntax.Expression
import FrontEnd.Syntax.TypeExpr

namespace FrontEnd

/-- A pattern. -/
inductive Pattern where
  | wildcard (range : Range)
  | identifier (range : Range) (name : String)
  /-- `let` or, if mutable, `var` in front of a pattern. -/
  | binding (range : Range) (isMutable : Bool) (inner : Pattern)
  | tuple (range : Range) (elements : List Pattern)
  /-- A case of an enumeration, with the values that come with it. -/
  | enumCase (range : Range) (type : Option String) (name : String) (payload : Option Pattern)
  /-- Marked by `?`. -/
  | optional (range : Range) (inner : Pattern)
  | annotated (range : Range) (inner : Pattern) (type : TypeExpr)
  /-- A value to compare with. -/
  | expression (range : Range) (value : Expression)

/-- The keyword that introduces variables or constants. -/
def bindingKeyword (isMutable : Bool) : String :=
  if isMutable then "var" else "let"

namespace Pattern

/-- The range that a pattern was read from. -/
def range : Pattern → Range
  | wildcard r | identifier r _ | binding r _ _ | tuple r _ | enumCase r _ _ _ | optional r _
  | annotated r _ _ | expression r _ => r

/-- The name of the shape of a pattern. -/
def tag : Pattern → String
  | wildcard .. => "wildcard_pattern"
  | identifier .. => "identifier_pattern"
  | binding .. => "value_binding_pattern"
  | tuple .. => "tuple_pattern"
  | enumCase .. => "enum_case_pattern"
  | optional .. => "optional_pattern"
  | annotated .. => "type_annotated_pattern"
  | expression .. => "expr_pattern"

mutual

/-- A pattern as one line of text. -/
def text : Pattern → String
  | wildcard _ => "_"
  | identifier _ name => name
  | binding _ isMutable inner => s!"{bindingKeyword isMutable} {inner.text}"
  | tuple _ elements => s!"({Text.commas (texts elements)})"
  | enumCase _ type name none => type.getD "" ++ s!".{name}"
  | enumCase _ type name (some payload) => type.getD "" ++ s!".{name}{payload.text}"
  | optional _ inner => s!"{inner.text}?"
  | annotated _ inner type => s!"{inner.text}: {type.text}"
  | expression _ value => value.text

/-- The texts of several patterns. -/
def texts : List Pattern → List String
  | [] => []
  | pattern :: rest => pattern.text :: texts rest

end

end Pattern

end FrontEnd
