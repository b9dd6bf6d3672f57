/-
Expressions.

Every expression carries the range of the text that it was read from.  Names
are kept without backticks and numbers as they were written; a string is kept
with its escapes resolved.
-/
import FrontEnd.Source.Location
import FrontEnd.Text.Lines
import FrontEnd.Text.Quoted

namespace FrontEnd

/-- What happens to an error that an attempted expression throws. -/
inductive AttemptKind where
  /-- `try`: it is passed on. -/
  | plain
  /-- `try?`: the value is missing. -/
  | optional
  /-- `try!`: it must not happen. -/
  | forced
deriving DecidableEq, Repr, Inhabited

/-- How an attempt is written. -/
def AttemptKind.text : AttemptKind → String
  | plain => "try"
  | optional => "try?"
  | forced => "try!"

mutual

/-- An expression. -/
inductive Expression where
  | identifier (range : Range) (name : String)
  | nil (range : Range)
  | boolean (range : Range) (value : Bool)
  | integer (range : Range) (digits : String)
  | floating (range : Range) (digits : String)
  | string (range : Range) (content : String)
  | array (range : Range) (elements : List Expression)
  | dictionary (range : Range) (entries : List Entry)
  | selfReference (range : Range)
  /-- A member of the type that the context gives, as in `.red`. -/
  | implicitMember (range : Range) (name : String)
  | parenthesized (range : Range) (inner : Expression)
  | tuple (range : Range) (elements : List Argument)
  /-- An operator in front of its operand. -/
  | unary (range : Range) (operator : String) (operand : Expression)
  | binary (range : Range) (operator : String) (left right : Expression)
  | assignment (range : Range) (target value : Expression)
  | call (range : Range) (callee : Expression) (arguments : List Argument)
  | member (range : Range) (base : Expression) (name : String)
  | subscript (range : Range) (base : Expression) (arguments : List Argument)
  /-- A value that must not be missing, as in `a!`. -/
  | forced (range : Range) (base : Expression)
  | attempt (range : Range) (kind : AttemptKind) (body : Expression)
  /-- The place of a value that is dropped. -/
  | wildcard (range : Range)

/-- An argument of a call or subscript, or an element of a tuple. -/
inductive Argument where
  | mk (label : Option String) (value : Expression)

/-- A key with its value. -/
inductive Entry where
  | mk (key value : Expression)

end

namespace Expression

/-- The range that an expression was read from. -/
def range : Expression → Range
  | identifier r _ | nil r | boolean r _ | integer r _ | floating r _ | string r _ | array r _
  | dictionary r _ | selfReference r | implicitMember r _ | parenthesized r _ | tuple r _
  | unary r _ _ | binary r _ _ _ | assignment r _ _ | call r _ _ | member r _ _
  | subscript r _ _ | forced r _ | attempt r _ _ | wildcard r => r

/-- The name of the shape of an expression. -/
def tag : Expression → String
  | identifier .. => "identifier_expr"
  | nil .. | boolean .. | integer .. | floating .. | string .. | array .. | dictionary .. =>
    "literal_expr"
  | selfReference .. => "self_expr"
  | implicitMember .. => "implicit_member_expr"
  | parenthesized .. => "paren_expr"
  | tuple .. => "tuple_expr"
  | unary .. => "prefix_unary_expr"
  | binary .. => "binary_op_expr"
  | assignment .. => "assignment_expr"
  | call .. => "function_call_expr"
  | member .. => "explicit_member_expr"
  | subscript .. => "subscript_expr"
  | forced .. => "forced_value_expr"
  | attempt .. => "try_expr"
  | wildcard .. => "wildcard_expr"

end Expression

/-! ### The text of an expression -/

mutual

/-- An expression as one line of text.  Binary operators get a space on either
side; comments, line breaks and trailing commas are not kept. -/
def Expression.text : Expression → String
  | .identifier _ name => name
  | .nil _ => "nil"
  | .boolean _ value => if value then "true" else "false"
  | .integer _ digits => digits
  | .floating _ digits => digits
  | .string _ content => Text.quote content
  | .array _ elements => s!"[{Text.commas (Expression.texts elements)}]"
  | .dictionary _ [] => "[:]"
  | .dictionary _ (entry :: others) => s!"[{Text.commas (Entry.texts (entry :: others))}]"
  | .selfReference _ => "self"
  | .implicitMember _ name => s!".{name}"
  | .parenthesized _ inner => s!"({inner.text})"
  | .tuple _ elements => s!"({Text.commas (Argument.texts elements)})"
  | .unary _ operator operand => s!"{operator}{operand.text}"
  | .binary _ operator left right => s!"{left.text} {operator} {right.text}"
  | .assignment _ target value => s!"{target.text} = {value.text}"
  | .call _ callee arguments => s!"{callee.text}({Text.commas (Argument.texts arguments)})"
  | .member _ base name => s!"{base.text}.{name}"
  | .subscript _ base arguments => s!"{base.text}[{Text.commas (Argument.texts arguments)}]"
  | .forced _ base => s!"{base.text}!"
  | .attempt _ kind body => s!"{kind.text} {body.text}"
  | .wildcard _ => "_"

/-- The texts of several expressions. -/
def Expression.texts : List Expression → List String
  | [] => []
  | expression :: rest => expression.text :: Expression.texts rest

/-- The texts of arguments, with their labels. -/
def Argument.texts : List Argument → List String
  | [] => []
  | ⟨some label, value⟩ :: rest => s!"{label}: {value.text}" :: Argument.texts rest
  | ⟨none, value⟩ :: rest => value.text :: Argument.texts rest

/-- The texts of the entries of a dictionary. -/
def Entry.texts : List Entry → List String
  | [] => []
  | ⟨key, value⟩ :: rest => s!"{key.text}: {value.text}" :: Entry.texts rest

end

end FrontEnd
