/-
Outlines of expressions and patterns.

Every operand, element and argument of an expression is a part of its outline.
A pattern is shown by its text.
-/
import FrontEnd.Outline.Basic
import FrontEnd.Syntax.Pattern

namespace FrontEnd

open Outline Text

mutual

/-- The outline of an expression. -/
def Expression.outline : Expression → List String
  | .identifier r name => part "identifier_expr" r (lines s!"name: `{name}`")
  | .nil r => part "literal_expr" r ["kind: `nil`"]
  | .boolean r value =>
    let word := if value then "true" else "false"
    part "literal_expr" r [s!"kind: `boolean`, literal: `{word}`"]
  | .integer r digits => part "literal_expr" r (lines s!"kind: `integer`, literal: `{digits}`")
  | .floating r digits =>
    part "literal_expr" r (lines s!"kind: `floating_point`, literal: `{digits}`")
  | .string r content =>
    part "literal_expr" r (lines s!"kind: `string`, literal: `{quote content}`")
  | .array r elements =>
    part "literal_expr" r ("kind: `array`" :: list "elements" (Expression.outlines 0 elements))
  | .dictionary r entries =>
    part "literal_expr" r ("kind: `dictionary`" :: list "entries" (Entry.outlines 0 entries))
  | .selfReference r => part "self_expr" r []
  | .implicitMember r name => part "implicit_member_expr" r (lines s!"name: `{name}`")
  | .parenthesized r inner => part "paren_expr" r inner.outline
  | .tuple r elements => part "tuple_expr" r (list "elements" (Argument.outlines 0 elements))
  | .unary r operator operand =>
    part "prefix_unary_expr" r (lines s!"operator: `{operator}`" ++ operand.outline)
  | .binary r operator left right =>
    part "binary_op_expr" r (lines s!"operator: `{operator}`" ++ left.outline ++ right.outline)
  | .assignment r target value => part "assignment_expr" r (target.outline ++ value.outline)
  | .call r callee arguments =>
    part "function_call_expr" r
      (callee.outline ++ list "arguments" (Argument.outlines 0 arguments))
  | .member r base name =>
    part "explicit_member_expr" r (base.outline ++ lines s!"member: `{name}`")
  | .subscript r base arguments =>
    part "subscript_expr" r (base.outline ++ list "arguments" (Argument.outlines 0 arguments))
  | .forced r base => part "forced_value_expr" r base.outline
  | .attempt r kind body => part "try_expr" r (s!"kind: `{kind.text}`" :: body.outline)
  | .wildcard r => part "wildcard_expr" r []

/-- The elements of an array, numbered from `index` on. -/
def Expression.outlines (index : Nat) : List Expression → List String
  | [] => []
  | element :: rest =>
    s!"{index}:" :: indent element.outline ++ Expression.outlines (index + 1) rest

/-- Arguments, numbered from `index` on. -/
def Argument.outlines (index : Nat) : List Argument → List String
  | [] => []
  | ⟨some label, value⟩ :: rest =>
    lines s!"{index}: label: `{label}`" ++ indent value.outline ++
      Argument.outlines (index + 1) rest
  | ⟨none, value⟩ :: rest =>
    s!"{index}:" :: indent value.outline ++ Argument.outlines (index + 1) rest

/-- The entries of a dictionary, numbered from `index` on. -/
def Entry.outlines (index : Nat) : List Entry → List String
  | [] => []
  | ⟨key, value⟩ :: rest =>
    s!"{index}:" :: indent (labeled "key: " key.outline) ++
      indent (labeled "value: " value.outline) ++ Entry.outlines (index + 1) rest

end

/-- The outline of a pattern. -/
def Pattern.outline (p : Pattern) : List String :=
  part p.tag p.range (lines s!"text: `{p.text}`")

end FrontEnd
