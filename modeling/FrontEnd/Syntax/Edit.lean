/-
Editing a tree.

An edit changes the top-level declarations of a tree in one respect, and leaves
all ranges as they are.  Edits of statements concern the statements that stand
directly in the body of a top-level function.
-/
import FrontEnd.Syntax.Declaration

namespace FrontEnd

/-- A change of a tree. -/
inductive Edit where
  /-- Further declarations at the end. -/
  | append (declarations : List Declaration)
  /-- Top-level `let` and `var` lose their bindings. -/
  | clearBindings
  /-- Top-level aliases all name this type. -/
  | retype (type : TypeExpr)
  /-- The cases directly inside top-level enumerations lose their names. -/
  | clearCases
  /-- The statements `if`, `guard` and `while` lose their conditions. -/
  | clearConditions
  /-- The `case` arms of `switch` lose their patterns. -/
  | clearPatterns
  /-- Source locations lose their file. -/
  | dropFile
  /-- Source locations lose their line. -/
  | dropLine

namespace Edit

/-- An arm without its patterns. -/
def clearArm : Arm → Arm
  | .case _ statements => .case [] statements
  | arm => arm

/-- An enumeration case without its names. -/
def clearNames : Declaration → Declaration
  | .cases r header _ => .cases r header []
  | d => d

/-- What an edit makes of a statement. -/
def onStatement (edit : Edit) (s : Statement) : Statement :=
  match edit, s with
  | clearConditions, .choice r _ body alternative => .choice r [] body alternative
  | clearConditions, .guarding r _ body => .guarding r [] body
  | clearConditions, .looping r _ body => .looping r [] body
  | clearPatterns, .switch r subject arms => .switch r subject (arms.map clearArm)
  | dropFile, .directive r (.sourceLocation _ line) => .directive r (.sourceLocation none line)
  | dropLine, .directive r (.sourceLocation file _) => .directive r (.sourceLocation file none)
  | _, s => s

/-- What an edit makes of a top-level declaration. -/
def onDeclaration (edit : Edit) (d : Declaration) : Declaration :=
  match edit, d with
  | clearBindings, .bindings r header isMutable _ => .bindings r header isMutable []
  | retype type, .typeAlias r header name _ => .typeAlias r header name type
  | clearCases, .type r header .enumType name inherits members =>
    .type r header .enumType name inherits (members.map clearNames)
  | edit, .function r header signature (some ⟨range, statements⟩) =>
    .function r header signature (some ⟨range, statements.map edit.onStatement⟩)
  | _, d => d

end Edit

/-- What an edit makes of a tree. -/
def Root.edit (root : Root) : Edit → Root
  | .append declarations => { root with declarations := root.declarations ++ declarations }
  | edit => { root with declarations := root.declarations.map edit.onDeclaration }

end FrontEnd
