/-
Outlines of declarations and statements.

Conditions, parameters and patterns are shown by their texts; blocks,
declarations and all other expressions are parts of the outline.
-/
import FrontEnd.Outline.Expression
import FrontEnd.Syntax.Declaration

namespace FrontEnd

open Outline Text

/-! ### Parts without statements -/

/-- The lines for what stands in front of a keyword; empty lists have none. -/
def Header.outline (h : Header) : List String :=
  let attributes := match h.attributes with
    | [] => []
    | first :: later =>
      let names := String.intercalate " " ((first :: later).map ("@" ++ ·))
      lines s!"attributes: `{names}`"
  let modifiers := match h.modifiers with
    | [] => []
    | first :: later =>
      let words := String.intercalate " " (first :: later)
      lines s!"modifiers: `{words}`"
  attributes ++ modifiers

/-- Bindings, numbered from `index` on. -/
def Binding.outlines (index : Nat) : List Binding → List String
  | [] => []
  | ⟨pattern, value⟩ :: rest =>
    let initializer := match value with
      | some value => indent (labeled "initializer: " value.outline)
      | none => []
    lines s!"{index}: pattern: `{pattern.text}`" ++ initializer ++
      Binding.outlines (index + 1) rest

/-- The lines for a function up to its body. -/
def Signature.outline (s : Signature) : List String :=
  let throws := if s.throws then ["throws: `true`"] else []
  let result := match s.result with
    | some type => lines s!"result: `{type.text}`"
    | none => []
  let parameters := s.parameters.map fun p => s!"`{p.text}`"
  lines s!"name: `{s.name}`" ++ list "parameters" (numbered parameters) ++ throws ++ result

/-- A condition on one line. -/
def Condition.summary : Condition → String
  | expression value => s!"kind: `expression`, expression: `{value.text}`"
  | matching pattern value =>
    s!"kind: `case`, pattern: `{pattern.text}`, expression: `{value.text}`"
  | binding isMutable pattern value =>
    s!"kind: `{bindingKeyword isMutable}`, pattern: `{pattern.text}`, expression: `{value.text}`"

/-- The conditions of a statement. -/
def Condition.outline (conditions : List Condition) : List String :=
  list "conditions" (numbered (conditions.map Condition.summary))

/-- A directive on one line; a source location shows its file and line if it
has both. -/
def Directive.summary : Directive → String
  | ifTrue condition => s!"kind: `if`, condition: `{condition}`"
  | elseIfTrue condition => s!"kind: `elseif`, condition: `{condition}`"
  | otherwise => "kind: `else`"
  | endIf => "kind: `endif`"
  | sourceLocation (some file) (some line) =>
    s!"kind: `source_location`, file_name: `{file}`, line_number: `{line}`"
  | sourceLocation _ _ => "kind: `source_location`"

/-- The condition after `where`. -/
def guardingOutline : Option Expression → List String
  | some value => labeled "where: " value.outline
  | none => []

/-- The patterns of a `case`, numbered from `index` on. -/
def CaseItem.outlines (index : Nat) : List CaseItem → List String
  | [] => []
  | ⟨pattern, guarding⟩ :: rest =>
    lines s!"{index}: pattern: `{pattern.text}`" ++ indent (guardingOutline guarding) ++
      CaseItem.outlines (index + 1) rest

/-- The line with the name of a label. -/
def labelLines (label : String) : List String :=
  lines s!"label_name: `{label}`"

/-- What a handler catches.  The outline of its condition stands between the
backticks as it is. -/
def handlerSummary : Option Pattern → Option Expression → String
  | none, none => "&lt;catch_all&gt;"
  | some pattern, none => s!"pattern: `{pattern.text}`"
  | none, some value => s!"where: `{unlines value.outline}`"
  | some pattern, some value => s!"pattern: `{pattern.text}`, where: `{unlines value.outline}`"

/-- A labeled list whose items stand at the depth of the label. -/
def flatList (label : String) : List String → List String
  | [] => [s!"{label}: {emptyMark}"]
  | first :: later => s!"{label}:" :: first :: later

/-- The statements of an arm, which take up a line even if there are none. -/
def armBody : List String → List String
  | [] => [""]
  | first :: later => first :: later

/-! ### Declarations, blocks and statements -/

mutual

/-- The outline of a declaration. -/
def Declaration.outline : Declaration → List String
  | .importing r header kind module submodules =>
    let path := String.intercalate "." (module :: submodules)
    part "import_decl" r
      (header.outline ++ s!"kind: `{kind.name}`" :: lines s!"import_path: `{path}`")
  | .bindings r header isMutable items =>
    part (if isMutable then "var_decl" else "const_decl") r
      (header.outline ++ list "initializers" (Binding.outlines 0 items))
  | .typeAlias r header name type =>
    part "typealias_decl" r
      (header.outline ++ lines s!"name: `{name}`" ++ lines s!"assignment: `{type.text}`")
  | .function r header signature none =>
    part "func_decl" r (header.outline ++ signature.outline)
  | .function r header signature (some body) =>
    part "func_decl" r (header.outline ++ signature.outline ++ body.outline)
  | .type r header family name inherits members =>
    let inherited := match inherits with
      | [] => []
      | first :: later => lines s!"inherits: `{commas (TypeExpr.texts (first :: later))}`"
    part family.tag r
      (header.outline ++ lines s!"name: `{name}`" ++ inherited ++
        list "members" (Declaration.memberLines 0 members))
  | .cases r header names =>
    part "enum_case_decl" r (header.outline ++ lines s!"names: `{commas names}`")

/-- The members of a type, numbered from `index` on. -/
def Declaration.memberLines (index : Nat) : List Declaration → List String
  | [] => []
  | member :: rest =>
    s!"{index}:" :: indent member.outline ++ Declaration.memberLines (index + 1) rest

/-- The outline of a block. -/
def Block.outline : Block → List String
  | ⟨r, statements⟩ => sequence "code_block" r (Statement.outlines statements)

/-- The outlines of statements, one below the other. -/
def Statement.outlines : List Statement → List String
  | [] => []
  | statement :: rest => statement.outline ++ Statement.outlines rest

/-- The outline of a statement. -/
def Statement.outline : Statement → List String
  | .jump r kind label => part kind.tag r (label.elim [] labelLines)
  | .directive r directive => part "compiler_ctrl_stmt" r (lines directive.summary)
  | .declaration d => d.outline
  | .deferred r body => part "defer_stmt" r body.outline
  | .doing r body handlers =>
    head "do_stmt" r :: indent body.outline ++
      match handlers with
      | [] => indent [s!"catches: {emptyMark}"]
      | first :: later => indent ["catches:"] ++ Handler.outlines 0 (first :: later)
  | .expression e => e.outline
  | .fallthrough r => part "fallthrough_stmt" r []
  | .forIn r isMatching pattern collection guarding body =>
    let matching := if isMatching then ["case_matching: `true`"] else []
    part "for_stmt" r
      (matching ++ lines s!"pattern: `{pattern.text}`" ++
        labeled "collection: " collection.outline ++ guardingOutline guarding ++ body.outline)
  | .guarding r conditions body =>
    part "guard_stmt" r (Condition.outline conditions ++ body.outline)
  | .choice r conditions body none =>
    part "if_stmt" r (Condition.outline conditions ++ body.outline)
  | .choice r conditions body (some alternative) =>
    part "if_stmt" r (Condition.outline conditions ++ body.outline ++ alternative.outline)
  | .labeled r label statement => part "labeled_stmt" r (labelLines label ++ statement.outline)
  | .repeating r body condition =>
    part "repeat_stmt" r (body.outline ++ labeled "condition: " condition.outline)
  | .returning r value => part "return_stmt" r (value.elim [] (·.outline))
  | .switch r subject arms =>
    part "switch_stmt" r (subject.outline ++ flatList "cases" (Arm.outlines 0 arms))
  | .throwing r value => part "throw_stmt" r value.outline
  | .looping r conditions body =>
    part "while_stmt" r (Condition.outline conditions ++ body.outline)

/-- The outline of what follows `else`. -/
def Alternative.outline : Alternative → List String
  | .block body => "else:" :: body.outline
  | .choice statement => "elseif:" :: statement.outline

/-- Handlers, numbered from `index` on, as they stand below a `do`. -/
def Handler.outlines (index : Nat) : List Handler → List String
  | [] => []
  | ⟨pattern, guarding, body⟩ :: rest =>
    lines (indentation ++ s!"{index}: {handlerSummary pattern guarding}") ++
      indent (indent body.outline) ++ Handler.outlines (index + 1) rest

/-- The arms of a `switch`, numbered from `index` on. -/
def Arm.outlines (index : Nat) : List Arm → List String
  | [] => []
  | .case items statements :: rest =>
    s!"{index}: kind: `case`" ::
      indent (flatList "items" (CaseItem.outlines 0 items) ++
        armBody (Statement.outlines statements)) ++
      Arm.outlines (index + 1) rest
  | .default statements :: rest =>
    s!"{index}: kind: `default`" ::
      indent (armBody (Statement.outlines statements)) ++ Arm.outlines (index + 1) rest

end

/-- The outline of a text. -/
def Root.outline (root : Root) : List String :=
  sequence "top_level_decl" root.range (root.declarations.flatMap Declaration.outline)

end FrontEnd
