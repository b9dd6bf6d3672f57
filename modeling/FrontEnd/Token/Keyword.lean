/-
The reserved words.

Every keyword has a role, which says where in the language it acts.  A word has
the role of the first table that lists it.  Contextual keywords are keywords
only in certain places; elsewhere they may serve as names.
-/

namespace FrontEnd

/-- Where in the language a keyword acts. -/
inductive KeywordRole where
  /-- It introduces or modifies a declaration. -/
  | declaration
  /-- It belongs to a statement. -/
  | statement
  /-- It belongs to an expression. -/
  | expression
  /-- It stands for a pattern. -/
  | pattern
  /-- It acts in certain places only, and may be a name in all others. -/
  | contextual
deriving DecidableEq, Repr, Inhabited

namespace KeywordRole

/-- The word for a role. -/
def name : KeywordRole → String
  | declaration => "Declaration"
  | statement => "Statement"
  | expression => "Expression"
  | pattern => "Pattern"
  | contextual => "Contextual"

/-- The keywords of each role. -/
def words : KeywordRole → List String
  | declaration =>
    ["associatedtype", "class", "deinit", "enum", "extension", "fileprivate", "func", "import",
      "init", "inout", "internal", "let", "open", "operator", "private", "protocol", "public",
      "static", "struct", "subscript", "typealias", "var"]
  | statement =>
    ["break", "case", "catch", "continue", "default", "defer", "do", "else", "fallthrough", "for",
      "guard", "if", "in", "repeat", "return", "switch", "throw", "where", "while"]
  | expression =>
    ["as", "false", "is", "nil", "rethrows", "self", "super", "throws", "true", "try"]
  | pattern => ["_"]
  | contextual =>
    ["Protocol", "Type", "associativity", "convenience", "didSet", "dynamic", "final", "get",
      "indirect", "lazy", "left", "mutating", "none", "nonmutating", "optional", "override",
      "postfix", "precedence", "prefix", "required", "right", "set", "unowned", "weak", "willSet"]

/-- All roles, in the order in which their tables are searched. -/
def all : List KeywordRole :=
  [declaration, statement, expression, pattern, contextual]

/-- The role of a word, if it is a keyword. -/
def ofWord? (word : String) : Option KeywordRole :=
  all.find? fun role => role.words.contains word

/-- The words that modify the declaration after them. -/
def modifiers : List String :=
  ["public", "private", "internal", "fileprivate", "open", "static", "final", "override",
    "mutating", "nonmutating", "lazy", "required", "convenience", "dynamic", "optional", "weak",
    "unowned", "indirect"]

end KeywordRole

end FrontEnd
