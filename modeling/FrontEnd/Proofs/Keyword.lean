/-
The words that choose what is read.

What a statement, a declaration or a directive is can be told from one word.  For each of them the
words are given one by one, with one more case for all other words, so that the cases of a proof
carry the names of what the words choose.
-/
import Mathlib.Tactic.Lemma
import FrontEnd.Grammar.Declaration

namespace FrontEnd

namespace Grammar

open Procedure

/-! ### Statements -/

/-- The words with which statements start. -/
def statementWords : List String :=
  ["break", "continue", "fallthrough", "return", "throw", "defer", "do", "if", "guard", "while",
    "repeat", "for", "switch"]

/-- What the first word of a statement may be. -/
inductive StatementWord : Option String → Prop
  | breaking : StatementWord (some "break")
  | continuing : StatementWord (some "continue")
  | fallthrough : StatementWord (some "fallthrough")
  | returning : StatementWord (some "return")
  | throwing : StatementWord (some "throw")
  | deferring : StatementWord (some "defer")
  | doing : StatementWord (some "do")
  | choice : StatementWord (some "if")
  | guarding : StatementWord (some "guard")
  | looping : StatementWord (some "while")
  | repeating : StatementWord (some "repeat")
  | forIn : StatementWord (some "for")
  | switch : StatementWord (some "switch")
  | other {word : Option String} (h : ∀ text ∈ statementWords, word ≠ some text) :
    StatementWord word

lemma StatementWord.of (word : Option String) : StatementWord word := by
  by_cases h : ∃ text ∈ statementWords, word = some text
  · obtain ⟨text, hmem, rfl⟩ := h
    simp only [statementWords, List.mem_cons, List.not_mem_nil, or_false] at hmem
    rcases hmem with rfl | rfl | rfl | rfl | rfl | rfl | rfl | rfl | rfl | rfl | rfl | rfl | rfl <;>
      constructor
  · exact .other fun text hmem heq => h ⟨text, hmem, heq⟩

/-- Without such a word a statement is an expression. -/
lemma unlabeled_of_other {word : Option String} (h : ∀ text ∈ statementWords, word ≠ some text) :
    unlabeled word = do
      let value ← read (.expression 0)
      return fun _ => .expression value := by
  unfold unlabeled
  split <;> first | rfl | exact absurd rfl (h _ (by decide))

/-! ### Declarations -/

/-- The words with which declarations start, but for `import`. -/
def declarationWords : List String :=
  ["let", "var", "typealias", "func", "struct", "class", "enum", "protocol", "extension", "case"]

/-- What the first word of a declaration may be. -/
inductive DeclarationWord : String → Prop
  | letBinding : DeclarationWord "let"
  | varBinding : DeclarationWord "var"
  | typeAlias : DeclarationWord "typealias"
  | function : DeclarationWord "func"
  | structType : DeclarationWord "struct"
  | classType : DeclarationWord "class"
  | enumType : DeclarationWord "enum"
  | protocol : DeclarationWord "protocol"
  | extension : DeclarationWord "extension"
  | enumCases : DeclarationWord "case"
  | other {word : String} (h : word ∉ declarationWords) : DeclarationWord word

lemma DeclarationWord.of (word : String) : DeclarationWord word := by
  by_cases h : word ∈ declarationWords
  · simp only [declarationWords, List.mem_cons, List.not_mem_nil, or_false] at h
    rcases h with rfl | rfl | rfl | rfl | rfl | rfl | rfl | rfl | rfl | rfl <;> constructor
  · exact .other h

/-- Without such a word there is no declaration. -/
lemma declarationNamed_of_other (header : Header) {word : String} (h : word ∉ declarationWords) :
    declarationNamed header word = raise (.unsupportedDeclaration word) := by
  unfold declarationNamed
  split <;> first | rfl | exact absurd (by decide) h

/-! ### Directives -/

/-- The names of directives. -/
def directiveWords : List String :=
  ["if", "elseif", "else", "endif", "sourceLocation"]

/-- What the name of a directive may be. -/
inductive DirectiveWord : String → Prop
  | ifTrue : DirectiveWord "if"
  | elseIfTrue : DirectiveWord "elseif"
  | otherwise : DirectiveWord "else"
  | endIf : DirectiveWord "endif"
  | sourceLocation : DirectiveWord "sourceLocation"
  | other {name : String} (h : name ∉ directiveWords) : DirectiveWord name

lemma DirectiveWord.of (name : String) : DirectiveWord name := by
  by_cases h : name ∈ directiveWords
  · simp only [directiveWords, List.mem_cons, List.not_mem_nil, or_false] at h
    rcases h with rfl | rfl | rfl | rfl | rfl <;> constructor
  · exact .other h

/-- Without such a name there is no directive. -/
lemma directiveNamed_of_other {name : String} (h : name ∉ directiveWords) :
    directiveNamed name = raise (.expectedToken "compiler control directive") := by
  unfold directiveNamed
  split <;> first | rfl | exact absurd (by decide) h

end Grammar

end FrontEnd
