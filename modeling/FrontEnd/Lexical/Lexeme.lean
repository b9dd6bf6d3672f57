/-
Lexemes.

A lexeme is a piece of a text with the kind of token it is.  Cutting a text
into lexemes loses nothing: their texts, one after the other, are the text.
-/
import FrontEnd.Lexical.Rule

namespace FrontEnd

/-- A piece of a text, with its kind. -/
structure Lexeme where
  kind : TokenKind
  text : List Char

namespace Lexeme

/-- How many characters lead up to and over the end of a block comment. -/
def commentEnd? : List Char → Option Nat
  | [] => none
  | '*' :: '/' :: _ => some 2
  | _ :: rest => (commentEnd? rest).map (· + 1)

/-- The block comment at the start of a text, when `body` is what follows its
opening.  Comments do not nest; one that does not end takes all the rest and is
invalid. -/
def blockComment (body : List Char) : Lexeme :=
  match commentEnd? body with
  | some n =>
    let text := '/' :: '*' :: body.take n
    ⟨.comment (String.ofList text), text⟩
  | none =>
    let text := '/' :: '*' :: body
    ⟨.invalid (String.ofList text), text⟩

/-- The lexeme that a list of rules finds at the start of a text. -/
def ofRules? (rules : List Rule) (text : List Char) : Option Lexeme :=
  (Rule.choose? text rules).map fun (length, rule) =>
    ⟨rule.kind (text.take length), text.take length⟩

/-- The lexeme at the start of the text `c :: rest`: a block comment, the match
of a rule, unfinished input, or else the one character. -/
def first (c : Char) (rest : List Char) : Lexeme :=
  match c, rest with
  | '/', '*' :: body => blockComment body
  | _, _ =>
    (ofRules? Rule.language (c :: rest)).getD <|
      (ofRules? Rule.unfinished (c :: rest)).getD ⟨.invalid (String.singleton c), [c]⟩

/-- The lexemes of a text, once its first `skip` characters, which belong to a
lexeme already found, are passed. -/
def after (skip : Nat) : List Char → List Lexeme
  | [] => []
  | c :: rest =>
    match skip with
    | 0 =>
      let lexeme := first c rest
      lexeme :: after (lexeme.text.length - 1) rest
    | skip + 1 => after skip rest

/-- The lexemes of a text. -/
def ofChars (text : List Char) : List Lexeme :=
  after 0 text

end Lexeme

end FrontEnd
