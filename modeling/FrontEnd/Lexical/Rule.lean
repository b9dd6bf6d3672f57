/-
The lexical rules.

A rule describes a class of texts and says what token such a text is.  At each
place the rule with the longest match decides, and among rules that match
equally far the one that stands first; so the marks stand before the operators.
Where no rule of the language matches, the rules for unfinished input say how
much is one invalid token; where these do not match either, it is one character.
-/
import FrontEnd.Lexical.Regex
import FrontEnd.Token.Basic

namespace FrontEnd

/-- A class of texts and the kind of token that each of them is. -/
structure Rule where
  pattern : Regex
  kind : List Char → TokenKind

namespace Rule

open Regex

/-! ### Character classes -/

/-- A letter or an underscore. -/
def startsWord (c : Char) : Bool :=
  c.isAlpha || c = '_'

/-- A letter, a digit or an underscore. -/
def continuesWord (c : Char) : Bool :=
  c.isAlphanum || c = '_'

/-- A hexadecimal digit. -/
def isHexDigit (c : Char) : Bool :=
  c.isDigit || ('a' ≤ c && c ≤ 'f') || ('A' ≤ c && c ≤ 'F')

/-- An octal digit. -/
def isOctalDigit (c : Char) : Bool :=
  '0' ≤ c && c ≤ '7'

/-- A binary digit. -/
def isBinaryDigit (c : Char) : Bool :=
  c = '0' || c = '1'

/-- The characters that operators are made of, the slash apart. -/
def operatorChars : List Char :=
  ['-', '+', '*', '%', '<', '>', '=', '&', '|', '^', '~']

/-- The characters that may follow a slash in an operator; an asterisk or a
second slash would open a comment. -/
def afterSlash : List Char :=
  ['-', '+', '%', '<', '>', '=', '&', '|', '^', '~']

/-! ### Patterns -/

/-- A digit, then digits and underscores. -/
def digits (accepts : Char → Bool) : Regex :=
  seq (one accepts) (many (one fun c => accepts c || c = '_'))

/-- The exponent of a number. -/
def exponent : Regex :=
  inOrder [oneOf ['e', 'E'], optional (oneOf ['+', '-']), atLeastOne (one Char.isDigit)]

/-- A word. -/
def word : Regex :=
  seq (one startsWord) (many (one continuesWord))

/-- One item between the quotes of a string: a plain character, or a backslash
with the character after it. -/
def stringItem : Regex :=
  alt (noneOf ['"', '\\', '\n', '\r']) (seq (literal ['\\']) (noneOf ['\n', '\r']))

/-! ### Kinds -/

/-- The text without its first and last character. -/
def inner (text : List Char) : List Char :=
  text.tail.dropLast

/-- The character that an escape stands for. -/
def unescapeChar (c : Char) : Char :=
  if c = 'n' then '\n'
  else if c = 't' then '\t'
  else if c = 'r' then '\r'
  else if c = '0' then '\x00'
  else c

/-- A text with its escapes resolved; a backslash at the end stands for
itself. -/
def unescape : List Char → List Char
  | [] => []
  | '\\' :: c :: rest => unescapeChar c :: unescape rest
  | c :: rest => c :: unescape rest

/-- A rule for one fixed text. -/
def fixed (text : String) (kind : TokenKind) : Rule :=
  ⟨literal text.toList, fun _ => kind⟩

/-- A rule whose tokens keep their text. -/
def keeping (kind : String → TokenKind) (pattern : Regex) : Rule :=
  ⟨pattern, fun text => kind (String.ofList text)⟩

/-! ### The tables -/

/-- Blanks and line breaks. -/
def blanks : List Rule :=
  [⟨atLeastOne (oneOf [' ', '\t', '\x0c']), fun _ => .whitespace⟩,
    fixed "\n" .lineFeed,
    fixed "\r" .carriageReturn,
    keeping .comment (inOrder [literal ['/', '/'], many (noneOf ['\n', '\r'])])]

/-- Words, plain and in backticks. -/
def words : List Rule :=
  [keeping .ofWord word,
    ⟨inOrder [literal ['\x60'], word, literal ['\x60']],
      fun text => .quotedIdentifier (String.ofList (inner text))⟩]

/-- Numbers and strings. -/
def literals : List Rule :=
  [keeping .integer (digits Char.isDigit),
    keeping .integer (inOrder [literal ['0', 'x'], digits isHexDigit]),
    keeping .integer (inOrder [literal ['0', 'o'], digits isOctalDigit]),
    keeping .integer (inOrder [literal ['0', 'b'], digits isBinaryDigit]),
    keeping .floating
      (inOrder [digits Char.isDigit, literal ['.'], digits Char.isDigit, optional exponent]),
    keeping .floating (inOrder [digits Char.isDigit, exponent]),
    ⟨inOrder [literal ['"'], many stringItem, literal ['"']],
      fun text => .string (String.ofList (unescape (inner text)))⟩]

/-- The marks.  Two periods that no third and no `<` follows are one token of
the same kind as a single period. -/
def marks : List Rule :=
  Punctuator.all.map (fun mark => fixed mark.symbol (.punctuator mark)) ++
    [fixed ".." (.punctuator .period)]

/-- The operators. -/
def operators : List Rule :=
  [keeping .operator (atLeastOne (oneOf operatorChars)),
    keeping .operator (seq (literal ['/']) (many (oneOf afterSlash)))] ++
    ["!=", "!==", "??", "...", "..<"].map fun symbol => fixed symbol (.operator symbol)

/-- The rules of the language. -/
def language : List Rule :=
  blanks ++ words ++ literals ++ marks ++ operators

/-- The rules for input that no rule of the language matches: a string without
its end, and a name without its closing backtick. -/
def unfinished : List Rule :=
  [keeping .invalid (seq (literal ['"']) (many stringItem)),
    keeping .invalid (seq (literal ['\x60']) (optional word))]

/-! ### Choice -/

/-- The rule that matches farthest, the first of several, with the length of
its match. -/
def choose? (text : List Char) : List Rule → Option (Nat × Rule)
  | [] => none
  | rule :: later =>
    let length := rule.pattern.longest text
    match choose? text later with
    | none => if length = 0 then none else some (length, rule)
    | some (best, other) => if length < best then some (best, other) else some (length, rule)

end Rule

end FrontEnd
