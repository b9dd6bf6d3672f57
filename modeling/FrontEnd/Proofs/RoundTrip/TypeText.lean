/-
The tokens in the text of a type.

`TypeExpr.spelling` is how a type is written in tokens.  The text of a type is lexed to its
spelling, unless two closing angle brackets or two question marks stand together in it:
these are operators of their own (`TypeExpr.kinds_text`).
-/
import Mathlib.Tactic.Common
import FrontEnd.Proofs.Lexical.Apart
import FrontEnd.Syntax.TypeExpr

namespace FrontEnd

/-! ### Types and their parts -/

mutual

/-- A type and the types in it. -/
def TypeExpr.parts : TypeExpr → List TypeExpr
  | .named path => .named path :: TypeSegment.partsAll path
  | .array element => .array element :: element.parts
  | .dictionary key value => .dictionary key value :: (key.parts ++ value.parts)
  | .optional wrapped => .optional wrapped :: wrapped.parts
  | .unwrapped wrapped => .unwrapped wrapped :: wrapped.parts
  | .tuple elements => .tuple elements :: TypeExpr.partsAll elements
  | .function parameters throws result =>
    .function parameters throws result :: (TypeExpr.partsAll parameters ++ result.parts)

/-- Several types and the types in them. -/
def TypeExpr.partsAll : List TypeExpr → List TypeExpr
  | [] => []
  | type :: rest => type.parts ++ TypeExpr.partsAll rest

/-- The types in a path. -/
def TypeSegment.partsAll : List TypeSegment → List TypeExpr
  | [] => []
  | ⟨_, arguments⟩ :: rest => TypeExpr.partsAll arguments ++ TypeSegment.partsAll rest

end

/-- A word that may be a name in a path. -/
def IsPathName (name : String) : Prop :=
  Rule.IsWord name.toList ∧ ((TokenKind.ofWord name).name? true).isSome = true

/-- The names of a path are such; the first one may also be `self`. -/
def TypeSegment.Named : List TypeSegment → Prop
  | [] => False
  | ⟨name, _⟩ :: rest =>
    (IsPathName name ∨ name = "self") ∧ ∀ other arguments, ⟨other, arguments⟩ ∈ rest → IsPathName other

/-- All paths in a type are named. -/
def TypeExpr.Named (T : TypeExpr) : Prop :=
  ∀ path, .named path ∈ T.parts → TypeSegment.Named path

/-- Somewhere in a type there is a mark directly behind a function. -/
def TypeExpr.MarksFunction (T : TypeExpr) : Prop :=
  ∃ parameters throws result mark, (function parameters throws result).mark mark ∈ T.parts

/-! ### How types are written in tokens -/

mutual

/-- The tokens that a type is written in. -/
def TypeExpr.spelling : TypeExpr → List TokenKind
  | .named path => TypeSegment.spelling path
  | .array element => .punctuator .leftSquare :: (element.spelling ++ [.punctuator .rightSquare])
  | .dictionary key value =>
    .punctuator .leftSquare :: (key.spelling ++ .punctuator .colon :: .whitespace ::
      (value.spelling ++ [.punctuator .rightSquare]))
  | .optional wrapped => wrapped.spelling ++ [.punctuator .question]
  | .unwrapped wrapped => wrapped.spelling ++ [.punctuator .exclamation]
  | .tuple elements =>
    .punctuator .leftParen :: (TypeExpr.spellings elements ++ [.punctuator .rightParen])
  | .function parameters throws result =>
    .punctuator .leftParen :: (TypeExpr.spellings parameters ++ .punctuator .rightParen ::
      ((if throws then [.whitespace, .keyword "throws" .expression] else []) ++
        .whitespace :: .punctuator .arrow :: .whitespace :: result.spelling))

/-- The tokens of several types, with commas between them. -/
def TypeExpr.spellings : List TypeExpr → List TokenKind
  | [] => []
  | type :: rest => type.spelling ++ TypeExpr.laterSpellings rest

/-- The tokens of the types behind the first one. -/
def TypeExpr.laterSpellings : List TypeExpr → List TokenKind
  | [] => []
  | type :: rest =>
    .punctuator .comma :: .whitespace :: (type.spelling ++ TypeExpr.laterSpellings rest)

/-- The tokens of a path. -/
def TypeSegment.spelling : List TypeSegment → List TokenKind
  | [] => []
  | ⟨name, arguments⟩ :: rest =>
    .ofWord name :: (TypeExpr.angled arguments ++ TypeSegment.laterSpelling rest)

/-- The tokens of a path behind its first name. -/
def TypeSegment.laterSpelling : List TypeSegment → List TokenKind
  | [] => []
  | ⟨name, arguments⟩ :: rest =>
    .punctuator .period :: .ofWord name ::
      (TypeExpr.angled arguments ++ TypeSegment.laterSpelling rest)

/-- The tokens of generic arguments. -/
def TypeExpr.angled : List TypeExpr → List TokenKind
  | [] => []
  | type :: rest =>
    .operator "<" :: (type.spelling ++ TypeExpr.laterSpellings rest ++ [.operator ">"])

end

/-! ### The text of a type -/

/-- No two closing angle brackets and no two question marks stand together. -/
def Undoubled (text : List Char) : Prop :=
  ¬ ['>', '>'] <:+: text ∧ ¬ ['?', '?'] <:+: text

instance (text : List Char) : Decidable (Undoubled text) :=
  inferInstanceAs (Decidable (¬ ['>', '>'] <:+: text ∧ ¬ ['?', '?'] <:+: text))

/-- The characters that may stand behind a type in the text of another one. -/
def typeFollowers : List Char :=
  [',', ':', ']', ')', '>', '?', '!']

/-- What follows a type, if anything, starts with a character that may follow one. -/
def FollowsType (later : List Char) : Prop :=
  ∀ b, later.head? = some b → b ∈ typeFollowers

section

variable {text later : List Char} {c : Char}

lemma Undoubled.behind (h : Undoubled (text ++ later)) : Undoubled later :=
  ⟨fun hin => h.1 (hin.trans (List.suffix_append _ _).isInfix),
    fun hin => h.2 (hin.trans (List.suffix_append _ _).isInfix)⟩

lemma Undoubled.tail (h : Undoubled (c :: later)) : Undoubled later := by
  rw [← List.singleton_append] at h
  exact h.behind

lemma followsType_nil : FollowsType [] :=
  nofun

lemma followsType_cons (h : c ∈ typeFollowers) : FollowsType (c :: later) := by
  intro b hb
  cases hb
  exact h

open Lexeme in
/-- A question mark in the text of a type. -/
lemma kinds_question (hundoubled : Undoubled ('?' :: later)) (hlater : FollowsType later) :
    kinds ('?' :: later) = .punctuator .question :: kinds later := by
  refine kinds_cons (takes_mark .question) (by decide) fun b hb hjoins => ?_
  have hb' : b ≠ '?' := by
    rintro rfl
    obtain ⟨rest, rfl⟩ := List.head?_eq_some_iff.mp hb
    exact hundoubled.2 ⟨[], rest, rfl⟩
  have hall : ∀ b ∈ typeFollowers, b ≠ '?' → ¬ Rule.Joins '?' b := forall_mem_of_all (by decide)
  exact hall b (hlater b hb) hb' hjoins

open Lexeme in
/-- An exclamation mark in the text of a type. -/
lemma kinds_exclamation (hlater : FollowsType later) :
    kinds ('!' :: later) = .punctuator .exclamation :: kinds later := by
  refine kinds_cons (takes_mark .exclamation) (by decide) fun b hb => ?_
  have hall : ∀ b ∈ typeFollowers, ¬ Rule.Joins '!' b := forall_mem_of_all (by decide)
  exact hall b (hlater b hb)

open Lexeme in
/-- A closing angle bracket in the text of a type. -/
lemma kinds_closingAngle (hundoubled : Undoubled ('>' :: later))
    (hlater : FollowsType later ∨ later.head? = some '.') :
    kinds ('>' :: later) = .operator ">" :: kinds later := by
  refine kinds_operator ['>'] ⟨rfl, by decide⟩ (forall_mem_of_all (by decide)) fun b hb hoperator => ?_
  have hb' : b ≠ '>' := by
    rintro rfl
    obtain ⟨rest, rfl⟩ := List.head?_eq_some_iff.mp hb
    exact hundoubled.1 ⟨[], rest, rfl⟩
  rcases hlater with hlater | hperiod
  · have hall : ∀ b ∈ typeFollowers, b ≠ '>' → b ∉ Rule.operatorChars :=
      forall_mem_of_all (by decide)
    exact hall b (hlater b hb) hb' hoperator
  · rw [hperiod] at hb
    cases hb
    exact absurd hoperator (by decide)

end

/-! ### The first character -/

/-- A text starts like that of a type. -/
def StartsType (text : List Char) : Prop :=
  ∃ c rest, text = c :: rest ∧ (Rule.startsWord c = true ∨ c ∈ ['[', '('])

lemma StartsType.append {text : List Char} (h : StartsType text) (later : List Char) :
    StartsType (text ++ later) := by
  obtain ⟨c, rest, rfl, hc⟩ := h
  exact ⟨c, rest ++ later, rfl, hc⟩

/-- What starts a type is neither blank nor a character of operators. -/
lemma StartsType.before {text : List Char} (h : StartsType text) :
    Rule.Before (fun b => b ∈ [' ', '\t', '\x0c'] ∨ b ∈ Rule.operatorChars) text := by
  obtain ⟨c, rest, rfl, hc⟩ := h
  intro b hb
  cases hb
  have hall : ∀ d ∈ [' ', '\t', '\x0c'] ++ Rule.operatorChars,
      Rule.startsWord d = false ∧ d ∉ ['[', '('] := forall_mem_of_all (by decide)
  intro hmem
  obtain ⟨hword, hbracket⟩ := hall c (List.mem_append.mpr hmem)
  rcases hc with hc | hc
  · rw [hc] at hword
    cases hword
  · exact hbracket hc

lemma isWord_self : Rule.IsWord "self".toList :=
  ⟨'s', ['e', 'l', 'f'], rfl, rfl, forall_mem_of_all (by decide)⟩

namespace TypeSegment

/-- All names of a path are words. -/
def Worded (path : List TypeSegment) : Prop :=
  ∀ name arguments, ⟨name, arguments⟩ ∈ path → Rule.IsWord name.toList

lemma Named.worded {path : List TypeSegment} (h : Named path) : Worded path := by
  rcases path with _ | ⟨⟨name, arguments⟩, rest⟩
  · exact nofun
  obtain ⟨hfirst, hrest⟩ := h
  intro other arguments' hmem
  rcases List.mem_cons.mp hmem with heq | hmem
  · cases heq
    rcases hfirst with hname | rfl
    · exact hname.1
    · exact isWord_self
  · exact (hrest other arguments' hmem).1

/-- The text of a path behind its first name and the arguments of that. -/
def laterText : List TypeSegment → List Char
  | [] => []
  | segment :: rest => '.' :: (String.intercalate "." (texts (segment :: rest))).toList

/-- The text of generic arguments. -/
def angledText : List TypeExpr → List Char
  | [] => []
  | type :: rest => '<' :: ((Text.commas (TypeExpr.texts (type :: rest))).toList ++ ['>'])

/-- The text of a path: its first name, the generic arguments, and the rest. -/
lemma toList_text_cons (name : String) (arguments : List TypeExpr) (rest : List TypeSegment) :
    (String.intercalate "." (texts (⟨name, arguments⟩ :: rest))).toList =
      name.toList ++ (angledText arguments ++ laterText rest) := by
  rcases arguments with _ | ⟨first, others⟩ <;> rcases rest with _ | ⟨⟨other, _ | _⟩, rest⟩ <;>
    simp [texts, angledText, laterText, toString]

end TypeSegment

namespace TypeExpr

/-! ### Texts as characters -/

section

variable (element key value wrapped result : TypeExpr) (elements parameters : List TypeExpr)
  (throws : Bool)

lemma toList_text_array :
    (array element).text.toList = '[' :: (element.text.toList ++ [']']) := by
  change (s!"[{element.text}]").toList = _
  simp [toString]

lemma toList_text_dictionary : (dictionary key value).text.toList =
    '[' :: (key.text.toList ++ ':' :: ' ' :: (value.text.toList ++ [']'])) := by
  change (s!"[{key.text}: {value.text}]").toList = _
  simp [toString]

lemma toList_text_optional : (optional wrapped).text.toList = wrapped.text.toList ++ ['?'] := by
  change (s!"{wrapped.text}?").toList = _
  simp [toString]

lemma toList_text_unwrapped : (unwrapped wrapped).text.toList = wrapped.text.toList ++ ['!'] := by
  change (s!"{wrapped.text}!").toList = _
  simp [toString]

lemma toList_text_tuple : (tuple elements).text.toList =
    '(' :: ((Text.commas (texts elements)).toList ++ [')']) := by
  change (s!"({Text.commas (texts elements)})").toList = _
  simp [toString]

lemma toList_text_function : (function parameters throws result).text.toList =
    '(' :: ((Text.commas (texts parameters)).toList ++ ')' ::
      ((if throws then ' ' :: "throws".toList else []) ++
        ' ' :: '-' :: '>' :: ' ' :: result.text.toList)) := by
  cases throws <;> simp [text, toString]

lemma toList_commas_pair (type second : TypeExpr) (rest : List TypeExpr) :
    (Text.commas (texts (type :: second :: rest))).toList =
      type.text.toList ++ ',' :: ' ' :: (Text.commas (texts (second :: rest))).toList := by
  simp [texts, Text.commas]

lemma commas_single (type : TypeExpr) : Text.commas (texts [type]) = type.text := by
  simp [texts, Text.commas]

end

/-- The text of a type starts like one. -/
lemma startsType_text : (T : TypeExpr) → T.Named → StartsType T.text.toList
  | .named path, h => by
    have hnamed := h path (by simp [parts])
    rcases path with _ | ⟨⟨name, arguments⟩, rest⟩
    · exact hnamed.elim
    · obtain ⟨c, others, hname, hc, -⟩ := hnamed.worded name arguments List.mem_cons_self
      rw [text, TypeSegment.toList_text_cons, hname]
      exact ⟨c, _, List.cons_append, .inl hc⟩
  | .array element, _ => ⟨'[', _, toList_text_array element, by simp⟩
  | .dictionary key value, _ => ⟨'[', _, toList_text_dictionary key value, by simp⟩
  | .optional wrapped, h => by
    rw [toList_text_optional]
    exact (startsType_text wrapped fun path hpath => h path (by simp [parts, hpath])).append _
  | .unwrapped wrapped, h => by
    rw [toList_text_unwrapped]
    exact (startsType_text wrapped fun path hpath => h path (by simp [parts, hpath])).append _
  | .tuple elements, _ => ⟨'(', _, toList_text_tuple elements, by simp⟩
  | .function parameters throws result, _ =>
    ⟨'(', _, toList_text_function result parameters throws, by simp⟩

lemma startsType_texts {type : TypeExpr} (h : type.Named) (rest : List TypeExpr) :
    StartsType (Text.commas (texts (type :: rest))).toList := by
  cases rest with
  | nil =>
    rw [commas_single]
    exact type.startsType_text h
  | cons second rest =>
    rw [toList_commas_pair]
    exact (type.startsType_text h).append _

end TypeExpr

/-! ### Lexing -/

open Lexeme

/-- A space in the text of a type stands in front of a type or an arrow. -/
lemma kinds_space_startsType {later : List Char} (h : StartsType later) :
    kinds (' ' :: later) = .whitespace :: kinds later :=
  kinds_space fun b hb hblank => h.before b hb (.inl hblank)

/-- The arrow in the text of a type. -/
lemma kinds_arrow {later : List Char} (h : StartsType later) :
    kinds (' ' :: '-' :: '>' :: ' ' :: later) =
      .whitespace :: .punctuator .arrow :: .whitespace :: kinds later := by
  rw [kinds_space (by rintro b ⟨⟩; decide),
    show '-' :: '>' :: ' ' :: later = Punctuator.arrow.symbol.toList ++ ' ' :: later from rfl,
    kinds_operator _ (takes_mark .arrow) (forall_mem_of_all (by decide))
      (by rintro b ⟨⟩; decide),
    kinds_space_startsType h]

lemma isWord_throws : Rule.IsWord "throws".toList :=
  ⟨'t', ['h', 'r', 'o', 'w', 's'], rfl, rfl, forall_mem_of_all (by decide)⟩

/-- The word for functions that throw, if it stands there. -/
lemma kinds_throws (throws : Bool) (later : List Char) :
    kinds ((if throws then ' ' :: "throws".toList else []) ++ ' ' :: later) =
      (if throws then [.whitespace, .keyword "throws" .expression] else []) ++
        kinds (' ' :: later) := by
  cases throws
  · rfl
  · simp only [if_true, List.cons_append]
    rw [kinds_space (by rintro b ⟨⟩; decide),
      kinds_word isWord_throws (by rintro b ⟨⟩; decide)]
    rfl

mutual

/-- The text of a type is lexed to its spelling. -/
theorem TypeExpr.kinds_text : (T : TypeExpr) → ∀ later : List Char, T.Named → FollowsType later →
    Undoubled (T.text.toList ++ later) →
    kinds (T.text.toList ++ later) = T.spelling ++ kinds later
  | .named path, later, hnamed, hlater, hundoubled => by
    have hpath := hnamed path (by simp [TypeExpr.parts])
    have hne : path ≠ [] := by
      rintro rfl
      exact hpath
    exact TypeSegment.kinds_text path later hne hpath.worded
      (fun inner hinner => hnamed inner (by simp [TypeExpr.parts, hinner])) hlater hundoubled
  | .array element, later, hnamed, _, hundoubled => by
    rw [TypeExpr.toList_text_array, List.cons_append, List.append_assoc, List.singleton_append]
      at hundoubled ⊢
    rw [kinds_solitary '[' .leftSquare (by decide) rfl, element.kinds_text _
      (fun path hpath => hnamed path (by simp [TypeExpr.parts, hpath])) (followsType_cons (by decide))
      hundoubled.tail, kinds_solitary ']' .rightSquare (by decide) rfl]
    simp [TypeExpr.spelling]
  | .dictionary key value, later, hnamed, _, hundoubled => by
    have hvalue : value.Named := fun path hpath => hnamed path (by simp [TypeExpr.parts, hpath])
    rw [TypeExpr.toList_text_dictionary, List.cons_append, List.append_assoc, List.cons_append,
      List.cons_append, List.append_assoc, List.singleton_append] at hundoubled ⊢
    rw [kinds_solitary '[' .leftSquare (by decide) rfl, key.kinds_text _
      (fun path hpath => hnamed path (by simp [TypeExpr.parts, hpath])) (followsType_cons (by decide))
      hundoubled.tail, kinds_solitary ':' .colon (by decide) rfl,
      kinds_space_startsType ((value.startsType_text hvalue).append _),
      value.kinds_text _ hvalue (followsType_cons (by decide)) hundoubled.tail.behind.tail.tail,
      kinds_solitary ']' .rightSquare (by decide) rfl]
    simp [TypeExpr.spelling]
  | .optional wrapped, later, hnamed, hlater, hundoubled => by
    rw [TypeExpr.toList_text_optional, List.append_assoc, List.singleton_append] at hundoubled ⊢
    rw [wrapped.kinds_text _ (fun path hpath => hnamed path (by simp [TypeExpr.parts, hpath]))
      (followsType_cons (by decide)) hundoubled, kinds_question hundoubled.behind hlater]
    simp [TypeExpr.spelling]
  | .unwrapped wrapped, later, hnamed, hlater, hundoubled => by
    rw [TypeExpr.toList_text_unwrapped, List.append_assoc, List.singleton_append] at hundoubled ⊢
    rw [wrapped.kinds_text _ (fun path hpath => hnamed path (by simp [TypeExpr.parts, hpath]))
      (followsType_cons (by decide)) hundoubled, kinds_exclamation hlater]
    simp [TypeExpr.spelling]
  | .tuple elements, later, hnamed, _, hundoubled => by
    rw [TypeExpr.toList_text_tuple, List.cons_append, List.append_assoc, List.singleton_append]
      at hundoubled ⊢
    rw [kinds_solitary '(' .leftParen (by decide) rfl, TypeExpr.kinds_texts elements _
      (fun path hpath => hnamed path (by simp [TypeExpr.parts, hpath])) (followsType_cons (by decide))
      hundoubled.tail, kinds_solitary ')' .rightParen (by decide) rfl]
    simp [TypeExpr.spelling]
  | .function parameters throws result, later, hnamed, hlater, hundoubled => by
    have hresult : result.Named := fun path hpath => hnamed path (by simp [TypeExpr.parts, hpath])
    rw [TypeExpr.toList_text_function] at hundoubled ⊢
    simp only [List.cons_append, List.append_assoc] at hundoubled ⊢
    rw [kinds_solitary '(' .leftParen (by decide) rfl, TypeExpr.kinds_texts parameters _
      (fun path hpath => hnamed path (by simp [TypeExpr.parts, hpath])) (followsType_cons (by decide))
      hundoubled.tail, kinds_solitary ')' .rightParen (by decide) rfl, kinds_throws,
      kinds_arrow ((result.startsType_text hresult).append later), result.kinds_text later hresult
      hlater hundoubled.tail.behind.tail.behind.tail.tail.tail.tail]
    simp [TypeExpr.spelling]

/-- The text of types with commas between them is lexed to their spellings. -/
theorem TypeExpr.kinds_texts : (types : List TypeExpr) → ∀ later : List Char,
    (∀ path, .named path ∈ TypeExpr.partsAll types → TypeSegment.Named path) → FollowsType later →
    Undoubled ((Text.commas (TypeExpr.texts types)).toList ++ later) →
    kinds ((Text.commas (TypeExpr.texts types)).toList ++ later) =
      TypeExpr.spellings types ++ kinds later
  | [], later, _, _, _ => rfl
  | [type], later, hnamed, hlater, hundoubled => by
    rw [TypeExpr.commas_single] at hundoubled ⊢
    rw [type.kinds_text later (fun path hpath => hnamed path (by simp [TypeExpr.partsAll, hpath]))
      hlater hundoubled]
    simp [TypeExpr.spellings, TypeExpr.laterSpellings]
  | type :: second :: rest, later, hnamed, hlater, hundoubled => by
    have hrest : ∀ path, .named path ∈ TypeExpr.partsAll (second :: rest) →
        TypeSegment.Named path := fun path hpath =>
      hnamed path (List.mem_append_right type.parts hpath)
    have hsecond : second.Named := fun path hpath =>
      hrest path (List.mem_append_left _ hpath)
    rw [TypeExpr.toList_commas_pair, List.append_assoc, List.cons_append, List.cons_append]
      at hundoubled ⊢
    rw [type.kinds_text _ (fun path hpath => hnamed path (by simp [TypeExpr.partsAll, hpath]))
      (followsType_cons (by decide)) hundoubled, kinds_solitary ',' .comma (by decide) rfl,
      kinds_space_startsType ((TypeExpr.startsType_texts hsecond rest).append later),
      TypeExpr.kinds_texts (second :: rest) later hrest hlater hundoubled.behind.tail.tail]
    simp [TypeExpr.spellings, TypeExpr.laterSpellings]

/-- The text of a path is lexed to its spelling. -/
theorem TypeSegment.kinds_text : (path : List TypeSegment) → ∀ later : List Char, path ≠ [] →
    TypeSegment.Worded path →
    (∀ inner, .named inner ∈ TypeSegment.partsAll path → TypeSegment.Named inner) →
    FollowsType later →
    Undoubled ((String.intercalate "." (TypeSegment.texts path)).toList ++ later) →
    kinds ((String.intercalate "." (TypeSegment.texts path)).toList ++ later) =
      TypeSegment.spelling path ++ kinds later
  | [], _, hne, _, _, _, _ => absurd rfl hne
  | ⟨name, arguments⟩ :: rest, later, _, hworded, hnamed, hlater, hundoubled => by
    have hword := hworded name arguments List.mem_cons_self
    rw [TypeSegment.toList_text_cons, List.append_assoc, List.append_assoc] at hundoubled ⊢
    -- behind the arguments stands the period of the next name, or what follows the type
    obtain ⟨hbehind, hhead⟩ : kinds (TypeSegment.laterText rest ++ later) =
        TypeSegment.laterSpelling rest ++ kinds later ∧
          (FollowsType (TypeSegment.laterText rest ++ later) ∨
            (TypeSegment.laterText rest ++ later).head? = some '.') := by
      rcases rest with _ | ⟨⟨other, others⟩, rest⟩
      · exact ⟨rfl, .inl hlater⟩
      · refine ⟨?_, .inr rfl⟩
        obtain ⟨c, tail, hother, hc, -⟩ := hworded other others (by simp)
        have hnext : Rule.Before (Rule.Joins '.')
            ((String.intercalate "." (TypeSegment.texts (⟨other, others⟩ :: rest))).toList ++
              later) := by
          rw [TypeSegment.toList_text_cons, hother]
          rintro _ ⟨⟩ hjoins
          have hperiod : c = '.' := by
            simpa [Rule.Joins, Rule.startsWord, Rule.operatorChars] using hjoins
          subst hperiod
          cases hc
        have hundoubled' := hundoubled.behind.behind
        rw [TypeSegment.laterText, List.cons_append] at hundoubled' ⊢
        rw [kinds_cons (c := '.') (takes_mark .period) (by decide) hnext,
          TypeSegment.kinds_text (⟨other, others⟩ :: rest) later (by simp)
            (fun name arguments hmem => hworded name arguments (List.mem_cons_of_mem _ hmem))
            (fun inner hinner => hnamed inner (List.mem_append_right _ hinner)) hlater
            hundoubled'.tail]
        rfl
    -- the angle that closes the arguments must not run into what stands behind it
    have hangled : kinds (TypeSegment.angledText arguments ++ (TypeSegment.laterText rest ++ later)) =
        TypeExpr.angled arguments ++ kinds (TypeSegment.laterText rest ++ later) := by
      rcases arguments with _ | ⟨first, others⟩
      · rfl
      · have hfirst : first.Named := fun inner hinner =>
          hnamed inner (List.mem_append_left _ (List.mem_append_left _ hinner))
        have hundoubled' := hundoubled.behind
        rw [TypeSegment.angledText, List.cons_append, List.append_assoc, List.singleton_append]
          at hundoubled' ⊢
        have hstart := (TypeExpr.startsType_texts hfirst others).append
          ('>' :: (TypeSegment.laterText rest ++ later))
        have hangle : Rule.Takes ['<'] (.operator "<") := ⟨rfl, by decide⟩
        rw [← List.singleton_append (x := '<'),
          kinds_operator _ hangle (forall_mem_of_all (by decide))
            fun b hb hoperator => hstart.before b hb (.inr hoperator),
          TypeExpr.kinds_texts (first :: others) _ (fun inner hinner =>
            hnamed inner (List.mem_append_left _ hinner)) (followsType_cons (by decide))
            hundoubled'.tail, kinds_closingAngle hundoubled'.tail.behind hhead]
        simp [TypeExpr.angled, TypeExpr.spellings]
    -- the name ends where its word does
    have hends : Rule.Before (Rule.continuesWord · = true)
        (TypeSegment.angledText arguments ++ (TypeSegment.laterText rest ++ later)) := by
      intro b hb
      rcases arguments with _ | ⟨first, others⟩
      · rcases hhead with hfollows | hperiod
        · have hall : ∀ b ∈ typeFollowers, ¬ Rule.continuesWord b = true :=
            forall_mem_of_all (by decide)
          exact hall b (hfollows b hb)
        · rw [TypeSegment.angledText, List.nil_append, hperiod] at hb
          cases hb
          decide
      · cases hb
        decide
    rw [kinds_word hword hends, hangled, hbehind]
    simp [TypeSegment.spelling]

end

end FrontEnd
