/-
The texts of expressions in the order in which they are read.

An expression is read as an operand with what comes behind it: suffixes, operations, further
elements.  Its text is the text of the operand with theirs behind it.
-/
import Mathlib.Tactic.Common
import FrontEnd.Grammar.Expression

namespace FrontEnd

namespace Text

lemma commas_single (item : String) : commas [item] = item := by
  simp [commas]

lemma toList_commas_pair (first second : String) (rest : List String) :
    (commas (first :: second :: rest)).toList =
      first.toList ++ ',' :: ' ' :: (commas (second :: rest)).toList := by
  simp [commas]

/-- Items with commas between them: the first one, and those behind it. -/
lemma toList_commas_cons (first : String) (rest : List String) :
    (commas (first :: rest)).toList =
      first.toList ++ rest.flatMap fun item => ',' :: ' ' :: item.toList := by
  induction rest generalizing first with
  | nil => rw [commas_single, List.flatMap_nil, List.append_nil]
  | cons second rest ih => rw [toList_commas_pair, ih, List.flatMap_cons]; rfl

end Text

/-! ### Arguments -/

/-- A label with the colon behind it. -/
def labelText : Option String → List Char
  | none => []
  | some label => label.toList ++ [':', ' ']

namespace Argument

variable (label : Option String) (value : Expression)

lemma texts_cons (later : List Argument) : ∃ text : String, texts (⟨label, value⟩ :: later) =
    text :: texts later ∧ text.toList = labelText label ++ value.text.toList := by
  cases label with
  | none => exact ⟨_, rfl, rfl⟩
  | some label => exact ⟨s!"{label}: {value.text}", rfl, by simp [labelText, toString]⟩

lemma toList_commas_single :
    (Text.commas (texts [⟨label, value⟩])).toList = labelText label ++ value.text.toList := by
  obtain ⟨text, heq, htext⟩ := texts_cons label value []
  rw [heq, texts, Text.commas_single, htext]

lemma toList_commas_pair (second : Argument) (rest : List Argument) :
    (Text.commas (texts (⟨label, value⟩ :: second :: rest))).toList =
      labelText label ++ (value.text.toList ++
        ',' :: ' ' :: (Text.commas (texts (second :: rest))).toList) := by
  obtain ⟨text, heq, htext⟩ := texts_cons label value (second :: rest)
  obtain ⟨label', value'⟩ := second
  obtain ⟨text', heq', -⟩ := texts_cons label' value' rest
  rw [heq, heq', Text.toList_commas_pair, htext, List.append_assoc]

end Argument

/-! ### Suffixes -/

/-- The text of a suffix. -/
def Suffix.written : Suffix → List Char
  | call arguments => '(' :: ((Text.commas (Argument.texts arguments)).toList ++ [')'])
  | subscript arguments => '[' :: ((Text.commas (Argument.texts arguments)).toList ++ [']'])
  | member name => '.' :: name.toList
  | forced => ['!']

/-- The text of suffixes. -/
def PlacedSuffix.written (glued : List PlacedSuffix) : List Char :=
  glued.flatMap (·.suffix.written)

lemma PlacedSuffix.toList_text_apply (base : Expression) (s : PlacedSuffix) :
    (s.apply base).text.toList = base.text.toList ++ s.suffix.written := by
  obtain ⟨suffix, stop⟩ := s
  cases suffix with
  | call arguments =>
    show s!"{base.text}({Text.commas (Argument.texts arguments)})".toList = _
    simp [Suffix.written, toString]
  | subscript arguments =>
    show s!"{base.text}[{Text.commas (Argument.texts arguments)}]".toList = _
    simp [Suffix.written, toString]
  | member name =>
    show s!"{base.text}.{name}".toList = _
    simp [Suffix.written, toString]
  | forced =>
    show s!"{base.text}!".toList = _
    simp [Suffix.written, toString]

lemma PlacedSuffix.written_cons (s : PlacedSuffix) (later : List PlacedSuffix) :
    written (s :: later) = s.suffix.written ++ written later :=
  List.flatMap_cons

/-- An operand with suffixes is written with them behind it. -/
lemma PlacedSuffix.toList_text_foldl (glued : List PlacedSuffix) (base : Expression) :
    (glued.foldl apply base).text.toList = base.text.toList ++ written glued := by
  induction glued generalizing base with
  | nil => exact (List.append_nil _).symm
  | cons s later ih =>
    rw [List.foldl_cons, ih, toList_text_apply, List.append_assoc]
    rfl

/-! ### Operations -/

/-- The text of operations. -/
def Operation.written (later : List Operation) : List Char :=
  later.flatMap fun op => ' ' :: (op.operator.toList ++ ' ' :: op.operand.text.toList)

lemma Operation.toList_text_apply (start : Location) (left : Expression) (op : Operation) :
    (op.apply start left).text.toList =
      left.text.toList ++ ' ' :: (op.operator.toList ++ ' ' :: op.operand.text.toList) := by
  unfold apply
  split
  next h =>
    show s!"{left.text} = {op.operand.text}".toList = _
    simp [h, toString]
  next =>
    show s!"{left.text} {op.operator} {op.operand.text}".toList = _
    simp [toString]

lemma Operation.written_cons (op : Operation) (later : List Operation) :
    written (op :: later) =
      ' ' :: (op.operator.toList ++ ' ' :: (op.operand.text.toList ++ written later)) := by
  simp [written]

/-- An operand with operations is written with them behind it. -/
lemma Operation.toList_text_foldl (start : Location) (later : List Operation) (first : Expression) :
    (later.foldl (apply start) first).text.toList = first.text.toList ++ written later := by
  induction later generalizing first with
  | nil => exact (List.append_nil _).symm
  | cons op later ih =>
    rw [List.foldl_cons, ih, toList_text_apply, List.append_assoc]
    rfl

/-! ### Brackets -/

lemma toList_text_parenthesized (inner : List Argument) (range : Range) :
    (parenthesized inner range).text.toList =
      '(' :: ((Text.commas (Argument.texts inner)).toList ++ [')']) := by
  unfold parenthesized
  split
  next value =>
    rw [Argument.toList_commas_single]
    show s!"({value.text})".toList = _
    simp [labelText, toString]
  next =>
    show s!"({Text.commas (Argument.texts inner)})".toList = _
    simp [toString]

/-- The text of the elements of an array behind its first one, up to the closing bracket. -/
def Expression.laterText (later : List Expression) : List Char :=
  ((texts later).flatMap fun item => ',' :: ' ' :: item.toList) ++ [']']

lemma Expression.laterText_cons (e : Expression) (later : List Expression) :
    laterText (e :: later) = ',' :: ' ' :: (e.text.toList ++ laterText later) := by
  simp [laterText, texts]

lemma Expression.toList_text_array (range : Range) (first : Expression) (later : List Expression) :
    (array range (first :: later)).text.toList = '[' :: (first.text.toList ++ laterText later) := by
  have htext : (array range (first :: later)).text.toList =
      '[' :: ((Text.commas (texts (first :: later))).toList ++ [']']) := by
    simp [text, toString]
  rw [htext, texts, Text.toList_commas_cons, laterText, List.append_assoc]

/-- The text of a value with the entries behind it, from the colon up to the closing bracket. -/
def Entry.laterText (value : Expression) (later : List Entry) : List Char :=
  ':' :: ' ' :: (value.text.toList ++ ((texts later).flatMap fun item => ',' :: ' ' :: item.toList) ++ [']'])

lemma Entry.laterText_cons (value key next : Expression) (later : List Entry) :
    laterText value (⟨key, next⟩ :: later) =
      ':' :: ' ' :: (value.text.toList ++ ',' :: ' ' :: (key.text.toList ++ laterText next later)) := by
  simp [laterText, texts, toString]

lemma Expression.toList_text_dictionary (range : Range) (key value : Expression) (later : List Entry) :
    (dictionary range (⟨key, value⟩ :: later)).text.toList =
      '[' :: (key.text.toList ++ Entry.laterText value later) := by
  have htext : (dictionary range (⟨key, value⟩ :: later)).text.toList =
      '[' :: ((Text.commas (Entry.texts (⟨key, value⟩ :: later))).toList ++ [']']) := by
    simp [text, toString]
  rw [htext, Entry.texts, Text.toList_commas_cons]
  simp [Entry.laterText, toString]

end FrontEnd
