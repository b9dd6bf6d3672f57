/-
The written form of an outline.

Whatever an outline takes from the text that was read goes through `Text.lines`, and no other line
of it has room for a line feed.  So the lines of the written form are the lines of the outline.

* `Text.lines_unlines`: a block without line feeds is read back from its written form.
* `Root.lines_unlines_outline`: the outline of a text is such a block.
-/
import Mathlib.Data.Nat.Digits.Defs
import FrontEnd.Outline.Declaration

namespace FrontEnd

namespace Text

/-! ### Blocks without line feeds -/

/-- No line of the block holds a line feed. -/
def Unbroken (block : List String) : Prop :=
  ∀ line ∈ block, '\n' ∉ line.toList

lemma pieces_eq_splitOn (text : List Char) : pieces text = text.splitOn '\n' := by
  induction text with
  | nil => rfl
  | cons c rest ih =>
    rw [List.splitOn_cons_eq_if_modifyHead, pieces, ih]
    obtain ⟨first, later, hpieces⟩ := List.exists_cons_of_ne_nil (ih ▸ pieces_ne_nil rest)
    simp [hpieces]

lemma not_mem_of_mem_pieces {text piece : List Char} (h : piece ∈ pieces text) : '\n' ∉ piece := by
  induction text generalizing piece with
  | nil =>
    obtain rfl := List.mem_singleton.mp h
    exact List.not_mem_nil
  | cons c rest ih =>
    obtain ⟨first, later, hpieces⟩ := List.exists_cons_of_ne_nil (pieces_ne_nil rest)
    rw [pieces, hpieces] at h
    rw [hpieces] at ih
    split at h
    next =>
      rcases List.mem_cons.mp h with rfl | hrest
      · exact List.not_mem_nil
      · exact ih hrest
    next hc =>
      rcases List.mem_cons.mp h with rfl | hlater
      · simp [Ne.symm hc, ih List.mem_cons_self]
      · exact ih (List.mem_cons_of_mem _ hlater)

/-- A block without line feeds is read back from its written form. -/
theorem lines_unlines {block : List String} (h : Unbroken block) (hne : block ≠ []) :
    lines (unlines block) = block := by
  have hchars : ∀ l ∈ block.map String.toList, '\n' ∉ l := by simpa [Unbroken] using h
  have hsplit := List.splitOn_intercalate '\n' hchars (by simpa using hne)
  rw [lines, unlines, String.toList_intercalate, pieces_eq_splitOn]
  simpa using congrArg (List.map String.ofList) hsplit

@[simp] lemma unbroken_nil : Unbroken [] := by
  simp [Unbroken]

@[simp] lemma unbroken_cons {line : String} {block : List String} :
    Unbroken (line :: block) ↔ '\n' ∉ line.toList ∧ Unbroken block :=
  List.forall_mem_cons

@[simp] lemma unbroken_append {above below : List String} :
    Unbroken (above ++ below) ↔ Unbroken above ∧ Unbroken below :=
  List.forall_mem_append

@[simp] lemma unbroken_lines (text : String) : Unbroken (lines text) := by
  intro line hline
  obtain ⟨piece, hpiece, rfl⟩ := List.mem_map.mp hline
  rw [String.toList_ofList]
  exact not_mem_of_mem_pieces hpiece

@[simp] lemma unbroken_indent {block : List String} : Unbroken (indent block) ↔ Unbroken block := by
  simp [Unbroken, indent, indentation]

@[simp] lemma not_mem_toDigits (n : Nat) : '\n' ∉ Nat.toDigits 10 n := by
  intro h
  have := Nat.isDigit_of_mem_toDigits (by omega) (by omega) h
  simp at this

end Text

open Text

lemma Range.not_mem_text (r : Range) : '\n' ∉ r.text.toList := by
  simp [Range.text, Location.text, toString]

namespace Outline

variable {block : List String} {label tag : String} {r : Range}

@[simp] lemma not_mem_head : '\n' ∉ (head tag r).toList ↔ '\n' ∉ tag.toList := by
  simp [head, toString, Range.not_mem_text]

@[simp] lemma unbroken_part : Unbroken (part tag r block) ↔ '\n' ∉ tag.toList ∧ Unbroken block := by
  simp [part]

@[simp] lemma unbroken_labeled (hlabel : '\n' ∉ label.toList) :
    Unbroken (labeled label block) ↔ Unbroken block := by
  cases block <;> simp [labeled, hlabel]

@[simp] lemma unbroken_list (hlabel : '\n' ∉ label.toList) :
    Unbroken (list label block) ↔ Unbroken block := by
  cases block <;> simp [list, hlabel, toString, emptyMark]

@[simp] lemma unbroken_sequence (htag : '\n' ∉ tag.toList) :
    Unbroken (sequence tag r block) ↔ Unbroken block := by
  cases block <;> simp [sequence, htag, toString, emptyMark]

@[simp] lemma unbroken_numbered (texts : List String) : Unbroken (numbered texts) := by
  intro line hline
  obtain ⟨item, -, hitem⟩ := List.mem_flatMap.mp hline
  exact unbroken_lines _ line hitem

@[simp] lemma unbroken_flatList (hlabel : '\n' ∉ label.toList) :
    Unbroken (flatList label block) ↔ Unbroken block := by
  cases block <;> simp [flatList, hlabel, toString, emptyMark]

@[simp] lemma unbroken_armBody : Unbroken (armBody block) ↔ Unbroken block := by
  cases block <;> simp [armBody]

end Outline

/-! ### Outlines hold no line feeds -/

mutual

@[simp] lemma Expression.unbroken_outline (e : Expression) : Unbroken e.outline := by
  cases e with
  | boolean r value => cases value <;> simp [Expression.outline, toString]
  | attempt r kind inner =>
    cases kind <;> simp [Expression.outline, toString, AttemptKind.text, inner.unbroken_outline]
  | array r elements => simp [Expression.outline, Expression.unbroken_outlines]
  | dictionary r entries => simp [Expression.outline, Entry.unbroken_outlines]
  | tuple r elements => simp [Expression.outline, Argument.unbroken_outlines]
  | call r base arguments | subscript r base arguments =>
    simp [Expression.outline, Argument.unbroken_outlines, base.unbroken_outline]
  | binary r operator left right | assignment r left right =>
    simp [Expression.outline, left.unbroken_outline, right.unbroken_outline]
  | parenthesized r inner | forced r inner | unary r operator inner | member r inner name =>
    simp [Expression.outline, inner.unbroken_outline]
  | _ => simp [Expression.outline]

lemma Expression.unbroken_outlines (index : Nat) :
    ∀ elements, Unbroken (Expression.outlines index elements)
  | [] => unbroken_nil
  | e :: rest => by
    simp [Expression.outlines, toString, e.unbroken_outline, Expression.unbroken_outlines _ rest]

lemma Argument.unbroken_outlines (index : Nat) :
    ∀ arguments, Unbroken (Argument.outlines index arguments)
  | [] => unbroken_nil
  | ⟨some label, value⟩ :: rest => by
    simp [Argument.outlines, value.unbroken_outline, Argument.unbroken_outlines _ rest]
  | ⟨none, value⟩ :: rest => by
    simp [Argument.outlines, toString, value.unbroken_outline, Argument.unbroken_outlines _ rest]

lemma Entry.unbroken_outlines (index : Nat) :
    ∀ entries, Unbroken (Entry.outlines index entries)
  | [] => unbroken_nil
  | ⟨key, value⟩ :: rest => by
    simp [Entry.outlines, toString, key.unbroken_outline, value.unbroken_outline,
      Entry.unbroken_outlines _ rest]

end

lemma Binding.unbroken_outlines (items : List Binding) (index : Nat) :
    Unbroken (Binding.outlines index items) := by
  induction items generalizing index with
  | nil => exact unbroken_nil
  | cons first rest ih =>
    obtain ⟨pattern, _ | value⟩ := first <;> simp [Binding.outlines, ih]

lemma unbroken_guardingOutline (value : Option Expression) : Unbroken (guardingOutline value) := by
  cases value <;> simp [guardingOutline]

lemma CaseItem.unbroken_outlines (items : List CaseItem) (index : Nat) :
    Unbroken (CaseItem.outlines index items) := by
  induction items generalizing index with
  | nil => exact unbroken_nil
  | cons first rest ih => simp [CaseItem.outlines, unbroken_guardingOutline, ih]

lemma Header.unbroken_outline (h : Header) : Unbroken h.outline := by
  obtain ⟨_ | ⟨first, later⟩, _ | ⟨first', later'⟩⟩ := h <;> simp [Header.outline]

lemma Signature.unbroken_outline (s : Signature) : Unbroken s.outline := by
  obtain ⟨name, parameters, throws, _ | result⟩ := s <;> cases throws <;> simp [Signature.outline]

lemma Condition.unbroken_outline (conditions : List Condition) :
    Unbroken (Condition.outline conditions) := by
  simp [Condition.outline]

@[simp] lemma TypeFamily.not_mem_tag (family : TypeFamily) : '\n' ∉ family.tag.toList := by
  cases family <;> decide

@[simp] lemma ImportKind.not_mem_name (kind : ImportKind) : '\n' ∉ kind.name.toList := by
  cases kind <;> decide

@[simp] lemma JumpKind.not_mem_tag (kind : JumpKind) : '\n' ∉ kind.tag.toList := by
  cases kind <;> decide

mutual

lemma Declaration.unbroken_outline (d : Declaration) : Unbroken d.outline := by
  cases d with
  | importing r header kind module submodules =>
    simp [Declaration.outline, header.unbroken_outline, toString]
  | bindings r header isMutable items =>
    cases isMutable <;>
      simp [Declaration.outline, header.unbroken_outline, Binding.unbroken_outlines]
  | typeAlias r header name type | cases r header names =>
    simp [Declaration.outline, header.unbroken_outline]
  | function r header signature body =>
    cases body with
    | none => simp [Declaration.outline, header.unbroken_outline, signature.unbroken_outline]
    | some body =>
      simp [Declaration.outline, header.unbroken_outline, signature.unbroken_outline,
        body.unbroken_outline]
  | type r header family name inherits members =>
    cases inherits <;>
      simp [Declaration.outline, header.unbroken_outline, Declaration.unbroken_memberLines]

lemma Declaration.unbroken_memberLines (index : Nat) :
    ∀ members, Unbroken (Declaration.memberLines index members)
  | [] => unbroken_nil
  | member :: rest => by
    simp [Declaration.memberLines, toString, member.unbroken_outline,
      Declaration.unbroken_memberLines _ rest]

lemma Block.unbroken_outline : ∀ b : Block, Unbroken b.outline
  | ⟨r, statements⟩ => by simp [Block.outline, Statement.unbroken_outlines statements]

lemma Statement.unbroken_outlines : ∀ statements, Unbroken (Statement.outlines statements)
  | [] => unbroken_nil
  | s :: rest => by
    simp [Statement.outlines, s.unbroken_outline, Statement.unbroken_outlines rest]

lemma Statement.unbroken_outline (s : Statement) : Unbroken s.outline := by
  cases s with
  | jump r kind label => cases label <;> simp [Statement.outline, labelLines]
  | directive | fallthrough => simp [Statement.outline]
  | declaration d => simpa [Statement.outline] using d.unbroken_outline
  | expression e => simp [Statement.outline]
  | deferred r body => simp [Statement.outline, body.unbroken_outline]
  | doing r body handlers =>
    cases handlers with
    | nil => simp [Statement.outline, body.unbroken_outline, toString, Outline.emptyMark]
    | cons first later =>
      simp [Statement.outline, body.unbroken_outline, Handler.unbroken_outlines 0 (first :: later)]
  | forIn r isMatching pattern collection guard body =>
    cases isMatching <;>
      simp [Statement.outline, unbroken_guardingOutline, body.unbroken_outline]
  | guarding r conditions body | looping r conditions body =>
    simp [Statement.outline, Condition.unbroken_outline, body.unbroken_outline]
  | choice r conditions body alternative =>
    cases alternative with
    | none => simp [Statement.outline, Condition.unbroken_outline, body.unbroken_outline]
    | some alternative =>
      simp [Statement.outline, Condition.unbroken_outline, body.unbroken_outline,
        alternative.unbroken_outline]
  | labeled r label statement => simp [Statement.outline, labelLines, statement.unbroken_outline]
  | repeating r body condition => simp [Statement.outline, body.unbroken_outline]
  | returning r value => cases value <;> simp [Statement.outline]
  | switch r subject arms => simp [Statement.outline, Arm.unbroken_outlines]
  | throwing r value => simp [Statement.outline]

lemma Alternative.unbroken_outline (a : Alternative) : Unbroken a.outline := by
  cases a with
  | block body => simp [Alternative.outline, body.unbroken_outline]
  | choice statement => simp [Alternative.outline, statement.unbroken_outline]

lemma Handler.unbroken_outlines (index : Nat) :
    ∀ handlers, Unbroken (Handler.outlines index handlers)
  | [] => unbroken_nil
  | ⟨pattern, guard, body⟩ :: rest => by
    simp [Handler.outlines, body.unbroken_outline, Handler.unbroken_outlines _ rest]

lemma Arm.unbroken_outlines (index : Nat) : ∀ arms, Unbroken (Arm.outlines index arms)
  | [] => unbroken_nil
  | .case items statements :: rest => by
    simp [Arm.outlines, toString, CaseItem.unbroken_outlines, Statement.unbroken_outlines,
      Arm.unbroken_outlines _ rest]
  | .default statements :: rest => by
    simp [Arm.outlines, toString, Statement.unbroken_outlines, Arm.unbroken_outlines _ rest]

end

/-- **Written form.**  The lines of the written outline of a text are the lines of its outline. -/
theorem Root.lines_unlines_outline (root : Root) : lines (unlines root.outline) = root.outline := by
  apply lines_unlines
  · have hdeclarations : Unbroken (root.declarations.flatMap Declaration.outline) := by
      intro line hline
      obtain ⟨d, -, hd⟩ := List.mem_flatMap.mp hline
      exact d.unbroken_outline line hd
    simpa [Root.outline] using hdeclarations
  · rw [Root.outline]
    cases root.declarations.flatMap Declaration.outline <;>
      simp [Outline.sequence, Outline.part]

end FrontEnd
