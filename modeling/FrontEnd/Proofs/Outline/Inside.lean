/-
Outlines inside outlines.

An outline stands inside a block of lines if the lines of the outline stand in the block one below
the other, each the same number of levels deeper.  Its head line alone may stand behind a label.

* `Inside.exists_lines`: the line that carries the head begins with the blanks of the levels, and
  each other line stands behind as many blanks as that line begins with.
* `Below.trans`: what stands below the head of an outline stands below the head of every outline
  around it.
-/
import Mathlib.Tactic.Common
import FrontEnd.Outline.Declaration

namespace FrontEnd

open Text

namespace Outline

/-! ### Blanks in front of a line -/

/-- A line behind so many blanks. -/
def behind (n : Nat) (line : String) : String :=
  String.ofList (List.replicate n ' ') ++ line

/-- The number of blanks that a line begins with. -/
def blanks (line : String) : Nat :=
  (line.toList.takeWhile (· = ' ')).length

@[simp] lemma behind_zero (line : String) : behind 0 line = line := by
  simp [behind]

lemma behind_behind (m n : Nat) (line : String) :
    behind m (behind n line) = behind (m + n) line := by
  apply String.toList_injective
  simp only [behind, String.toList_append, String.toList_ofList, ← List.append_assoc,
    List.replicate_append_replicate]

lemma blanks_behind (n : Nat) (line : String) : blanks (behind n line) = n + blanks line := by
  simp only [blanks, behind, String.toList_append, String.toList_ofList]
  induction n with
  | zero => simp
  | succ n ih =>
    rw [List.replicate_succ, List.cons_append, List.takeWhile_cons_of_pos (by simp),
      List.length_cons, ih]
    omega

/-- A block so many levels deeper. -/
def deeper (depth : Nat) (block : List String) : List String :=
  block.map (behind (2 * depth))

@[simp] lemma deeper_zero (block : List String) : deeper 0 block = block := by
  have hbehind : behind (2 * 0) = id := funext behind_zero
  rw [deeper, hbehind, List.map_id]

lemma indent_eq_deeper (block : List String) : indent block = deeper 1 block :=
  rfl

lemma deeper_deeper (m n : Nat) (block : List String) :
    deeper m (deeper n block) = deeper (m + n) block := by
  simp only [deeper, List.map_map, Function.comp_def, behind_behind, Nat.mul_add]

lemma le_blanks_of_mem_indent {block : List String} {line : String} (h : line ∈ indent block) :
    2 ≤ blanks line := by
  rw [indent_eq_deeper] at h
  obtain ⟨inner, -, rfl⟩ := List.mem_map.mp h
  rw [blanks_behind]
  omega

/-! ### Blocks inside blocks -/

/-- The labels that the head line of an outline may stand behind. -/
def labels : List String :=
  ["", "initializer: ", "collection: ", "where: ", "condition: ", "key: ", "value: "]

/-- A line with a head begins with no blanks. -/
lemma blanks_head {label : String} (h : label ∈ labels) (tag : String) (r : Range) :
    blanks (label ++ head tag r) = 0 := by
  simp only [labels, List.mem_cons, List.not_mem_nil, or_false] at h
  rcases h with rfl | rfl | rfl | rfl | rfl | rfl | rfl <;> simp [blanks, head, toString]

/-- The lines of `inner` stand in `block`, so many levels deeper; the first of them may stand behind
a label. -/
def Inside (depth : Nat) (block inner : List String) : Prop :=
  ∃ label ∈ labels, ∃ first later above below, inner = first :: later ∧
    block = above ++ deeper depth ((label ++ first) :: later) ++ below

/-- As `Inside`, below the first line of the block. -/
def Below (depth : Nat) (whole inner : List String) : Prop :=
  ∃ first later, whole = first :: later ∧ Inside depth later inner

variable {depth : Nat} {block inner : List String}

namespace Inside

lemma of_eq_cons {first : String} {later : List String} (h : inner = first :: later) :
    Inside 0 inner inner :=
  ⟨"", by simp [labels], first, later, [], [], h, by simp [h]⟩

lemma of_labeled {label first : String} {later : List String} (h : inner = first :: later)
    (hlabel : label ∈ labels) : Inside 0 (labeled label inner) inner :=
  ⟨label, hlabel, first, later, [], [], h, by simp [h, labeled]⟩

lemma append_left (h : Inside depth block inner) (above : List String) :
    Inside depth (above ++ block) inner := by
  obtain ⟨label, hlabel, first, later, above', below, hinner, hblock⟩ := h
  exact ⟨label, hlabel, first, later, above ++ above', below, hinner, by simp [hblock]⟩

lemma append_right (h : Inside depth block inner) (below : List String) :
    Inside depth (block ++ below) inner := by
  obtain ⟨label, hlabel, first, later, above, below', hinner, hblock⟩ := h
  exact ⟨label, hlabel, first, later, above, below' ++ below, hinner, by simp [hblock]⟩

lemma cons (h : Inside depth block inner) (line : String) : Inside depth (line :: block) inner :=
  h.append_left [line]

lemma indent (h : Inside depth block inner) : Inside (depth + 1) (indent block) inner := by
  obtain ⟨label, hlabel, first, later, above, below, hinner, hblock⟩ := h
  refine ⟨label, hlabel, first, later, deeper 1 above, deeper 1 below, hinner, ?_⟩
  rw [hblock, indent_eq_deeper, Nat.add_comm, ← deeper_deeper]
  simp only [deeper, List.map_append]

lemma ne_nil (h : Inside depth block inner) : block ≠ [] := by
  obtain ⟨label, -, first, later, above, below, -, rfl⟩ := h
  simp [deeper]

/-- The items of a labeled list stand one level below its label. -/
lemma list (h : Inside depth block inner) (label : String) :
    Inside (depth + 1) (Outline.list label block) inner := by
  obtain ⟨first, later, rfl⟩ := List.exists_cons_of_ne_nil h.ne_nil
  exact h.indent.cons _

lemma flatList (h : Inside depth block inner) (label : String) :
    Inside depth (FrontEnd.flatList label block) inner := by
  obtain ⟨first, later, rfl⟩ := List.exists_cons_of_ne_nil h.ne_nil
  exact h.cons _

lemma armBody (h : Inside depth block inner) : Inside depth (FrontEnd.armBody block) inner := by
  obtain ⟨first, later, rfl⟩ := List.exists_cons_of_ne_nil h.ne_nil
  exact h

lemma part (h : Inside depth block inner) (tag : String) (r : Range) :
    Below (depth + 1) (Outline.part tag r block) inner :=
  ⟨_, _, rfl, h.indent⟩

lemma sequence (h : Inside depth block inner) (tag : String) (r : Range) :
    Below (depth + 1) (Outline.sequence tag r block) inner := by
  obtain ⟨first, later, rfl⟩ := List.exists_cons_of_ne_nil h.ne_nil
  exact h.part tag r

/-- Below the line that carries the head of an outline stand its other lines in order, each behind
as many blanks as that line begins with. -/
theorem exists_lines (h : Inside depth block inner) :
    ∃ label ∈ labels, ∃ first later above below, inner = first :: later ∧
      block = above ++ (behind (2 * depth) (label ++ first) ::
        later.map (behind (2 * depth))) ++ below := by
  obtain ⟨label, hlabel, first, later, above, below, hinner, hblock⟩ := h
  exact ⟨label, hlabel, first, later, above, below, hinner, by rw [hblock, deeper, List.map_cons]⟩

end Inside

namespace Below

lemma inside {whole : List String} (h : Below depth whole inner) : Inside depth whole inner := by
  obtain ⟨first, later, rfl, hlater⟩ := h
  exact hlater.cons first

/-- What stands below the head of an outline stands in every block that the outline stands in. -/
theorem inside_of_inside {n : Nat} {middle : List String} (h : Inside depth block middle)
    (hbelow : Below n middle inner) : Inside (depth + n) block inner := by
  obtain ⟨label, -, first, later, above, below, rfl, rfl⟩ := h
  obtain ⟨first', later', heq, label', hlabel', head, rest, above', below', rfl, rfl⟩ := hbelow
  obtain ⟨rfl, rfl⟩ := List.cons.inj heq
  refine ⟨label', hlabel', head, rest,
    above ++ behind (2 * depth) (label ++ first) :: deeper depth above',
    deeper depth below' ++ below, rfl, ?_⟩
  rw [← deeper_deeper]
  simp [deeper]

/-- What stands below the head of an outline stands below the head of every outline around it. -/
theorem trans {n : Nat} {whole middle : List String} (h : Below depth whole middle)
    (hbelow : Below n middle inner) : Below (depth + n) whole inner := by
  obtain ⟨first, later, rfl, hlater⟩ := h
  exact ⟨first, later, rfl, inside_of_inside hlater hbelow⟩

end Below

end Outline

end FrontEnd
