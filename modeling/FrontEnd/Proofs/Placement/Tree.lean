/-
Trees of ranges.

A syntax tree is placed well if the range of every node is not empty, encloses the
ranges of its children, and the children stand one after the other.  Here the nodes
are the declarations, statements, blocks, expressions and patterns, and the children
of a node come in the order of a visit.

`Laid lo trees hi` says the same of a list of trees between two locations; it can
be taken apart and put together piece by piece, as readings are.
-/
import Mathlib.Data.List.Chain
import FrontEnd.Proofs.Source.Location
import FrontEnd.Syntax.Declaration

namespace FrontEnd

/-- The ranges of a syntax tree. -/
inductive RangeTree where
  | node (range : Range) (children : List RangeTree)

namespace RangeTree

/-- The range of the root of a tree. -/
def range : RangeTree → Range
  | node range _ => range

/-- Every range is not empty and encloses those of its children, which stand one
after the other. -/
inductive Ordered : RangeTree → Prop where
  | node {range : Range} {children : List RangeTree} (hlt : range.start < range.stop)
      (hwithin : ∀ child ∈ children,
        range.start ≤ child.range.start ∧ child.range.stop ≤ range.stop)
      (hchain : children.IsChain fun child next => child.range.stop ≤ next.range.start)
      (hchildren : ∀ child ∈ children, child.Ordered) : Ordered (node range children)

/-- Trees that stand one after the other between two locations. -/
def Laid (lo : Location) : List RangeTree → Location → Prop
  | [], hi => lo ≤ hi
  | tree :: later, hi => lo ≤ tree.range.start ∧ tree.Ordered ∧ Laid tree.range.stop later hi

variable {lo lo' mid hi hi' : Location} {trees later : List RangeTree} {tree : RangeTree}

@[simp, grind =] lemma laid_nil : Laid lo [] hi ↔ lo ≤ hi := Iff.rfl

@[simp, grind =] lemma laid_cons :
    Laid lo (tree :: later) hi ↔
      lo ≤ tree.range.start ∧ tree.Ordered ∧ Laid tree.range.stop later hi := Iff.rfl

lemma Ordered.start_lt_stop (h : tree.Ordered) : tree.range.start < tree.range.stop := by
  cases h
  assumption

lemma Laid.le (h : Laid lo trees hi) : lo ≤ hi := by
  induction trees generalizing lo with
  | nil => exact h
  | cons tree later ih =>
    obtain ⟨hlo, htree, hlater⟩ := h
    exact (hlo.trans htree.start_lt_stop.le).trans (ih hlater)

/-- Between the locations there is room for a tree. -/
lemma Laid.lt (h : Laid lo (tree :: later) hi) : lo < hi :=
  (h.1.trans_lt h.2.1.start_lt_stop).trans_le h.2.2.le

/-- More room on both sides. -/
lemma Laid.widen (h : Laid lo trees hi) (hlo : lo' ≤ lo) (hhi : hi ≤ hi') :
    Laid lo' trees hi' := by
  induction trees generalizing lo lo' with
  | nil => exact (hlo.trans h).trans hhi
  | cons tree later ih => exact ⟨hlo.trans h.1, h.2.1, ih h.2.2 (le_refl _)⟩

lemma Laid.append (h : Laid lo trees mid) (hlater : Laid mid later hi) :
    Laid lo (trees ++ later) hi := by
  induction trees generalizing lo with
  | nil => exact hlater.widen h (le_refl _)
  | cons tree trees ih => exact ⟨h.1, h.2.1, ih h.2.2⟩

/-- Trees that are laid between two locations stand between them, one after the
other. -/
lemma Laid.spec (h : Laid lo trees hi) :
    (∀ tree ∈ trees, lo ≤ tree.range.start ∧ tree.range.stop ≤ hi) ∧
      trees.IsChain (fun tree next => tree.range.stop ≤ next.range.start) ∧
      ∀ tree ∈ trees, tree.Ordered := by
  induction trees generalizing lo with
  | nil => simp
  | cons tree later ih =>
    obtain ⟨hlo, htree, hlater⟩ := h
    obtain ⟨hwithin, hchain, hordered⟩ := ih hlater
    refine ⟨List.forall_mem_cons.mpr ⟨⟨hlo, hlater.le⟩, fun next hnext => ?_⟩,
      List.isChain_cons.mpr ⟨fun next hnext => ?_, hchain⟩,
      List.forall_mem_cons.mpr ⟨htree, hordered⟩⟩
    · obtain ⟨hstart, hstop⟩ := hwithin next hnext
      exact ⟨(hlo.trans htree.start_lt_stop.le).trans hstart, hstop⟩
    · exact (hwithin next (List.mem_of_mem_head? hnext)).1

/-- Trees one after the other, of which the first one starts behind a location, and that
all end before another one, are laid between these. -/
lemma laid_of_isChain (hle : lo ≤ hi) (hfirst : ∀ tree ∈ trees.head?, lo ≤ tree.range.start)
    (hstop : ∀ tree ∈ trees, tree.range.stop ≤ hi)
    (hchain : trees.IsChain fun tree next => tree.range.stop ≤ next.range.start)
    (hordered : ∀ tree ∈ trees, tree.Ordered) : Laid lo trees hi := by
  induction trees generalizing lo with
  | nil => exact hle
  | cons tree later ih =>
    obtain ⟨htree, hordered⟩ := List.forall_mem_cons.mp hordered
    obtain ⟨htreestop, hstop⟩ := List.forall_mem_cons.mp hstop
    obtain ⟨hnext, hchain⟩ := List.isChain_cons.mp hchain
    exact ⟨hfirst tree rfl, htree, ih htreestop hnext hstop hchain hordered⟩

/-- A tree is ordered if its children are laid within its range, which is not
empty. -/
theorem ordered_node_iff {range : Range} :
    (node range trees).Ordered ↔
      range.start < range.stop ∧ Laid range.start trees range.stop := by
  constructor
  · rintro ⟨hlt, hwithin, hchain, hordered⟩
    exact ⟨hlt, laid_of_isChain hlt.le
      (fun tree htree => (hwithin tree (List.mem_of_mem_head? htree)).1)
      (fun tree htree => (hwithin tree htree).2) hchain hordered⟩
  · rintro ⟨hlt, hlaid⟩
    obtain ⟨hwithin, hchain, hordered⟩ := hlaid.spec
    exact .node hlt hwithin hchain hordered

end RangeTree

end FrontEnd
