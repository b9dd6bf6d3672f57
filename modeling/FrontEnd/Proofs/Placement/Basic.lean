/-
Every goal places what it reads.

What a goal reads is laid between the place where it starts and the place where it
ends.  A goal that starts on its first token starts where that token does; one that
continues something starts where the token before it ends.  An expression ranges
exactly from its first token to its last one, so that operators and suffixes can take
its range up.

A list of statements may end on the closing brace of its last statement: when a
separator is missed behind that brace, the way to the next boundary leads back to the
brace, which is then taken for the end of the list.  So only where a list ends on
another token its statements are known to end before this token.
-/
import FrontEnd.Proofs.Placement.Cursor
import FrontEnd.Proofs.Placement.Syntax
import FrontEnd.Proofs.Progress.Termination

namespace FrontEnd

open RangeTree

namespace Cursor

attribute [grind →] Placed.start_lt_stop

grind_pattern Placed.of_left_le => Cursor.Placed c, d.toList
grind_pattern Placed.start_le_start => Cursor.Placed c, c.startLocation, d.startLocation
grind_pattern Placed.stop_le_start => Cursor.Placed c, c.stopLocation, d.startLocation
grind_pattern Placed.stop_le_stop => Cursor.Placed c, c.stopLocation, d.stopLocation

/-- The place up to which a list of statements reaches that ends at a token. -/
def listEnd (c : Cursor) : Location :=
  if c.here? = some (.punctuator .rightBrace) then c.stopLocation else c.startLocation

lemma Placed.listEnd_le_stop {c : Cursor} (hc : c.Placed) : c.listEnd ≤ c.stopLocation := by
  unfold listEnd
  split
  · exact le_refl _
  · exact hc.start_le_stop

lemma Placed.start_le_listEnd {c : Cursor} (hc : c.Placed) : c.startLocation ≤ c.listEnd := by
  unfold listEnd
  split
  · exact hc.start_le_stop
  · exact le_refl _

grind_pattern Placed.listEnd_le_stop => Cursor.Placed c, c.listEnd
grind_pattern Placed.start_le_listEnd => Cursor.Placed c, c.listEnd

end Cursor

grind_pattern Laid.widen => Laid lo trees hi, Laid lo' trees hi'

/-- An expression that ranges from one place to another, with its parts in order. -/
@[grind] structure Expression.Spans (e : Expression) (start stop : Location) : Prop where
  range_eq : e.range = ⟨start, stop⟩
  ordered : e.tree.Ordered

lemma Expression.Spans.laid {e : Expression} {start stop : Location} (h : e.Spans start stop) :
    Laid start [e.tree] stop := by
  rw [laid_cons, e.range_tree, h.range_eq]
  exact ⟨le_refl _, h.ordered, le_refl _⟩

/-- Operations, each with its operand behind the one before. -/
@[grind =] def Operation.Laid (lo : Location) : List Operation → Location → Prop
  | [], hi => lo = hi
  | op :: later, hi => RangeTree.Laid lo [op.operand.tree] op.stop ∧ Operation.Laid op.stop later hi

/-- The ranges of a suffix. -/
@[grind =] def Suffix.trees : Suffix → List RangeTree
  | .call arguments | .subscript arguments => Argument.trees arguments
  | .member _ | .forced => []

/-- Suffixes, one behind the other. -/
@[grind =] def PlacedSuffix.Laid (lo : Location) : List PlacedSuffix → Location → Prop
  | [], hi => lo = hi
  | p :: later, hi => RangeTree.Laid lo p.suffix.trees p.stop ∧ PlacedSuffix.Laid p.stop later hi

/-- The ends of marks, one behind the other. -/
@[grind =] def Location.Ascend (lo : Location) : List Location → Location → Prop
  | [], hi => lo = hi
  | stop :: later, hi => lo ≤ stop ∧ Location.Ascend stop later hi

/-- A node is placed where its range is, if this is not empty and its parts are laid
within it. -/
lemma laid_node {tree : RangeTree} {start stop : Location} {children : List RangeTree}
    (htree : tree = .node ⟨start, stop⟩ children) (hlt : start < stop)
    (hlaid : Laid start children stop) : Laid start [tree] stop := by
  subst htree
  exact ⟨le_refl _, ordered_node_iff.mpr ⟨hlt, hlaid⟩, le_refl _⟩

/-- A node of the same range around another one is placed like that. -/
lemma Laid.wrap {lo hi : Location} {tree : RangeTree} (h : Laid lo [tree] hi) :
    Laid lo [.node tree.range [tree]] hi := by
  obtain ⟨hlo, hordered, hhi⟩ := h
  exact ⟨hlo, ordered_node_iff.mpr ⟨hordered.start_lt_stop, le_refl _, hordered, le_refl _⟩, hhi⟩

/-- A node that starts on the current token and has no parts. -/
lemma laid_leaf {c d : Cursor} {tree : RangeTree} (hc : c.Placed) (hleft : 0 < c.left)
    (hcd : c.Onward 0 d) (htree : tree = .node ⟨c.startLocation, d.stopLocation⟩ []) :
    Laid c.startLocation [tree] d.stopLocation := by
  have hlt : c.startLocation < d.stopLocation := by grind -ring -linarith
  exact laid_node htree hlt hlt.le

/-- An expression that is a node with its parts in order. -/
lemma spans_of_laid {e : Expression} {start stop : Location} {children : List RangeTree}
    (htree : e.tree = .node ⟨start, stop⟩ children) (hlt : start < stop)
    (hlaid : Laid start children stop) : e.Spans start stop where
  range_eq := by rw [← e.range_tree, htree, RangeTree.range]
  ordered := (laid_node htree hlt hlaid).2.1

/-- An expression that starts on the current token and has no parts. -/
lemma spans_leaf {c d : Cursor} {e : Expression} (hc : c.Placed) (hleft : 0 < c.left)
    (hcd : c.Onward 0 d) (htree : e.tree = .node ⟨c.startLocation, d.stopLocation⟩ []) :
    e.Spans c.startLocation d.stopLocation where
  range_eq := by rw [← e.range_tree, htree, RangeTree.range]
  ordered := (laid_leaf hc hleft hcd htree).2.1

/-- Where a goal places what it reads. -/
@[simp] def Goal.Places (s s' : State) : (g : Goal) → g.Result → Prop
  | expression _, e => e.Spans s.cursor.startLocation s'.cursor.stopLocation
  | operand, e => e.Spans s.cursor.startLocation s'.cursor.stopLocation
  | operations _, ops => Operation.Laid s.cursor.stopLocation ops s'.cursor.stopLocation
  | suffixes, glued => PlacedSuffix.Laid s.cursor.stopLocation glued s'.cursor.stopLocation
  | arguments _, inner =>
    Laid s.cursor.startLocation (Argument.trees inner) s'.cursor.stopLocation
  | elements, later =>
    Laid s.cursor.stopLocation (Expression.trees later) s'.cursor.stopLocation
  | entries, (value, later) =>
    Laid s.cursor.stopLocation (value.tree :: Entry.trees later) s'.cursor.stopLocation
  | pattern _, p => Laid s.cursor.startLocation [p.tree] s'.cursor.stopLocation
  | patterns _, ps => Laid s.cursor.startLocation (Pattern.trees ps) s'.cursor.stopLocation
  | patternMarks, stops =>
    Location.Ascend s.cursor.stopLocation stops s'.cursor.stopLocation
  | block, b => Laid s.cursor.startLocation [b.tree] s'.cursor.stopLocation
  | statements _, items =>
    Laid s.cursor.stopLocation (Statement.trees items) s'.cursor.listEnd ∧
      ((s.cursor.advance .anyLine).here? = some (.punctuator .rightBrace) →
        items = [] ∧ s'.cursor = s.cursor.advance .anyLine)
  | item, kept => Laid s.cursor.startLocation [kept.value.tree] s'.cursor.stopLocation
  | statement, a => Laid s.cursor.startLocation [a.tree] s'.cursor.stopLocation
  | elseIf, a => Laid s.cursor.startLocation [a.tree] s'.cursor.stopLocation
  | conditions, cs =>
    Laid s.cursor.startLocation (cs.flatMap Condition.trees) s'.cursor.stopLocation
  | handlers, hs => Laid s.cursor.stopLocation (Handler.trees hs) s'.cursor.stopLocation
  | switchBody, found => Laid s.cursor.stopLocation (Arm.trees found) s'.cursor.stopLocation
  | arms, found => Laid s.cursor.listEnd (Arm.trees found) s'.cursor.stopLocation
  | caseItems, items =>
    Laid s.cursor.stopLocation (items.flatMap CaseItem.trees) s'.cursor.stopLocation
  | declaration _, kept =>
    Laid s.cursor.startLocation [kept.value.tree] s'.cursor.stopLocation
  | bindings, items =>
    Laid s.cursor.stopLocation (items.flatMap Binding.trees) s'.cursor.stopLocation
  | parameters, ps =>
    Laid s.cursor.startLocation (ps.flatMap fun p => Expression.optionalTrees p.default)
      s'.cursor.stopLocation
  | typeBody _, found =>
    Laid s.cursor.stopLocation (Declaration.trees found) s'.cursor.stopLocation
  | members _, found =>
    Laid s.cursor.stopLocation (Declaration.trees found) s'.cursor.stopLocation ∧
      ((s.cursor.advance .anyLine).here? = some (.punctuator .rightBrace) →
        found = [] ∧ s'.cursor = s.cursor.advance .anyLine)
  | _, _ => True

/-- A goal may be called in tokens that stand in order, a block and a choice only on a
token. -/
def placement : Contract where
  enter g s := s.cursor.Placed ∧ (g = .block ∨ g = .elseIf → 0 < s.cursor.left)
  value g s a s' := g.Places s s' a
  error _ _ _ _ := True

/-- What the goals that are called promise: they lead onward and place what they
read. -/
abbrev placing : Contract :=
  placement.given fun g s s' => s.cursor.Onward g.givesBack s'.cursor

namespace Procedure

variable {α : Type} {s : State} {way : List Event}

/-- Every way through a procedure that ends in a value leads onward, and places the
value. -/
def Places (p : Procedure α) (s : State) (place : α → State → Prop) : Prop :=
  ∀ way, p.Meets placing way s
    (fun _ a s' => s.cursor.Onward 0 s'.cursor ∧ place a s') fun _ _ _ => True

lemma Places.imp {p : Procedure α} {place : α → State → Prop} (h : p.Places s place)
    {ok : List Event → α → State → Prop}
    (hok : ∀ way a s', s.cursor.Onward 0 s'.cursor → place a s' → ok way a s') :
    p.Meets placing way s ok fun _ _ _ => True :=
  (h way).imp (fun way a s' ha => hok way a s' ha.1 ha.2) fun _ _ _ _ => trivial

end Procedure

@[simp] lemma placement_enter (g : Goal) (s : State) :
    placement.enter g s ↔
      s.cursor.Placed ∧ (g = .block ∨ g = .elseIf → 0 < s.cursor.left) := Iff.rfl

@[simp] lemma placement_value (g : Goal) (s : State) (a : g.Result) (s' : State) :
    placement.value g s a s' ↔ g.Places s s' a := Iff.rfl

@[simp] lemma placement_error (g : Goal) (s : State) (e : ParseError) (s' : State) :
    placement.error g s e s' ↔ True := Iff.rfl

end FrontEnd
