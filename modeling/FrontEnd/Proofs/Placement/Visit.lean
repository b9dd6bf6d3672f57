/-
The order of a visit.

A visit meets the ranges of a tree in their order, root before children, apart from
those it passes over.  In an ordered tree these ranges start one after the other, so
a visit of a well placed tree never goes back in the text.
-/
import FrontEnd.Proofs.Placement.Syntax
import FrontEnd.Syntax.Visit

namespace FrontEnd

namespace RangeTree

mutual

/-- The ranges of a tree, each before those below it. -/
def ranges : RangeTree → List Range
  | node range children => range :: rangesOfAll children

/-- The ranges of several trees. -/
def rangesOfAll : List RangeTree → List Range
  | [] => []
  | tree :: later => tree.ranges ++ rangesOfAll later

end

@[simp] lemma rangesOfAll_append (trees later : List RangeTree) :
    rangesOfAll (trees ++ later) = rangesOfAll trees ++ rangesOfAll later := by
  induction trees with
  | nil => rfl
  | cons tree trees ih => simp [rangesOfAll, ih]

mutual

/-- The ranges of an ordered tree start one after the other, within the tree. -/
theorem Ordered.pairwise_ranges : ∀ {tree : RangeTree}, tree.Ordered →
    tree.ranges.Pairwise (fun r s => r.start ≤ s.start) ∧
      ∀ r ∈ tree.ranges, tree.range.start ≤ r.start ∧ r.start ≤ tree.range.stop
  | node range children, h => by
    obtain ⟨hlt, hlaid⟩ := ordered_node_iff.mp h
    obtain ⟨hpairwise, hwithin⟩ := hlaid.pairwise_ranges
    rw [ranges]
    exact ⟨List.pairwise_cons.mpr ⟨fun r hr => (hwithin r hr).1, hpairwise⟩,
      List.forall_mem_cons.mpr ⟨⟨le_refl _, hlt.le⟩, hwithin⟩⟩

/-- The ranges of trees that are laid between two locations start one after the other,
between these. -/
theorem Laid.pairwise_ranges : ∀ {trees : List RangeTree} {lo hi : Location},
    Laid lo trees hi →
    (rangesOfAll trees).Pairwise (fun r s => r.start ≤ s.start) ∧
      ∀ r ∈ rangesOfAll trees, lo ≤ r.start ∧ r.start ≤ hi
  | [], lo, hi, h => by simp [rangesOfAll]
  | tree :: later, lo, hi, ⟨hlo, htree, hlater⟩ => by
    obtain ⟨hpairwise, hwithin⟩ := htree.pairwise_ranges
    obtain ⟨hpairwise', hwithin'⟩ := hlater.pairwise_ranges
    have hlt := htree.start_lt_stop
    rw [rangesOfAll]
    refine ⟨List.pairwise_append.mpr ⟨hpairwise, hpairwise', fun r hr s hs => ?_⟩,
      fun r hr => ?_⟩
    · exact (hwithin r hr).2.trans (hwithin' s hs).1
    · rcases List.mem_append.mp hr with hr | hr
      · exact ⟨hlo.trans (hwithin r hr).1, (hwithin r hr).2.trans hlater.le⟩
      · exact ⟨(hlo.trans hlt.le).trans (hwithin' r hr).1, (hwithin' r hr).2⟩

end

end RangeTree

open RangeTree

section

variable (goesBelow : Node → Bool)

/-- A node is met in its place if the nodes below it are. -/
lemma Node.visit_sublist {node : Node} {below : List Node} {tree : RangeTree}
    {children : List RangeTree} (htree : tree = .node node.range children)
    (h : (below.map Node.range).Sublist (rangesOfAll children)) :
    ((node.visit goesBelow below).map Node.range).Sublist tree.ranges := by
  subst htree
  rw [ranges, Node.visit, List.map_cons, List.cons_sublist_cons]
  split
  · exact h
  · exact List.nil_sublist _

/-! ### Expressions -/

mutual

/-- A visit of an expression meets its ranges in order. -/
theorem Expression.visit_sublist : ∀ e : Expression,
    (((Node.expression e).visit goesBelow (e.inside goesBelow)).map Node.range).Sublist
      e.tree.ranges
  | .identifier .. | .nil .. | .boolean .. | .integer .. | .floating .. | .string ..
  | .selfReference .. | .implicitMember .. | .wildcard .. =>
    Node.visit_sublist goesBelow rfl (List.nil_sublist _)
  | .array _ elements => Node.visit_sublist goesBelow rfl (Expression.visitAll_sublist elements)
  | .dictionary _ entries => Node.visit_sublist goesBelow rfl (Entry.visitAll_sublist entries)
  | .parenthesized _ inner | .forced _ inner | .unary _ _ inner | .attempt _ _ inner
  | .member _ inner _ => by
    refine Node.visit_sublist goesBelow rfl ?_
    simpa [rangesOfAll, Expression.inside] using Expression.visit_sublist inner
  | .tuple _ elements => Node.visit_sublist goesBelow rfl (Argument.visitAll_sublist elements)
  | .binary _ _ left right | .assignment _ left right => by
    refine Node.visit_sublist goesBelow rfl ?_
    simpa [rangesOfAll, Expression.inside] using
      (Expression.visit_sublist left).append (Expression.visit_sublist right)
  | .call _ base arguments | .subscript _ base arguments => by
    refine Node.visit_sublist goesBelow rfl ?_
    simpa [rangesOfAll, Expression.inside] using
      (Expression.visit_sublist base).append (Argument.visitAll_sublist arguments)

theorem Expression.visitAll_sublist : ∀ elements : List Expression,
    ((Expression.visitAll goesBelow elements).map Node.range).Sublist
      (rangesOfAll (Expression.trees elements))
  | [] => List.nil_sublist _
  | e :: later => by
    simpa [Expression.visitAll, Expression.trees, rangesOfAll] using
      (Expression.visit_sublist e).append (Expression.visitAll_sublist later)

theorem Argument.visitAll_sublist : ∀ arguments : List Argument,
    ((Argument.visitAll goesBelow arguments).map Node.range).Sublist
      (rangesOfAll (Argument.trees arguments))
  | [] => List.nil_sublist _
  | ⟨_, e⟩ :: later => by
    simpa [Argument.visitAll, Argument.trees, rangesOfAll] using
      (Expression.visit_sublist e).append (Argument.visitAll_sublist later)

theorem Entry.visitAll_sublist : ∀ entries : List Entry,
    ((Entry.visitAll goesBelow entries).map Node.range).Sublist
      (rangesOfAll (Entry.trees entries))
  | [] => List.nil_sublist _
  | ⟨key, value⟩ :: later => by
    simpa [Entry.visitAll, Entry.trees, rangesOfAll] using
      (Expression.visit_sublist key).append
        ((Expression.visit_sublist value).append (Entry.visitAll_sublist later))

end

lemma Expression.visitOptional_sublist (e : Option Expression) :
    ((Expression.visitOptional goesBelow e).map Node.range).Sublist
      (rangesOfAll (Expression.optionalTrees e)) := by
  cases e with
  | none => exact List.nil_sublist _
  | some e =>
    simpa [Expression.visitOptional, Expression.optionalTrees, Expression.visit, rangesOfAll]
      using Expression.visit_sublist goesBelow e

lemma Expression.visit_sublist' (e : Expression) :
    ((e.visit goesBelow).map Node.range).Sublist e.tree.ranges :=
  Expression.visit_sublist goesBelow e

/-! ### Patterns -/

mutual

/-- A visit of a pattern meets its ranges in order. -/
theorem Pattern.visit_sublist : ∀ p : Pattern,
    (((Node.pattern p).visit goesBelow (p.inside goesBelow)).map Node.range).Sublist
      p.tree.ranges
  | .wildcard _ | .identifier .. | .enumCase _ _ _ none =>
    Node.visit_sublist goesBelow rfl (List.nil_sublist _)
  | .binding _ _ inner | .optional _ inner | .annotated _ inner _
  | .enumCase _ _ _ (some inner) => by
    refine Node.visit_sublist goesBelow rfl ?_
    simpa [rangesOfAll, Pattern.inside] using Pattern.visit_sublist inner
  | .tuple _ elements => Node.visit_sublist goesBelow rfl (Pattern.visitAll_sublist elements)
  | .expression _ value => by
    refine Node.visit_sublist goesBelow rfl ?_
    simpa [rangesOfAll, Pattern.inside] using Expression.visit_sublist' goesBelow value

theorem Pattern.visitAll_sublist : ∀ elements : List Pattern,
    ((Pattern.visitAll goesBelow elements).map Node.range).Sublist
      (rangesOfAll (Pattern.trees elements))
  | [] => List.nil_sublist _
  | p :: later => by
    simpa [Pattern.visitAll, Pattern.trees, rangesOfAll] using
      (Pattern.visit_sublist p).append (Pattern.visitAll_sublist later)

end

lemma Pattern.visit_sublist' (p : Pattern) :
    ((p.visit goesBelow).map Node.range).Sublist p.tree.ranges :=
  Pattern.visit_sublist goesBelow p

/-! ### Declarations and statements -/

/-- Parts in a row are met in order if each of them is. -/
lemma flatMap_visit_sublist {α : Type} {visit : α → List Node} {trees : α → List RangeTree}
    (h : ∀ a, ((visit a).map Node.range).Sublist (rangesOfAll (trees a))) (parts : List α) :
    ((parts.flatMap visit).map Node.range).Sublist (rangesOfAll (parts.flatMap trees)) := by
  induction parts with
  | nil => exact List.nil_sublist _
  | cons part later ih =>
    rw [List.flatMap_cons, List.flatMap_cons, List.map_append, rangesOfAll_append]
    exact (h part).append ih

lemma Binding.visit_sublist (b : Binding) :
    ((b.visit goesBelow).map Node.range).Sublist (rangesOfAll b.trees) := by
  simpa [Binding.visit, Binding.trees, rangesOfAll] using
    (Pattern.visit_sublist' goesBelow b.pattern).append
      (Expression.visitOptional_sublist goesBelow b.value)

lemma Condition.visit_sublist (c : Condition) :
    ((c.visit goesBelow).map Node.range).Sublist (rangesOfAll c.trees) := by
  cases c with
  | expression value =>
    simpa [Condition.visit, Condition.trees, rangesOfAll] using
      Expression.visit_sublist' goesBelow value
  | matching pattern value | binding _ pattern value =>
    simpa [Condition.visit, Condition.trees, rangesOfAll] using
      (Pattern.visit_sublist' goesBelow pattern).append (Expression.visit_sublist' goesBelow value)

lemma CaseItem.visit_sublist (item : CaseItem) :
    ((item.visit goesBelow).map Node.range).Sublist (rangesOfAll item.trees) := by
  simpa [CaseItem.visit, CaseItem.trees, rangesOfAll] using
    (Pattern.visit_sublist' goesBelow item.pattern).append
      (Expression.visitOptional_sublist goesBelow item.guarding)

lemma Signature.visit_sublist (s : Signature) :
    ((s.visit goesBelow).map Node.range).Sublist (rangesOfAll s.trees) :=
  flatMap_visit_sublist (fun p : Parameter => Expression.visitOptional_sublist goesBelow p.default) _

mutual

/-- A visit of a declaration meets its ranges in order. -/
theorem Declaration.visit_sublist : ∀ d : Declaration,
    (((Node.declaration d).visit goesBelow (d.inside goesBelow)).map Node.range).Sublist
      d.tree.ranges
  | .importing .. | .typeAlias .. | .cases .. =>
    Node.visit_sublist goesBelow rfl (List.nil_sublist _)
  | .bindings _ _ _ items =>
    Node.visit_sublist goesBelow rfl (flatMap_visit_sublist (Binding.visit_sublist goesBelow) items)
  | .function _ _ signature none =>
    Node.visit_sublist goesBelow rfl (Signature.visit_sublist goesBelow signature)
  | .function _ _ signature (some body) => by
    refine Node.visit_sublist goesBelow rfl ?_
    simpa [rangesOfAll, Declaration.inside] using
      (Signature.visit_sublist goesBelow signature).append (Block.visit_sublist body)
  | .type _ _ _ _ _ members =>
    Node.visit_sublist goesBelow rfl (Declaration.visitAll_sublist members)

theorem Declaration.visitAll_sublist : ∀ declarations : List Declaration,
    ((Declaration.visitAll goesBelow declarations).map Node.range).Sublist
      (rangesOfAll (Declaration.trees declarations))
  | [] => List.nil_sublist _
  | d :: later => by
    simpa [Declaration.visitAll, Declaration.trees, rangesOfAll] using
      (Declaration.visit_sublist d).append (Declaration.visitAll_sublist later)

theorem Block.visit_sublist : ∀ b : Block,
    ((b.visit goesBelow).map Node.range).Sublist b.tree.ranges
  | ⟨r, statements⟩ => by
    simpa [Block.visit, Block.tree, ranges] using
      (Statement.visitAll_sublist statements).cons r

theorem Statement.visitAll_sublist : ∀ statements : List Statement,
    ((Statement.visitAll goesBelow statements).map Node.range).Sublist
      (rangesOfAll (Statement.trees statements))
  | [] => List.nil_sublist _
  | s :: later => by
    simpa [Statement.visitAll, Statement.trees, rangesOfAll] using
      (Statement.visit_sublist s).append (Statement.visitAll_sublist later)

/-- A visit of a statement meets its ranges in order. -/
theorem Statement.visit_sublist : ∀ s : Statement,
    (((Node.statement s).visit goesBelow (s.inside goesBelow)).map Node.range).Sublist
      s.tree.ranges
  | .jump .. | .directive .. | .fallthrough .. | .returning _ none =>
    Node.visit_sublist goesBelow rfl (List.nil_sublist _)
  | .declaration d => by
    refine Node.visit_sublist goesBelow rfl ?_
    simpa [rangesOfAll, Statement.inside] using Declaration.visit_sublist d
  | .deferred _ body => by
    refine Node.visit_sublist goesBelow rfl ?_
    simpa [rangesOfAll, Statement.inside] using Block.visit_sublist body
  | .doing _ body handlers => by
    refine Node.visit_sublist goesBelow rfl ?_
    simpa [rangesOfAll, Statement.inside] using
      (Block.visit_sublist body).append (Handler.visitAll_sublist handlers)
  | .expression value | .throwing _ value | .returning _ (some value) => by
    refine Node.visit_sublist goesBelow rfl ?_
    simpa [rangesOfAll, Statement.inside] using Expression.visit_sublist' goesBelow value
  | .forIn _ _ pattern collection guarding body => by
    refine Node.visit_sublist goesBelow rfl ?_
    simpa [rangesOfAll, Statement.inside] using
      (Pattern.visit_sublist' goesBelow pattern).append
        ((Expression.visit_sublist' goesBelow collection).append
          ((Expression.visitOptional_sublist goesBelow guarding).append
            (Block.visit_sublist body)))
  | .guarding _ conditions body | .looping _ conditions body
  | .choice _ conditions body none => by
    refine Node.visit_sublist goesBelow rfl ?_
    simpa [rangesOfAll, Statement.inside] using
      (flatMap_visit_sublist (Condition.visit_sublist goesBelow) conditions).append
        (Block.visit_sublist body)
  | .choice _ conditions body (some alternative) => by
    refine Node.visit_sublist goesBelow rfl ?_
    simpa [rangesOfAll, Statement.inside] using
      (flatMap_visit_sublist (Condition.visit_sublist goesBelow) conditions).append
        ((Block.visit_sublist body).append (Alternative.visit_sublist alternative))
  | .labeled _ _ statement => by
    refine Node.visit_sublist goesBelow rfl ?_
    simpa [rangesOfAll, Statement.inside] using Statement.visit_sublist statement
  | .repeating _ body condition => by
    refine Node.visit_sublist goesBelow rfl ?_
    simpa [rangesOfAll, Statement.inside] using
      (Block.visit_sublist body).append (Expression.visit_sublist' goesBelow condition)
  | .switch _ subject arms => by
    refine Node.visit_sublist goesBelow rfl ?_
    simpa [rangesOfAll, Statement.inside] using
      (Expression.visit_sublist' goesBelow subject).append (Arm.visitAll_sublist arms)

theorem Alternative.visit_sublist : ∀ a : Alternative,
    ((a.visit goesBelow).map Node.range).Sublist a.tree.ranges
  | .block body => Block.visit_sublist body
  | .choice statement => Statement.visit_sublist statement

theorem Handler.visitAll_sublist : ∀ handlers : List Handler,
    ((Handler.visitAll goesBelow handlers).map Node.range).Sublist
      (rangesOfAll (Handler.trees handlers))
  | [] => List.nil_sublist _
  | ⟨none, guarding, body⟩ :: later => by
    simpa [Handler.visitAll, Handler.trees, Pattern.optionalTrees, rangesOfAll] using
      (Expression.visitOptional_sublist goesBelow guarding).append
        ((Block.visit_sublist body).append (Handler.visitAll_sublist later))
  | ⟨some pattern, guarding, body⟩ :: later => by
    simpa [Handler.visitAll, Handler.trees, Pattern.optionalTrees, rangesOfAll] using
      (Pattern.visit_sublist' goesBelow pattern).append
        ((Expression.visitOptional_sublist goesBelow guarding).append
          ((Block.visit_sublist body).append (Handler.visitAll_sublist later)))

theorem Arm.visitAll_sublist : ∀ arms : List Arm,
    ((Arm.visitAll goesBelow arms).map Node.range).Sublist (rangesOfAll (Arm.trees arms))
  | [] => List.nil_sublist _
  | .case items statements :: later => by
    simpa [Arm.visitAll, Arm.trees] using
      (flatMap_visit_sublist (CaseItem.visit_sublist goesBelow) items).append
        ((Statement.visitAll_sublist statements).append (Arm.visitAll_sublist later))
  | .default statements :: later => by
    simpa [Arm.visitAll, Arm.trees] using
      (Statement.visitAll_sublist statements).append (Arm.visitAll_sublist later)

end

/-- A visit of a text meets the ranges of its declarations in order. -/
lemma Root.visit_sublist (root : Root) :
    ((root.visit goesBelow).map Node.range).Sublist
      (rangesOfAll (Declaration.trees root.declarations)) := by
  rw [Root.visit]
  induction root.declarations with
  | nil => exact List.nil_sublist _
  | cons d later ih =>
    simpa [Declaration.trees, rangesOfAll, Declaration.visit] using
      (Declaration.visit_sublist goesBelow d).append ih

end

end FrontEnd
