/-
The ranges of syntax trees.

The tree of ranges of an expression, a pattern, a statement, a block or a declaration
has its range at the root and the trees of its parts below, in the order of a visit.
Parts that are no nodes, such as arguments and conditions, hand their trees up.
-/
import FrontEnd.Proofs.Placement.Tree

namespace FrontEnd

/-! ### Expressions -/

mutual

/-- The ranges of an expression. -/
def Expression.tree : Expression → RangeTree
  | .identifier r _ | .nil r | .boolean r _ | .integer r _ | .floating r _ | .string r _
  | .selfReference r | .implicitMember r _ | .wildcard r => .node r []
  | .array r elements => .node r (Expression.trees elements)
  | .dictionary r entries => .node r (Entry.trees entries)
  | .parenthesized r inner | .forced r inner | .unary r _ inner | .attempt r _ inner
  | .member r inner _ => .node r [inner.tree]
  | .tuple r elements => .node r (Argument.trees elements)
  | .binary r _ left right | .assignment r left right => .node r [left.tree, right.tree]
  | .call r base arguments | .subscript r base arguments =>
    .node r (base.tree :: Argument.trees arguments)

/-- The ranges of several expressions. -/
def Expression.trees : List Expression → List RangeTree
  | [] => []
  | e :: later => e.tree :: Expression.trees later

/-- The ranges of arguments. -/
def Argument.trees : List Argument → List RangeTree
  | [] => []
  | ⟨_, e⟩ :: later => e.tree :: Argument.trees later

/-- The ranges of the entries of a dictionary. -/
def Entry.trees : List Entry → List RangeTree
  | [] => []
  | ⟨key, value⟩ :: later => key.tree :: value.tree :: Entry.trees later

end

/-- The ranges of an expression that may be missing. -/
def Expression.optionalTrees : Option Expression → List RangeTree
  | none => []
  | some e => [e.tree]

@[simp, grind =] lemma Expression.range_tree (e : Expression) : e.tree.range = e.range := by
  cases e <;> simp [tree, RangeTree.range, range]

/-! ### Patterns -/

mutual

/-- The ranges of a pattern. -/
def Pattern.tree : Pattern → RangeTree
  | .wildcard r | .identifier r _ | .enumCase r _ _ none => .node r []
  | .binding r _ inner | .optional r inner | .annotated r inner _
  | .enumCase r _ _ (some inner) => .node r [inner.tree]
  | .tuple r elements => .node r (Pattern.trees elements)
  | .expression r value => .node r [value.tree]

/-- The ranges of several patterns. -/
def Pattern.trees : List Pattern → List RangeTree
  | [] => []
  | p :: later => p.tree :: Pattern.trees later

end

/-- The ranges of a pattern that may be missing. -/
def Pattern.optionalTrees : Option Pattern → List RangeTree
  | none => []
  | some p => [p.tree]

@[simp, grind =] lemma Pattern.range_tree (p : Pattern) : p.tree.range = p.range := by
  cases p with
  | enumCase _ _ _ payload => cases payload <;> simp [tree, RangeTree.range, range]
  | _ => simp [tree, RangeTree.range, range]

/-! ### Declarations and statements -/

/-- The ranges of a binding. -/
def Binding.trees (b : Binding) : List RangeTree :=
  b.pattern.tree :: Expression.optionalTrees b.value

/-- The ranges of a condition. -/
def Condition.trees : Condition → List RangeTree
  | .expression value => [value.tree]
  | .matching pattern value | .binding _ pattern value => [pattern.tree, value.tree]

/-- The ranges of one pattern of a `case`. -/
def CaseItem.trees (item : CaseItem) : List RangeTree :=
  item.pattern.tree :: Expression.optionalTrees item.guarding

/-- The ranges of the default values of parameters. -/
def Signature.trees (s : Signature) : List RangeTree :=
  s.parameters.flatMap fun p => Expression.optionalTrees p.default

mutual

/-- The ranges of a declaration. -/
def Declaration.tree : Declaration → RangeTree
  | .importing r .. | .typeAlias r .. | .cases r .. => .node r []
  | .bindings r _ _ items => .node r (items.flatMap Binding.trees)
  | .function r _ signature none => .node r signature.trees
  | .function r _ signature (some body) => .node r (signature.trees ++ [body.tree])
  | .type r _ _ _ _ members => .node r (Declaration.trees members)

/-- The ranges of several declarations. -/
def Declaration.trees : List Declaration → List RangeTree
  | [] => []
  | d :: later => d.tree :: Declaration.trees later

/-- The ranges of a block. -/
def Block.tree : Block → RangeTree
  | ⟨r, statements⟩ => .node r (Statement.trees statements)

/-- The ranges of several statements. -/
def Statement.trees : List Statement → List RangeTree
  | [] => []
  | s :: later => s.tree :: Statement.trees later

/-- The ranges of a statement.  Declarations and expressions that serve as statements
are nodes of their own below the statement. -/
def Statement.tree : Statement → RangeTree
  | .jump r .. | .directive r .. | .fallthrough r | .returning r none => .node r []
  | .declaration d => .node d.range [d.tree]
  | .deferred r body => .node r [body.tree]
  | .doing r body handlers => .node r (body.tree :: Handler.trees handlers)
  | .expression value => .node value.range [value.tree]
  | .throwing r value | .returning r (some value) => .node r [value.tree]
  | .forIn r _ pattern collection guarding body =>
    .node r (pattern.tree :: collection.tree ::
      (Expression.optionalTrees guarding ++ [body.tree]))
  | .guarding r conditions body | .looping r conditions body | .choice r conditions body none =>
    .node r (conditions.flatMap Condition.trees ++ [body.tree])
  | .choice r conditions body (some alternative) =>
    .node r (conditions.flatMap Condition.trees ++ [body.tree, alternative.tree])
  | .labeled r _ statement => .node r [statement.tree]
  | .repeating r body condition => .node r [body.tree, condition.tree]
  | .switch r subject arms => .node r (subject.tree :: Arm.trees arms)

/-- The ranges of what follows `else`. -/
def Alternative.tree : Alternative → RangeTree
  | .block body => body.tree
  | .choice statement => statement.tree

/-- The ranges of handlers. -/
def Handler.trees : List Handler → List RangeTree
  | [] => []
  | ⟨pattern, guarding, body⟩ :: later =>
    Pattern.optionalTrees pattern ++ (Expression.optionalTrees guarding ++
      body.tree :: Handler.trees later)

/-- The ranges of the arms of a `switch`. -/
def Arm.trees : List Arm → List RangeTree
  | [] => []
  | .case items statements :: later =>
    items.flatMap CaseItem.trees ++ (Statement.trees statements ++ Arm.trees later)
  | .default statements :: later => Statement.trees statements ++ Arm.trees later

end

@[simp, grind =] lemma Declaration.range_tree (d : Declaration) : d.tree.range = d.range := by
  cases d with
  | function _ _ _ body => cases body <;> simp [tree, RangeTree.range, range]
  | _ => simp [tree, RangeTree.range, range]

@[simp, grind =] lemma Block.range_tree (b : Block) : b.tree.range = b.range := by
  cases b
  simp [tree, RangeTree.range, range]

@[simp, grind =] lemma Statement.range_tree (s : Statement) : s.tree.range = s.range := by
  cases s with
  | choice _ _ _ alternative => cases alternative <;> simp [tree, RangeTree.range, range]
  | returning _ value => cases value <;> simp [tree, RangeTree.range, range]
  | _ => simp [tree, RangeTree.range, range]

end FrontEnd
