/-
The nodes right below a node.

* `Node.children`: the children of a node, in the order of the text.
* `Node.childrenInduction`: what holds of a node if it holds of its children holds of all nodes.
* `Node.accept_eq`, `Node.visited_eq`: a visitor that goes below a node goes on with its children
  from the first to the last, and with nothing else.
-/
import Mathlib.Tactic.Common
import FrontEnd.Syntax.Visitor

namespace FrontEnd

/-! ### Children -/

/-- The value of an argument. -/
def Argument.value : Argument → Expression
  | ⟨_, value⟩ => value

/-- The expressions right below an expression. -/
def Expression.children : Expression → List Expression
  | .identifier .. | .nil .. | .boolean .. | .integer .. | .floating .. | .string ..
  | .selfReference .. | .implicitMember .. | .wildcard .. => []
  | .array _ elements => elements
  | .dictionary _ entries => entries.flatMap fun | ⟨key, value⟩ => [key, value]
  | .parenthesized _ inner | .forced _ inner | .unary _ _ inner | .attempt _ _ inner
  | .member _ inner _ => [inner]
  | .tuple _ elements => elements.map Argument.value
  | .binary _ _ left right | .assignment _ left right => [left, right]
  | .call _ base arguments | .subscript _ base arguments =>
    base :: arguments.map Argument.value

/-- The nodes right below a pattern. -/
def Pattern.children : Pattern → List Node
  | .wildcard _ | .identifier .. | .enumCase _ _ _ none => []
  | .binding _ _ inner | .optional _ inner | .annotated _ inner _
  | .enumCase _ _ _ (some inner) => [.pattern inner]
  | .tuple _ elements => elements.map .pattern
  | .expression _ value => [.expression value]

/-- A pattern, and an expression that may follow it. -/
def Node.pair (pattern : Pattern) (value : Option Expression) : List Node :=
  .pattern pattern :: (value.map .expression).toList

/-- The nodes of a condition. -/
def Condition.children : Condition → List Node
  | .expression value => [.expression value]
  | .matching pattern value | .binding _ pattern value => Node.pair pattern (some value)

/-- The nodes of a block: its statements. -/
def Block.children (b : Block) : List Node :=
  b.statements.map .statement

/-- The nodes of what follows `else`. -/
def Alternative.children : Alternative → List Node
  | .block body => body.children
  | .choice statement => [.statement statement]

/-- The nodes of a handler. -/
def Handler.children : Handler → List Node
  | ⟨pattern, guard, body⟩ =>
    (pattern.map .pattern).toList ++ (guard.map .expression).toList ++ body.children

/-- The nodes of an arm. -/
def Arm.children : Arm → List Node
  | .case items statements =>
    items.flatMap (fun i => Node.pair i.pattern i.guarding) ++ statements.map .statement
  | .default statements => statements.map .statement

/-- The nodes right below a declaration. -/
def Declaration.children : Declaration → List Node
  | .importing .. | .typeAlias .. | .cases .. => []
  | .bindings _ _ _ items => items.flatMap fun b => Node.pair b.pattern b.value
  | .function _ _ signature body =>
    (signature.parameters.filterMap (·.default)).map .expression ++ body.elim [] Block.children
  | .type _ _ _ _ _ members => members.map .declaration

/-- The nodes right below a statement. -/
def Statement.children : Statement → List Node
  | .jump .. | .directive .. | .fallthrough .. => []
  | .declaration d => [.declaration d]
  | .deferred _ body => body.children
  | .doing _ body handlers => body.children ++ handlers.flatMap Handler.children
  | .expression value | .throwing _ value => [.expression value]
  | .returning _ value => (value.map .expression).toList
  | .forIn _ _ pattern collection guard body =>
    .pattern pattern :: .expression collection :: (guard.map .expression).toList ++
      body.children
  | .guarding _ conditions body | .looping _ conditions body =>
    conditions.flatMap Condition.children ++ body.children
  | .choice _ conditions body alternative =>
    conditions.flatMap Condition.children ++ body.children ++
      alternative.elim [] Alternative.children
  | .labeled _ _ statement => [.statement statement]
  | .repeating _ body condition => body.children ++ [.expression condition]
  | .switch _ subject arms => .expression subject :: arms.flatMap Arm.children

/-- The nodes right below a node, in the order of the text. -/
def Node.children : Node → List Node
  | .declaration d => d.children
  | .statement s => s.children
  | .expression e => e.children.map .expression
  | .pattern p => p.children

/-- The nodes right below the root: its declarations. -/
def Root.children (root : Root) : List Node :=
  root.declarations.map .declaration

/-! ### Children are smaller -/

namespace Node

lemma sizeOf_value_lt (a : Argument) : sizeOf a.value < sizeOf a := by
  obtain ⟨label, value⟩ := a
  simp only [Argument.value, Argument.mk.sizeOf_spec]
  omega

lemma sizeOf_lt_of_mem_expression {e e' : Expression} (h : e' ∈ e.children) :
    sizeOf e' < sizeOf e := by
  cases e with
  | dictionary r entries =>
    obtain ⟨⟨key, value⟩, hentry, he⟩ := List.mem_flatMap.mp h
    have := List.sizeOf_lt_of_mem hentry
    simp only [List.mem_cons, List.not_mem_nil, or_false] at he
    rcases he with rfl | rfl <;> simp at this ⊢ <;> omega
  | _ => grind [Expression.children, → List.sizeOf_lt_of_mem, sizeOf_value_lt]

variable {c : Node}

lemma sizeOf_lt_of_mem_pattern {p : Pattern} (h : c ∈ p.children) : sizeOf c < 1 + sizeOf p := by
  cases p with
  | enumCase r type name payload => cases payload <;> grind [Pattern.children]
  | _ => grind [Pattern.children, → List.sizeOf_lt_of_mem]

lemma sizeOf_le_of_mem_pair {p : Pattern} {value : Option Expression} (h : c ∈ pair p value) :
    sizeOf c ≤ sizeOf p + sizeOf value := by
  cases value <;> cases p <;> grind [pair]

lemma sizeOf_lt_of_mem_binding {b : Binding} (h : c ∈ pair b.pattern b.value) :
    sizeOf c < sizeOf b := by
  obtain ⟨pattern, value⟩ := b
  grind [→ sizeOf_le_of_mem_pair]

lemma sizeOf_lt_of_mem_caseItem {i : CaseItem} (h : c ∈ pair i.pattern i.guarding) :
    sizeOf c < sizeOf i := by
  obtain ⟨pattern, guard⟩ := i
  grind [→ sizeOf_le_of_mem_pair]

lemma sizeOf_lt_of_mem_condition {b : Condition} (h : c ∈ b.children) :
    sizeOf c < 1 + sizeOf b := by
  cases b <;> grind [Condition.children, → sizeOf_le_of_mem_pair]

lemma sizeOf_lt_of_mem_block {b : Block} (h : c ∈ b.children) : sizeOf c < sizeOf b := by
  obtain ⟨r, statements⟩ := b
  grind [Block.children, Block.statements, → List.sizeOf_lt_of_mem]

lemma sizeOf_lt_of_mem_alternative {b : Alternative} (h : c ∈ b.children) :
    sizeOf c < 1 + sizeOf b := by
  cases b <;> grind [Alternative.children, → sizeOf_lt_of_mem_block]

lemma sizeOf_lt_of_mem_handler {b : Handler} (h : c ∈ b.children) : sizeOf c < 1 + sizeOf b := by
  obtain ⟨pattern, guard, body⟩ := b
  cases pattern <;> cases guard <;> grind [Handler.children, → sizeOf_lt_of_mem_block]

lemma sizeOf_lt_of_mem_arm {b : Arm} (h : c ∈ b.children) : sizeOf c < 1 + sizeOf b := by
  cases b <;> grind [Arm.children, → sizeOf_lt_of_mem_caseItem, → List.sizeOf_lt_of_mem]

lemma sizeOf_lt_of_mem_signature {f : Signature} {e : Expression}
    (h : e ∈ f.parameters.filterMap (·.default)) : sizeOf e + 1 < sizeOf f := by
  obtain ⟨⟨label, name, type, default⟩, hmem, hdefault⟩ := List.mem_filterMap.mp h
  have := List.sizeOf_lt_of_mem hmem
  cases f
  grind

lemma sizeOf_lt_of_mem_declaration {d : Declaration} (h : c ∈ d.children) :
    sizeOf c < 1 + sizeOf d := by
  cases d with
  | function r header signature body =>
    cases body <;>
      grind [Declaration.children, → sizeOf_lt_of_mem_block, → sizeOf_lt_of_mem_signature]
  | _ => grind [Declaration.children, → sizeOf_lt_of_mem_binding, → List.sizeOf_lt_of_mem]

lemma sizeOf_lt_of_mem_statement {s : Statement} (h : c ∈ s.children) :
    sizeOf c < 1 + sizeOf s := by
  cases s with
  | choice r conditions body alternative =>
    cases alternative <;> grind [Statement.children, → sizeOf_lt_of_mem_block,
      → sizeOf_lt_of_mem_condition, → sizeOf_lt_of_mem_alternative, → List.sizeOf_lt_of_mem]
  | forIn r isMatching pattern collection guard body =>
    cases guard <;> grind [Statement.children, → sizeOf_lt_of_mem_block]
  | returning r value => cases value <;> grind [Statement.children]
  | _ =>
    grind [Statement.children, → sizeOf_lt_of_mem_block, → sizeOf_lt_of_mem_condition,
      → sizeOf_lt_of_mem_arm, → sizeOf_lt_of_mem_handler, → List.sizeOf_lt_of_mem]

/-- A child of a node is smaller than the node. -/
theorem sizeOf_lt_of_mem_children {n : Node} (h : c ∈ n.children) : sizeOf c < sizeOf n := by
  cases n with
  | declaration d => exact sizeOf_lt_of_mem_declaration h
  | statement s => exact sizeOf_lt_of_mem_statement h
  | expression e =>
    obtain ⟨e', he, rfl⟩ := List.mem_map.mp h
    exact Nat.add_lt_add_left (sizeOf_lt_of_mem_expression he) 1
  | pattern p => exact sizeOf_lt_of_mem_pattern h

/-- What holds of a node if it holds of its children holds of all nodes. -/
theorem childrenInduction {motive : Node → Prop}
    (step : ∀ n, (∀ c ∈ n.children, motive c) → motive n) (n : Node) : motive n :=
  step n fun c _ => childrenInduction step c
termination_by sizeOf n
decreasing_by exact sizeOf_lt_of_mem_children ‹_›

end Node

/-! ### Visitors go on with the children -/

section

variable {σ : Type} (v : Visitor σ)

namespace Node

/-- The state behind a node. -/
def accept : Node → σ → σ
  | declaration d => v.enter (.declaration d) (d.walk v)
  | statement s => v.enter (.statement s) (s.walk v)
  | expression e => e.accept v
  | pattern p => p.accept v

/-- The state behind several nodes. -/
def acceptAll (nodes : List Node) (s : σ) : σ :=
  nodes.foldl (fun s n => n.accept v s) s

@[simp] lemma acceptAll_nil (s : σ) : acceptAll v [] s = s := rfl

@[simp] lemma acceptAll_cons (n : Node) (nodes : List Node) (s : σ) :
    acceptAll v (n :: nodes) s = acceptAll v nodes (n.accept v s) := rfl

@[simp] lemma acceptAll_append (nodes later : List Node) (s : σ) :
    acceptAll v (nodes ++ later) s = acceptAll v later (acceptAll v nodes s) :=
  List.foldl_append

/-- The nodes of parts in a row are met part by part. -/
lemma acceptAll_flatMap {α : Type} {children : α → List Node} {walk : α → σ → σ}
    (h : ∀ a s, acceptAll v (children a) s = walk a s) (parts : List α) (s : σ) :
    acceptAll v (parts.flatMap children) s = parts.foldl (fun s a => walk a s) s := by
  induction parts generalizing s with
  | nil => rfl
  | cons part parts ih => rw [List.flatMap_cons, acceptAll_append, h, ih, List.foldl_cons]

lemma acceptAll_optional (value : Option Expression) (s : σ) :
    acceptAll v (value.map .expression).toList s = Expression.acceptOptional v value s := by
  cases value <;> rfl

lemma acceptAll_pair (p : Pattern) (value : Option Expression) (s : σ) :
    acceptAll v (pair p value) s = Expression.acceptOptional v value (p.accept v s) := by
  rw [pair, acceptAll_cons, acceptAll_optional]
  rfl

end Node

open Node

lemma Expression.acceptAll_map (elements : List Expression) (s : σ) :
    acceptAll v (elements.map .expression) s = Expression.walkAll v elements s := by
  induction elements generalizing s with
  | nil => rfl
  | cons e later ih => exact ih _

lemma Argument.acceptAll_map (arguments : List Argument) (s : σ) :
    acceptAll v ((arguments.map Argument.value).map .expression) s =
      Argument.walkAll v arguments s := by
  induction arguments generalizing s with
  | nil => rfl
  | cons a later ih =>
    obtain ⟨label, value⟩ := a
    exact ih _

lemma Entry.acceptAll_flatMap (entries : List Entry) (s : σ) :
    acceptAll v ((Expression.children (.dictionary default entries)).map .expression) s =
      Entry.walkAll v entries s := by
  induction entries generalizing s with
  | nil => rfl
  | cons entry later ih =>
    obtain ⟨key, value⟩ := entry
    exact ih _

lemma Expression.walk_eq (e : Expression) (s : σ) :
    e.walk v s = acceptAll v (e.children.map .expression) s := by
  cases e with
  | array r elements => exact (Expression.acceptAll_map v elements s).symm
  | dictionary r entries => exact (Entry.acceptAll_flatMap v entries s).symm
  | tuple r elements => exact (Argument.acceptAll_map v elements s).symm
  | call r base arguments | subscript r base arguments =>
    exact (Argument.acceptAll_map v arguments _).symm
  | _ => rfl

lemma Pattern.acceptAll_map (elements : List Pattern) (s : σ) :
    acceptAll v (elements.map .pattern) s = Pattern.walkAll v elements s := by
  induction elements generalizing s with
  | nil => rfl
  | cons p later ih => exact ih _

lemma Pattern.walk_eq (p : Pattern) (s : σ) : p.walk v s = acceptAll v p.children s := by
  cases p with
  | tuple r elements => exact (Pattern.acceptAll_map v elements s).symm
  | enumCase r type name payload => cases payload <;> rfl
  | _ => rfl

lemma CaseItem.acceptAll_flatMap (items : List CaseItem) (s : σ) :
    acceptAll v (items.flatMap fun i => pair i.pattern i.guarding) s = CaseItem.walkAll v items s :=
  Node.acceptAll_flatMap v (fun i : CaseItem => acceptAll_pair v i.pattern i.guarding) items s

lemma Condition.acceptAll_children (c : Condition) (s : σ) :
    acceptAll v c.children s = c.walk v s := by
  cases c <;> rfl

lemma Statement.acceptAll_map (statements : List Statement) (s : σ) :
    acceptAll v (statements.map .statement) s = Statement.walkAll v statements s := by
  induction statements generalizing s with
  | nil => rfl
  | cons statement later ih => exact ih _

lemma Declaration.acceptAll_map (declarations : List Declaration) (s : σ) :
    acceptAll v (declarations.map .declaration) s = Declaration.walkAll v declarations s := by
  induction declarations generalizing s with
  | nil => rfl
  | cons d later ih => exact ih _

lemma Block.acceptAll_children (b : Block) (s : σ) : acceptAll v b.children s = b.walk v s := by
  obtain ⟨r, statements⟩ := b
  exact Statement.acceptAll_map v statements s

lemma Alternative.acceptAll_children (a : Alternative) (s : σ) :
    acceptAll v a.children s = a.walk v s := by
  cases a with
  | block body => exact Block.acceptAll_children v body s
  | choice statement => rfl

lemma Handler.acceptAll_flatMap (handlers : List Handler) (s : σ) :
    acceptAll v (handlers.flatMap Handler.children) s = Handler.walkAll v handlers s := by
  induction handlers generalizing s with
  | nil => rfl
  | cons handler later ih =>
    obtain ⟨_ | pattern, guard, body⟩ := handler <;>
      simp [Handler.children, Handler.walkAll, acceptAll_optional, Block.acceptAll_children, ih,
        Node.accept]

lemma Arm.acceptAll_flatMap (arms : List Arm) (s : σ) :
    acceptAll v (arms.flatMap Arm.children) s = Arm.walkAll v arms s := by
  induction arms generalizing s with
  | nil => rfl
  | cons arm later ih =>
    cases arm with
    | case items statements =>
      rw [List.flatMap_cons, acceptAll_append, ih, Arm.children, acceptAll_append,
        CaseItem.acceptAll_flatMap, Statement.acceptAll_map, Arm.walkAll]
    | default statements =>
      rw [List.flatMap_cons, acceptAll_append, ih, Arm.children, Statement.acceptAll_map,
        Arm.walkAll]

lemma Signature.acceptAll_defaults (f : Signature) (s : σ) :
    acceptAll v ((f.parameters.filterMap (·.default)).map .expression) s = f.walk v s := by
  rw [Signature.walk]
  induction f.parameters generalizing s with
  | nil => rfl
  | cons p later ih =>
    rcases hdefault : p.default with _ | value <;>
      simp [hdefault, Expression.acceptOptional, Node.accept, ih]

lemma Declaration.walk_eq (d : Declaration) (s : σ) : d.walk v s = acceptAll v d.children s := by
  cases d with
  | bindings r header isMutable items =>
    exact (Node.acceptAll_flatMap v (fun b => acceptAll_pair v b.pattern b.value) items s).symm
  | function r header signature body =>
    rw [Declaration.children, acceptAll_append, Signature.acceptAll_defaults]
    cases body with
    | none => rfl
    | some body => exact (Block.acceptAll_children v body _).symm
  | type r header family name inherits members =>
    exact (Declaration.acceptAll_map v members s).symm
  | _ => rfl

lemma Condition.acceptAll_flatMap (conditions : List Condition) (s : σ) :
    acceptAll v (conditions.flatMap Condition.children) s = Condition.walkAll v conditions s :=
  Node.acceptAll_flatMap v (Condition.acceptAll_children v) conditions s

lemma Statement.walk_eq (statement : Statement) (s : σ) :
    statement.walk v s = acceptAll v statement.children s := by
  cases statement with
  | deferred r body => exact (Block.acceptAll_children v body s).symm
  | doing r body handlers =>
    rw [Statement.children, acceptAll_append, Block.acceptAll_children, Handler.acceptAll_flatMap,
      Statement.walk]
  | forIn r isMatching pattern collection guard body =>
    simp [Statement.children, Statement.walk, acceptAll_optional, Block.acceptAll_children,
      Node.accept]
  | guarding r conditions body | looping r conditions body =>
    rw [Statement.children, acceptAll_append, Condition.acceptAll_flatMap, Block.acceptAll_children,
      Statement.walk]
  | choice r conditions body alternative =>
    rw [Statement.children, acceptAll_append, acceptAll_append, Condition.acceptAll_flatMap,
      Block.acceptAll_children]
    cases alternative with
    | none => rfl
    | some a => exact (Alternative.acceptAll_children v a _).symm
  | repeating r body condition =>
    rw [Statement.children, acceptAll_append, Block.acceptAll_children]
    rfl
  | returning r value => cases value <;> rfl
  | switch r subject arms =>
    rw [Statement.children, acceptAll_cons, Arm.acceptAll_flatMap]
    rfl
  | _ => rfl

/-- A visitor that goes below a node goes on with its children, from the first to the last. -/
theorem Node.accept_eq (n : Node) (s : σ) : n.accept v s = v.enter n (acceptAll v n.children) s := by
  have henter {n : Node} {below : σ → σ} (h : ∀ s, below s = acceptAll v n.children s) :
      v.enter n below s = v.enter n (acceptAll v n.children) s := by
    rw [funext h]
  cases n with
  | declaration d => exact henter (Declaration.walk_eq v d)
  | statement statement => exact henter (Statement.walk_eq v statement)
  | expression e => exact henter (Expression.walk_eq v e)
  | pattern p => exact henter (Pattern.walk_eq v p)

/-- A visitor meets the declarations of a text one after the other. -/
lemma Root.accept_eq (root : Root) (s : σ) : root.accept v s = acceptAll v root.children s :=
  (Declaration.acceptAll_map v root.declarations s).symm

end

end FrontEnd
