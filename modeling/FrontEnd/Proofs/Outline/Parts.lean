/-
Every part of a tree has its own outline in the outline of the whole.

An outline shows patterns, parameters and conditions by their texts, and what a handler catches on
the line of the handler.  All other nodes are parts: their outlines stand in the outline of the node
above them, two columns deeper for each level.

* `Node.mem_children_of_mem_parts`: a part of a node is one of its children.
* `Node.outline_below`: the outline of a part stands below the head of the outline of the node, or
  is all of it.
* `Root.outline_below`: the outline of everything that is shown as a part stands in the outline of
  the text.
* `Root.exists_expression_lines`: the lines that it takes up there for an expression; all but the
  first are deeper than the line with its head.
-/
import Mathlib.Data.List.Basic
import FrontEnd.Proofs.Outline.Inside
import FrontEnd.Proofs.Visit.Children

namespace FrontEnd

open Text Outline

/-! ### Parts -/

/-- The parts of a handler: the statements of its body. -/
def Handler.parts : Handler → List Node
  | ⟨_, _, body⟩ => body.children

/-- The parts of an arm: the conditions on its patterns, and its statements. -/
def Arm.parts : Arm → List Node
  | .case items statements =>
    (items.filterMap (·.guarding)).map .expression ++ statements.map .statement
  | .default statements => statements.map .statement

/-- The parts of a declaration. -/
def Declaration.parts : Declaration → List Node
  | .importing .. | .typeAlias .. | .cases .. => []
  | .bindings _ _ _ items => (items.filterMap (·.value)).map .expression
  | .function _ _ _ body => body.elim [] Block.children
  | .type _ _ _ _ _ members => members.map .declaration

/-- The parts of a statement. -/
def Statement.parts : Statement → List Node
  | .jump .. | .directive .. | .fallthrough .. => []
  | .declaration d => [.declaration d]
  | .deferred _ body | .guarding _ _ body | .looping _ _ body => body.children
  | .doing _ body handlers => body.children ++ handlers.flatMap Handler.parts
  | .expression value | .throwing _ value => [.expression value]
  | .returning _ value => (value.map .expression).toList
  | .forIn _ _ _ collection guard body =>
    .expression collection :: (guard.map .expression).toList ++ body.children
  | .choice _ _ body alternative => body.children ++ alternative.elim [] Alternative.children
  | .labeled _ _ statement => [.statement statement]
  | .repeating _ body condition => body.children ++ [.expression condition]
  | .switch _ subject arms => .expression subject :: arms.flatMap Arm.parts

/-- The nodes right below a node that its outline shows by their own outlines. -/
def Node.parts : Node → List Node
  | .declaration d => d.parts
  | .statement s => s.parts
  | .expression e => e.children.map .expression
  | .pattern _ => []

lemma Handler.mem_children_of_mem_parts {b : Handler} {c : Node} (h : c ∈ b.parts) :
    c ∈ b.children := by
  obtain ⟨pattern, guard, body⟩ := b
  exact List.mem_append_right _ h

lemma Arm.mem_children_of_mem_parts {b : Arm} {c : Node} (h : c ∈ b.parts) : c ∈ b.children := by
  cases b with
  | case items statements =>
    refine (List.mem_append.mp h).elim (fun hguard => ?_) (List.mem_append_right _)
    obtain ⟨e, he, rfl⟩ := List.mem_map.mp hguard
    obtain ⟨item, hitem, hguarding⟩ := List.mem_filterMap.mp he
    refine List.mem_append_left _ (List.mem_flatMap.mpr ⟨item, hitem, ?_⟩)
    simp [Node.pair, hguarding]
  | default statements => exact h

/-- Every part is a node right below the node. -/
theorem Node.mem_children_of_mem_parts {n c : Node} (h : c ∈ n.parts) : c ∈ n.children := by
  cases n with
  | declaration d =>
    cases d with
    | bindings r header isMutable items =>
      obtain ⟨e, he, rfl⟩ := List.mem_map.mp h
      obtain ⟨item, hitem, hvalue⟩ := List.mem_filterMap.mp he
      exact List.mem_flatMap.mpr ⟨item, hitem, by simp [Node.pair, hvalue]⟩
    | function r header signature body => exact List.mem_append_right _ h
    | _ => exact h
  | statement s =>
    cases s with
    | doing r body handlers =>
      refine (List.mem_append.mp h).elim (List.mem_append_left _) fun hc => ?_
      obtain ⟨handler, hhandler, hpart⟩ := List.mem_flatMap.mp hc
      exact List.mem_append_right _
        (List.mem_flatMap.mpr ⟨handler, hhandler, Handler.mem_children_of_mem_parts hpart⟩)
    | switch r subject arms =>
      refine (List.mem_cons.mp h).elim (fun hc => hc ▸ List.mem_cons_self) fun hc => ?_
      obtain ⟨arm, harm, hpart⟩ := List.mem_flatMap.mp hc
      exact List.mem_cons_of_mem _
        (List.mem_flatMap.mpr ⟨arm, harm, Arm.mem_children_of_mem_parts hpart⟩)
    | forIn r isMatching pattern collection guard body => exact List.mem_cons_of_mem _ h
    | guarding r conditions body | looping r conditions body => exact List.mem_append_right _ h
    | choice r conditions body alternative =>
      refine (List.mem_append.mp h).elim (fun hc => ?_) (List.mem_append_right _)
      exact List.mem_append_left _ (List.mem_append_right _ hc)
    | _ => exact h
  | expression e => exact h
  | pattern p => simp [Node.parts] at h

/-- The outline of a node. -/
def Node.outline : Node → List String
  | .declaration d => d.outline
  | .statement s => s.outline
  | .expression e => e.outline
  | .pattern p => p.outline

/-- The nodes that the outline of a text shows by their own outlines. -/
inductive Root.Shows (root : Root) : Node → Prop
  | declaration {d : Declaration} (h : d ∈ root.declarations) : Shows root (.declaration d)
  | part {n c : Node} (hn : Shows root n) (hc : c ∈ n.parts) : Shows root c

/-! ### The head of an outline -/

/-- The outline of an expression is a part. -/
lemma Expression.exists_outline (e : Expression) :
    ∃ body, e.outline = part e.tag e.range body := by
  cases e <;> exact ⟨_, rfl⟩

lemma Declaration.exists_outline (d : Declaration) :
    ∃ body, d.outline = part d.tag d.range body := by
  cases d with
  | function r header signature body => cases body <;> exact ⟨_, rfl⟩
  | _ => exact ⟨_, rfl⟩

lemma Statement.exists_outline (s : Statement) :
    ∃ later, s.outline = head s.tag s.range :: later := by
  cases s with
  | declaration d =>
    obtain ⟨body, h⟩ := d.exists_outline
    exact ⟨_, h⟩
  | expression e =>
    obtain ⟨body, h⟩ := e.exists_outline
    exact ⟨_, h⟩
  | choice r conditions body alternative => cases alternative <;> exact ⟨_, rfl⟩
  | doing r body handlers => cases handlers <;> exact ⟨_, rfl⟩
  | _ => exact ⟨_, rfl⟩

/-- An outline starts with its head line. -/
lemma Node.exists_outline (n : Node) : ∃ later, n.outline = head n.tag n.range :: later := by
  cases n with
  | declaration d =>
    obtain ⟨body, h⟩ := d.exists_outline
    exact ⟨_, h⟩
  | statement s => exact s.exists_outline
  | expression e =>
    obtain ⟨body, h⟩ := e.exists_outline
    exact ⟨_, h⟩
  | pattern p => exact ⟨_, rfl⟩

namespace Outline

/-! ### Parts in a row -/

lemma Inside.node (n : Node) : Inside 0 n.outline n.outline :=
  .of_eq_cons n.exists_outline.choose_spec

lemma Inside.expression (e : Expression) : Inside 0 e.outline e.outline :=
  .node (.expression e)

/-- The outline of an expression behind a label. -/
lemma Inside.labeled (e : Expression) (label : String) (h : label ∈ labels) :
    Inside 0 (Outline.labeled label e.outline) e.outline :=
  .of_labeled (Node.expression e).exists_outline.choose_spec h

end Outline

lemma Expression.outlines_inside {elements : List Expression} {e : Expression} (h : e ∈ elements)
    (index : Nat) : Inside 1 (Expression.outlines index elements) e.outline := by
  induction elements generalizing index with
  | nil => simp at h
  | cons first rest ih =>
    rcases List.mem_cons.mp h with rfl | hrest
    · exact ((Inside.expression e).indent.cons _).append_right _
    · exact (ih hrest _).append_left _

lemma Argument.outlines_inside {arguments : List Argument} {a : Argument} (h : a ∈ arguments)
    (index : Nat) : Inside 1 (Argument.outlines index arguments) a.value.outline := by
  induction arguments generalizing index with
  | nil => simp at h
  | cons first rest ih =>
    rcases List.mem_cons.mp h with rfl | hrest
    · obtain ⟨_ | label, value⟩ := a
      · exact ((Inside.expression value).indent.cons _).append_right _
      · exact ((Inside.expression value).indent.append_left _).append_right _
    · obtain ⟨_ | label, value⟩ := first <;> exact (ih hrest _).append_left _

lemma Entry.outlines_inside {entries : List Entry} {key value : Expression}
    (h : .mk key value ∈ entries) (index : Nat) :
    Inside 1 (Entry.outlines index entries) key.outline ∧
      Inside 1 (Entry.outlines index entries) value.outline := by
  induction entries generalizing index with
  | nil => simp at h
  | cons first rest ih =>
    rcases List.mem_cons.mp h with rfl | hrest
    · constructor
      · have hkey := (Inside.labeled key "key: " (by simp [labels])).indent.cons s!"{index}:"
        exact (hkey.append_right _).append_right _
      · exact ((Inside.labeled value "value: " (by simp [labels])).indent.append_left _).append_right _
    · obtain ⟨key', value'⟩ := first
      obtain ⟨hkey, hvalue⟩ := ih hrest (index + 1)
      exact ⟨hkey.append_left _, hvalue.append_left _⟩

lemma Binding.outlines_inside {items : List Binding} {e : Expression}
    (h : e ∈ items.filterMap (·.value)) (index : Nat) :
    Inside 1 (Binding.outlines index items) e.outline := by
  induction items generalizing index with
  | nil => simp at h
  | cons first rest ih =>
    obtain ⟨pattern, _ | value⟩ := first
    · exact (ih h _).append_left _
    · rcases List.mem_cons.mp h with rfl | hrest
      · exact ((Inside.labeled e "initializer: " (by simp [labels])).indent.append_left _).append_right _
      · exact (ih hrest _).append_left _

lemma guardingOutline_inside (e : Expression) : Inside 0 (guardingOutline (some e)) e.outline :=
  .labeled e "where: " (by simp [labels])

lemma CaseItem.outlines_inside {items : List CaseItem} {e : Expression}
    (h : e ∈ items.filterMap (·.guarding)) (index : Nat) :
    Inside 1 (CaseItem.outlines index items) e.outline := by
  induction items generalizing index with
  | nil => simp at h
  | cons first rest ih =>
    obtain ⟨pattern, _ | value⟩ := first
    · exact (ih h _).append_left _
    · rcases List.mem_cons.mp h with rfl | hrest
      · exact ((guardingOutline_inside e).indent.append_left _).append_right _
      · exact (ih hrest _).append_left _

lemma Declaration.memberLines_inside {members : List Declaration} {d : Declaration}
    (h : d ∈ members) (index : Nat) :
    Inside 1 (Declaration.memberLines index members) d.outline := by
  induction members generalizing index with
  | nil => simp at h
  | cons first rest ih =>
    rcases List.mem_cons.mp h with rfl | hrest
    · exact ((Inside.node (.declaration d)).indent.cons _).append_right _
    · exact (ih hrest _).append_left _

lemma Statement.outlines_inside {statements : List Statement} {c : Node}
    (h : c ∈ statements.map .statement) : Inside 0 (Statement.outlines statements) c.outline := by
  induction statements with
  | nil => simp at h
  | cons first rest ih =>
    rcases List.mem_cons.mp h with rfl | hrest
    · exact (Inside.node (.statement first)).append_right _
    · exact (ih hrest).append_left _

/-- The statements of a block stand below its head. -/
lemma Block.outline_below {b : Block} {c : Node} (h : c ∈ b.children) :
    Below 1 b.outline c.outline := by
  obtain ⟨r, statements⟩ := b
  exact (Statement.outlines_inside h).sequence _ _

lemma Alternative.outline_inside {a : Alternative} {c : Node} (h : c ∈ a.children) :
    ∃ depth, Inside depth a.outline c.outline := by
  cases a with
  | block body => exact ⟨1, (Block.outline_below h).inside.cons _⟩
  | choice statement =>
    obtain rfl := List.mem_singleton.mp h
    exact ⟨0, (Inside.node (.statement statement)).cons _⟩

lemma Handler.outlines_inside {handlers : List Handler} {c : Node}
    (h : c ∈ handlers.flatMap Handler.parts) (index : Nat) :
    Inside 3 (Handler.outlines index handlers) c.outline := by
  induction handlers generalizing index with
  | nil => simp at h
  | cons first rest ih =>
    obtain ⟨pattern, guard, body⟩ := first
    rcases List.mem_append.mp h with hbody | hrest
    · exact ((Block.outline_below hbody).inside.indent.indent.append_left _).append_right _
    · exact (ih hrest _).append_left _

lemma Arm.outlines_inside {arms : List Arm} {c : Node} (h : c ∈ arms.flatMap Arm.parts)
    (index : Nat) : ∃ depth, Inside depth (Arm.outlines index arms) c.outline := by
  induction arms generalizing index with
  | nil => simp at h
  | cons first rest ih =>
    rcases List.mem_append.mp h with hfirst | hrest
    · cases first with
      | case items statements =>
        rcases List.mem_append.mp hfirst with hguard | hstatement
        · obtain ⟨e, he, rfl⟩ := List.mem_map.mp hguard
          have hitems := (CaseItem.outlines_inside he 0).flatList "items"
          exact ⟨2, ((hitems.append_right _).indent.cons _).append_right _⟩
        · have hbody := (Statement.outlines_inside hstatement).armBody
          exact ⟨1, ((hbody.append_left _).indent.cons _).append_right _⟩
      | default statements =>
        have hbody := (Statement.outlines_inside hfirst).armBody
        exact ⟨1, (hbody.indent.cons _).append_right _⟩
    · obtain ⟨depth, hinside⟩ := ih hrest (index + 1)
      exact ⟨depth, by cases first <;> exact hinside.append_left _⟩

/-! ### Parts of a node -/

/-- Every operand, element and argument is shown below the head of the expression. -/
lemma Expression.outline_below {e c : Expression} (h : c ∈ e.children) :
    ∃ depth, Below depth e.outline c.outline := by
  cases e with
  | identifier | nil | boolean | integer | floating | string | selfReference | implicitMember
  | wildcard => simp [Expression.children] at h
  | array r elements =>
    have helements := (Expression.outlines_inside h 0).list "elements"
    exact ⟨3, (helements.cons _).part _ _⟩
  | dictionary r entries =>
    obtain ⟨⟨key, value⟩, hentry, hc⟩ := List.mem_flatMap.mp h
    obtain ⟨hkey, hvalue⟩ := Entry.outlines_inside hentry 0
    rcases List.mem_pair.mp hc with rfl | rfl
    · exact ⟨3, ((hkey.list "entries").cons _).part _ _⟩
    · exact ⟨3, ((hvalue.list "entries").cons _).part _ _⟩
  | tuple r elements =>
    obtain ⟨a, ha, rfl⟩ := List.mem_map.mp h
    exact ⟨3, ((Argument.outlines_inside ha 0).list "elements").part _ _⟩
  | parenthesized r inner | forced r inner =>
    obtain rfl := List.mem_singleton.mp h
    exact ⟨1, (Inside.expression c).part _ _⟩
  | unary r operator inner =>
    obtain rfl := List.mem_singleton.mp h
    exact ⟨1, ((Inside.expression c).append_left _).part _ _⟩
  | attempt r kind inner =>
    obtain rfl := List.mem_singleton.mp h
    exact ⟨1, ((Inside.expression c).cons _).part _ _⟩
  | member r inner name =>
    obtain rfl := List.mem_singleton.mp h
    exact ⟨1, ((Inside.expression c).append_right _).part _ _⟩
  | binary r operator left right =>
    rcases List.mem_pair.mp h with rfl | rfl
    · exact ⟨1, (((Inside.expression c).append_left _).append_right _).part _ _⟩
    · exact ⟨1, ((Inside.expression c).append_left _).part _ _⟩
  | assignment r left right =>
    rcases List.mem_pair.mp h with rfl | rfl
    · exact ⟨1, ((Inside.expression c).append_right _).part _ _⟩
    · exact ⟨1, ((Inside.expression c).append_left _).part _ _⟩
  | call r base arguments | subscript r base arguments =>
    rcases List.mem_cons.mp h with rfl | harguments
    · exact ⟨1, ((Inside.expression c).append_right _).part _ _⟩
    · obtain ⟨a, ha, rfl⟩ := List.mem_map.mp harguments
      exact ⟨3, (((Argument.outlines_inside ha 0).list "arguments").append_left _).part _ _⟩

/-- Initial values, the statements of a body and members are shown below the head of the
declaration. -/
lemma Declaration.outline_below {d : Declaration} {c : Node} (h : c ∈ d.parts) :
    ∃ depth, Below depth d.outline c.outline := by
  cases d with
  | importing | typeAlias | cases => simp [Declaration.parts] at h
  | bindings r header isMutable items =>
    obtain ⟨e, he, rfl⟩ := List.mem_map.mp h
    have hitems := (Binding.outlines_inside he 0).list "initializers"
    exact ⟨3, (hitems.append_left _).part _ _⟩
  | function r header signature body =>
    cases body with
    | none => simp [Declaration.parts] at h
    | some body => exact ⟨2, ((Block.outline_below h).inside.append_left _).part _ _⟩
  | type r header family name inherits members =>
    obtain ⟨d, hd, rfl⟩ := List.mem_map.mp h
    have hmembers := (Declaration.memberLines_inside hd 0).list "members"
    exact ⟨3, (hmembers.append_left _).part _ _⟩

/-- The parts of a statement are shown below its head; a declaration or an expression that serves
as a statement takes up all of its outline. -/
lemma Statement.outline_below {s : Statement} {c : Node} (h : c ∈ s.parts) :
    s.outline = c.outline ∨ ∃ depth, Below depth s.outline c.outline := by
  cases s with
  | jump | directive | fallthrough => simp [Statement.parts] at h
  | declaration d =>
    obtain rfl := List.mem_singleton.mp h
    exact .inl rfl
  | expression e =>
    obtain rfl := List.mem_singleton.mp h
    exact .inl rfl
  | deferred r body => exact .inr ⟨2, (Block.outline_below h).inside.part _ _⟩
  | doing r body handlers =>
    right
    rcases List.mem_append.mp h with hbody | hhandlers
    · have hinside := (Block.outline_below hbody).inside.indent
      exact ⟨2, by cases handlers <;> exact ⟨_, _, rfl, hinside.append_right _⟩⟩
    · cases handlers with
      | nil => simp at hhandlers
      | cons first later =>
        have hlater := Handler.outlines_inside hhandlers 0
        exact ⟨3, _, _, rfl, (hlater.append_left _).append_left _⟩
  | forIn r isMatching pattern collection guard body =>
    right
    rcases List.mem_append.mp h with hexpression | hbody
    · rcases List.mem_cons.mp hexpression with rfl | hguard
      · have hcollection := Inside.labeled collection "collection: " (by simp [labels])
        exact ⟨1, (((hcollection.append_left _).append_right _).append_right _).part _ _⟩
      · obtain ⟨e, rfl, rfl⟩ : ∃ e, guard = some e ∧ .expression e = c := by simpa using hguard
        exact ⟨1, (((guardingOutline_inside e).append_left _).append_right _).part _ _⟩
    · exact ⟨2, ((Block.outline_below hbody).inside.append_left _).part _ _⟩
  | guarding r conditions body | looping r conditions body =>
    exact .inr ⟨2, ((Block.outline_below h).inside.append_left _).part _ _⟩
  | choice r conditions body alternative =>
    right
    rcases List.mem_append.mp h with hbody | halternative
    · have hinside := (Block.outline_below hbody).inside.append_left (Condition.outline conditions)
      cases alternative with
      | none => exact ⟨2, hinside.part _ _⟩
      | some alternative => exact ⟨2, (hinside.append_right _).part _ _⟩
    · cases alternative with
      | none => simp at halternative
      | some alternative =>
        obtain ⟨depth, hinside⟩ := Alternative.outline_inside halternative
        exact ⟨depth + 1, (hinside.append_left _).part _ _⟩
  | labeled r label statement =>
    obtain rfl := List.mem_singleton.mp h
    exact .inr ⟨1, ((Inside.node (.statement statement)).append_left _).part _ _⟩
  | repeating r body condition =>
    right
    rcases List.mem_append.mp h with hbody | hcondition
    · exact ⟨2, ((Block.outline_below hbody).inside.append_right _).part _ _⟩
    · obtain rfl := List.mem_singleton.mp hcondition
      have hinside := Inside.labeled condition "condition: " (by simp [labels])
      exact ⟨1, (hinside.append_left _).part _ _⟩
  | returning r value =>
    obtain ⟨e, rfl, rfl⟩ : ∃ e, value = some e ∧ .expression e = c := by
      simpa [Statement.parts] using h
    exact .inr ⟨1, (Inside.expression e).part _ _⟩
  | switch r subject arms =>
    right
    rcases List.mem_cons.mp h with rfl | harms
    · exact ⟨1, ((Inside.expression subject).append_right _).part _ _⟩
    · obtain ⟨depth, hinside⟩ := Arm.outlines_inside harms 0
      exact ⟨depth + 1, ((hinside.flatList "cases").append_left _).part _ _⟩
  | throwing r value =>
    obtain rfl := List.mem_singleton.mp h
    exact .inr ⟨1, (Inside.expression value).part _ _⟩

/-- **Parts are shown by their outlines.**  The outline of a part stands below the head of the
outline of the node, or, for the declaration or expression of a statement, is all of it. -/
theorem Node.outline_below {n c : Node} (h : c ∈ n.parts) :
    n.outline = c.outline ∨ ∃ depth, Below depth n.outline c.outline := by
  cases n with
  | declaration d => exact .inr (Declaration.outline_below h)
  | statement s => exact Statement.outline_below h
  | expression e =>
    obtain ⟨e', he, rfl⟩ := List.mem_map.mp h
    exact .inr (Expression.outline_below he)
  | pattern p => simp [Node.parts] at h

/-! ### The outline of a text -/

lemma Root.declaration_below {root : Root} {d : Declaration} (h : d ∈ root.declarations) :
    Below 1 root.outline d.outline := by
  have hinside : Inside 0 (root.declarations.flatMap Declaration.outline) d.outline := by
    obtain ⟨before, after, heq⟩ := List.append_of_mem h
    rw [heq, List.flatMap_append, List.flatMap_cons]
    exact ((Inside.node (.declaration d)).append_right _).append_left _
  exact hinside.sequence _ _

/-- Whatever the outline of a text shows stands there by its own outline, below the head. -/
theorem Root.outline_below {root : Root} {n : Node} (h : root.Shows n) :
    ∃ depth, Below depth root.outline n.outline := by
  induction h with
  | declaration hd => exact ⟨1, Root.declaration_below hd⟩
  | part _ hc ih =>
    obtain ⟨depth, hbelow⟩ := ih
    rcases Node.outline_below hc with heq | ⟨depth', hpart⟩
    · exact ⟨depth, heq ▸ hbelow⟩
    · exact ⟨depth + depth', hbelow.trans hpart⟩

/-- **Lines of an expression.**  In the outline of a text, the lines of an expression stand in order
right below the line that carries its head, each behind as many blanks as that line begins with;
so all of them are deeper than it. -/
theorem Root.exists_expression_lines {root : Root} {e : Expression}
    (h : root.Shows (.expression e)) :
    ∃ carrier body above below, e.outline = head e.tag e.range :: body ∧
      root.outline = above ++ carrier :: body.map (behind (blanks carrier)) ++ below ∧
      (∃ label ∈ labels, carrier = behind (blanks carrier) (label ++ head e.tag e.range)) ∧
      ∀ line ∈ body, 2 ≤ blanks line := by
  obtain ⟨depth, hbelow⟩ := Root.outline_below h
  obtain ⟨label, hlabel, first, body, above, below, houtline, hroot⟩ := hbelow.inside.exists_lines
  obtain ⟨lines, hpart⟩ := e.exists_outline
  obtain ⟨hfirst, hbody⟩ := List.cons.inj (houtline.symm.trans hpart)
  have hblanks : blanks (behind (2 * depth) (label ++ first)) = 2 * depth := by
    rw [blanks_behind, hfirst, blanks_head hlabel, Nat.add_zero]
  refine ⟨behind (2 * depth) (label ++ first), body, above, below, hfirst ▸ houtline, ?_,
    ⟨label, hlabel, ?_⟩, fun line hline => le_blanks_of_mem_indent (hbody ▸ hline)⟩
  · rw [hroot, hblanks]
  · rw [hblanks, hfirst]

end FrontEnd
