/-
Blocks that end at their own brace.

* `Cursor.exists_braces`: tokens from an opening brace to a closing one between which nothing is
  left open.
* `Node.Fenced`: every block of some nodes ends at the brace that closes its first one.
-/
import FrontEnd.Proofs.Brackets.Unmatched
import FrontEnd.Proofs.Cursor.Segment
import FrontEnd.Syntax.Visit

namespace FrontEnd

/-! ### Blocks of a tree -/

/-- The block of a handler. -/
def Handler.body : Handler → Block
  | ⟨_, _, body⟩ => body

/-- The blocks that what follows `else` holds itself. -/
def Alternative.blocks : Alternative → List Block
  | .block body => [body]
  | .choice _ => []

/-- The blocks that a statement holds itself. -/
def Statement.blocks : Statement → List Block
  | .deferred _ body | .forIn _ _ _ _ _ body | .guarding _ _ body | .repeating _ body _
  | .looping _ _ body => [body]
  | .doing _ body handlers => body :: handlers.map Handler.body
  | .choice _ _ body alternative => body :: alternative.elim [] Alternative.blocks
  | .jump .. | .directive .. | .declaration _ | .expression _ | .fallthrough _ | .labeled ..
  | .returning .. | .switch .. | .throwing .. => []

/-- The blocks that a node holds itself. -/
def Node.blocks : Node → List Block
  | .declaration (.function _ _ _ (some body)) => [body]
  | .statement s => s.blocks
  | .declaration _ | .expression _ | .pattern _ => []

/-- A block ranges from an opening brace to the brace that closes it. -/
def Block.Closed (tokens : List Token) (b : Block) : Prop :=
  ∃ before opener inner closer after, tokens = before ++ opener :: (inner ++ closer :: after) ∧
    b.range = ⟨opener.range.start, closer.range.stop⟩ ∧
    opener.kind = .punctuator .leftBrace ∧ closer.kind = .punctuator .rightBrace ∧
    Token.Bracketed inner

/-- Every block of some nodes ends at the brace that closes its first one. -/
def Node.Fenced (tokens : List Token) (nodes : List Node) : Prop :=
  ∀ n ∈ nodes, ∀ b ∈ n.blocks, b.Closed tokens

section

variable {tokens : List Token} (node : Node) (nodes later : List Node)

@[simp] lemma fenced_nil : Node.Fenced tokens [] := by
  simp [Node.Fenced]

@[simp] lemma fenced_append :
    Node.Fenced tokens (nodes ++ later) ↔ Node.Fenced tokens nodes ∧ Node.Fenced tokens later :=
  List.forall_mem_append

@[simp] lemma fenced_flatMap {α : Type} (f : α → List Node) (items : List α) :
    Node.Fenced tokens (items.flatMap f) ↔ ∀ a ∈ items, Node.Fenced tokens (f a) := by
  simp only [Node.Fenced, List.mem_flatMap]
  exact ⟨fun h a ha n hn => h n ⟨a, ha, hn⟩, fun h n ⟨a, ha, hn⟩ => h a ha n hn⟩

@[simp] lemma fenced_visit :
    Node.Fenced tokens (node.visit (fun _ => true) nodes) ↔
      (∀ b ∈ node.blocks, b.Closed tokens) ∧ Node.Fenced tokens nodes := by
  simp [Node.Fenced, Node.visit]

end

/-! ### Nodes without blocks -/

section

variable {tokens : List Token}

mutual

@[simp] lemma Expression.fenced_inside (e : Expression) :
    Node.Fenced tokens (e.inside fun _ => true) := by
  cases e with
  | array r elements => exact Expression.fenced_visitAll elements
  | dictionary r entries => exact Entry.fenced_visitAll entries
  | tuple r elements => exact Argument.fenced_visitAll elements
  | call r base arguments | subscript r base arguments =>
    simp [Expression.inside, Node.blocks, base.fenced_inside, Argument.fenced_visitAll arguments]
  | binary r operator left right | assignment r left right =>
    simp [Expression.inside, Node.blocks, left.fenced_inside, right.fenced_inside]
  | parenthesized r inner | forced r inner | unary r operator inner | attempt r kind inner
  | member r inner name => simp [Expression.inside, Node.blocks, inner.fenced_inside]
  | _ => exact fenced_nil

lemma Expression.fenced_visitAll :
    ∀ elements, Node.Fenced tokens (Expression.visitAll (fun _ => true) elements)
  | [] => fenced_nil
  | e :: rest => by
    simp [Expression.visitAll, Node.blocks, e.fenced_inside, Expression.fenced_visitAll rest]

lemma Argument.fenced_visitAll :
    ∀ arguments, Node.Fenced tokens (Argument.visitAll (fun _ => true) arguments)
  | [] => fenced_nil
  | ⟨_, value⟩ :: rest => by
    simp [Argument.visitAll, Node.blocks, value.fenced_inside, Argument.fenced_visitAll rest]

lemma Entry.fenced_visitAll :
    ∀ entries, Node.Fenced tokens (Entry.visitAll (fun _ => true) entries)
  | [] => fenced_nil
  | ⟨key, value⟩ :: rest => by
    simp [Entry.visitAll, Node.blocks, key.fenced_inside, value.fenced_inside,
      Entry.fenced_visitAll rest]

end

@[simp] lemma Expression.fenced_visit (e : Expression) :
    Node.Fenced tokens (e.visit fun _ => true) := by
  simp [Expression.visit, Node.blocks]

@[simp] lemma Expression.fenced_visitOptional (value : Option Expression) :
    Node.Fenced tokens (Expression.visitOptional (fun _ => true) value) := by
  cases value <;> simp [Expression.visitOptional]

mutual

@[simp] lemma Pattern.fenced_inside (p : Pattern) :
    Node.Fenced tokens (p.inside fun _ => true) := by
  cases p with
  | binding r isMutable inner | optional r inner | annotated r inner type =>
    simp [Pattern.inside, Node.blocks, inner.fenced_inside]
  | enumCase r type name inner =>
    cases inner with
    | none => exact fenced_nil
    | some inner => simp [Pattern.inside, Node.blocks, inner.fenced_inside]
  | tuple r elements => exact Pattern.fenced_visitAll elements
  | expression r value => simp [Pattern.inside]
  | wildcard | identifier => exact fenced_nil

lemma Pattern.fenced_visitAll :
    ∀ elements, Node.Fenced tokens (Pattern.visitAll (fun _ => true) elements)
  | [] => fenced_nil
  | p :: rest => by
    simp [Pattern.visitAll, Node.blocks, p.fenced_inside, Pattern.fenced_visitAll rest]

end

@[simp] lemma Pattern.fenced_visit (p : Pattern) : Node.Fenced tokens (p.visit fun _ => true) := by
  simp [Pattern.visit, Node.blocks]

@[simp] lemma Binding.fenced_visit (b : Binding) :
    Node.Fenced tokens (b.visit fun _ => true) := by
  simp [Binding.visit]

@[simp] lemma Condition.fenced_visit (c : Condition) :
    Node.Fenced tokens (c.visit fun _ => true) := by
  cases c <;> simp [Condition.visit]

@[simp] lemma CaseItem.fenced_visit (item : CaseItem) :
    Node.Fenced tokens (item.visit fun _ => true) := by
  simp [CaseItem.visit]

@[simp] lemma Signature.fenced_visit (s : Signature) :
    Node.Fenced tokens (s.visit fun _ => true) := by
  simp [Signature.visit]

end

/-! ### Tokens from brace to brace -/

namespace Cursor

variable {c d : Cursor}

lemma exists_current?_of_here? {mark : Punctuator} (h : c.here? = some (.punctuator mark)) :
    ∃ t, c.current? = some t ∧ t.kind = .punctuator mark := by
  obtain ⟨kind, hkind, hplain⟩ := Option.map_eq_some_iff.mp h
  obtain ⟨t, ht, rfl⟩ := Option.map_eq_some_iff.mp hkind
  refine ⟨t, ht, ?_⟩
  cases htk : t.kind <;> simp_all [TokenKind.plain]

lemma ahead_of_current? {t : Token} (h : c.current? = some t) : c.ahead = t :: c.remaining := by
  rw [ahead, h, Option.toList_some, List.singleton_append]

lemma position_pos_of_current? {t : Token} (h : c.current? = some t) : 0 < c.position := by
  rcases c with a | ⟨b, t, a⟩ | b <;> simp [current?, position] at h ⊢

/-- Two cursors on an opening and a closing brace, between which nothing is left open. -/
lemma exists_braces (hopener : c.here? = some (.punctuator .leftBrace))
    (hcloser : d.here? = some (.punctuator .rightBrace)) (hlist : d.toList = c.toList)
    (hleft : d.left ≤ c.left) (hunmatched : d.unmatched = c.shift.unmatched) :
    ∃ opener inner closer,
      c.toList = c.behind.reverse ++ opener :: (inner ++ closer :: d.remaining) ∧
        c.startLocation = opener.range.start ∧ d.stopLocation = closer.range.stop ∧
        opener.kind = .punctuator .leftBrace ∧ closer.kind = .punctuator .rightBrace ∧
        Token.Bracketed inner := by
  obtain ⟨opener, hcurrent, hkind⟩ := exists_current?_of_here? hopener
  obtain ⟨closer, hcurrent', hkind'⟩ := exists_current?_of_here? hcloser
  obtain ⟨passed, hpassed⟩ := exists_passed hlist (position_pos_of_current? hcurrent) hleft
  have hahead : passed.reverse ++ closer :: d.remaining = opener :: c.remaining := by
    have htokens := hlist
    rw [toList_eq_append, toList_eq_append c, hpassed, List.reverse_append, List.append_assoc,
      ahead_of_current? hcurrent, ahead_of_current? hcurrent'] at htokens
    exact List.append_cancel_left htokens
  rcases List.append_eq_cons_iff.mp hahead with ⟨-, hsame⟩ | ⟨inner, hinner, hremaining⟩
  · -- one token cannot be both braces
    obtain ⟨rfl, -⟩ := List.cons.inj hsame
    simp [hkind] at hkind'
  have hbehind : d.behind = inner.reverse ++ c.shift.behind := by
    rw [hpassed, behind_shift, hcurrent, ← List.reverse_reverse passed, hinner]
    simp
  rw [unmatched, unmatched, hbehind] at hunmatched
  refine ⟨opener, inner, closer, ?_, startLocation_of_current? hcurrent,
    stopLocation_of_current? hcurrent', hkind, hkind', (Token.bracketed_of_unmatched_eq hunmatched).1⟩
  rw [toList_eq_append, ahead_of_current? hcurrent, hremaining]

end Cursor

end FrontEnd
