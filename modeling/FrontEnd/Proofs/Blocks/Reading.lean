/-
Blocks of a text that is read without an error.

Behind an error in a block reading goes on at a boundary, and there a brace of what the error was
in may be taken for the one of the block.  Without an error each block ends at its own brace.

* `Goal.Reads.closed`: a block that is read without an error.
* `Parser.readText_fenced`: every block of a text without errors.
-/
import FrontEnd.Proofs.Blocks.Closed
import FrontEnd.Proofs.Brackets.Reading
import FrontEnd.Proofs.Contract.Beside
import FrontEnd.Proofs.Keyword
import FrontEnd.Proofs.Placement.Found

namespace FrontEnd

/-- What is read has its blocks closed. -/
@[simp] def Goal.Encloses (tokens : List Token) : (g : Goal) → g.Result → Prop
  | block, b => b.Closed tokens ∧ Node.Fenced tokens (b.visit fun _ => true)
  | statements _, items => Node.Fenced tokens (Statement.visitAll (fun _ => true) items)
  | item, kept => Node.Fenced tokens (kept.value.visit fun _ => true)
  | statement, a | elseIf, a => Node.Fenced tokens (a.visit fun _ => true)
  | handlers, found => (∀ handler ∈ found, handler.body.Closed tokens) ∧
      Node.Fenced tokens (Handler.visitAll (fun _ => true) found)
  | switchBody, found | arms, found => Node.Fenced tokens (Arm.visitAll (fun _ => true) found)
  | declaration _, kept => Node.Fenced tokens (kept.value.visit fun _ => true)
  | typeBody _, found | members _, found =>
    Node.Fenced tokens (Declaration.visitAll (fun _ => true) found)
  | _, _ => True

/-- The blocks of what is read in given tokens are closed. -/
def enclosing (tokens : List Token) : Contract where
  enter _ _ := True
  value g _ a _ := g.Encloses tokens a
  error _ _ _ _ := True

/-- What the goals promise that are called where their brackets match. -/
abbrev enclosed (tokens : List Token) : Contract :=
  ((matching tokens).beside (enclosing tokens)).given
    fun g s s' => s.cursor.Onward g.givesBack s'.cursor

section

variable (tokens : List Token) (g : Goal) (s : State)

@[simp] lemma enclosing_enter : (enclosing tokens).enter g s ↔ True := Iff.rfl

@[simp] lemma enclosing_value (a : g.Result) (s' : State) :
    (enclosing tokens).value g s a s' ↔ g.Encloses tokens a := Iff.rfl

end

section

variable {tokens : List Token}

lemma fenced_statementVisit {a : Statement} : Node.Fenced tokens (a.visit fun _ => true) ↔
    (∀ b ∈ a.blocks, b.Closed tokens) ∧ Node.Fenced tokens (a.inside fun _ => true) :=
  fenced_visit _ _

lemma fenced_statement {a : Statement} (hblocks : ∀ b ∈ a.blocks, b.Closed tokens)
    (hinside : Node.Fenced tokens (a.inside fun _ => true)) :
    Node.Fenced tokens (a.visit fun _ => true) :=
  fenced_statementVisit.mpr ⟨hblocks, hinside⟩

lemma fenced_declarationVisit {d : Declaration} : Node.Fenced tokens (d.visit fun _ => true) ↔
    (∀ b ∈ (Node.declaration d).blocks, b.Closed tokens) ∧
      Node.Fenced tokens (d.inside fun _ => true) :=
  fenced_visit _ _

end

namespace Procedure

variable {α : Type} {tokens : List Token}

/-- What a procedure ends in is as wanted, if the blocks are closed of what it reads. -/
def Encloses (tokens : List Token) (p : Procedure α) (good : α → Prop) : Prop :=
  ∀ s, p.Yields (enclosing tokens) s fun a _ => good a

lemma Encloses.imp {p : Procedure α} {good : α → Prop} (h : p.Encloses tokens good) {s : State}
    {ok : α → State → Prop} (hok : ∀ a s, good a → ok a s) : p.Yields (enclosing tokens) s ok :=
  (h s).imp hok

lemma encloses_true (p : Procedure α) : p.Encloses tokens fun _ => True :=
  fun _ => yields_true fun _ _ => trivial

end Procedure

namespace Grammar

open Procedure

variable {tokens : List Token}

/-! ### Blocks -/

/-- A block ends at the brace that closes its first one. -/
lemma block_encloses {s : State} (hhere : s.cursor.here? = some (.punctuator .leftBrace)) :
    block.Yields (enclosed tokens) s fun b _ => Goal.block.Encloses tokens b := by
  simp only [block, yields_ranged, yields_bind, yields_read, yields_pure]
  refine ⟨trivial, fun inner t hinner => ?_⟩
  obtain ⟨hon, ⟨hlist, -⟩, ⟨hlist', hunmatched, hstops⟩, hfenced⟩ := hinner
  obtain ⟨opener, between, closer, htokens, hstart, hstop, hopener, hcloser, hbracketed⟩ :=
    Cursor.exists_braces hhere (hstops rfl) (hlist'.trans hlist.symm) hon.left_le hunmatched
  refine ⟨⟨_, opener, between, closer, _, hlist ▸ htokens, ?_, hopener, hcloser, hbracketed⟩,
    hfenced⟩
  rw [Block.range, hstart, hstop]

lemma item_encloses : item.Encloses tokens (Goal.item.Encloses tokens) := by
  intro s
  simp [item]
  refine ⟨fun _ kept t hkept => ?_, fun _ a t ha => (encloses_true _).imp fun _ _ _ => ha⟩
  exact fenced_statement (by simp [Statement.blocks]) hkept

lemma statements_encloses (stop : BlockEnd) :
    (statements stop).Encloses tokens ((Goal.statements stop).Encloses tokens) := by
  intro s
  simp [statements]
  split
  · simp
  · simp [Statement.visitAll]
    refine fun _ _ => ⟨fun kept t hkept => itemThen_yields _ _ fun value hvalue => ?_,
      fun e t => itemThen_yields _ _ fun value hvalue => by cases hvalue⟩
    obtain rfl := Except.ok.inj hvalue
    simp
    exact fun later _ hlater => (fenced_append _ _).mpr ⟨hkept, hlater⟩

/-! ### Statements -/

/-- A procedure that builds a statement from its range. -/
abbrev EnclosesStatement (tokens : List Token) (p : Procedure (Range → Statement)) : Prop :=
  p.Encloses tokens fun build => ∀ r, Node.Fenced tokens ((build r).visit fun _ => true)

lemma alternative_encloses :
    alternative.Encloses tokens fun other => ∀ a, other = some a →
      (∀ b ∈ a.blocks, b.Closed tokens) ∧ Node.Fenced tokens (a.visit fun _ => true) := by
  intro s
  simp [alternative]
  refine fun _ => ⟨fun _ a t ha => ?_, fun _ _ b t hb hinside => ?_⟩
  · exact ⟨by simp [Alternative.blocks], ha⟩
  · exact ⟨by simpa [Alternative.blocks] using hb, hinside⟩

lemma choice_encloses : EnclosesStatement tokens choice := by
  intro s
  simp [choice, blockNext]
  refine fun conditions t _ body u hbody hinside => alternative_encloses.imp fun other v h r => ?_
  cases other with
  | none => exact fenced_statement (by simpa [Statement.blocks]) (by simpa [Statement.inside])
  | some other =>
    obtain ⟨hother, hinside'⟩ := h other rfl
    refine fenced_statement ?_ (by simpa [Statement.inside, hinside] using hinside')
    exact List.forall_mem_cons.mpr ⟨hbody, hother⟩

lemma handlers_encloses : handlers.Encloses tokens (Goal.handlers.Encloses tokens) := by
  intro s
  simp [handlers, Handler.visitAll]
  refine fun _ => (encloses_true _).imp fun pattern t _ => (encloses_true _).imp fun value u _ => ?_
  cases pattern <;> simp +contextual [blockNext, Handler.visitAll, Handler.body]

lemma arms_encloses : arms.Encloses tokens (Goal.arms.Encloses tokens) := by
  intro s
  simp [arms]
  split
  · simp
  · simp +contextual [Arm.visitAll]

lemma unlabeled_encloses (word : Option String) : EnclosesStatement tokens (unlabeled word) := by
  intro s
  cases StatementWord.of word with
  | breaking | continuing =>
    simp [unlabeled, fenced_statementVisit, Statement.blocks, Statement.inside]
    exact encloses_true _ _
  | returning =>
    simp [unlabeled]
    refine (encloses_true _).imp fun value t _ => ?_
    cases value <;> simp [fenced_statementVisit, Statement.blocks, Statement.inside]
  | choice => exact choice_encloses _
  | forIn =>
    simp [unlabeled, Grammar.forIn]
    refine (encloses_true _).imp fun p t _ => ?_
    simp +contextual [guardingCondition, blockNext, fenced_statementVisit, Statement.blocks, Statement.inside]
  | fallthrough | throwing | deferring | doing | guarding | looping | repeating | switch =>
    simp +contextual [unlabeled, Grammar.doing, Grammar.guarding, Grammar.looping,
      Grammar.repeating, Grammar.switch, blockHere, blockNext, fenced_statementVisit,
      Statement.blocks, Statement.inside]
  | other h =>
    simp +contextual [unlabeled_of_other h, fenced_statementVisit, Statement.blocks,
      Statement.inside]

lemma statement_encloses : statement.Encloses tokens (Goal.statement.Encloses tokens) := by
  intro s
  simp [statement]
  refine ⟨fun _ => (encloses_true _).imp ?_, fun _ => (encloses_true _).imp fun label t _ => ?_⟩
  · simp [fenced_statementVisit, Statement.blocks, Statement.inside]
  split
  · simp
    exact fun a _ ha => fenced_statement (by simp [Statement.blocks]) ha
  · simp
    exact (unlabeled_encloses _).imp fun _ _ hbuild => hbuild _

/-! ### Declarations -/

/-- A procedure that builds a declaration from its range. -/
abbrev EnclosesDeclaration (tokens : List Token) (p : Procedure (Range → Declaration)) : Prop :=
  p.Encloses tokens fun build => ∀ r, Node.Fenced tokens ((build r).visit fun _ => true)

lemma function_encloses (header : Header) : EnclosesDeclaration tokens (function header) := by
  intro s
  simp [function]
  refine (encloses_true _).imp fun signature t _ => ?_
  simp +contextual [fenced_declarationVisit, Node.blocks, Declaration.inside]

lemma typeDeclaration_encloses (header : Header) (family : TypeFamily) :
    EnclosesDeclaration tokens (typeDeclaration header family) := by
  intro s
  simp [typeDeclaration]
  refine (encloses_true _).imp fun name t _ => (encloses_true _).imp fun inherits u _ => ?_
  simp [fenced_declarationVisit, Node.blocks, Declaration.inside]

lemma members_encloses (context : Context) :
    (members context).Encloses tokens ((Goal.members context).Encloses tokens) := by
  intro s
  simp [members]
  split
  · simp
  · simp [Declaration.visitAll, recoverThen]
    refine fun _ _ _ => ⟨fun kept t hkept => itemThen_yields _ _ fun value hvalue => ?_,
      fun e t => itemThen_yields _ _ fun value hvalue => by cases hvalue⟩
    obtain rfl := Except.ok.inj hvalue
    simp
    exact fun later _ hlater => (fenced_append _ _).mpr ⟨hkept, hlater⟩

lemma declarationNamed_encloses (header : Header) (word : String) :
    EnclosesDeclaration tokens (declarationNamed header word) := by
  intro s
  cases DeclarationWord.of word with
  | function => exact function_encloses header _
  | structType | classType | enumType | protocol | extension =>
    exact typeDeclaration_encloses header _ _
  | letBinding | varBinding | typeAlias | enumCases =>
    simp [declarationNamed, Grammar.typeAlias, fenced_declarationVisit, Node.blocks,
      Declaration.inside]
  | other h => simp [declarationNamed_of_other header h]

lemma importing_encloses (context : Context) (start : Location) (header : Header) :
    (importing context start header).Encloses tokens ((Goal.declaration context).Encloses tokens) := by
  intro s
  simp [importing]
  refine (encloses_true _).imp fun kind t _ name _ names u => (encloses_true _).imp ?_
  simp [fenced_declarationVisit, Node.blocks, Declaration.inside]

lemma declaration_encloses (context : Context) :
    (declaration context).Encloses tokens ((Goal.declaration context).Encloses tokens) := by
  intro s
  simp [declaration]
  intro attributes t modifiers u
  split
  · simp [declarationFrom]
    refine ⟨fun _ => importing_encloses context _ _ _, fun _ => ?_⟩
    refine (declarationNamed_encloses _ _).imp fun build v hbuild => ?_
    exact (encloses_true _).imp fun _ _ _ => hbuild _
  · simp

end Grammar

/-! ### Readings -/

open Grammar Procedure in
/-- What a goal reads where its brackets match has its blocks closed. -/
lemma Goal.procedure_encloses {tokens : List Token} {g : Goal} {s : State}
    (henter : (matching tokens).enter g s) :
    g.procedure.Yields (enclosed tokens) s ((enclosing tokens).value g s) := by
  have weaken {p : Procedure g.Result} (h : p.Encloses tokens (g.Encloses tokens)) :
      p.Yields (enclosed tokens) s fun a _ => g.Encloses tokens a :=
    (h s).weaken (fun _ _ _ => trivial) fun _ _ _ _ hvalue => hvalue.2.2.2
  cases g with
  | block => exact block_encloses henter.2
  | statements stop => exact weaken (statements_encloses stop)
  | item => exact weaken item_encloses
  | statement => exact weaken statement_encloses
  | elseIf =>
    refine weaken fun s => ?_
    simp only [procedure, Grammar.elseIf, yields_ranged]
    exact choice_encloses.imp fun _ _ hbuild => hbuild _
  | handlers => exact weaken handlers_encloses
  | switchBody => exact weaken fun s => by simp [procedure, Grammar.switchBody]
  | arms => exact weaken arms_encloses
  | declaration context => exact weaken (declaration_encloses context)
  | typeBody context => exact weaken fun s => by simp [procedure, Grammar.typeBody]
  | members context => exact weaken (members_encloses context)
  | _ => exact weaken (encloses_true _)

/-- **Own braces.**  In a text without `#`, a block that is read without an error ranges from its
opening brace to the brace that closes it, and so do all blocks inside of it. -/
theorem Goal.Reads.closed {room : Nat} {s s' : State} {b : Block}
    (h : Goal.block.Reads room s (.ok b) s')
    (hhere : s.cursor.here? = some (.punctuator .leftBrace))
    (hhash : ∀ t ∈ s.cursor.toList, t.kind ≠ .punctuator .hash) (hquiet : s'.noted = s.noted) :
    b.Closed s.cursor.toList ∧ Node.Fenced s.cursor.toList (b.visit fun _ => true) := by
  refine h.quiet_beside (K := enclosing s.cursor.toList) known_onward
    (fun g s henter => Goal.procedure_yields hhash henter)
    (fun g s henter => g.procedure_encloses henter) ⟨rfl, hhere⟩ hquiet

/-- In a text without `#` that is read without an error, every block ranges from its opening brace
to the brace that closes it. -/
theorem Parser.readText_fenced (p : Parser) (text : String)
    (hhash : ∀ t ∈ Token.ofText text, t.kind ≠ .punctuator .hash)
    (herrors : (p.readText text).errors = []) :
    Node.Fenced (Token.ofText text) ((p.readText text).root.visit fun _ => true) := by
  refine (fenced_flatMap _ _).mpr fun d hd => ?_
  obtain ⟨s, t, hread⟩ := p.exists_readFrom herrors hd
  exact hread.reads.quiet_beside (K := enclosing (Token.ofText text)) Goal.known_onward
    (fun g s henter => Goal.procedure_yields hhash henter)
    (fun g s henter => g.procedure_encloses henter) ⟨hread.toList_eq, trivial⟩ hread.quiet

end FrontEnd
