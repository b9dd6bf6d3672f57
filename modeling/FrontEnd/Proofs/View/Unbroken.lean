/-
No directive that is kept holds a line break.

Of the tokens of a text only a block comment without its end can hold a line break and be
written on the line of a directive, and it is the last token.  A directive with such a line is
a statement of a block that does not end, and so it is not kept: statements behind the current
token are read only if there are more than one token left.  So what is read looks the same
without line breaks in the texts of directives (`Goal.Reads.view_lines`).
-/
import FrontEnd.Proofs.Keyword
import FrontEnd.Proofs.Nodes.Reading
import FrontEnd.Proofs.Spacing.LineBreak

namespace FrontEnd

/-! ### Trees without directives -/

@[simp] lemma Range.view_lines (r : Range) : r.view .lines = r := rfl

mutual

lemma Expression.view_lines : ∀ e : Expression, e.view .lines = e
  | .identifier .. | .nil .. | .boolean .. | .integer .. | .floating .. | .string ..
  | .selfReference .. | .implicitMember .. | .wildcard .. => rfl
  | .array r elements => by rw [Expression.view, Expression.views_lines elements]; rfl
  | .dictionary r entries => by rw [Expression.view, Entry.views_lines entries]; rfl
  | .parenthesized r inner => by rw [Expression.view, inner.view_lines]; rfl
  | .tuple r elements => by rw [Expression.view, Argument.views_lines elements]; rfl
  | .unary r operator operand => by rw [Expression.view, operand.view_lines]; rfl
  | .binary r operator left right => by
    rw [Expression.view, left.view_lines, right.view_lines]; rfl
  | .assignment r target value => by
    rw [Expression.view, target.view_lines, value.view_lines]; rfl
  | .call r callee arguments => by
    rw [Expression.view, callee.view_lines, Argument.views_lines arguments]; rfl
  | .member r base name => by rw [Expression.view, base.view_lines]; rfl
  | .subscript r base arguments => by
    rw [Expression.view, base.view_lines, Argument.views_lines arguments]; rfl
  | .forced r base => by rw [Expression.view, base.view_lines]; rfl
  | .attempt r kind body => by rw [Expression.view, body.view_lines]; rfl

lemma Expression.views_lines : ∀ elements : List Expression,
    Expression.views .lines elements = elements
  | [] => rfl
  | e :: later => by rw [Expression.views, e.view_lines, Expression.views_lines later]

lemma Argument.views_lines : ∀ inner : List Argument, Argument.views .lines inner = inner
  | [] => rfl
  | ⟨label, value⟩ :: later => by
    rw [Argument.views, value.view_lines, Argument.views_lines later]

lemma Entry.views_lines : ∀ entries : List Entry, Entry.views .lines entries = entries
  | [] => rfl
  | ⟨key, value⟩ :: later => by
    rw [Entry.views, key.view_lines, value.view_lines, Entry.views_lines later]

end

attribute [simp] Expression.view_lines

mutual

lemma Pattern.view_lines : ∀ p : Pattern, p.view .lines = p
  | .wildcard .. | .identifier .. | .enumCase _ _ _ none => rfl
  | .binding r isMutable inner => by rw [Pattern.view, inner.view_lines]; rfl
  | .tuple r elements => by rw [Pattern.view, Pattern.views_lines elements]; rfl
  | .enumCase r type name (some payload) => by rw [Pattern.view, payload.view_lines]; rfl
  | .optional r inner => by rw [Pattern.view, inner.view_lines]; rfl
  | .annotated r inner type => by rw [Pattern.view, inner.view_lines]; rfl
  | .expression r value => by rw [Pattern.view, value.view_lines]; rfl

lemma Pattern.views_lines : ∀ ps : List Pattern, Pattern.views .lines ps = ps
  | [] => rfl
  | p :: later => by rw [Pattern.views, p.view_lines, Pattern.views_lines later]

end

attribute [simp] Pattern.view_lines

@[simp] lemma Condition.view_lines (c : Condition) : c.view .lines = c := by
  cases c <;> simp [Condition.view]

@[simp] lemma CaseItem.view_lines (item : CaseItem) : item.view .lines = item := by
  simp [CaseItem.view]

@[simp] lemma Binding.view_lines (b : Binding) : b.view .lines = b := by
  simp [Binding.view]

@[simp] lemma Signature.view_lines (f : Signature) : f.view .lines = f := by
  have hparameter : Parameter.view .lines = id := by
    funext p
    simp [Parameter.view]
  simp [Signature.view, hparameter]

/-! ### Where line breaks may be written -/

/-- What is written for a token on its line holds no line break. -/
def Token.Unbroken (t : Token) : Prop :=
  t.kind.isLineBreak = false → t.written = match t.kind with
    | .comment _ => []
    | kind => kind.text.toList

/-- No token but the last one of the list may be written with a line break. -/
def Cursor.Unbroken (c : Cursor) : Prop :=
  ∀ t ∈ c.toList.dropLast, t.Unbroken

namespace Cursor

variable {c : Cursor}

@[simp] lemma unbroken_shift : c.shift.Unbroken ↔ c.Unbroken := by
  rw [Unbroken, toList_shift, Unbroken]

@[simp] lemma unbroken_unshift : c.unshift.Unbroken ↔ c.Unbroken := by
  rw [Unbroken, toList_unshift, Unbroken]

@[simp] lemma unbroken_advance (reach : Reach) : (c.advance reach).Unbroken ↔ c.Unbroken := by
  rw [Unbroken, toList_advance, Unbroken]

@[simp] lemma unbroken_resynchronize : c.resynchronize.Unbroken ↔ c.Unbroken := by
  rw [Unbroken, toList_resynchronize, Unbroken]

@[simp] lemma unbroken_toEndOfLine : c.toEndOfLine.Unbroken ↔ c.Unbroken := by
  rw [Unbroken, toList_toEndOfLine, Unbroken]

lemma left_shiftBy (n : Nat) (c : Cursor) : (c.shiftBy n).left = c.left - n := by
  induction n generalizing c with
  | zero => rfl
  | succ n ih =>
    rw [shiftBy, ih, left_shift]
    omega

/-- The rest of a line is written without line breaks, or goes up to the last token. -/
lemma lineText_unbroken (h : c.Unbroken) :
    Text.unbroken c.lineText = c.lineText ∨ c.toEndOfLine.left ≤ 1 := by
  by_cases hall : c.restOfLine = c.remaining
  · right
    rw [toEndOfLine, left_shiftBy, hall]
    rcases c with a | ⟨b, t, a⟩ | b <;> simp [left, remaining]
  · left
    have hmem : ∀ t ∈ c.restOfLine, t.Unbroken ∧ t.kind.isLineBreak = false := by
      intro t ht
      refine ⟨h t ?_, by simpa using List.mem_takeWhile_imp ht⟩
      obtain ⟨later, hlater⟩ : c.restOfLine <+: c.remaining := List.takeWhile_prefix _
      have hne : later ≠ [] := by
        rintro rfl
        exact hall (by simpa using hlater)
      rw [toList, ← hlater, ← List.append_assoc, List.dropLast_append_of_ne_nil hne]
      simp [ht]
    rw [unbroken_lineText, lineText]
    congr 1
    generalize c.restOfLine = line at hmem
    rw [← String.toList_inj, String.toList_ofList]
    induction line with
    | nil => rfl
    | cons t line ih =>
      obtain ⟨⟨ht, hbreak⟩, hmem⟩ := List.forall_mem_cons.mp hmem
      rw [List.flatMap_cons, ih hmem, ht hbreak]
      obtain ⟨kind, span, range⟩ := t
      cases kind <;> simp [String.join_cons]

end Cursor

/-! ### What is kept -/

/-- What is read shows no line breaks in the texts of directives.  A statement and an item may
do so where they end on the last token; statements are not read from there. -/
@[simp] def Goal.Shown : (g : Goal) → State → g.Result → State → Prop
  | block, _, b, _ => Block.view .lines b = b
  | statements _, s, items, _ => Statement.views .lines items = items ∧ 1 < s.cursor.left
  | item, _, kept, s' => Statement.view .lines kept.value = kept.value ∨
      kept.complaint = none ∧ s'.cursor.left ≤ 1
  | statement, _, a, s' => Statement.view .lines a = a ∨ s'.cursor.left ≤ 1
  | elseIf, _, a, _ => Statement.view .lines a = a
  | handlers, _, hs, _ => Handler.views .lines hs = hs
  | switchBody, _, found, _ | arms, _, found, _ => Arm.views .lines found = found
  | declaration _, _, kept, _ => Declaration.view .lines kept.value = kept.value
  | typeBody _, _, found, _ | members _, _, found, _ => Declaration.views .lines found = found
  | _, _, _, _ => True

/-- In a list where no token but the last one may be written with a line break, what is read
shows none. -/
def showing : Contract where
  enter _ _ := True
  value g s a s' := s.cursor.Unbroken → s'.cursor.Unbroken ∧ g.Shown s a s'
  error _ s _ s' := s.cursor.Unbroken → s'.cursor.Unbroken

/-- What the goals that are called promise. -/
abbrev showingOnward : Contract :=
  showing.given fun g s s' => s.cursor.Onward g.givesBack s'.cursor

section

variable (g : Goal) (s : State)

@[simp] lemma showing_enter : showing.enter g s ↔ True := Iff.rfl

@[simp] lemma showing_value (a : g.Result) (s' : State) :
    showing.value g s a s' ↔ (s.cursor.Unbroken → s'.cursor.Unbroken ∧ g.Shown s a s') := Iff.rfl

@[simp] lemma showing_error (e : ParseError) (s' : State) :
    showing.error g s e s' ↔ (s.cursor.Unbroken → s'.cursor.Unbroken) := Iff.rfl

end

namespace Procedure

variable {α : Type}

/-- What a procedure ends in is as wanted, if it starts in a list where no token but the last
one may be written with a line break. -/
def Shows (p : Procedure α) (s : State) (good : α → State → Prop) : Prop :=
  s.cursor.Unbroken → ∀ way, p.Meets showingOnward way s
    (fun _ a s' => s'.cursor.Unbroken ∧ good a s') fun _ _ s' => s'.cursor.Unbroken

lemma Shows.imp {p : Procedure α} {s : State} {good : α → State → Prop} (h : p.Shows s good)
    (hs : s.cursor.Unbroken) {way : List Event} {ok : List Event → α → State → Prop}
    (hok : ∀ way a s', s'.cursor.Unbroken → good a s' → ok way a s') :
    p.Meets showingOnward way s ok fun _ _ s' => s'.cursor.Unbroken :=
  (h hs way).imp (fun way a s' ha => hok way a s' ha.1 ha.2) fun _ _ _ he => he

end Procedure

lemma Instruction.unbroken_perform {c : Cursor} (i : Instruction) (h : c.Unbroken) :
    (i.perform c).2.Unbroken := by
  rwa [Cursor.Unbroken, i.toList_perform]

/-- Whatever a procedure does, it stays in its list. -/
lemma Procedure.shows_true {α : Type} (p : Procedure α) (s : State) : p.Shows s fun _ _ => True := by
  intro hs way
  induction p generalizing way s with
  | done a => exact ⟨hs, trivial⟩
  | fail e => exact hs
  | ask i next ih => exact ih _ _ (i.unbroken_perform hs) _
  | call g next ih =>
    exact ⟨trivial, fun a s' ha => ih _ s' (ha.2 hs).1 _, fun e s' he => ih _ s' (he.2 hs) _⟩
  | note e next ih => exact ih (s.note e) hs _

namespace Grammar

open Procedure

variable {s : State}

/-! ### Statements -/

/-- Behind the last token there is no complaint about a separator. -/
lemma separator_shows (context : Context) :
    (separator context).Shows s fun complaint s' =>
      s.cursor.left ≤ 1 → complaint = none ∧ s'.cursor.left ≤ 1 := by
  intro hs way
  have hleft := Cursor.left_advance_le .sameLine s.cursor
  simp [separator]
  split
  · simp [hs]
    omega
  · simp [hs]
    omega
  · simp [hs]
    omega
  next kind _ _ hkind =>
    have hpos := Cursor.left_pos_of_here? hkind
    simp [hs]
    exact fun _ => ⟨fun _ _ h => absurd h (by omega), fun _ => by omega⟩

/-- The items of a list are the one that was read and those behind it.  An item may be out of
order where no list goes on. -/
lemma itemThen_shows {α : Type} (isLast : State → Prop) {r : Except ParseError (Kept α)}
    {next : Procedure (List α)} {views : List α → List α} {view : α → α}
    (hcons : ∀ a later, view a = a → views later = later → views (a :: later) = a :: later)
    (htried : ∀ kept, r = .ok kept →
      view kept.value = kept.value ∨ kept.complaint = none ∧ isLast s)
    (hnext : ∀ s, next.Shows s fun later _ => views later = later ∧ ¬ isLast s) :
    (itemThen r next).Shows s fun items _ => views items = items := by
  intro hs way
  rcases r with e | ⟨value, _ | e⟩
  · simp [itemThen, recoverThen]
    exact (hnext _).imp (by simpa using hs) fun _ later s' hs' hlater => ⟨hs', hlater.1⟩
  · simp [itemThen]
    refine (hnext s).imp hs fun _ later s' hs' hlater => ⟨hs', hcons _ _ ?_ hlater.1⟩
    exact (htried _ rfl).resolve_right fun h => hlater.2 h.2
  · simp [itemThen, recoverThen]
    refine (hnext _).imp (by simpa using hs) fun _ later s' hs' hlater =>
      ⟨hs', hcons _ _ ?_ hlater.1⟩
    exact (htried _ rfl).resolve_right (by simp)

lemma item_shows : item.Shows s fun kept s' => Goal.item.Shown s kept s' := by
  intro hs way
  simp +contextual [item, Statement.view, hs]
  intro _ a t _ _ ha
  by_cases hview : a.view .lines = a
  · exact (shows_true _ t).imp ‹_› fun _ _ _ ht _ => ⟨ht, .inl hview⟩
  · exact (separator_shows .block).imp ‹_› fun _ _ _ ht hlast =>
      ⟨ht, .inr (hlast (ha.resolve_left hview))⟩

lemma statements_shows (stop : BlockEnd) :
    (statements stop).Shows s fun items s' => (Goal.statements stop).Shown s items s' := by
  intro hs way
  have hleft := Cursor.left_advance_le .anyLine s.cursor
  simp [statements]
  split
  · simpa using hs
  next kind hkind =>
    have hpos := Cursor.left_pos_of_here? hkind
    have hmore : 1 < s.cursor.left := by omega
    have hnext (s : State) : (Procedure.read (Goal.statements stop)).Shows s fun later _ =>
        Statement.views .lines later = later ∧ ¬ s.cursor.left ≤ 1 := by
      intro hs way
      simp +contextual [hs]
    have hitem {t : State} (ht : t.cursor.Unbroken) (r : Except ParseError (Kept Statement))
        (htried : ∀ kept, r = .ok kept → Goal.item.Shown s kept t) (way : List Event) :
        (itemThen r (Procedure.read (Goal.statements stop))).Meets showingOnward way t
          (fun _ items s' => s'.cursor.Unbroken ∧ Statement.views .lines items = items)
          fun _ _ s' => s'.cursor.Unbroken :=
      itemThen_shows (·.cursor.left ≤ 1) (by simp +contextual [Statement.views]) htried hnext ht way
    simp +contextual [hs, Statement.views, hmore]
    intro _ _
    refine ⟨fun kept t _ ht hkept => ?_, fun e t _ ht => ?_⟩
    · exact hitem ht (.ok kept) (fun _ h => by cases h; exact hkept) _
    · exact hitem ht (.error e) (by simp) _

lemma block_shows : block.Shows s fun b _ => b.view .lines = b := by
  intro hs way
  simp +contextual [block, Block.view, hs]

/-- A procedure builds a statement from its range. -/
abbrev ShowsStatement (p : Procedure (Range → Statement)) (s : State) : Prop :=
  p.Shows s fun build _ => ∀ r, (build r).view .lines = build r

lemma choice_shows : ShowsStatement choice s := by
  intro hs way
  simp +contextual [choice, blockNext, alternative, Statement.view, Alternative.view, hs]

lemma handlers_shows : handlers.Shows s fun hs _ => Handler.views .lines hs = hs := by
  intro hs way
  simp [handlers, Handler.views, hs]
  refine fun _ => (shows_true _ _).imp (by simpa using hs) fun way p t ht _ => ?_
  simp +contextual [guardingCondition, blockNext, ht]

lemma arms_shows : arms.Shows s fun found _ => Arm.views .lines found = found := by
  intro hs way
  simp [arms]
  split
  · simpa using hs
  · simp +contextual [Arm.views, hs]

lemma unlabeled_shows (word : Option String) : ShowsStatement (unlabeled word) s := by
  intro hs way
  cases StatementWord.of word with
  | breaking | continuing | returning =>
    simp [unlabeled, Statement.view]
    exact (shows_true _ _).imp hs fun _ _ _ ht _ => ht
  | choice => exact choice_shows hs _
  | forIn =>
    simp [unlabeled, Grammar.forIn]
    refine (shows_true _ _).imp (by simpa using hs) fun way p t ht _ => ?_
    simp +contextual [guardingCondition, blockNext, Statement.view, ht]
  | fallthrough | throwing | deferring | doing | guarding | looping | repeating | switch =>
    simp +contextual [unlabeled, Grammar.doing, Grammar.guarding, Grammar.looping,
      Grammar.repeating, Grammar.switch, blockHere, blockNext, Statement.view, hs]
  | other h => simp +contextual [unlabeled_of_other h, Statement.view, hs]

lemma sourceLocation_shows : sourceLocation.Shows s fun d _ => d.view .lines = d := by
  intro hs way
  simp [sourceLocation, Directive.view, hs]
  refine fun _ _ => (shows_true _ _).imp (by simpa using hs) fun _ file t ht _ => ?_
  simp [ht]
  exact fun _ => (shows_true _ _).imp (by simpa using ht) fun _ line u hu _ => by simp [hu]

/-- A directive is kept without line breaks, or its line goes up to the last token. -/
lemma directiveNamed_shows (name : String) :
    (directiveNamed name).Shows s fun d s' => d.view .lines = d ∨ s'.cursor.left ≤ 1 := by
  intro hs way
  cases DirectiveWord.of name with
  | ifTrue | elseIfTrue =>
    have hline := Cursor.lineText_unbroken hs
    simpa [directiveNamed, Directive.view, View.lines, hs] using hline
  | sourceLocation => exact sourceLocation_shows.imp hs fun _ d t ht hd => ⟨ht, .inl hd⟩
  | otherwise | endIf => simp [directiveNamed, Directive.view, hs]
  | other h => simp [directiveNamed_of_other h, hs]

lemma directive_shows :
    directive.Shows s fun d s' => d.view .lines = d ∨ s'.cursor.left ≤ 1 := by
  intro hs way
  simp [directive]
  split
  · exact directiveNamed_shows _ (by simpa using hs) _
  · simpa using hs

lemma statement_shows : statement.Shows s fun a s' => Goal.statement.Shown s a s' := by
  intro hs way
  simp [statement]
  refine ⟨fun _ => ?_, fun _ => ?_⟩
  · exact directive_shows.imp hs fun way d t ht hd => by simpa [Statement.view, ht] using hd
  · refine (shows_true _ s).imp hs fun way label t ht _ => ?_
    split
    · simp +contextual [Statement.view, ht]
    · simp
      exact (unlabeled_shows _).imp ht fun _ build u hu hbuild => ⟨hu, .inl (hbuild _)⟩

/-! ### Declarations -/

/-- A procedure builds a declaration from its range. -/
abbrev ShowsDeclaration (p : Procedure (Range → Declaration)) (s : State) : Prop :=
  p.Shows s fun build _ => ∀ r, (build r).view .lines = build r

lemma function_shows (header : Header) : ShowsDeclaration (function header) s := by
  intro hs way
  simp [function]
  refine (shows_true _ _).imp hs fun way f t ht _ => ?_
  simp +contextual [Declaration.view, ht]

lemma typeDeclaration_shows (header : Header) (family : TypeFamily) :
    ShowsDeclaration (typeDeclaration header family) s := by
  intro hs way
  simp [typeDeclaration]
  refine (shows_true _ _).imp (by simpa using hs) fun way name t ht _ => ?_
  refine (shows_true _ _).imp ht fun way inherits u hu _ => ?_
  simp +contextual [Declaration.view, hu]

lemma members_shows (context : Context) :
    (members context).Shows s fun found _ => Declaration.views .lines found = found := by
  intro hs way
  simp [members]
  split
  · simpa using hs
  · have hnext (s : State) : (Procedure.read (Goal.members context)).Shows s fun later _ =>
        Declaration.views .lines later = later ∧ ¬ False := by
      intro hs way
      simp +contextual [hs]
    have hitem {t : State} (ht : t.cursor.Unbroken) (r : Except ParseError (Kept Declaration))
        (htried : ∀ kept, r = .ok kept → kept.value.view .lines = kept.value) (way : List Event) :
        (itemThen r (Procedure.read (Goal.members context))).Meets showingOnward way t
          (fun _ items s' => s'.cursor.Unbroken ∧ Declaration.views .lines items = items)
          fun _ _ s' => s'.cursor.Unbroken :=
      itemThen_shows (fun _ => False) (by simp +contextual [Declaration.views])
        (fun kept h => .inl (htried kept h)) hnext ht way
    simp +contextual [hs, recoverThen, Declaration.views]
    intro _ _ _
    refine ⟨fun kept t _ ht hkept => ?_, fun e t _ ht => ?_⟩
    · exact hitem ht (.ok kept) (fun _ h => by cases h; exact hkept) _
    · exact hitem ht (.error e) (by simp) _

lemma declarationNamed_shows (header : Header) (word : String) :
    ShowsDeclaration (declarationNamed header word) s := by
  intro hs way
  cases DeclarationWord.of word with
  | function => exact function_shows header hs way
  | structType | classType | enumType | protocol | extension =>
    exact typeDeclaration_shows header _ hs way
  | letBinding | varBinding | typeAlias | enumCases =>
    simp +contextual [declarationNamed, Grammar.typeAlias, Declaration.view, hs]
  | other h => simp [declarationNamed_of_other header h, hs]

lemma importing_shows (context : Context) (start : Location) (header : Header) :
    (importing context start header).Shows s fun kept _ => kept.value.view .lines = kept.value := by
  intro hs way
  simp [importing]
  refine (shows_true _ _).imp (by simpa using hs) fun way kind t ht _ => ?_
  simp +contextual [ht]
  intro _ _ names u hu _
  exact (shows_true _ _).imp ‹_› fun _ _ _ hv _ => by simp [Declaration.view, hv]

lemma declaration_shows (context : Context) :
    (declaration context).Shows s fun kept _ => kept.value.view .lines = kept.value := by
  intro hs way
  simp +contextual [declaration, hs]
  intro attributes t _ ht modifiers u _ hu
  split
  · simp [declarationFrom]
    refine ⟨fun _ => importing_shows context _ _ hu _, fun _ => ?_⟩
    refine (declarationNamed_shows _ _).imp hu fun way build v hv hbuild => ?_
    exact (shows_true _ _).imp hv fun _ _ _ hw _ => ⟨hw, hbuild _⟩
  · simpa using hu

end Grammar

/-! ### Readings -/

open Grammar Procedure in
/-- What every goal reads shows no line breaks where none may be written. -/
lemma Goal.procedure_shows (g : Goal) (s : State) : g.procedure.Shows s fun a s' => g.Shown s a s' := by
  cases g with
  | block => exact block_shows
  | statements stop => exact statements_shows stop
  | item => exact item_shows
  | statement => exact statement_shows
  | elseIf =>
    intro hs way
    simp [procedure, Grammar.elseIf]
    exact choice_shows.imp hs fun _ _ _ ht hbuild => ⟨ht, hbuild _⟩
  | handlers => exact handlers_shows
  | switchBody =>
    intro hs way
    simp +contextual [procedure, Grammar.switchBody, hs]
  | arms => exact arms_shows
  | declaration context => exact declaration_shows context
  | typeBody context =>
    intro hs way
    simp +contextual [procedure, Grammar.typeBody, hs]
  | members context => exact members_shows context
  | _ => exact shows_true _ _

/-- In a list where no token but the last one may be written with a line break, what is read
shows none. -/
theorem Goal.Reads.shown {room : Nat} {g : Goal} {s s' : State} {a : g.Result}
    (h : g.Reads room s (.ok a) s') (hs : s.cursor.Unbroken) : g.Shown s a s' := by
  obtain ⟨bound, hr⟩ := h
  have hkept : Contract.Family.Kept (fun g s s' => s.cursor.Onward g.givesBack s'.cursor)
      fun _ _ => showing := by
    refine ⟨fun below room inside g s hroom _ => ?_, fun _ _ _ _ _ _ => id⟩
    by_cases hs : s.cursor.Unbroken
    · exact (g.procedure_shows s hs []).imp (fun _ _ _ ha _ _ _ => ha) fun _ _ _ he _ _ _ => he
    · exact Procedure.meets_of_forall (fun _ _ => trivial) _ _ _
        (fun _ _ _ _ _ h => absurd h hs) fun _ _ _ _ _ h => absurd h hs
  exact ((hkept.finished known_onward bound room g s trivial).1 a s' hr hs).2

open TopLevel in
/-- In a list where no token but the last one may be written with a line break, the
declarations show none. -/
theorem Parser.readTokens_view_lines (p : Parser) {tokens : List Token}
    (h : ∀ t ∈ tokens.dropLast, t.Unbroken) :
    (p.readTokens tokens).root.declarations.map (·.view .lines) =
      (p.readTokens tokens).root.declarations := by
  obtain ⟨found, s, hrun, -, heq⟩ := p.exists_steps tokens
  have hfound : ∀ q, Relation.ReflTransGen (Step p.maxDepth)
      ([], ⟨(Cursor.start tokens).shift, []⟩) q →
      q.2.cursor.toList = tokens ∧ ∀ d ∈ q.1, d.view .lines = d := by
    intro q hq
    induction hq with
    | refl => exact ⟨by simp, fun d hd => nomatch hd⟩
    | @tail q q' _ hstep ih =>
      refine ⟨hstep.left_lt.1.trans ih.1, ?_⟩
      cases hstep with
      | @declaration found s t r hcurrent hstarts hreads =>
        have hs : s.cursor.Unbroken := by rwa [Cursor.Unbroken, ih.1]
        rcases r with e | ⟨d, _ | e⟩
        · exact ih.2
        · exact List.forall_mem_cons.mpr ⟨hreads.shown hs, ih.2⟩
        · exact List.forall_mem_cons.mpr ⟨hreads.shown hs, ih.2⟩
      | pass hcurrent hstarts => exact ih.2
  rw [heq]
  refine List.map_congr_left (g := id) (fun d hd => ?_) |>.trans (List.map_id _)
  exact (hfound _ hrun).2 d (List.mem_reverse.mp hd)

end FrontEnd
