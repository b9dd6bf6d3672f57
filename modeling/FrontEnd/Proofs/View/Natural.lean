/-
Procedures do not look at places.

A procedure hands places and texts of directives on, and never asks what they are.  So if
they are answered as a view shows them, what comes of the procedure is what the view shows of
what came of it before.  `Procedure.Natural` says so of two procedures, the second of which
gets its answers through the view; every procedure of the grammar is natural in this sense.
-/
import FrontEnd.Grammar.Expression
import FrontEnd.Proofs.Contract.Basic
import FrontEnd.Proofs.View.Syntax

namespace FrontEnd

variable (v : View)

/-- An operation through a view. -/
def Operation.view (op : Operation) : Operation :=
  ⟨op.operator, op.operand.view v, v.place op.stop⟩

/-- A suffix through a view. -/
def Suffix.view : Suffix → Suffix
  | .call arguments => .call (Argument.views v arguments)
  | .subscript arguments => .subscript (Argument.views v arguments)
  | .member name => .member name
  | .forced => .forced

/-- A suffix and its end through a view. -/
def PlacedSuffix.view (s : PlacedSuffix) : PlacedSuffix :=
  ⟨s.suffix.view v, v.place s.stop⟩

/-- An error through a view: its cause, and where it starts. -/
def ParseError.view (e : ParseError) : ParseError :=
  ⟨e.kind, default, ⟨v.place e.range.start, .origin⟩⟩

@[simp] lemma ParseError.kind_view (e : ParseError) : (e.view v).kind = e.kind := rfl

/-- What was read, and an error behind it, through a view. -/
def Kept.view {α : Type} (show? : α → α) (kept : Kept α) : Kept α :=
  ⟨show? kept.value, kept.complaint.map (·.view v)⟩

/-- What comes of a goal, through a view. -/
@[simp] def Goal.view (v : View) : (g : Goal) → g.Result → g.Result
  | expression _, e | operand, e => Expression.view v e
  | operations _, ops => ops.map (Operation.view v)
  | suffixes, glued => glued.map (PlacedSuffix.view v)
  | arguments _, inner => Argument.views v inner
  | elements, later => Expression.views v later
  | entries, (value, later) => (value.view v, Entry.views v later)
  | pattern _, p => Pattern.view v p
  | patterns _, ps => Pattern.views v ps
  | patternMarks, stops => stops.map v.place
  | block, b => Block.view v b
  | statements _, items => Statement.views v items
  | item, kept => Kept.view v (Statement.view v) kept
  | statement, a | elseIf, a => Statement.view v a
  | conditions, cs => cs.map (Condition.view v)
  | handlers, hs => Handler.views v hs
  | switchBody, found | arms, found => Arm.views v found
  | caseItems, items => items.map (CaseItem.view v)
  | declaration _, kept => Kept.view v (Declaration.view v) kept
  | bindings, items => items.map (Binding.view v)
  | parameters, ps => ps.map (Parameter.view v)
  | typeBody _, found | members _, found => Declaration.views v found
  | type, a => a
  | types, a => a
  | typePath, a => a
  | typeMarks, a => a
  | attributes, a => a
  | modifiers, a => a
  | submodules, a => a
  | caseNames, a => a

/-- How a goal ends, through a view. -/
def Goal.viewEnd (g : Goal) : Except ParseError g.Result → Except ParseError g.Result
  | .ok a => .ok (g.view v a)
  | .error e => .error (e.view v)

/-- An answer through a view. -/
@[simp] def Instruction.view (v : View) : (i : Instruction) → i.Answer → i.Answer
  | startLocation, l | stopLocation, l => v.place l
  | errorHere _, e => e.view v
  | takeLine, text => v.text text
  | here, a | glued _, a | following _, a => a
  | binaryAhead, a => a
  | startsDeclaration, a | stepBack, a => a
  | shift, a | advance _, a | resynchronize, a => a

namespace Procedure

variable {α β : Type} {v : View}

/-- The second procedure does with answers through a view what the first one does with the
answers themselves, and their values correspond. -/
inductive Natural (v : View) (ok : α → β → Prop) : Procedure α → Procedure β → Prop where
  | done {a : α} {b : β} (h : ok a b) : Natural v ok (done a) (done b)
  | fail {e e' : ParseError} (h : e' = e.view v) : Natural v ok (fail e) (fail e')
  | ask {i : Instruction} {next : i.Answer → Procedure α} {next' : i.Answer → Procedure β}
      (h : ∀ a, Natural v ok (next a) (next' (i.view v a))) :
      Natural v ok (ask i next) (ask i next')
  | call {g : Goal} {next : Except ParseError g.Result → Procedure α}
      {next' : Except ParseError g.Result → Procedure β}
      (h : ∀ r, Natural v ok (next r) (next' (g.viewEnd v r))) :
      Natural v ok (call g next) (call g next')
  | note {e e' : ParseError} {next : Procedure α} {next' : Procedure β} (he : e' = e.view v)
      (h : Natural v ok next next') : Natural v ok (note e next) (note e' next')

section

variable {α' β' : Type} {ok : α → β → Prop} {ok' : α' → β' → Prop}

/-- Two procedures in a row. -/
lemma Natural.bind {p : Procedure α} {q : Procedure β} {f : α → Procedure α'}
    {f' : β → Procedure β'} (h : Natural v ok p q)
    (hf : ∀ a b, ok a b → Natural v ok' (f a) (f' b)) : Natural v ok' (p >>= f) (q >>= f') := by
  induction h with
  | done h => exact hf _ _ h
  | fail h => exact .fail h
  | ask h ih => exact .ask ih
  | call h ih => exact .call ih
  | note he h ih => exact .note he ih

/-! ### The words of the grammar -/

@[simp] lemma natural_done {a : α} {b : β} : Natural v ok (done a) (done b) ↔ ok a b :=
  ⟨fun h => by cases h; assumption, .done⟩

@[simp] lemma natural_pure {a : α} {b : β} :
    Natural v ok (pure a : Procedure α) (pure b) ↔ ok a b := natural_done

@[simp] lemma natural_fail {e e' : ParseError} :
    Natural v ok (fail e) (fail e') ↔ e' = e.view v :=
  ⟨fun h => by cases h; assumption, .fail⟩

lemma natural_ask {i : Instruction} {next : i.Answer → Procedure α}
    {next' : i.Answer → Procedure β} :
    Natural v ok (ask i next) (ask i next') ↔ ∀ a, Natural v ok (next a) (next' (i.view v a)) :=
  ⟨fun h => by cases h; assumption, .ask⟩

lemma natural_call {g : Goal} {next : Except ParseError g.Result → Procedure α}
    {next' : Except ParseError g.Result → Procedure β} :
    Natural v ok (call g next) (call g next') ↔
      ∀ r, Natural v ok (next r) (next' (g.viewEnd v r)) :=
  ⟨fun h => by cases h; assumption, .call⟩

lemma natural_note {e e' : ParseError} {next : Procedure α} {next' : Procedure β} :
    Natural v ok (note e next) (note e' next') ↔ e' = e.view v ∧ Natural v ok next next' :=
  ⟨fun h => by cases h; exact ⟨by assumption, by assumption⟩, fun h => .note h.1 h.2⟩

@[simp] lemma natural_ite {c : Prop} [Decidable c] {p q : Procedure α} {p' q' : Procedure β} :
    Natural v ok (if c then p else q) (if c then p' else q') ↔
      (c → Natural v ok p p') ∧ (¬ c → Natural v ok q q') := by
  by_cases hc : c <;> simp [hc]

@[simp] lemma natural_raise {kind : ErrorKind} :
    Natural v ok (raise kind : Procedure α) (raise kind : Procedure β) :=
  .ask fun _ => .fail rfl

/-! ### Questions -/

@[simp] lemma natural_here {f : Option TokenKind → Procedure α}
    {f' : Option TokenKind → Procedure β} :
    Natural v ok (here >>= f) (here >>= f') ↔ ∀ a, Natural v ok (f a) (f' a) := natural_ask

@[simp] lemma natural_glued {n : Nat} {f : Option TokenKind → Procedure α}
    {f' : Option TokenKind → Procedure β} :
    Natural v ok (glued n >>= f) (glued n >>= f') ↔ ∀ a, Natural v ok (f a) (f' a) := natural_ask

@[simp] lemma natural_following {reach : Reach} {f : Option TokenKind → Procedure α}
    {f' : Option TokenKind → Procedure β} :
    Natural v ok (following reach >>= f) (following reach >>= f') ↔
      ∀ a, Natural v ok (f a) (f' a) := natural_ask

@[simp] lemma natural_binaryAhead {f : Option String → Procedure α}
    {f' : Option String → Procedure β} :
    Natural v ok (binaryAhead >>= f) (binaryAhead >>= f') ↔ ∀ a, Natural v ok (f a) (f' a) :=
  natural_ask

section

variable {f : Bool → Procedure α} {f' : Bool → Procedure β}

@[simp] lemma natural_isHere {mark : Punctuator} :
    Natural v ok (isHere mark >>= f) (isHere mark >>= f') ↔ ∀ a, Natural v ok (f a) (f' a) := by
  simp only [isHere, bind_bind, done_bind, natural_here]
  refine ⟨fun h a => ?_, fun h _ => h _⟩
  cases a
  · simpa using h none
  · simpa using h (some (.punctuator mark))

@[simp] lemma natural_isWordHere {word : String} :
    Natural v ok (isWordHere word >>= f) (isWordHere word >>= f') ↔
      ∀ a, Natural v ok (f a) (f' a) := by
  simp only [isWordHere, bind_bind, done_bind, natural_here]
  refine ⟨fun h a => ?_, fun h _ => h _⟩
  cases a
  · simpa using h none
  · simpa [TokenKind.isKeyword] using h (some (.keyword word .contextual))

@[simp] lemma natural_isGlued {mark : Punctuator} :
    Natural v ok (isGlued mark >>= f) (isGlued mark >>= f') ↔ ∀ a, Natural v ok (f a) (f' a) := by
  simp only [isGlued, bind_bind, done_bind, natural_glued]
  refine ⟨fun h a => ?_, fun h _ => h _⟩
  cases a
  · simpa using h none
  · simpa using h (some (.punctuator mark))

@[simp] lemma natural_isNext {mark : Punctuator} {reach : Reach} :
    Natural v ok (isNext mark reach >>= f) (isNext mark reach >>= f') ↔
      ∀ a, Natural v ok (f a) (f' a) := by
  simp only [isNext, bind_bind, done_bind, natural_following]
  refine ⟨fun h a => ?_, fun h _ => h _⟩
  cases a
  · simpa using h none
  · simpa using h (some (.punctuator mark))

@[simp] lemma natural_isWordNext {word : String} {reach : Reach} :
    Natural v ok (isWordNext word reach >>= f) (isWordNext word reach >>= f') ↔
      ∀ a, Natural v ok (f a) (f' a) := by
  simp only [isWordNext, bind_bind, done_bind, natural_following]
  refine ⟨fun h a => ?_, fun h _ => h _⟩
  cases a
  · simpa using h none
  · simpa [TokenKind.isKeyword] using h (some (.keyword word .contextual))

@[simp] lemma natural_startsDeclaration :
    Natural v ok (startsDeclaration >>= f) (startsDeclaration >>= f') ↔
      ∀ a, Natural v ok (f a) (f' a) := natural_ask

end

@[simp] lemma natural_startLocation {f : Location → Procedure α} {f' : Location → Procedure β} :
    Natural v ok (startLocation >>= f) (startLocation >>= f') ↔
      ∀ a, Natural v ok (f a) (f' (v.place a)) := natural_ask

@[simp] lemma natural_stopLocation {f : Location → Procedure α} {f' : Location → Procedure β} :
    Natural v ok (stopLocation >>= f) (stopLocation >>= f') ↔
      ∀ a, Natural v ok (f a) (f' (v.place a)) := natural_ask

@[simp] lemma natural_rangeFrom {start start' : Location} {f : Range → Procedure α}
    {f' : Range → Procedure β} :
    Natural v ok (rangeFrom start >>= f) (rangeFrom start' >>= f') ↔
      ∀ stop, Natural v ok (f ⟨start, stop⟩) (f' ⟨start', v.place stop⟩) := natural_ask

@[simp] lemma natural_errorHere {kind : ErrorKind} {f : ParseError → Procedure α}
    {f' : ParseError → Procedure β} :
    Natural v ok (errorHere kind >>= f) (errorHere kind >>= f') ↔
      ∀ e, Natural v ok (f e) (f' (e.view v)) := natural_ask

@[simp] lemma natural_takeLine {f : String → Procedure α} {f' : String → Procedure β} :
    Natural v ok (takeLine >>= f) (takeLine >>= f') ↔
      ∀ text, Natural v ok (f text) (f' (v.text text)) := natural_ask

/-! ### Moves, and what must come -/

section

variable {f : Unit → Procedure α} {f' : Unit → Procedure β}

@[simp] lemma natural_shift :
    Natural v ok (shift >>= f) (shift >>= f') ↔ Natural v ok (f ()) (f' ()) :=
  natural_ask.trans ⟨fun h => h (), fun h _ => h⟩

@[simp] lemma natural_advance {reach : Reach} :
    Natural v ok (advance reach >>= f) (advance reach >>= f') ↔ Natural v ok (f ()) (f' ()) :=
  natural_ask.trans ⟨fun h => h (), fun h _ => h⟩

@[simp] lemma natural_advanceTwice :
    Natural v ok (advanceTwice >>= f) (advanceTwice >>= f') ↔ Natural v ok (f ()) (f' ()) :=
  natural_ask.trans ⟨fun h => natural_ask.mp (h ()) (), fun h _ => natural_ask.mpr fun _ => h⟩

@[simp] lemma natural_stepBack :
    Natural v ok (stepBack >>= f) (stepBack >>= f') ↔ Natural v ok (f ()) (f' ()) := by
  refine natural_ask.trans ⟨fun h => h true, fun h moved => ?_⟩
  cases moved
  · exact .ask fun _ => .fail rfl
  · exact h

@[simp] lemma natural_recover {e e' : ParseError} :
    Natural v ok (recover e >>= f) (recover e' >>= f') ↔
      e' = e.view v ∧ Natural v ok (f ()) (f' ()) :=
  natural_note.trans (and_congr_right fun _ => natural_ask.trans ⟨fun h => h (), fun h _ => h⟩)

@[simp] lemma natural_expectHere {mark : Punctuator} :
    Natural v ok (expectHere mark >>= f) (expectHere mark >>= f') ↔
      Natural v ok (f ()) (f' ()) := by
  simp [expectHere, bind_bind, done_bind, ite_bind, raise_bind]

@[simp] lemma natural_expectNext {mark : Punctuator} :
    Natural v ok (expectNext mark >>= f) (expectNext mark >>= f') ↔
      Natural v ok (f ()) (f' ()) := by
  simp [expectNext, bind_bind]

@[simp] lemma natural_expectNextWord {word : String} :
    Natural v ok (expectNextWord word >>= f) (expectNextWord word >>= f') ↔
      Natural v ok (f ()) (f' ()) := by
  simp [expectNextWord, bind_bind, done_bind, ite_bind, raise_bind]

end

@[simp] lemma natural_expectName {f : String → Procedure α} {f' : String → Procedure β} :
    Natural v ok (expectName >>= f) (expectName >>= f') ↔ ∀ name, Natural v ok (f name) (f' name) := by
  simp only [expectName, bind_bind, natural_here]
  refine ⟨fun h name => by simpa [TokenKind.name?, done_bind] using h (some (.identifier name)),
    fun h kind => ?_⟩
  rcases kind.bind (·.name? true) with _ | name
  · simp [raise_bind]
  · simpa [done_bind] using h name

/-! ### Goals -/

@[simp] lemma natural_attempt {g : Goal} {f : Except ParseError g.Result → Procedure α}
    {f' : Except ParseError g.Result → Procedure β} :
    Natural v ok (@Bind.bind Procedure _ (no_index (Except ParseError g.Result)) α (attempt g) f)
        (@Bind.bind Procedure _ (no_index (Except ParseError g.Result)) β (attempt g) f') ↔
      ∀ r, Natural v ok (f r) (f' (g.viewEnd v r)) := natural_call

@[simp] lemma natural_read {g : Goal} {f : g.Result → Procedure α}
    {f' : g.Result → Procedure β} :
    Natural v ok (@Bind.bind Procedure _ (no_index g.Result) α (read g) f)
        (@Bind.bind Procedure _ (no_index g.Result) β (read g) f') ↔
      ∀ a, Natural v ok (f a) (f' (g.view v a)) := by
  refine natural_call.trans ⟨fun h a => h (.ok a), fun h r => ?_⟩
  rcases r with e | a
  · exact .fail rfl
  · exact h a

end

/-- A goal that is the last part of a procedure. -/
@[simp] lemma natural_read_last {g : Goal} {ok : g.Result → g.Result → Prop} :
    @Natural (no_index g.Result) (no_index g.Result) v ok (read g) (read g) ↔
      ∀ a, ok a (g.view v a) := by
  refine natural_call.trans ⟨fun h a => by simpa [Goal.viewEnd] using h (.ok a), fun h r => ?_⟩
  rcases r with e | a
  · exact .fail rfl
  · exact .done (h a)

/-- What comes of reading a goal corresponds. -/
lemma read_natural (g : Goal) : (read g).Natural v (fun a b => b = g.view v a) (read g) :=
  natural_read_last.mpr fun _ => rfl

@[simp] lemma natural_advance_last {reach : Reach} {ok : Unit → Unit → Prop} :
    Natural v ok (advance reach) (advance reach) ↔ ok () () :=
  natural_ask.trans ⟨fun h => natural_done.mp (h ()), fun h _ => .done h⟩

/-- A node with its range. -/
lemma Natural.ranged {α : Type} {ok : α → α → Prop} {node node' : Procedure (Range → α)}
    (h : Natural v (fun build build' => ∀ r, ok (build r) (build' (r.view v))) node node') :
    Natural v ok (ranged node) (ranged node') := by
  simp only [Procedure.ranged, natural_startLocation]
  refine fun start => h.bind fun build build' hbuild => ?_
  simp only [natural_rangeFrom, natural_pure]
  exact fun stop => hbuild ⟨start, stop⟩

end Procedure

end FrontEnd
