/-
Errors for want of room.

A goal that is a level of nesting ends in an error at once where there is no room for it.
`Procedure.Candid` says of a procedure that no such error is lost on the way: one that comes
of a goal is noted, or is the end of the procedure, before another goal is called.  It also
says that a procedure makes no such error itself, and which goals it calls.  None of this
hangs on where the cursor stands.

Each goal has a weight, so that twice the number of tokens left and the weight of the goal
together are room enough (`Goal.Admits`): a goal calls one of no more weight as long as it
has not gone on, less one if it is a level of nesting itself.
-/
import FrontEnd.Proofs.Progress.Basic

namespace FrontEnd

/-- An error for want of room. -/
abbrev ParseError.IsLimit (e : ParseError) : Prop :=
  e.kind = .nestingTooDeep

/-- What an instruction may answer: the error with a cause has that cause. -/
@[simp] def Instruction.Answers : (i : Instruction) → i.Answer → Prop
  | .errorHere kind, e => e.kind = kind
  | _, _ => True

namespace Goal

/-- What was read is not complained of for want of room. -/
@[simp] def Plain : (g : Goal) → g.Result → Prop
  | item, kept => ∀ e, kept.complaint = some e → ¬ e.IsLimit
  | declaration _, kept => ∀ e, kept.complaint = some e → ¬ e.IsLimit
  | _, _ => True

/-- How much room a goal takes besides two levels for each token that is left. -/
@[simp] def weight : Goal → Nat
  | item | statement | elseIf | switchBody => 3
  | pattern _ | patterns _ | block | conditions | arms | caseItems | declaration _
  | bindings => 2
  | type | types | expression _ | operand | arguments _ | entries | statements _ | parameters
  | typeBody _ => 1
  | typePath | typeMarks | operations _ | suffixes | elements | patternMarks | handlers
  | attributes | modifiers | submodules | members _ | caseNames => 0

/-- How many levels of nesting a goal is. -/
@[simp] def depth (g : Goal) : Nat :=
  if g.isLevel then 1 else 0

/-- The weight of a goal allows for another one: behind its first token, where two more
levels are free, or on that token, where only goals of a lower rank are called. -/
@[simp] def Admits (g g' : Goal) : Prop :=
  g'.weight + g.depth ≤ g.weight + 2 ∧ (g'.rank < g.rank → g'.weight + g.depth ≤ g.weight)

lemma depth_le_weight (g : Goal) : g.depth ≤ g.weight := by
  cases g <;> simp [isLevel]

end Goal

namespace Procedure

variable {α β : Type} {may : Goal → Prop}

/-- Every error for want of room that comes of a goal is noted, or is the end, before another
goal is called, and no other error is one.  Whether there is one that is still to be told is
known on the way, and all goals are of a certain sort. -/
def Candid (may : Goal → Prop) : Procedure α → Prop → (Prop → α → Prop) → Prop
  | done a, deep, ok => ok deep a
  | fail e, deep, _ => e.IsLimit ↔ deep
  | ask i next, deep, ok => ∀ a, i.Answers a → (next a).Candid may deep ok
  | call g next, deep, ok =>
    ¬ deep ∧ may g ∧ (∀ v, g.Plain v → (next (.ok v)).Candid may deep ok) ∧
      ∀ e, (next (.error e)).Candid may e.IsLimit ok
  | note e next, deep, ok => (e.IsLimit ↔ deep) ∧ next.Candid may False ok

lemma candid_ask (i : Instruction) (next : i.Answer → Procedure α) (deep : Prop)
    (ok : Prop → α → Prop) :
    (ask i next).Candid may deep ok ↔ ∀ a, i.Answers a → (next a).Candid may deep ok := Iff.rfl

lemma candid_call (g : Goal) (next : Except ParseError g.Result → Procedure α) (deep : Prop)
    (ok : Prop → α → Prop) :
    (call g next).Candid may deep ok ↔
      ¬ deep ∧ may g ∧ (∀ v, g.Plain v → (next (.ok v)).Candid may deep ok) ∧
        ∀ e, (next (.error e)).Candid may e.IsLimit ok := Iff.rfl

@[simp] lemma candid_bind (p : Procedure α) (f : α → Procedure β) (deep : Prop)
    (ok : Prop → β → Prop) :
    (p >>= f).Candid may deep ok ↔ p.Candid may deep fun deep a => (f a).Candid may deep ok := by
  change (p.bind f).Candid may deep ok ↔ _
  induction p generalizing deep with
  | done a => rfl
  | fail e => rfl
  | ask i next ih => exact forall₂_congr fun a _ => ih a deep
  | call g next ih =>
    simp only [Procedure.bind, candid_call]
    refine and_congr_right fun _ => and_congr_right fun _ => and_congr ?_ ?_
    · exact forall₂_congr fun v _ => ih _ _
    · exact forall_congr' fun e => ih _ _
  | note e next ih => exact and_congr_right fun _ => ih _

/-- Where more is wanted at the end, more is wanted at the start. -/
lemma Candid.imp {ok ok' : Prop → α → Prop} {p : Procedure α} {deep : Prop}
    (h : p.Candid may deep ok) (hok : ∀ deep a, ok deep a → ok' deep a) :
    p.Candid may deep ok' := by
  induction p generalizing deep with
  | done a => exact hok _ _ h
  | fail e => exact h
  | ask i next ih => exact fun a ha => ih a (h a ha)
  | call g next ih =>
    obtain ⟨hdeep, hmay, hvalue, herror⟩ := h
    exact ⟨hdeep, hmay, fun v hv => ih _ (hvalue v hv), fun e => ih _ (herror e)⟩
  | note e next ih => exact ⟨h.1, ih h.2⟩

/-- All is told when a procedure ends. -/
def Tells (may : Goal → Prop) (p : Procedure α) : Prop :=
  p.Candid may False fun deep _ => ¬ deep

lemma Tells.imp {p : Procedure α} (h : p.Tells may) {ok : Prop → α → Prop}
    (hok : ∀ a, ok False a) : p.Candid may False ok := by
  refine Candid.imp h fun deep a hdeep => ?_
  rw [eq_false hdeep]
  exact hok a

/-! ### The words of the grammar -/

section

variable (may) (deep : Prop) (ok : Prop → α → Prop)

@[simp] lemma candid_pure (a : α) : (pure a : Procedure α).Candid may deep ok ↔ ok deep a := Iff.rfl

@[simp] lemma candid_done (a : α) : (done a).Candid may deep ok ↔ ok deep a := Iff.rfl

@[simp] lemma candid_fail (e : ParseError) :
    (fail e : Procedure α).Candid may deep ok ↔ (e.IsLimit ↔ deep) := Iff.rfl

@[simp] lemma candid_ite (c : Prop) [Decidable c] (p q : Procedure α) :
    (if c then p else q).Candid may deep ok ↔
      (c → p.Candid may deep ok) ∧ (¬ c → q.Candid may deep ok) := by
  by_cases hc : c <;> simp [hc]

@[simp] lemma candid_raise (kind : ErrorKind) :
    (raise kind : Procedure α).Candid may deep ok ↔ (kind = .nestingTooDeep ↔ deep) := by
  refine ⟨fun h => h ⟨kind, default, default⟩ rfl, fun h e he => ?_⟩
  change e.kind = .nestingTooDeep ↔ deep
  rwa [show e.kind = kind from he]

end

section

variable (may) (deep : Prop)

@[simp] lemma candid_here (ok : Prop → Option TokenKind → Prop) :
    here.Candid may deep ok ↔ ∀ a, ok deep a := by
  simp [here, candid_ask]

@[simp] lemma candid_isHere (mark : Punctuator) (ok : Prop → Bool → Prop) :
    (isHere mark).Candid may deep ok ↔
      ∀ kind : Option TokenKind, ok deep (kind = some (.punctuator mark)) := by
  simp [isHere]

@[simp] lemma candid_isWordHere (word : String) (ok : Prop → Bool → Prop) :
    (isWordHere word).Candid may deep ok ↔
      ∀ kind : Option TokenKind, ok deep (kind.any (·.isKeyword word)) := by
  simp [isWordHere]

@[simp] lemma candid_glued (n : Nat) (ok : Prop → Option TokenKind → Prop) :
    (glued n).Candid may deep ok ↔ ∀ a, ok deep a := by
  simp [glued, candid_ask]

@[simp] lemma candid_following (reach : Reach) (ok : Prop → Option TokenKind → Prop) :
    (following reach).Candid may deep ok ↔ ∀ a, ok deep a := by
  simp [following, candid_ask]

@[simp] lemma candid_isGlued (mark : Punctuator) (ok : Prop → Bool → Prop) :
    (isGlued mark).Candid may deep ok ↔
      ∀ kind : Option TokenKind, ok deep (kind = some (.punctuator mark)) := by
  simp [isGlued]

@[simp] lemma candid_isNext (mark : Punctuator) (reach : Reach) (ok : Prop → Bool → Prop) :
    (isNext mark reach).Candid may deep ok ↔
      ∀ kind : Option TokenKind, ok deep (kind = some (.punctuator mark)) := by
  simp [isNext]

@[simp] lemma candid_isWordNext (word : String) (reach : Reach) (ok : Prop → Bool → Prop) :
    (isWordNext word reach).Candid may deep ok ↔
      ∀ kind : Option TokenKind, ok deep (kind.any (·.isKeyword word)) := by
  simp [isWordNext]

@[simp] lemma candid_binaryAhead (ok : Prop → Option String → Prop) :
    binaryAhead.Candid may deep ok ↔ ∀ a, ok deep a := by
  simp [binaryAhead, candid_ask]

@[simp] lemma candid_startsDeclaration (ok : Prop → Bool → Prop) :
    startsDeclaration.Candid may deep ok ↔ ∀ a, ok deep a := by
  simp only [startsDeclaration, candid_ask, candid_done, Instruction.Answers, true_imp_iff]

@[simp] lemma candid_startLocation (ok : Prop → Location → Prop) :
    startLocation.Candid may deep ok ↔ ∀ a, ok deep a := by
  simp [startLocation, candid_ask]

@[simp] lemma candid_stopLocation (ok : Prop → Location → Prop) :
    stopLocation.Candid may deep ok ↔ ∀ a, ok deep a := by
  simp [stopLocation, candid_ask]

@[simp] lemma candid_rangeFrom (start : Location) (ok : Prop → Range → Prop) :
    (rangeFrom start).Candid may deep ok ↔ ∀ stop, ok deep ⟨start, stop⟩ := by
  simp [rangeFrom, candid_ask]

@[simp] lemma candid_errorHere (kind : ErrorKind) (ok : Prop → ParseError → Prop) :
    (errorHere kind).Candid may deep ok ↔ ∀ e, e.kind = kind → ok deep e := Iff.rfl

@[simp] lemma candid_shift (ok : Prop → Unit → Prop) :
    shift.Candid may deep ok ↔ ok deep () :=
  ⟨fun h => h () trivial, fun h _ _ => h⟩

@[simp] lemma candid_advance (reach : Reach) (ok : Prop → Unit → Prop) :
    (advance reach).Candid may deep ok ↔ ok deep () :=
  ⟨fun h => h () trivial, fun h _ _ => h⟩

@[simp] lemma candid_advanceTwice (ok : Prop → Unit → Prop) :
    advanceTwice.Candid may deep ok ↔ ok deep () := by
  simp [advanceTwice]

@[simp] lemma candid_takeLine (ok : Prop → String → Prop) :
    takeLine.Candid may deep ok ↔ ∀ a, ok deep a := by
  simp [takeLine, candid_ask]

@[simp] lemma candid_recover (e : ParseError) (ok : Prop → Unit → Prop) :
    (recover e).Candid may deep ok ↔ (e.IsLimit ↔ deep) ∧ ok False () :=
  and_congr_right fun _ => ⟨fun h => h () trivial, fun h _ _ => h⟩

@[simp] lemma candid_stepBack (ok : Prop → Unit → Prop) :
    stepBack.Candid may deep ok ↔ ok deep () ∧ ¬ deep := by
  simp [stepBack, candid_ask, and_comm]

@[simp] lemma candid_attempt (g : Goal) (ok : Prop → Except ParseError g.Result → Prop) :
    @Candid (no_index (Except ParseError g.Result)) may (attempt g) deep ok ↔
      ¬ deep ∧ may g ∧ (∀ v, g.Plain v → ok deep (.ok v)) ∧ ∀ e, ok e.IsLimit (.error e) :=
  Iff.rfl

@[simp] lemma candid_read (g : Goal) (ok : Prop → g.Result → Prop) :
    @Candid (no_index g.Result) may (read g) deep ok ↔
      ¬ deep ∧ may g ∧ ∀ v, g.Plain v → ok deep v := by
  simp [read, candid_call]

/-! ### What must come -/

@[simp] lemma candid_expectHere (mark : Punctuator) (ok : Prop → Unit → Prop) :
    (expectHere mark).Candid may deep ok ↔ ok deep () ∧ ¬ deep := by
  simp [expectHere, ErrorKind.expectedMark]
  exact ⟨fun h => ⟨(h (some (.punctuator mark))).1 rfl, (h none).2 (by simp)⟩,
    fun h _ => ⟨fun _ => h.1, fun _ => h.2⟩⟩

@[simp] lemma candid_expectNext (mark : Punctuator) (ok : Prop → Unit → Prop) :
    (expectNext mark).Candid may deep ok ↔ ok deep () ∧ ¬ deep := by
  simp [expectNext]

@[simp] lemma candid_expectNextWord (word : String) (ok : Prop → Unit → Prop) :
    (expectNextWord word).Candid may deep ok ↔ ok deep () ∧ ¬ deep := by
  simp [expectNextWord, ErrorKind.expectedWord]
  exact ⟨fun h => ⟨(h (some (.keyword word .contextual))).1 (by simp [TokenKind.isKeyword]),
    (h none).2 rfl⟩, fun h _ => ⟨fun _ => h.1, fun _ => h.2⟩⟩

@[simp] lemma candid_expectName (ok : Prop → String → Prop) :
    expectName.Candid may deep ok ↔ (∀ name, ok deep name) ∧ ¬ deep := by
  simp only [expectName, candid_bind, candid_here]
  refine ⟨fun h => ⟨fun name => ?_, ?_⟩, fun h kind => ?_⟩
  · simpa [TokenKind.name?] using h (some (.identifier name))
  · simpa using h none
  · rcases kind.bind (·.name? true) with _ | name
    · simpa using h.2
    · exact h.1 name

@[simp] lemma candid_ranged {α : Type} (node : Procedure (Range → α)) (ok : Prop → α → Prop) :
    (ranged node).Candid may deep ok ↔
      ∀ start, node.Candid may deep fun deep build => ∀ stop, ok deep (build ⟨start, stop⟩) := by
  simp [ranged]

end

end Procedure

end FrontEnd
