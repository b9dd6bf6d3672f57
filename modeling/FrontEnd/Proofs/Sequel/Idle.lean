/-
Where nothing can be read any more.

Blanks and binary operators are idle: no goal that must end on something of its own can end on
one.  So where only idle tokens are left, most goals have no value (`Goal.Fed`), and this is
what becomes of a reading once the end of the list has made a difference to it.

`feeding` is this as a contract, and the main result is `Goal.Reads.fed`: every reading that notes no
error and ends in a value keeps it.
-/
import FrontEnd.Proofs.Progress.Steps
import FrontEnd.Proofs.Sequel.Cursor

namespace FrontEnd

/-- Blanks and what may be a binary operator. -/
def TokenKind.isIdle (kind : TokenKind) : Bool :=
  kind.isBlank || kind.binary?.isSome

namespace TokenKind

@[simp] lemma isIdle_plain (kind : TokenKind) : kind.plain.isIdle = kind.isIdle := by
  simp [isIdle]

variable {kind : TokenKind}

lemma isIdle_of_isBlank (h : kind.isBlank = true) : kind.isIdle = true := by
  simp [isIdle, h]

lemma isIdle_of_binary? (h : kind.binary?.isSome = true) : kind.isIdle = true := by
  simp [isIdle, h]

lemma ne_of_isIdle (h : kind.isIdle = true) {mark : Punctuator} (hmark : mark ≠ .equal) :
    kind ≠ .punctuator mark := by
  rintro rfl
  cases mark <;> first | exact hmark rfl | cases h

lemma isKeyword_of_isIdle (h : kind.isIdle = true) (word : String) : kind.isKeyword word = false := by
  cases kind <;> first | rfl | cases h

end TokenKind

namespace Cursor

variable {c : Cursor}

/-- Only idle tokens come behind the current one. -/
def Dying (c : Cursor) : Prop :=
  ∀ t ∈ c.remaining, t.kind.isIdle = true

/-- The current token is idle, and so are all behind it. -/
def Barren (c : Cursor) : Prop :=
  ∀ t ∈ c.ahead, t.kind.isIdle = true

@[simp] lemma Barren.dying (h : c.Barren) : c.Dying :=
  fun t ht => h t (List.mem_append_right _ ht)

lemma barren_land {behind tokens : List Token} (h : ∀ t ∈ tokens, t.kind.isIdle = true) :
    (land behind tokens).Barren := by
  rwa [Barren, ahead_land]

@[simp] lemma Dying.shift (h : c.Dying) : c.shift.Barren := by
  rw [shift_eq_land]
  exact barren_land h

@[simp] lemma Dying.advance (h : c.Dying) (reach : Reach) : (c.advance reach).Barren := by
  rw [advance_eq_land]
  exact barren_land fun t ht => h t ((List.dropWhile_sublist _).mem ht)

@[simp] lemma Barren.advance (h : c.Barren) (reach : Reach) : (c.advance reach).Barren :=
  h.dying.advance reach

@[simp] lemma Dying.dying_advance (h : c.Dying) (reach : Reach) : (c.advance reach).Dying :=
  (h.advance reach).dying

@[simp] lemma barren_advance_of_none {reach : Reach} (h : c.following? reach = none) :
    (c.advance reach).Barren := by
  refine Dying.advance (fun t ht => TokenKind.isIdle_of_isBlank ?_) reach
  exact isBlank_of_passes (passes_of_following?_eq_none h t ht)

@[simp] lemma dying_of_following?_eq_none (h : c.following? .anyLine = none) : c.Dying :=
  fun t ht => TokenKind.isIdle_of_isBlank (passes_of_following?_eq_none h t ht)

@[simp] lemma barren_shift_of_none (h : c.shift.here? = none) : c.shift.Barren := by
  rcases c with (_ | ⟨t, a⟩) | ⟨b, t, (_ | ⟨n, a⟩)⟩ | b <;>
    simp [Cursor.shift, here?, kind?, current?] at h <;>
    simp [Barren, ahead, Cursor.shift, current?, remaining]

lemma remaining_shiftBy (n : Nat) (c : Cursor) : (c.shiftBy n).remaining = c.remaining.drop n := by
  induction n generalizing c with
  | zero => rfl
  | succ n ih =>
    have hshift : c.shift.remaining = c.remaining.drop 1 := by
      rcases c with (_ | ⟨t, a⟩) | ⟨b, t, (_ | ⟨u, a⟩)⟩ | b <;> rfl
    rw [shiftBy, ih, hshift, List.drop_drop, Nat.add_comm]

/-- Nothing is left behind a line that ends with the list. -/
lemma dying_toEndOfLine (h : c.restOfLine = c.remaining) : c.toEndOfLine.Dying := by
  rw [Dying, toEndOfLine, remaining_shiftBy, h, List.drop_length]
  simp

lemma Barren.onward {d : Cursor} (h : c.Barren) (honward : c.Onward 0 d) : d.Barren := by
  have hsuffix (c : Cursor) : c.ahead <:+ c.toList := by
    rw [toList, List.append_assoc]
    exact List.suffix_append _ _
  have hlength (c : Cursor) : c.ahead.length = min c.left c.toList.length := by
    cases c <;> simp [ahead, left, current?, remaining]
  have hd : d.ahead <:+ c.ahead := by
    refine List.suffix_of_suffix_length_le (honward.toList_eq ▸ hsuffix d) (hsuffix c) ?_
    have hleft := honward.left_le
    rw [hlength, hlength, honward.toList_eq]
    omega
  exact fun t ht => h t (hd.mem ht)

lemma Barren.isIdle_of_here? (h : c.Barren) {kind : TokenKind} (hkind : c.here? = some kind) :
    kind.isIdle = true := by
  obtain ⟨b, t, a, rfl⟩ := exists_on_of_here? (c := c) (by simp [hkind])
  obtain rfl : t.kind.plain = kind := by simpa [here?, kind?, current?] using hkind
  rw [TokenKind.isIdle_plain]
  exact h t (by simp [ahead, current?])

lemma Dying.isIdle_of_following? (h : c.Dying) {reach : Reach} {kind : TokenKind}
    (hkind : c.following? reach = some kind) : kind.isIdle = true :=
  (h.advance reach).isIdle_of_here? (by rwa [here?_advance])

@[simp] lemma Dying.following?_ne (h : c.Dying) {mark : Punctuator} (hmark : mark ≠ .equal) (reach : Reach) :
    c.following? reach ≠ some (.punctuator mark) :=
  fun hkind => TokenKind.ne_of_isIdle (h.isIdle_of_following? hkind) hmark rfl

@[simp] lemma Dying.glued?_ne (h : c.Dying) {mark : Punctuator} (hmark : mark ≠ .equal) (n : Nat) :
    c.glued? n ≠ some (.punctuator mark) := by
  intro hglued
  obtain ⟨hglued, -⟩ := Option.filter_eq_some_iff.mp hglued
  obtain ⟨t, ht, hkind⟩ := Option.map_eq_some_iff.mp hglued
  refine TokenKind.ne_of_isIdle ?_ hmark hkind
  rw [TokenKind.isIdle_plain]
  exact h t (List.mem_of_getElem? ht)

@[simp] lemma Dying.any_isKeyword (h : c.Dying) (word : String) (reach : Reach) :
    (c.following? reach).any (·.isKeyword word) = false := by
  rcases hkind : c.following? reach with _ | kind
  · rfl
  · exact TokenKind.isKeyword_of_isIdle (h.isIdle_of_following? hkind) word

/-- What a cursor may stand on where nothing can be read. -/
lemma Barren.here?_cases (h : c.Barren) :
    c.here? = none ∨ c.here? = some .whitespace ∨ c.here? = some .lineFeed ∨
      (∃ symbol, c.here? = some (.operator symbol)) ∨ c.here? = some (.punctuator .equal) := by
  rcases c with a | ⟨b, ⟨kind, span, range⟩, a⟩ | b
  · exact .inl rfl
  · have hidle : kind.isIdle = true := h _ (by simp [ahead, current?]; exact .inl rfl)
    cases kind with
    | punctuator mark =>
      cases mark <;> simp [TokenKind.isIdle, TokenKind.isBlank, TokenKind.isInlineBlank,
        TokenKind.isLineBreak, TokenKind.binary?, here?, kind?, current?, TokenKind.plain] at hidle ⊢
    | _ =>
      simp [TokenKind.isIdle, TokenKind.isBlank, TokenKind.isInlineBlank, TokenKind.isLineBreak,
        TokenKind.binary?, here?, kind?, current?, TokenKind.plain] at hidle ⊢
  · exact .inl rfl

/-! ### The operator at the end -/

lemma OperatorLast.dying (h : c.OperatorLast) : c.Dying := by
  obtain ⟨t, hdrop, hbinary⟩ := h
  intro u hu
  rw [← List.takeWhile_append_dropWhile (p := Token.isInlineBlank) (l := c.remaining), hdrop] at hu
  rcases List.mem_append.mp hu with hu | hu
  · have hblank := List.mem_takeWhile_imp hu
    exact TokenKind.isIdle_of_isBlank ((Bool.or_eq_true _ _).mpr (.inl hblank))
  · rw [List.mem_singleton.mp hu]
    exact TokenKind.isIdle_of_binary? hbinary

/-- The operator at the end is all that a search on the line finds. -/
lemma OperatorLast.exists_following? (h : c.OperatorLast) (reach : Reach) :
    ∃ kind, c.following? reach = some kind ∧ kind.binary?.isSome = true := by
  obtain ⟨t, hdrop, hbinary⟩ := h
  have hkept : reach.passes t.kind = false := by
    obtain ⟨symbol, hsymbol⟩ := Option.isSome_iff_exists.mp hbinary
    exact Reach.passes_eq_false (TokenKind.isBlank_of_binary? hsymbol)
  have hpasses : ∀ u ∈ c.remaining.takeWhile Token.isInlineBlank, reach.passes u.kind = true := by
    intro u hu
    have hblank : u.kind.isInlineBlank = true := List.mem_takeWhile_imp (p := Token.isInlineBlank) hu
    cases reach
    · exact hblank
    · exact (Bool.or_eq_true _ _).mpr (.inl hblank)
  refine ⟨t.kind.plain, ?_, by rwa [TokenKind.binary?_plain]⟩
  rw [Cursor.following?, next?, find?_not_eq_head?_dropWhile,
    ← List.takeWhile_append_dropWhile (p := Token.isInlineBlank) (l := c.remaining), hdrop,
    List.dropWhile_append_of_pos hpasses, List.dropWhile_cons_of_neg (by simp [hkept])]
  rfl

end Cursor

/-- What a goal must find, if it ends in a value: behind the current token, or from there on. -/
@[simp] def Goal.Fed : Goal → Cursor → Prop
  | typeMarks, _ | operations _, _ | suffixes, _ | patternMarks, _ | handlers, _ | attributes, _
  | modifiers, _ | submodules, _ => True
  | elements, c | entries, c | block, c | statements _, c | elseIf, c | switchBody, c | caseItems, c
  | bindings, c | typeBody _, c | members _, c | caseNames, c => ¬ c.Dying
  | arguments closer, c => closer ≠ .equal → ¬ c.Barren
  | _, c => ¬ c.Barren

/-- What continues an operand leaves an operator at the end of the list where it is, and the
names behind a module leave the end where it is. -/
@[simp] def Goal.Leaves : Goal → Cursor → Cursor → Prop
  | operations _, c, d | patternMarks, c, d => c.OperatorLast → d.OperatorLast
  | submodules, c, d => c.here? = none → d = c
  | _, _, _ => True

/-- The goals find what they must end on. -/
def feeding : Contract where
  enter _ _ := True
  value g s _ s' := g.Fed s.cursor ∧ g.Leaves s.cursor s'.cursor
  error _ _ _ _ := True

/-- What the goals that are called promise: they lead onward and find what they end on. -/
abbrev feedingOnward : Contract :=
  feeding.given fun g s s' => s.cursor.Onward g.givesBack s'.cursor

section

variable (g : Goal) (s s' : State)

@[simp] lemma feeding_enter : feeding.enter g s ↔ True := Iff.rfl

@[simp] lemma feeding_value (a : g.Result) :
    feeding.value g s a s' ↔ g.Fed s.cursor ∧ g.Leaves s.cursor s'.cursor := Iff.rfl

end

namespace Procedure

/-- No way through a procedure ends in a value without an error. -/
def Starves {α : Type} (p : Procedure α) (s : State) : Prop :=
  p.Yields feedingOnward s fun _ _ => False

end Procedure

namespace Grammar

open Procedure

variable {s : State}

lemma type_starves (h : s.cursor.Barren) : type.Starves s := by
  simp [type, unmarkedType, Starves]
  obtain h' | h' | h' | ⟨symbol, h'⟩ | h' := h.here?_cases <;> simp [h', TokenKind.name?, TokenKind.isKeyword]

lemma types_starves (h : s.cursor.Barren) : types.Starves s := by
  simp [types, Starves, h]

lemma typePath_starves (h : s.cursor.Barren) : typePath.Starves s := by
  simp [typePath, Starves]
  obtain h' | h' | h' | ⟨symbol, h'⟩ | h' := h.here?_cases <;> simp [h', TokenKind.anyName?]

lemma operand_starves (h : s.cursor.Barren) : operand.Starves s := by
  simp [operand, primary, Starves]
  obtain h' | h' | h' | ⟨symbol, h'⟩ | h' := h.here?_cases <;> simp [h', h, unaryOperator?, TokenKind.isKeyword]

lemma expression_starves (floor : Nat) (h : s.cursor.Barren) : (expression floor).Starves s := by
  simp [expression, Starves]
  exact (operand_starves h).imp fun _ _ h => h.elim

lemma arguments_starves {closer : Punctuator} (hcloser : closer ≠ .equal) (h : s.cursor.Barren) :
    (arguments closer).Starves s := by
  simp [arguments, argumentLabel, Starves]
  obtain h' | h' | h' | ⟨symbol, h'⟩ | h' := h.here?_cases <;>
    simp [h', h, TokenKind.anyName?, hcloser.symm]

/-- An operator at the end of the list has no operand behind it. -/
lemma operations_yields (floor : Nat) (h : s.cursor.OperatorLast) :
    (operations floor).Yields feedingOnward s fun _ s' => s'.cursor.OperatorLast := by
  simp [operations]
  rcases s.cursor.binaryAhead? with _ | operator <;> simp [h, h.dying]

lemma patternMarks_yields (h : s.cursor.OperatorLast) :
    patternMarks.Yields feedingOnward s fun _ s' => s'.cursor.OperatorLast := by
  simp [patternMarks, h, h.dying]

lemma elements_starves (h : s.cursor.Dying) : elements.Starves s := by
  simp [elements, Starves, h, Cursor.here?_advance]

lemma entries_starves (h : s.cursor.Dying) : entries.Starves s := by
  simp [entries, Starves, h]

lemma pattern_starves (mode : PatternMode) (h : s.cursor.Barren) : (pattern mode).Starves s := by
  cases mode <;>
    simp [pattern, declaredPattern, untypedPattern, testedPattern, unmarkedPattern,
      comparedValueOrError, Starves] <;>
    obtain h' | h' | h' | ⟨symbol, h'⟩ | h' := h.here?_cases <;>
    simp [h', h, TokenKind.name?, TokenKind.isKeyword]

lemma patterns_starves (mode : PatternMode) (h : s.cursor.Barren) : (patterns mode).Starves s := by
  simp [patterns, Starves, h]

lemma statements_starves (stop : BlockEnd) (h : s.cursor.Dying) : (statements stop).Starves s := by
  simp [statements, Starves]
  obtain h' | h' | h' | ⟨symbol, h'⟩ | h' := (h.advance .anyLine).here?_cases <;>
    simp [h', h, BlockEnd.holds, TokenKind.isKeyword, itemThen, recoverThen]

lemma item_starves (h : s.cursor.Barren) : item.Starves s := by
  simp [item, Starves, h]

lemma block_starves (h : s.cursor.Dying) : block.Starves s := by
  simp [block, Starves, h]

lemma statement_starves (h : s.cursor.Barren) : statement.Starves s := by
  simp [statement, statementLabel, Starves]
  obtain h' | h' | h' | ⟨symbol, h'⟩ | h' := h.here?_cases <;>
    simp [h', h, TokenKind.name?, TokenKind.word?, unlabeled]

lemma conditions_starves (h : s.cursor.Barren) : conditions.Starves s := by
  simp [conditions, condition, Starves]
  obtain h' | h' | h' | ⟨symbol, h'⟩ | h' := h.here?_cases <;>
    simp [h', h, TokenKind.isKeyword]

lemma elseIf_starves (h : s.cursor.Dying) : elseIf.Starves s := by
  simp [elseIf, choice, Starves, h]

lemma switchBody_starves (h : s.cursor.Dying) : switchBody.Starves s := by
  simp [switchBody, Starves, h]

lemma arms_starves (h : s.cursor.Barren) : arms.Starves s := by
  simp [arms, Starves]
  obtain h' | h' | h' | ⟨symbol, h'⟩ | h' := h.here?_cases <;> simp [h', TokenKind.isKeyword]

lemma caseItems_starves (h : s.cursor.Dying) : caseItems.Starves s := by
  simp [caseItems, Starves, h]

lemma declaration_starves (context : Context) (h : s.cursor.Barren) :
    (declaration context).Starves s := by
  simp [declaration, Starves]
  intro attributes t ht modifiers u hu
  have hbarren : u.cursor.Barren := (h.onward ht).onward hu
  obtain h' | h' | h' | ⟨symbol, h'⟩ | h' := hbarren.here?_cases <;>
    simp [h', declarationKeyword?]

lemma bindings_starves (h : s.cursor.Dying) : bindings.Starves s := by
  simp [bindings, Starves, h]

lemma parameters_starves (h : s.cursor.Barren) : parameters.Starves s := by
  simp [parameters, parameter, parameterNames, parameterName, Starves]
  obtain h' | h' | h' | ⟨symbol, h'⟩ | h' := h.here?_cases <;> simp [h', TokenKind.anyName?]

lemma typeBody_starves (context : Context) (h : s.cursor.Dying) : (typeBody context).Starves s := by
  simp [typeBody, Starves, h]

lemma members_starves (context : Context) (h : s.cursor.Dying) : (members context).Starves s := by
  simp [members, Starves]
  obtain h' | h' | h' | ⟨symbol, h'⟩ | h' := (h.advance .anyLine).here?_cases <;>
    simp [h', h, TokenKind.isKeyword, itemThen, recoverThen]

lemma caseNames_starves (h : s.cursor.Dying) : caseNames.Starves s := by
  simp [caseNames, Starves]
  obtain h' | h' | h' | ⟨symbol, h'⟩ | h' := (h.advance .anyLine).here?_cases <;>
    simp [h', TokenKind.name?]

end Grammar

namespace Goal

variable {s : State}

open Grammar in
/-- A goal that does not find what it must end on has no value. -/
lemma procedure_starves {g : Goal} (h : ¬ g.Fed s.cursor) : g.procedure.Starves s := by
  cases g with
  | type => exact type_starves (not_not.mp h)
  | types => exact types_starves (not_not.mp h)
  | typePath => exact typePath_starves (not_not.mp h)
  | expression floor => exact expression_starves floor (not_not.mp h)
  | operand => exact operand_starves (not_not.mp h)
  | arguments closer =>
    obtain ⟨hcloser, hbarren⟩ := Classical.not_imp.mp h
    exact arguments_starves hcloser (not_not.mp hbarren)
  | elements => exact elements_starves (not_not.mp h)
  | entries => exact entries_starves (not_not.mp h)
  | pattern mode => exact pattern_starves mode (not_not.mp h)
  | patterns mode => exact patterns_starves mode (not_not.mp h)
  | block => exact block_starves (not_not.mp h)
  | statements stop => exact statements_starves stop (not_not.mp h)
  | item => exact item_starves (not_not.mp h)
  | statement => exact statement_starves (not_not.mp h)
  | elseIf => exact elseIf_starves (not_not.mp h)
  | conditions => exact conditions_starves (not_not.mp h)
  | switchBody => exact switchBody_starves (not_not.mp h)
  | arms => exact arms_starves (not_not.mp h)
  | caseItems => exact caseItems_starves (not_not.mp h)
  | declaration context => exact declaration_starves context (not_not.mp h)
  | bindings => exact bindings_starves (not_not.mp h)
  | parameters => exact parameters_starves (not_not.mp h)
  | typeBody context => exact typeBody_starves context (not_not.mp h)
  | members context => exact members_starves context (not_not.mp h)
  | caseNames => exact caseNames_starves (not_not.mp h)
  | typeMarks | operations | suffixes | patternMarks | handlers | attributes | modifiers
  | submodules => exact absurd trivial h

open Grammar in
lemma procedure_leaves (g : Goal) :
    g.procedure.Yields feedingOnward s fun _ s' => g.Leaves s.cursor s'.cursor := by
  cases g with
  | operations floor =>
    by_cases hlast : s.cursor.OperatorLast
    · exact (operations_yields floor hlast).imp fun _ _ h _ => h
    · exact (Procedure.yields_true fun _ _ => trivial).imp fun _ _ _ h => absurd h hlast
  | patternMarks =>
    by_cases hlast : s.cursor.OperatorLast
    · exact (patternMarks_yields hlast).imp fun _ _ h _ => h
    · exact (Procedure.yields_true fun _ _ => trivial).imp fun _ _ _ h => absurd h hlast
  | submodules =>
    by_cases hnone : s.cursor.here? = none
    · simp [procedure, Grammar.submodules, hnone]
    · exact (Procedure.yields_true fun _ _ => trivial).imp fun _ _ _ h => absurd h hnone
  | _ => exact Procedure.yields_true fun _ _ => trivial

/-- A reading that notes no error and ends in a value found what it must end on. -/
theorem Reads.fed {room : Nat} {g : Goal} {s' : State} {a : g.Result}
    (h : g.Reads room s (.ok a) s') (hquiet : s'.noted = s.noted) : feeding.value g s a s' := by
  refine h.quiet_given known_onward (fun g s _ => ?_) trivial hquiet
  by_cases hfed : g.Fed s.cursor
  · exact (procedure_leaves g).imp fun _ _ hleaves => ⟨hfed, hleaves⟩
  · exact (procedure_starves hfed).imp fun _ _ h => h.elim

end Goal

end FrontEnd
