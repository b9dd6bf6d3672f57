/-
Declarations keep abreast.

What stands in front of a declaration, and what an import names, may go on up to the end of the
list; then no keyword follows, or no separator.  A list without attributes is asked nowhere whether a
declaration starts behind one, so that a keyword in a sequel starts none in the list.
-/
import FrontEnd.Proofs.Keyword
import FrontEnd.Proofs.Sequel.Statement

namespace FrontEnd

namespace Grammar

open Procedure

variable {q : Sequel} {s : State}

/-! ### What stands in front -/

lemma attributes_paces (hs : s.cursor.here? ≠ none)
    (hsign : s.cursor.here? ≠ some (.punctuator .atSign)) :
    attributes.Paces q s fun _ _ => False := by
  simp [attributes, Paces, hs, hsign]

lemma modifiers_paces (hs : s.cursor.here? ≠ none) :
    modifiers.Paces q s fun _ s' => s'.cursor.Barren := by
  rw [modifiers, Paces, abreast_here_bind _ hs]
  split
  · rw [abreast_advance_bind _ _ hs]
    refine ⟨fun hnext => ?_, fun hnone => ?_⟩
    · rw [abreast_read_bind _ _ (by rwa [State.cursor_moveTo, Cursor.here?_advance])]
      exact fun later t _ => ⟨fun ht => .inl ht, fun hparts => hparts⟩
    · rw [yields_bind, yields_read]
      exact ⟨trivial, fun later t ht => (Cursor.barren_advance_of_none hnone).onward ht.1⟩
  · exact .inl hs

/-! ### Imports -/

lemma importKind_paces (hs : s.cursor.here? ≠ none) :
    importKind.Paces q s fun _ s' => s'.cursor.Barren := by
  rw [importKind, Paces, abreast_here_bind _ hs]
  split
  · split
    · simp +contextual [hs, Cursor.here?_advance]
    · exact .inl hs
  · exact .inl hs

/-- The names behind a module leave the end of the list where it is. -/
lemma submodules_yields (hnone : s.cursor.shift.here? = none) {α : Type} (f : List String → α) :
    (do
      let later ← read .submodules
      return f later : Procedure α).Yields feedingOnward (s.moveTo s.cursor.shift)
        fun _ s' => s'.cursor.Barren := by
  rw [yields_bind, yields_read]
  refine ⟨trivial, fun later t ht => ?_⟩
  rw [yields_pure, ht.2.2 hnone]
  exact Cursor.barren_shift_of_none hnone

lemma submodules_paces (hs : s.cursor.here? ≠ none) :
    submodules.Paces q s fun _ s' => s'.cursor.position = 0 ∨ s'.cursor.Barren := by
  have hread {s : State} (hs : s.cursor.here? ≠ none) :
      (read .submodules).Paces q s fun _ s' => s'.cursor.position = 0 ∨ s'.cursor.Barren := by
    rw [Paces, abreast_read _ hs]
    exact fun later t _ => ⟨fun ht => .inl ht, fun hparts => hparts⟩
  rw [submodules, Paces, abreast_here_bind _ hs]
  split
  · exact .inl hs
  · rw [abreast_shift_bind _ hs]
    refine ⟨fun hnext => ?_, fun hnone => ?_⟩
    · rw [abreast_here_bind _ hnext]
      split
      · rw [abreast_shift_bind _ hnext]
        refine ⟨fun hlater => ?_, fun hnone => (submodules_yields hnone _).imp fun _ _ h => .inr h⟩
        exact (hread hlater).bind (fun later t ht => .inl ht) fun later t h => h
      · exact hread hnext
    · rw [yields_bind, yields_here, State.cursor_moveTo, hnone]
      exact (submodules_yields hnone id).imp fun _ _ h => .inr h
  · rw [abreast_stepBack_bind _ hs]
    refine ⟨fun hback => .inl hback, fun hnone => .inl ?_⟩
    obtain ⟨(_ | ⟨p, b⟩), t, a, hc⟩ := Cursor.exists_on_of_here? hs
    · rw [State.cursor_moveTo, hc]
      rfl
    · rw [hc] at hnone
      exact absurd hnone (Option.some_ne_none _)

lemma importEnd_paces (context : Context) (kind : ImportKind) (names : List String)
    (hs : s.cursor.here? ≠ none) :
    (importEnd context kind names).Paces q s fun complaint s' =>
      complaint ≠ none ∨ s'.cursor.Barren := by
  rw [importEnd, Paces, abreast_ite]
  refine ⟨fun _ => ?_, fun _ => separator_paces context hs⟩
  rw [abreast_errorHere_bind _ _ hs]
  simp

lemma importEnd_yields_of_dying (context : Context) (kind : ImportKind) (names : List String)
    (h : s.cursor.Dying) :
    (importEnd context kind names).Yields feedingOnward s fun complaint s' =>
      complaint ≠ none ∨ s'.cursor.Barren := by
  rw [importEnd, yields_ite]
  exact ⟨fun _ => by simp, fun _ => separator_yields_of_dying context h⟩

/-- One step back behind a token does not lead before the first one. -/
lemma position_pos_of_onward_shift {c d : Cursor} (hc : c.here? ≠ none) (h : c.shift.Onward 1 d) :
    0 < d.position := by
  obtain ⟨b, t, a, rfl⟩ := Cursor.exists_on_of_here? hc
  have hleft : d.left ≤ a.length + 1 := by
    have hle := h.left_le
    rwa [Cursor.left_shift, Cursor.left, Nat.add_sub_cancel] at hle
  have hd := d.position_add_left
  rw [h.toList_eq, Cursor.toList_shift, Cursor.toList_on, List.length_append, List.length_cons] at hd
  omega

lemma importing_paces (context : Context) (start : Location) (header : Header)
    (hs : s.cursor.here? ≠ none) :
    (importing context start header).Paces q s fun kept s' =>
      kept.complaint ≠ none ∨ s'.cursor.Barren := by
  rw [importing, Paces, abreast_advance_bind _ _ hs]
  refine ⟨fun hnext => ?_, fun hnone => ?_⟩
  · rw [← Cursor.here?_advance] at hnext
    refine (importKind_paces hnext).bind (fun kind t ht => ?_) fun kind t h => ?_
    · rw [abreast_expectName_bind _ ht]
      intro name _
      rw [abreast_shift_bind _ ht]
      refine ⟨fun hlater => ?_, fun hnone => ?_⟩
      · rw [abreast_read_bind _ _ hlater]
        refine fun names u honward => ⟨fun hu => ?_, fun hparts => ?_⟩
        · rw [abreast_rangeFrom_bind _ _ hu]
          exact (importEnd_paces context kind names hu).bind (fun complaint v hv => .inl hv)
            fun complaint v h => h
        · rcases hparts with hzero | hbarren
          · have hpos := position_pos_of_onward_shift ht honward.1
            omega
          · rw [yields_bind, yields_rangeFrom, yields_bind]
            exact importEnd_yields_of_dying context kind names (Cursor.Barren.dying hbarren)
      · rw [yields_bind, yields_read]
        refine ⟨trivial, fun names u hu => ?_⟩
        have hbarren := Cursor.barren_shift_of_none hnone
        rw [yields_bind, yields_rangeFrom, yields_bind]
        refine importEnd_yields_of_dying context kind names ?_
        rw [hu.2.2 hnone]
        exact hbarren.dying
    · rw [yields_bind, yields_expectName]
      intro name hname
      obtain h' | h' | h' | ⟨symbol, h'⟩ | h' := h.here?_cases <;> simp [h', TokenKind.name?] at hname
  · rw [← Cursor.here?_advance] at hnone
    simp [importKind, hnone]

/-! ### Bindings, aliases and functions -/

lemma initializer_paces (hs : s.cursor.here? ≠ none) :
    initializer.Paces q s fun _ s' => s'.cursor.OperatorLast := by
  simp +contextual [initializer, Paces, hs, Cursor.here?_advance]

lemma bindings_paces (hs : s.cursor.here? ≠ none) :
    bindings.Paces q s fun _ s' => s'.cursor.OperatorLast := by
  simp only [bindings, Paces, abreast_advance_bind _ _ hs]
  refine ⟨fun hnext => ?_, fun hnone => by simp [hnone]⟩
  rw [abreast_read_bind _ _ (by rwa [State.cursor_moveTo, Cursor.here?_advance])]
  refine fun pattern t _ => ⟨fun ht => ?_, fun hparts => absurd rfl hparts.1⟩
  refine (initializer_paces ht).bind (fun value u hu => ?_) fun value u h => ?_
  · simp +contextual [hu, Cursor.here?_advance]
  · simp [h, h.dying]

lemma typeAlias_paces (header : Header) (hs : s.cursor.here? ≠ none) :
    (typeAlias header).Paces q s fun _ _ => False := by
  simp +contextual [typeAlias, Paces, hs, Cursor.here?_advance]

lemma parameterName_paces (hs : s.cursor.here? ≠ none) :
    parameterName.Paces q s fun _ _ => False := by
  rw [parameterName, Paces, abreast_here_bind _ hs]
  split <;> simp [hs]

lemma parameterNames_paces (hs : s.cursor.here? ≠ none) :
    parameterNames.Paces q s fun _ _ => False := by
  refine (parameterName_paces hs).bind (fun first t ht => ?_) fun _ _ h => h.elim
  rw [abreast_isNext_bind _ _ ht (by simp)]
  refine ⟨fun _ => .inl ht, fun _ => ?_⟩
  simp only [Bool.false_eq_true, if_false]
  rw [abreast_advance_bind _ _ ht]
  refine ⟨fun hnext => ?_, fun hnone => ?_⟩
  · rw [← Cursor.here?_advance] at hnext
    exact (parameterName_paces hnext).bind (fun second u hu => .inl hu) fun _ _ h => h.elim
  · rw [← Cursor.here?_advance] at hnone
    simp [parameterName, hnone]

lemma parameterDefault_paces (hs : s.cursor.here? ≠ none) :
    parameterDefault.Paces q s fun _ s' => s'.cursor.OperatorLast := by
  simp +contextual [parameterDefault, Paces, hs, Cursor.here?_advance]

lemma parameter_paces (hs : s.cursor.here? ≠ none) :
    parameter.Paces q s fun _ s' => s'.cursor.OperatorLast := by
  refine (parameterNames_paces hs).bind (fun names t ht => ?_) fun _ _ h => h.elim
  rw [abreast_expectNext_bind _ _ ht]
  intro hcolon
  have hhere : (t.cursor.advance .anyLine).here? ≠ none := by simp [Cursor.here?_advance, hcolon]
  rw [abreast_advance_bind _ _ hhere]
  refine ⟨fun hnext => ?_, fun hnone => ?_⟩
  · rw [abreast_read_bind _ _ (by rwa [State.cursor_moveTo, Cursor.here?_advance])]
    refine fun type u _ => ⟨fun hu => ?_, fun hparts => hparts.elim⟩
    exact (parameterDefault_paces hu).bind (fun value v hv => .inl hv) fun value v h => h
  · have hbarren := Cursor.barren_advance_of_none hnone
    rw [State.cursor_moveTo] at hbarren
    simp [hbarren]

lemma parameters_paces (hs : s.cursor.here? ≠ none) :
    parameters.Paces q s fun _ _ => False := by
  refine (parameter_paces hs).bind (fun first t ht => ?_) fun first t h => ?_
  · simp +contextual [ht, Cursor.here?_advance]
  · simp [h.dying, Cursor.here?_advance]

lemma parameterClause_paces (hs : s.cursor.here? ≠ none) :
    parameterClause.Paces q s fun _ _ => False := by
  simp +contextual [parameterClause, Paces, hs, Cursor.here?_advance]

lemma throwsClause_paces (hs : s.cursor.here? ≠ none) :
    throwsClause.Paces q s fun _ _ => False := by
  simp +contextual [throwsClause, Paces, hs, Cursor.here?_advance]

lemma resultClause_paces (hs : s.cursor.here? ≠ none) :
    resultClause.Paces q s fun _ _ => False := by
  simp +contextual [resultClause, Paces, hs, Cursor.here?_advance]

lemma signature_paces (hs : s.cursor.here? ≠ none) : signature.Paces q s fun _ _ => False := by
  rw [signature, Paces, abreast_advance_bind _ _ hs]
  refine ⟨fun hnext => ?_, fun hnone => ?_⟩
  · rw [← Cursor.here?_advance] at hnext
    rw [abreast_expectName_bind _ hnext]
    intro name _
    refine (parameterClause_paces hnext).bind (fun parameters t ht => ?_) fun _ _ h => h.elim
    refine (throwsClause_paces ht).bind (fun throws u hu => ?_) fun _ _ h => h.elim
    exact (resultClause_paces hu).bind (fun result v hv => .inl hv) fun _ _ h => h.elim
  · rw [← Cursor.here?_advance] at hnone
    simp [hnone]

lemma function_paces (header : Header) (hs : s.cursor.here? ≠ none) :
    (function header).Paces q s fun _ _ => False := by
  refine (signature_paces hs).bind (fun signature t ht => ?_) fun _ _ h => h.elim
  simp +contextual [ht, Cursor.here?_advance]

/-! ### Types -/

lemma typeName_paces (hs : s.cursor.here? ≠ none) : typeName.Paces q s fun _ _ => False := by
  rw [typeName, Paces, abreast_here_bind _ hs]
  split <;> simp [hs]

lemma inheritanceClause_paces (hs : s.cursor.here? ≠ none) :
    inheritanceClause.Paces q s fun _ _ => False := by
  simp +contextual [inheritanceClause, Paces, hs, Cursor.here?_advance]

lemma typeDeclaration_paces (header : Header) (family : TypeFamily) (hs : s.cursor.here? ≠ none) :
    (typeDeclaration header family).Paces q s fun _ _ => False := by
  rw [typeDeclaration, Paces, abreast_advance_bind _ _ hs]
  refine ⟨fun hnext => ?_, fun hnone => ?_⟩
  · rw [← Cursor.here?_advance] at hnext
    refine (typeName_paces hnext).bind (fun name t ht => ?_) fun _ _ h => h.elim
    refine (inheritanceClause_paces ht).bind (fun inherits u hu => ?_) fun _ _ h => h.elim
    simp +contextual [hu, Cursor.here?_advance]
  · rw [← Cursor.here?_advance] at hnone
    simp [typeName, hnone]

lemma members_paces (context : Context) (hs : s.cursor.here? ≠ none)
    (hsign : (s.cursor.advance .anyLine).here? ≠ some (.punctuator .atSign)) :
    (members context).Paces q s fun _ _ => False := by
  rw [members, Paces, abreast_advance_bind _ _ hs]
  refine ⟨fun hnext => ?_, fun hnone => by simp [hnone, Cursor.here?_advance]⟩
  rw [← Cursor.here?_advance] at hnext
  rw [abreast_here_bind _ hnext]
  split
  · simp
  rw [abreast_ite, abreast_ite]
  refine ⟨fun _ => .inl hnext, fun _ => ⟨fun _ => ?_, fun _ => ?_⟩⟩
  · rw [abreast_read _ hnext]
    exact fun later t _ => ⟨fun ht => .inl ht, fun hparts => hparts⟩
  rw [abreast_startsDeclaration_bind _ hnext hsign, abreast_ite]
  refine ⟨fun _ => ?_, fun _ => ?_⟩
  · rw [abreast_attempt_bind _ _ hnext]
    refine ⟨fun kept t _ => ⟨fun ht => ?_, fun hparts => ?_⟩, fun e t => trivial⟩
    · refine itemThen_paces _ _ fun value hvalue => ?_
      simp +contextual [Paces, ht]
    · refine itemThen_yields _ _ fun value hvalue => ?_
      cases hvalue
      have hbarren : t.cursor.Barren := by simpa using hparts
      simp [hbarren]
  · rw [abreast_errorHere_bind _ _ hnext]
    trivial

lemma typeBody_paces (context : Context) (hs : s.cursor.here? ≠ none) :
    (typeBody context).Paces q s fun _ _ => False := by
  simp +contextual [typeBody, Paces, hs]

lemma caseNames_paces (hs : s.cursor.here? ≠ none) : caseNames.Paces q s fun _ _ => False := by
  simp +contextual [caseNames, Paces, hs, Cursor.here?_advance]

/-! ### All declarations -/

lemma declarationNamed_paces (header : Header) (word : String) (hs : s.cursor.here? ≠ none) :
    (declarationNamed header word).Paces q s fun _ s' => s'.cursor.OperatorLast := by
  have hcertain {p : Procedure (Range → Declaration)} (h : p.Paces q s fun _ _ => False) :
      p.Paces q s fun _ s' => s'.cursor.OperatorLast :=
    h.imp (fun _ _ h => h) fun _ _ h => h.elim
  cases DeclarationWord.of word with
  | letBinding | varBinding | enumCases => simp +contextual [declarationNamed, Paces, hs]
  | typeAlias => exact hcertain (typeAlias_paces header hs)
  | function => exact hcertain (function_paces header hs)
  | structType | classType | enumType | protocol | extension =>
    exact hcertain (typeDeclaration_paces header _ hs)
  | other h =>
    rw [declarationNamed_of_other header h]
    exact abreast_raise _

lemma declarationFrom_paces (context : Context) (start : Location) (header : Header) (word : String)
    (hs : s.cursor.here? ≠ none) :
    (declarationFrom context start header word).Paces q s fun kept s' =>
      kept.complaint ≠ none ∨ s'.cursor.Barren := by
  rw [declarationFrom, Paces, abreast_ite]
  refine ⟨fun _ => importing_paces context start header hs, fun _ => ?_⟩
  refine (declarationNamed_paces header word hs).bind (fun node t ht => ?_) fun node t h => ?_
  · rw [abreast_rangeFrom_bind _ _ ht]
    exact (separator_paces context ht).bind (fun complaint u hu => .inl hu) fun complaint u h => h
  · rw [yields_bind, yields_rangeFrom, yields_bind]
    exact (separator_yields_of_operatorLast context h).imp fun complaint u h => .inl h

lemma declaration_paces (context : Context) (hs : s.cursor.here? ≠ none) :
    (declaration context).Paces q s fun kept s' =>
      kept.complaint ≠ none ∨ s'.cursor.Barren := by
  rw [declaration, Paces, abreast_startLocation_bind _ hs, abreast_read_bind _ _ hs]
  refine fun attributes t _ => ⟨fun ht => ?_, fun hparts => hparts.elim⟩
  rw [abreast_read_bind _ _ ht]
  refine fun modifiers u _ => ⟨fun hu => ?_, fun hbarren => ?_⟩
  · rw [abreast_here_bind _ hu]
    split
    · exact declarationFrom_paces context _ _ _ hu
    · exact abreast_raise _
  · have hbarren : u.cursor.Barren := hbarren
    simp
    obtain h' | h' | h' | ⟨symbol, h'⟩ | h' := hbarren.here?_cases <;>
      simp [h', declarationKeyword?]

end Grammar

end FrontEnd
