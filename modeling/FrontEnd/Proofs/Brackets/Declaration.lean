/-
Declarations match their brackets.
-/
import FrontEnd.Grammar.Declaration
import FrontEnd.Proofs.Brackets.Statement
import FrontEnd.Proofs.Keyword

namespace FrontEnd

namespace Grammar

open Procedure

variable {tokens : List Token} {s : State}

/-! ### What stands in front -/

lemma attributes_yields (hlist : s.cursor.toList = tokens) :
    attributes.Yields (matching tokens) s
      fun a s' => Goal.attributes.Matches tokens s.cursor a s'.cursor := by
  simp [attributes]
  refine ⟨fun _ => ?_, fun _ => hlist⟩
  split <;> simp <;> grind -ring -linarith

lemma unmatched_shift_of_modifier? {c : Cursor} {word : String}
    (h : c.here?.bind (·.modifier?) = some word) : c.shift.unmatched = c.unmatched := by
  refine Cursor.unmatched_shift_of_bind h fun kind hkind => ?_
  cases kind <;> simp_all [TokenKind.isNeutral, TokenKind.modifier?]

lemma modifiers_yields (hlist : s.cursor.toList = tokens) :
    modifiers.Yields (matching tokens) s
      fun a s' => Goal.modifiers.Matches tokens s.cursor a s'.cursor := by
  simp [modifiers]
  split
  next word hword =>
    have hword := unmatched_shift_of_modifier? hword
    simp
    grind -ring -linarith
  · simpa

/-! ### Imports -/

lemma importKind_yields {K : Contract} (hlist : s.cursor.toList = tokens) :
    importKind.Yields K s fun _ s' =>
      s'.cursor.toList = tokens ∧ s'.cursor.unmatched = s.cursor.unmatched := by
  simp [importKind]
  split
  · split
    · simp
      grind -ring -linarith
    · simpa
  · simpa

/-- The names behind a module give back the token behind them. -/
lemma submodules_settles (hlist : s.cursor.toList = tokens) :
    submodules.Settles tokens s.cursor.unmatched s := by
  simp [submodules, Settles]
  split
  next hnone => exact ⟨hlist, Cursor.unmatched_shift_of_here?_eq_none hnone⟩
  · simp
    split
    · simp
      grind -ring -linarith
    · simp
      grind -ring -linarith
  · simp
    exact fun hcurrent => ⟨by simpa, by rw [Cursor.shift_unshift hcurrent]⟩

lemma importEnd_yields {K : Contract} (context : Context) (kind : ImportKind)
    (names : List String) (hlist : s.cursor.toList = tokens) :
    (importEnd context kind names).Yields K s fun complaint s' => complaint = none →
      s'.cursor.Settled tokens s.cursor.shift.unmatched ∧
        s'.cursor.shift.headings = s.cursor.shift.headings := by
  simp [importEnd]
  exact fun _ => separator_yields context hlist

lemma importing_yields (context : Context) (start : Location) (header : Header)
    (hlist : s.cursor.toList = tokens) (hword : s.cursor.shift.unmatched = s.cursor.unmatched) :
    (importing context start header).Yields (matching tokens) s fun kept s' =>
      kept.complaint = none → ∃ last,
        kept.value.Spans tokens s.cursor.unmatched start last s'.cursor := by
  simp [importing]
  refine (importKind_yields (by simpa)).imp fun kind t ht name hname => ?_
  simp at ht
  refine ⟨ht.1, fun names u hu hleft => ?_⟩
  refine (importEnd_yields context kind names hu).imp fun complaint v hv hnone => ?_
  obtain ⟨hsettled, hheadings⟩ := hv hnone
  have hleft' : u.cursor.shift.unmatched = s.cursor.unmatched := by grind -ring -linarith
  exact ⟨u.cursor, rfl, ⟨hu, hleft'⟩, hleft' ▸ hsettled, hheadings⟩

/-! ### Bindings, aliases and functions -/

lemma initializer_settles (hlist : s.cursor.toList = tokens) :
    initializer.Settles tokens s.cursor.shift.unmatched s := by
  simp [initializer, Settles]
  grind -ring -linarith

lemma bindings_settles (hlist : s.cursor.toList = tokens) :
    bindings.Settles tokens s.cursor.shift.unmatched s := by
  simp [bindings, Settles]
  exact ⟨hlist, fun pattern t ht hleft => (initializer_settles ht).imp (by grind -ring -linarith)⟩

/-- A procedure that builds a declaration from its range. -/
def Builds (p : Procedure (Range → Declaration)) (tokens : List Token)
    (left : List (Nat × TokenKind)) (s : State) : Prop :=
  p.Yields (matching tokens) s fun node s' =>
    s'.cursor.Settled tokens left ∧ ∀ range, (node range).range = range

lemma typeAlias_builds (header : Header) (hlist : s.cursor.toList = tokens)
    (hword : s.cursor.shift.unmatched = s.cursor.unmatched) :
    Builds (typeAlias header) tokens s.cursor.unmatched s := by
  simp [typeAlias, Builds, Declaration.range]
  grind -ring -linarith

lemma parameterName_yields {K : Contract} (hlist : s.cursor.toList = tokens) :
    parameterName.Yields K s fun _ s' => s'.cursor.Settled tokens s.cursor.unmatched := by
  simp [parameterName]
  split
  · simp
    grind -ring -linarith
  · simp

lemma parameterNames_yields {K : Contract} (hlist : s.cursor.toList = tokens) :
    parameterNames.Yields K s fun _ s' => s'.cursor.Settled tokens s.cursor.unmatched := by
  simp [parameterNames]
  refine (parameterName_yields hlist).imp fun first t ht => ⟨fun _ => ht, fun _ => ?_⟩
  exact (parameterName_yields (by simpa using ht.1)).imp (by grind -ring -linarith)

lemma parameterDefault_settles (hlist : s.cursor.toList = tokens) :
    parameterDefault.Settles tokens s.cursor.shift.unmatched s := by
  simp [parameterDefault, Settles]
  grind -ring -linarith

lemma parameter_settles (hlist : s.cursor.toList = tokens) :
    parameter.Settles tokens s.cursor.unmatched s := by
  simp [parameter, Settles]
  refine (parameterNames_yields hlist).imp fun names t ht hcolon => ?_
  exact ⟨by grind -ring -linarith, fun u hu hleft => (parameterDefault_settles hu).imp (by grind -ring -linarith)⟩

/-- The parameters end before the closing parenthesis. -/
lemma parameters_yields (hlist : s.cursor.toList = tokens) :
    parameters.Yields (matching tokens) s
      fun a s' => Goal.parameters.Matches tokens s.cursor a s'.cursor := by
  simp [parameters]
  refine (parameter_settles hlist).imp ?_
  grind -ring -linarith

lemma parameterClause_settles (hlist : s.cursor.toList = tokens) :
    parameterClause.Settles tokens s.cursor.shift.unmatched s := by
  simp [parameterClause, Settles]
  grind -ring -linarith

lemma throwsClause_settles (hlist : s.cursor.toList = tokens) :
    throwsClause.Settles tokens s.cursor.shift.unmatched s := by
  simp [throwsClause, Settles]
  grind -ring -linarith

lemma resultClause_settles (hlist : s.cursor.toList = tokens) :
    resultClause.Settles tokens s.cursor.shift.unmatched s := by
  simp [resultClause, Settles]
  grind -ring -linarith

lemma signature_settles (hlist : s.cursor.toList = tokens)
    (hword : s.cursor.shift.unmatched = s.cursor.unmatched) :
    signature.Settles tokens s.cursor.unmatched s := by
  simp [signature, Settles]
  refine fun name hname => (parameterClause_settles (by simpa)).imp fun parameters t ht hleft => ?_
  refine (throwsClause_settles ht).imp fun throws u hu hleft' => ?_
  exact (resultClause_settles hu).imp (by grind -ring -linarith)

lemma function_builds (header : Header) (hlist : s.cursor.toList = tokens)
    (hword : s.cursor.shift.unmatched = s.cursor.unmatched) :
    Builds (function header) tokens s.cursor.unmatched s := by
  simp [function, Builds]
  refine (signature_settles hlist hword).imp fun signature t ht hleft => ?_
  simp [Declaration.range]
  grind -ring -linarith

/-! ### Types -/

lemma typeName_settles (hlist : s.cursor.toList = tokens) :
    typeName.Settles tokens s.cursor.unmatched s := by
  simp [typeName, Settles]
  split <;> simp <;> grind -ring -linarith

lemma inheritanceClause_settles (hlist : s.cursor.toList = tokens) :
    inheritanceClause.Settles tokens s.cursor.shift.unmatched s := by
  simp [inheritanceClause, Settles]
  grind -ring -linarith

lemma typeDeclaration_builds (header : Header) (family : TypeFamily)
    (hlist : s.cursor.toList = tokens) (hword : s.cursor.shift.unmatched = s.cursor.unmatched) :
    Builds (typeDeclaration header family) tokens s.cursor.unmatched s := by
  simp [typeDeclaration, Builds, Declaration.range]
  refine (typeName_settles (by simpa)).imp fun name t ht hleft => ?_
  refine (inheritanceClause_settles ht).imp ?_
  grind -ring -linarith

/-- The members of a type end before its closing brace. -/
lemma members_yields (context : Context) (hlist : s.cursor.toList = tokens) :
    (members context).Yields (matching tokens) s
      fun a s' => (Goal.members context).Matches tokens s.cursor a s'.cursor := by
  simp [members]
  split
  · simp
  next kind hkind =>
    simp
    refine ⟨fun _ => by grind -ring -linarith, fun _ => ⟨fun _ => by grind -ring -linarith, fun _ => ⟨fun _ => ?_, fun _ _ => ?_⟩⟩⟩
    · refine ⟨by simpa, fun kept t hkept => ?_, fun e t => ?_⟩
      · refine itemThen_yields _ _ fun value hvalue => ?_
        obtain ⟨last, hspans⟩ := hkept (by cases hvalue; rfl)
        have hsettled := hspans.settled
        simp
        grind -ring -linarith
      · exact itemThen_yields _ _ fun value hvalue => by cases hvalue
    · simp [recoverThen]

lemma typeBody_settles (context : Context) (hlist : s.cursor.toList = tokens)
    (hhere : s.cursor.here? = some (.punctuator .leftBrace)) :
    (typeBody context).Settles tokens s.cursor.unmatched s := by
  simp [typeBody, Settles]
  grind -ring -linarith

lemma caseNames_settles (hlist : s.cursor.toList = tokens) :
    caseNames.Settles tokens s.cursor.shift.unmatched s := by
  simp [caseNames, Settles]
  grind -ring -linarith

/-! ### All declarations -/

lemma declarationNamed_builds (header : Header) (word : String)
    (hlist : s.cursor.toList = tokens) (hword : s.cursor.shift.unmatched = s.cursor.unmatched) :
    Builds (declarationNamed header word) tokens s.cursor.unmatched s := by
  cases DeclarationWord.of word with
  | typeAlias => exact typeAlias_builds header hlist hword
  | function => exact function_builds header hlist hword
  | structType | classType | enumType | protocol | extension =>
    exact typeDeclaration_builds header _ hlist hword
  | letBinding | varBinding | enumCases =>
    simp [declarationNamed, Builds, Declaration.range]
    grind -ring -linarith
  | other h => simp [declarationNamed_of_other header h, Builds]

lemma declarationFrom_yields (context : Context) (start : Location) (header : Header)
    (word : String) (hlist : s.cursor.toList = tokens)
    (hword : s.cursor.shift.unmatched = s.cursor.unmatched) :
    (declarationFrom context start header word).Yields (matching tokens) s fun kept s' =>
      kept.complaint = none → ∃ last,
        kept.value.Spans tokens s.cursor.unmatched start last s'.cursor := by
  simp [declarationFrom]
  refine ⟨fun _ => by simpa using importing_yields context start header hlist hword, fun _ => ?_⟩
  refine (declarationNamed_builds header word hlist hword).imp fun node t ht => ?_
  obtain ⟨hsettled, hrange⟩ := ht
  refine (separator_yields context hsettled.toList_eq).imp fun complaint u hu hnone => ?_
  obtain ⟨hend, hheadings⟩ := hu hnone
  rw [hsettled.unmatched_eq] at hend
  exact ⟨t.cursor, hrange _, hsettled, hend, hheadings⟩

lemma unmatched_shift_of_declarationKeyword? {c : Cursor} {context : Context} {word : String}
    (h : c.here?.bind (declarationKeyword? context) = some word) :
    c.shift.unmatched = c.unmatched := by
  refine Cursor.unmatched_shift_of_bind h fun kind hkind => ?_
  cases kind <;> simp_all [TokenKind.isNeutral, declarationKeyword?]

lemma declaration_yields (context : Context) (hlist : s.cursor.toList = tokens) :
    (declaration context).Yields (matching tokens) s
      fun a s' => (Goal.declaration context).Matches tokens s.cursor a s'.cursor := by
  simp [declaration]
  refine ⟨hlist, fun attributes t ht hleft => ⟨ht, fun modifiers u hu hleft' => ?_⟩⟩
  split
  next word hword =>
    have hword := unmatched_shift_of_declarationKeyword? hword
    rw [← hleft, ← hleft']
    exact declarationFrom_yields context _ _ word hu hword
  · simp

end Grammar

end FrontEnd
