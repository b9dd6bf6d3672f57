/-
Declarations keep their footing.

What stands in front of a declaration is looked at twice: `HeaderPlace.leadsOn` looks ahead
whether attributes lead on to a declaration keyword, and the goals `attributes` and
`modifiers` read them.  The two agree, so a declaration that was called has a keyword behind
its attributes; if that is no modifier, it says which declaration it is.
-/
import FrontEnd.Grammar.Declaration
import FrontEnd.Proofs.Footing.Statement
import FrontEnd.Proofs.Keyword

namespace FrontEnd

namespace HeaderPlace

/-- Blanks lead on from everywhere but the head. -/
lemma leadsOn_dropWhile_isBlank {place : HeaderPlace} (hplace : place ≠ .head)
    (tokens : List Token) :
    place.leadsOn (tokens.dropWhile Token.isBlank) = place.leadsOn tokens := by
  induction tokens with
  | nil => rfl
  | cons t later ih =>
    by_cases hblank : t.isBlank = true
    · rw [List.dropWhile_cons_of_pos hblank, ih]
      rcases t with ⟨kind, span, range⟩
      cases kind <;>
        simp [Token.isBlank, TokenKind.isBlank, TokenKind.isInlineBlank,
          TokenKind.isLineBreak] at hblank <;>
        cases place <;>
        simp_all [leadsOn, TokenKind.isBlank, TokenKind.isInlineBlank, TokenKind.isLineBreak]
    · rw [List.dropWhile_cons_of_neg hblank]

/-- A token that is not blank and goes on behind an attribute may also start anew. -/
lemma leadsOn_head_of_rest {tokens : List Token} (hblank : tokens.head?.all (!·.isBlank))
    (h : HeaderPlace.rest.leadsOn tokens) : HeaderPlace.head.leadsOn tokens := by
  rcases tokens with _ | ⟨⟨kind, span, range⟩, later⟩
  · simp [leadsOn] at h
  · cases kind with
    | punctuator mark => cases mark <;> simp_all [leadsOn, Token.isBlank]
    | _ => simp_all [leadsOn, Token.isBlank]

end HeaderPlace

namespace Cursor

variable {c : Cursor}

lemma ahead_advance_anyLine (c : Cursor) :
    (c.advance .anyLine).ahead = c.remaining.dropWhile Token.isBlank := by
  rw [advance_eq_land, ahead_land]
  rfl

/-- What a declaration starts with: an `@`, or the keyword that says so. -/
lemma startsDeclaration_cases (hpos : 0 < c.position) (h : c.startsDeclaration) :
    (c.here? = some (.punctuator .atSign) ∧ HeaderPlace.name.leadsOn c.remaining) ∨
      c.here?.any (·.isDeclarationKeyword) := by
  rcases c with a | ⟨b, ⟨kind, span, range⟩, a⟩ | b
  · simp [position] at hpos
  · change HeaderPlace.head.leadsOn (⟨kind, span, range⟩ :: a) = true at h
    cases kind with
    | punctuator mark =>
      cases mark <;> simp [HeaderPlace.leadsOn, TokenKind.isDeclarationKeyword,
        TokenKind.role?] at h
      exact .inl ⟨rfl, h⟩
    | keyword word role => exact .inr h
    | _ => simp [HeaderPlace.leadsOn, TokenKind.isDeclarationKeyword, TokenKind.role?] at h
  · simp [startsDeclaration, HeaderPlace.leadsOn, current?, remaining] at h

lemma clear_of_isDeclarationKeyword (h : c.here?.any (·.isDeclarationKeyword) = true) :
    c.Clear := by
  refine clear_of_any h fun kind hkind => ?_
  cases kind <;>
    simp_all [TokenKind.isBlank, TokenKind.isInlineBlank, TokenKind.isLineBreak,
      TokenKind.isDeclarationKeyword, TokenKind.role?]

/-- Behind the `@` of an attribute stands a name, and what stands behind the name starts a
declaration too. -/
lemma startsDeclaration_advance_advance (h : HeaderPlace.name.leadsOn c.remaining) :
    ((c.advance .anyLine).here?.bind (·.name? false)).isSome ∧
      ((c.advance .anyLine).advance .anyLine).startsDeclaration := by
  rw [← HeaderPlace.leadsOn_dropWhile_isBlank (by decide), ← ahead_advance_anyLine] at h
  have hclear := clear_advance_anyLine c
  have hpos := position_advance_pos .anyLine c
  generalize c.advance .anyLine = d at h hclear hpos ⊢
  rcases d with a | ⟨b, ⟨kind, span, range⟩, a⟩ | b
  · simp [position] at hpos
  · have hkind := hclear _ rfl
    cases kind <;>
      simp [ahead, current?, remaining, HeaderPlace.leadsOn, TokenKind.isBlank,
        TokenKind.isInlineBlank, TokenKind.isLineBreak, TokenKind.plain] at h hkind
    refine ⟨rfl, ?_⟩
    change HeaderPlace.head.leadsOn (ahead _) = true
    rw [ahead_advance_anyLine]
    refine HeaderPlace.leadsOn_head_of_rest ?_ ?_
    · have hhead := List.head?_dropWhile_not Token.isBlank a
      rw [remaining]
      rcases hdrop : (a.dropWhile Token.isBlank).head? with _ | t
      · rfl
      · simpa [hdrop] using hhead
    · rwa [HeaderPlace.leadsOn_dropWhile_isBlank (by decide)]
  · simp [ahead, current?, remaining, HeaderPlace.leadsOn] at h

end Cursor

namespace Grammar

open Procedure

variable {s : State}

/-! ### What stands in front -/

lemma attributes_treads (hpos : 0 < s.cursor.position) (hclear : s.cursor.Clear) :
    attributes.Treads footingOnward s
      (fun names s' => 0 < s'.cursor.position ∧ Goal.attributes.Stand s.cursor names s'.cursor)
      fun e s' => 0 < s'.cursor.position ∧ e.kind ≠ .internal ∧ s'.cursor.Placeable := by
  have hstarts (h : s.cursor.startsDeclaration) := Cursor.startsDeclaration_cases hpos h
  simp [attributes]
  refine ⟨fun hat => ?_, fun hat => ⟨hpos, hclear, fun h => ?_⟩⟩
  · -- `@` leads on to a name, so the other way of reading on is none of a declaration
    have hname (h : s.cursor.startsDeclaration) :
        HeaderPlace.name.leadsOn s.cursor.remaining := by
      rcases hstarts h with ⟨-, hname⟩ | hkeyword
      · exact hname
      · rw [hat] at hkeyword
        cases hkeyword
    split
    · simp
      intro t _ htpos htclear htkeyword _
      exact ⟨htpos, htclear, fun h => htkeyword (Cursor.startsDeclaration_advance_advance (hname h)).2,
        fun h => absurd hat h⟩
    next hnone =>
      simp
      intro t _ htpos htclear _ _
      refine ⟨htpos, htclear, fun h => ?_, fun h => absurd hat h⟩
      have hsome := (Cursor.startsDeclaration_advance_advance (hname h)).1
      rw [hnone] at hsome
      cases hsome
  · exact (hstarts h).resolve_left fun h => hat h.1

lemma modifiers_treads (hpos : 0 < s.cursor.position) (hclear : s.cursor.Clear) :
    modifiers.Treads footingOnward s
      (fun words s' => 0 < s'.cursor.position ∧ Goal.modifiers.Stand s.cursor words s'.cursor)
      fun e s' => 0 < s'.cursor.position ∧ e.kind ≠ .internal ∧ s'.cursor.Placeable := by
  simp [modifiers]
  split
  · simp
    grind -ring -linarith
  · simpa using ⟨hpos, hclear⟩

/-! ### Imports -/

lemma importKind_stands (hpos : 0 < s.cursor.position) (hclear : s.cursor.Clear) :
    importKind.Stands s := by
  simp [importKind, Stands]
  split
  · split
    · simp
    · simpa using ⟨hpos, hclear⟩
  · simpa using ⟨hpos, hclear⟩

/-- From the token behind one that is not blank, the latter may be taken back. -/
lemma submodules_approach_shift {c : Cursor} (hpos : 0 < c.position) (hclear : c.Clear) :
    Goal.submodules.Approach c.shift := by
  intro hcurrent
  rw [Cursor.unshift_shift hcurrent]
  exact ⟨Cursor.one_lt_position_shift hpos hcurrent, hclear⟩

/-- The names behind a module start on the token behind a name or a period, and may give it
back. -/
lemma submodules_stands (hpos : 0 < s.cursor.position)
    (hback : s.cursor.current?.isSome → 1 < s.cursor.position ∧ s.cursor.unshift.Clear) :
    submodules.Stands s := by
  simp [submodules, Stands]
  split
  next hnone => exact ⟨hpos, Cursor.clear_of_here?_eq_none hnone⟩
  next hdot =>
    have hclear : s.cursor.Clear := Cursor.clear_of_here? hdot rfl
    simp
    split
    next name hname =>
      have hclear' := Cursor.clear_of_name? hname
      simp
      exact ⟨hclear, hclear', submodules_approach_shift (by simp) hclear'⟩
    · simp
      exact ⟨hclear, submodules_approach_shift hpos hclear⟩
  next kind _ hkind =>
    have hcurrent := Cursor.current?_isSome_of_here? hkind
    have hposition := Cursor.position_unshift hcurrent
    obtain ⟨hpos, hclear⟩ := hback hcurrent
    simp
    exact ⟨⟨hcurrent, hpos, .inr hclear⟩, by omega, hclear⟩

lemma importEnd_treads (context : Context) (kind : ImportKind) (names : List String)
    (hpos : 0 < s.cursor.position) (hclear : s.cursor.Clear) {err : ParseError → State → Prop} :
    (importEnd context kind names).Treads footingOnward s
      (fun complaint s' => 0 < s'.cursor.position ∧
        ∀ e, complaint = some e → e.kind ≠ .internal) err := by
  simp [importEnd]
  refine ⟨fun _ _ => ⟨hclear.onLine.placeable, hpos⟩, fun _ => ?_⟩
  exact separator_treads context hpos hclear.onLine

lemma importing_treads (context : Context) (start : Location) (header : Header) :
    (importing context start header).Treads footingOnward s
      (fun kept s' => 0 < s'.cursor.position ∧ ∀ e, kept.complaint = some e → e.kind ≠ .internal)
      fun e s' => 0 < s'.cursor.position ∧ e.kind ≠ .internal ∧ s'.cursor.Placeable := by
  simp [importing]
  refine (importKind_stands (by simp) (by simp)).imp (fun kind t ht htc => ?_) (by grind -ring -linarith)
  refine ⟨fun name hname => ⟨htc, submodules_approach_shift ht htc, fun names u hu huc => ?_⟩, ?_⟩
  · exact ⟨huc.onLine, importEnd_treads context kind names hu huc⟩
  · grind -ring -linarith

/-! ### Bindings, aliases and functions -/

lemma initializer_stands (hpos : 0 < s.cursor.position) (hclear : s.cursor.Clear) :
    initializer.Stands s := by
  simp [initializer, Stands]
  grind -ring -linarith

lemma bindings_stands : bindings.Stands s := by
  simp [bindings, Stands]
  refine fun pattern t _ ht htc => (initializer_stands ht htc).imp ?_ ?_ <;> grind -ring -linarith

lemma typeAlias_stands (header : Header) : (typeAlias header).Stands s := by
  simp [typeAlias, Stands]

lemma parameterName_stands (hpos : 0 < s.cursor.position) (hclear : s.cursor.Clear) :
    parameterName.Stands s := by
  simp [parameterName, Stands]
  split <;> simp <;> grind -ring -linarith

lemma parameterNames_stands (hpos : 0 < s.cursor.position) (hclear : s.cursor.Clear) :
    parameterNames.Stands s := by
  simp [parameterNames, Stands]
  refine (parameterName_stands hpos hclear).imp (fun first t ht htc => ⟨fun _ => ?_, fun _ => ?_⟩) ?_
  · exact ⟨ht, htc⟩
  · exact (parameterName_stands (by simp) (by simp)).imp (by grind -ring -linarith) (by grind -ring -linarith)
  · grind -ring -linarith

lemma parameterDefault_stands (hpos : 0 < s.cursor.position) (hclear : s.cursor.Clear) :
    parameterDefault.Stands s := by
  simp [parameterDefault, Stands]
  grind -ring -linarith

lemma parameter_stands (hpos : 0 < s.cursor.position) (hclear : s.cursor.Clear) :
    parameter.Stands s := by
  simp [parameter, Stands]
  refine (parameterNames_stands hpos hclear).imp (fun names t _ _ => ?_) (by grind -ring -linarith)
  refine fun _ u _ hu huc => (parameterDefault_stands hu huc).imp ?_ ?_ <;> grind -ring -linarith

lemma parameters_stands (hpos : 0 < s.cursor.position) (hclear : s.cursor.Clear) :
    parameters.Stands s := by
  simp [parameters, Stands]
  refine (parameter_stands hpos hclear).imp ?_ ?_ <;> grind -ring -linarith

lemma parameterClause_stands : parameterClause.Stands s := by
  simp [parameterClause, Stands]

lemma throwsClause_stands (hpos : 0 < s.cursor.position) (hclear : s.cursor.Clear) :
    throwsClause.Stands s := by
  simp [throwsClause, Stands]
  grind -ring -linarith

lemma resultClause_stands (hpos : 0 < s.cursor.position) (hclear : s.cursor.Clear) :
    resultClause.Stands s := by
  simp [resultClause, Stands]
  grind -ring -linarith

lemma signature_stands : signature.Stands s := by
  simp [signature, Stands]
  refine fun _ _ => parameterClause_stands.imp (fun parameters t ht htc => ?_) (by grind -ring -linarith)
  refine (throwsClause_stands ht htc).imp (fun throws u hu huc => ?_) (by grind -ring -linarith)
  refine (resultClause_stands hu huc).imp ?_ ?_ <;> grind -ring -linarith

lemma function_stands (header : Header) : (function header).Stands s := by
  simp [function, Stands]
  refine signature_stands.imp ?_ ?_ <;> grind -ring -linarith

/-! ### Types -/

lemma typeName_stands (hpos : 0 < s.cursor.position) (hclear : s.cursor.Clear) :
    typeName.Stands s := by
  simp [typeName, Stands]
  split <;> simp <;> grind -ring -linarith

lemma inheritanceClause_stands (hpos : 0 < s.cursor.position) (hclear : s.cursor.Clear) :
    inheritanceClause.Stands s := by
  simp [inheritanceClause, Stands]
  grind -ring -linarith

lemma typeDeclaration_stands (header : Header) (family : TypeFamily) :
    (typeDeclaration header family).Stands s := by
  simp [typeDeclaration, Stands]
  refine (typeName_stands (by simp) (by simp)).imp (fun name t ht htc => ?_) (by grind -ring -linarith)
  refine (inheritanceClause_stands ht htc).imp ?_ ?_ <;> grind -ring -linarith

lemma members_stands (context : Context) (hpos : 0 < s.cursor.position) :
    (members context).Stands s := by
  simp [members, Stands]
  split
  · simp
  next kind hkind =>
    have hfirst := Cursor.one_lt_position_advance .anyLine hpos
      (Cursor.current?_isSome_of_here? hkind)
    simp
    refine fun _ _ => ⟨fun hstarts => ⟨?_, fun kept t ht _ hkept => ?_, fun e t ht _ he _ => ?_⟩,
      fun _ _ => ?_⟩
    · simpa [hkind] using hstarts
    · refine itemThen_treads _ _ (by omega) ?_ (by simp) fun later u hu => ?_
      · rintro _ ⟨⟩
        exact hkept
      · simpa using hu
    · refine itemThen_treads _ _ (by omega) (by simp) ?_ fun later u hu => ?_
      · rintro _ ⟨⟩
        exact he
      · simpa using hu
    · exact recoverThen_treads hfirst (by simp) fun u hu => by simpa using hu

lemma typeBody_stands (context : Context) (hpos : 0 < s.cursor.position) :
    (typeBody context).Stands s := by
  simp [typeBody, Stands]
  grind -ring -linarith

lemma caseNames_stands : caseNames.Stands s := by
  simp [caseNames, Stands]

/-! ### All declarations -/

lemma declarationNamed_stands (header : Header) (word : String) (hpos : 0 < s.cursor.position) (hclear : s.cursor.Clear) :
    (declarationNamed header word).Stands s := by
  cases DeclarationWord.of word with
  | typeAlias => exact typeAlias_stands header
  | function => exact function_stands header
  | structType | classType | enumType | protocol | extension =>
    exact typeDeclaration_stands header _
  | letBinding | varBinding | enumCases =>
    simp [declarationNamed, Stands]
    grind -ring -linarith
  | other h =>
    simp [declarationNamed_of_other header h, Stands]
    grind -ring -linarith

lemma declarationFrom_treads (context : Context) (start : Location) (header : Header)
    (word : String) (hpos : 0 < s.cursor.position) (hclear : s.cursor.Clear) :
    (declarationFrom context start header word).Treads footingOnward s
      (fun kept s' => 0 < s'.cursor.position ∧ ∀ e, kept.complaint = some e → e.kind ≠ .internal)
      fun e s' => 0 < s'.cursor.position ∧ e.kind ≠ .internal ∧ s'.cursor.Placeable := by
  simp [declarationFrom]
  refine ⟨fun _ => by simpa using importing_treads context start header, fun _ => ?_⟩
  refine (declarationNamed_stands header word hpos hclear).imp (fun node t ht htc => ?_) (by grind -ring -linarith)
  exact ⟨htc.onLine, separator_treads context ht htc.onLine⟩

/-- A declaration may be dispatched by its keyword. -/
lemma declarationKeyword?_isSome {context : Context} {kind : TokenKind}
    (h : kind.isDeclarationKeyword = true ∨ context = .enumBody ∧ kind.isKeyword "case" = true) :
    (declarationKeyword? context kind).isSome := by
  cases kind with
  | keyword word role =>
    have hword : role = .declaration ∨ context = .enumBody ∧ word = "case" := by
      simpa [TokenKind.isDeclarationKeyword, TokenKind.role?, TokenKind.isKeyword] using h
    simp [declarationKeyword?, hword]
  | _ => simp [TokenKind.isDeclarationKeyword, TokenKind.role?, TokenKind.isKeyword] at h

lemma declaration_treads (context : Context) (hpos : 0 < s.cursor.position)
    (happroach : (Goal.declaration context).Approach s.cursor) :
    (declaration context).Treads footingOnward s
      (fun kept s' => 0 < s'.cursor.position ∧ ∀ e, kept.complaint = some e → e.kind ≠ .internal)
      fun e s' => 0 < s'.cursor.position ∧ e.kind ≠ .internal ∧ s'.cursor.Placeable := by
  have hclear : s.cursor.Clear := by
    rcases happroach with hstarts | ⟨-, hcase⟩
    · rcases Cursor.startsDeclaration_cases hpos hstarts with ⟨hat, -⟩ | hkeyword
      · exact Cursor.clear_of_here? hat rfl
      · exact Cursor.clear_of_isDeclarationKeyword hkeyword
    · exact Cursor.clear_of_isKeyword hcase
  -- attributes are read from an `@` only, so a `case` stands behind none of them
  have hkeyword (d : Cursor)
      (hstarts : s.cursor.startsDeclaration → d.here?.any (·.isDeclarationKeyword))
      (hcase : s.cursor.here? ≠ some (.punctuator .atSign) → d = s.cursor) :
      (d.here?.bind (declarationKeyword? context)).isSome := by
    rcases happroach with h | ⟨hcontext, hword⟩
    · obtain ⟨kind, hkind, hdeclaration⟩ := (Option.any_eq_true _ _).mp (hstarts h)
      rw [hkind, Option.bind_some]
      exact declarationKeyword?_isSome (.inl hdeclaration)
    · obtain ⟨kind, hkind, hcase'⟩ := (Option.any_eq_true _ _).mp hword
      have hat : s.cursor.here? ≠ some (.punctuator .atSign) := by
        rw [hkind]
        rintro ⟨⟩
        cases hcase'
      rw [hcase hat, hkind, Option.bind_some]
      exact declarationKeyword?_isSome (.inr ⟨hcontext, hcase'⟩)
  simp [declaration]
  refine ⟨hclear.onLine, ⟨hpos, hclear⟩, fun attributes t _ ht htc hstarts hcase => ?_⟩
  refine ⟨⟨ht, htc⟩, fun modifiers u _ hu huc hsame => ?_⟩
  split
  next word hword => exact declarationFrom_treads context _ _ word hu huc
  next hword =>
    have hne : modifiers ≠ [] := by
      intro hnil
      have hsome := hkeyword t.cursor hstarts hcase
      rw [← hsame hnil, hword] at hsome
      cases hsome
    simp [hne]
    exact ⟨huc.onLine.placeable, hu, huc.onLine.placeable⟩

end Grammar

end FrontEnd
