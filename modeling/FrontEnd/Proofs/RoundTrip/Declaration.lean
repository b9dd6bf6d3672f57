/-
A text that is one declaration.

A list of tokens that starts with the keyword of a declaration and that one declaration takes
up to the last token is read as this declaration.  For constants and aliases the rest is the
reading of the value or type: `Parser.exists_readTokens_constant` and
`Parser.exists_readTokens_typeAlias`.
-/
import FrontEnd.Proofs.Contract.Run
import FrontEnd.Proofs.Cursor.Sees
import FrontEnd.Proofs.Progress.Steps

namespace FrontEnd

open Procedure in
lemma Grammar.declarationNamed_let (header : Header) :
    declarationNamed header "let" = (do
      let items ← read .bindings
      return (.bindings · header false items)) :=
  rfl

lemma Grammar.declarationNamed_typealias (header : Header) :
    declarationNamed header "typealias" = typeAlias header :=
  rfl

namespace Goal

open Procedure

variable {room : Nat} {s : State} {kind : TokenKind} {kinds : List TokenKind}

lemma reads_attributes_nil (h : s.cursor.here? ≠ some (.punctuator .atSign)) :
    attributes.Reads room s (.ok []) s := by
  refine Reads.of_meets (roomInside?_of_not_isLevel rfl) ?_
  simp [procedure, Grammar.attributes, h]

lemma reads_modifiers_nil (h : s.cursor.here?.bind (·.modifier?) = none) :
    modifiers.Reads room s (.ok []) s := by
  refine Reads.of_meets (roomInside?_of_not_isLevel rfl) ?_
  simp [procedure, Grammar.modifiers, h]

/-- A name that is declared without a type. -/
lemma reads_pattern_identifier {name : String} (h : s.cursor.here? = some (.identifier name))
    (hcolon : s.cursor.following? .sameLine ≠ some (.punctuator .colon)) (hroom : 0 < room) :
    (pattern .declared).Reads room s (.ok (.identifier s.cursor.range name)) s := by
  obtain ⟨inside, rfl⟩ := Nat.exists_eq_succ_of_ne_zero hroom.ne'
  refine Reads.of_meets (roomInside?_of_isLevel rfl) ?_
  simp only [procedure, Grammar.pattern, Grammar.declaredPattern, Grammar.untypedPattern,
    meets_bind, meets_startLocation, meets_here, h, Option.bind_some, TokenKind.name?, meets_pure,
    meets_rangeFrom, meets_isNext, hcolon, decide_false, meets_ite, Bool.false_eq_true,
    false_imp_iff, not_false_eq_true, true_imp_iff, true_and, and_true]
  rfl

/-- One binding with a value that goes up to the last token. -/
lemma reads_bindings {name : String} {e : Expression} {t : State} {last : TokenKind}
    (h : s.cursor.Sees (kind :: .whitespace :: .identifier name :: .whitespace ::
      .punctuator .equal :: .whitespace :: kinds)) (hroom : 0 < room)
    (hvalue : (expression 0).Reads room (s.moveTo (((s.cursor.advance .anyLine).advance
      .sameLine).advance .anyLine)) (.ok e) t) (hlast : t.cursor.Sees [last]) :
    bindings.Reads room s
      (.ok [⟨.identifier (s.cursor.advance .anyLine).range name, some e⟩]) t := by
  have hname := h.advance_blank rfl .anyLine
  have hequal : (s.cursor.advance .anyLine).following? .sameLine = some (.punctuator .equal) := by
    rw [hname.following?_eq]
    rfl
  have hpattern : (pattern .declared).Reads room (s.moveTo (s.cursor.advance .anyLine))
      (.ok (.identifier (s.cursor.advance .anyLine).range name))
      (s.moveTo (s.cursor.advance .anyLine)) :=
    reads_pattern_identifier hname.here?_eq (by rw [State.cursor_moveTo, hequal]; exact nofun) hroom
  have hcomma : t.cursor.following? .sameLine = none := by
    rw [hlast.following?_eq]
    rfl
  refine Reads.of_meets (roomInside?_of_not_isLevel rfl) ?_
  simp only [procedure, Grammar.bindings, Grammar.initializer, meets_bind, meets_advance,
    meets_read_of_reads hpattern, meets_isNext, State.cursor_moveTo, hequal, decide_true, meets_ite,
    true_imp_iff, State.moveTo_moveTo, meets_read_of_reads hvalue, hcomma, meets_pure, decide_false,
    Bool.false_eq_true, reduceCtorEq, false_imp_iff, not_false_eq_true, not_true_eq_false,
    and_self]

/-- Behind its modifiers a declaration goes on from its keyword. -/
lemma meets_declarationFrom {c : Cursor} {words : List String} {word : String}
    (hsign : s.cursor.here? ≠ some (.punctuator .atSign))
    (hmodifiers : modifiers.Reads room s (.ok words) (s.moveTo c))
    (hword : c.here? = some (.keyword word .declaration)) (way : List Event)
    (ok : List Event → Kept Declaration → State → Prop)
    (err : List Event → ParseError → State → Prop) :
    (Grammar.declaration .topLevel).Meets (.reading room) way s ok err ↔
      (Grammar.declarationFrom .topLevel s.cursor.startLocation ⟨[], words⟩ word).Meets
        (.reading room) (.called modifiers s :: .called attributes s :: way) (s.moveTo c) ok err := by
  have hattributes : attributes.Reads room s (.ok []) s := reads_attributes_nil hsign
  simp only [Grammar.declaration, meets_bind, meets_startLocation, meets_read_of_reads hattributes,
    meets_read_of_reads hmodifiers, meets_here, State.cursor_moveTo, hword, Option.bind_some,
    Grammar.declarationKeyword?, decide_true, Bool.true_or, if_true]

/-- Without attributes and modifiers it goes on from there at once. -/
lemma meets_declarationFrom_nil {word : String}
    (h : s.cursor.here? = some (.keyword word .declaration))
    (hmodifier : KeywordRole.modifiers.contains word = false) (way : List Event)
    (ok : List Event → Kept Declaration → State → Prop)
    (err : List Event → ParseError → State → Prop) :
    (Grammar.declaration .topLevel).Meets (.reading room) way s ok err ↔
      (Grammar.declarationFrom .topLevel s.cursor.startLocation ⟨[], []⟩ word).Meets
        (.reading room) (.called modifiers s :: .called attributes s :: way) s ok err := by
  have hmodifiers : modifiers.Reads room s (.ok []) (s.moveTo s.cursor) :=
    reads_modifiers_nil (by simpa [h, TokenKind.modifier?] using hmodifier)
  exact meets_declarationFrom (by rw [h]; simp) hmodifiers h way ok err

/-- A declaration without attributes and modifiers goes on from its keyword. -/
lemma meets_declaration (word : String) (h : s.cursor.here? = some (.keyword word .declaration))
    (hmodifier : KeywordRole.modifiers.contains word = false) (himport : word ≠ "import")
    (way : List Event) (ok : List Event → Kept Declaration → State → Prop)
    (err : List Event → ParseError → State → Prop) :
    (Grammar.declaration .topLevel).Meets (.reading room) way s ok err ↔
      (Grammar.declarationNamed ⟨[], []⟩ word).Meets (.reading room)
        (.called modifiers s :: .called attributes s :: way) s
        (fun way node t => (Grammar.separator .topLevel).Meets (.reading room) way t
          (fun way complaint u =>
            ok way ⟨node ⟨s.cursor.startLocation, t.cursor.stopLocation⟩, complaint⟩ u) err) err := by
  rw [meets_declarationFrom_nil h hmodifier]
  simp only [Grammar.declarationFrom, himport, if_false, meets_bind, meets_rangeFrom, meets_pure]

/-- A declaration without attributes and modifiers that ends with the last token. -/
lemma reads_declaration (word : String) (h : s.cursor.here? = some (.keyword word .declaration))
    (hmodifier : KeywordRole.modifiers.contains word = false) (himport : word ≠ "import")
    {build : Range → Declaration} {t : State} {last : TokenKind} (hlast : t.cursor.Sees [last])
    (hnamed : ∀ way, (Grammar.declarationNamed ⟨[], []⟩ word).Meets (.reading room) way s
      (fun _ node s' => node = build ∧ s' = t) fun _ _ _ => False) :
    (declaration .topLevel).Reads room s
      (.ok ⟨build ⟨s.cursor.startLocation, t.cursor.stopLocation⟩, none⟩)
      (t.moveTo (t.cursor.advance .sameLine)) := by
  have hend : (t.cursor.advance .sameLine).here? = none :=
    (hlast.advance_nil .sameLine).here?_eq
  refine Reads.of_meets (roomInside?_of_not_isLevel rfl) ?_
  rw [procedure, meets_declaration word h hmodifier himport]
  refine (hnamed _).imp (fun way node u hu => ?_) fun _ _ _ h => h
  obtain ⟨rfl, rfl⟩ := hu
  simp [Grammar.separator, hend]

/-- The kinds of the first tokens of a declaration with a name and something behind an equals
sign. -/
def head (word name : String) : List TokenKind :=
  [.keyword word .declaration, .whitespace, .identifier name, .whitespace, .punctuator .equal,
    .whitespace]

/-- Behind the equals sign an alias is a type. -/
lemma meets_typeAlias {word name : String} (h : s.cursor.Sees (head word name ++ kinds))
    (header : Header) (way : List Event) (ok : List Event → (Range → Declaration) → State → Prop)
    (err : List Event → ParseError → State → Prop) :
    (Grammar.typeAlias header).Meets (.reading room) way s ok err ↔
      (Procedure.read .type).Meets (.reading room) way
        (s.moveTo (((s.cursor.advance .anyLine).advance .anyLine).advance .anyLine))
        (fun way T t => ok way (.typeAlias · header name T) t) err := by
  have hname := h.advance_blank rfl .anyLine
  have hequal := hname.advance_blank rfl .anyLine
  have hname' : (s.cursor.advance .anyLine).here? = some (.identifier name) := hname.here?_eq
  have hequal' : ((s.cursor.advance .anyLine).advance .anyLine).here? = some (.punctuator .equal) :=
    hequal.here?_eq
  simp [Grammar.typeAlias, hname', hequal', TokenKind.name?]

/-- What is read from the keyword of an alias on without a complaint, and where it ends. -/
lemma Reads.exists_of_typeAlias {name : String} {d : Declaration} {t : State}
    (h : s.cursor.Sees (head "typealias" name ++ kinds))
    (hreads : (declaration .topLevel).Reads room s (.ok ⟨d, none⟩) t) :
    ∃ T u range, d = .typeAlias range ⟨[], []⟩ name T ∧
      type.Reads room
        (s.moveTo (((s.cursor.advance .anyLine).advance .anyLine).advance .anyLine)) (.ok T) u ∧
      ∀ next, (u.cursor.advance .sameLine).here? = some next →
        next = .punctuator .semicolon ∨ next = .lineFeed := by
  have hmeets : (Grammar.declaration .topLevel).Meets (.reading room) [] s
      (fun _ kept _ => kept.complaint = none →
        ∃ T u range, kept.value = .typeAlias range ⟨[], []⟩ name T ∧
          type.Reads room
            (s.moveTo (((s.cursor.advance .anyLine).advance .anyLine).advance .anyLine)) (.ok T) u ∧
          ∀ next, (u.cursor.advance .sameLine).here? = some next →
            next = .punctuator .semicolon ∨ next = .lineFeed)
      fun _ _ _ => True := by
    rw [meets_declaration "typealias" h.here?_eq (by decide) (by decide),
      Grammar.declarationNamed_typealias, meets_typeAlias h]
    refine (meets_read ..).mpr ⟨trivial, fun T u hT => ?_, fun _ _ _ => trivial⟩
    simp only [Grammar.separator, meets_bind, meets_advance, meets_here, State.cursor_moveTo]
    split
    next hnone => exact fun _ => ⟨T, u, _, rfl, hT, by simp [hnone]⟩
    next hsemicolon => exact fun _ => ⟨T, u, _, rfl, hT, by simp [hsemicolon]⟩
    next hbreak => exact fun _ => ⟨T, u, _, rfl, hT, by simp [hbreak]⟩
    next => simp [Context.isNested]
  exact hreads.value_of_meets (roomInside?_of_not_isLevel rfl) hmeets rfl

end Goal

namespace Parser

open TopLevel

/-- A list of tokens that is one declaration from its first token to its last one. -/
lemma readTokens_of_declaration (p : Parser) {tokens : List Token} {d : Declaration} {t : State}
    (hstarts : (Cursor.start tokens).shift.startsDeclaration = true)
    (hreads : (Goal.declaration .topLevel).Reads p.maxDepth ⟨(Cursor.start tokens).shift, []⟩
      (.ok ⟨d, none⟩) t) (hend : t.cursor.current? = none) :
    p.readTokens tokens = ⟨⟨rootRange tokens, [d]⟩, t.noted.reverse⟩ := by
  have hcurrent : (Cursor.start tokens).shift.current?.isSome := by
    cases tokens with
    | nil => cases hstarts
    | cons token tokens => rfl
  have hpos := (hreads.onward (by simp)).2
  have hstep : Step p.maxDepth ([], ⟨(Cursor.start tokens).shift, []⟩)
      ([d], t.moveTo t.cursor.shift) := .declaration hcurrent hstarts hreads
  refine p.readTokens_eq_of_run (.single hstep) ?_
  rcases hc : t.cursor with a | ⟨b, u, a⟩ | b
  · rw [hc] at hpos
    cases tokens with
    | nil => cases hstarts
    | cons token tokens => exact absurd hpos (by simp [Cursor.shift, Cursor.position])
  · simp [hc, Cursor.current?] at hend
  · rfl

/-- The kinds of the tokens of a constant without a type, up to its value. -/
def constantHead (name : String) : List TokenKind :=
  Goal.head "let" name

/-- A constant whose value takes up the rest of the tokens. -/
lemma exists_readTokens_constant (p : Parser) {tokens : List Token} {name : String}
    {kind : TokenKind} {kinds : List TokenKind} {good : Expression → Prop}
    (htokens : tokens.map (·.kind.plain) = constantHead name ++ kind :: kinds)
    (hkind : kind.isBlank = false) (hroom : 0 < p.maxDepth)
    (hvalue : ∀ s : State, s.cursor.Sees (kind :: kinds) →
      ∃ e t last, (Goal.expression 0).Reads p.maxDepth s (.ok e) t ∧ t.noted = s.noted ∧
        t.cursor.Sees [last] ∧ good e) :
    ∃ range place e, good e ∧ p.readTokens tokens =
      ⟨⟨rootRange tokens, [.bindings range ⟨[], []⟩ false [⟨.identifier place name, some e⟩]]⟩, []⟩ := by
  have hfirst : (Cursor.start tokens).shift.Sees (constantHead name ++ kind :: kinds) := by
    rw [← htokens, Cursor.shift_eq_land]
    exact Cursor.sees_land _ _
  have hstart := ((hfirst.advance_blank rfl .anyLine).advance_blank rfl .sameLine).advance_blank
    hkind .anyLine
  obtain ⟨e, t, last, hreads, hnoted, hlast, hgood⟩ := hvalue
    ⟨((((Cursor.start tokens).shift.advance .anyLine).advance .sameLine).advance .anyLine), []⟩ hstart
  have hbindings := Goal.reads_bindings (s := ⟨(Cursor.start tokens).shift, []⟩) hfirst hroom hreads
    hlast
  have hdeclaration := Goal.reads_declaration "let"
    (s := ⟨(Cursor.start tokens).shift, []⟩) hfirst.here?_eq (by decide) (by decide) hlast
    fun way => by
      rw [Grammar.declarationNamed_let, Procedure.meets_bind,
        Procedure.meets_read_of_reads hbindings]
      exact ⟨rfl, rfl⟩
  have hread := p.readTokens_of_declaration (hfirst.startsDeclaration rfl) hdeclaration
    (hlast.advance_nil .sameLine).current?_eq_none
  have hnone : t.noted = [] := hnoted
  refine ⟨⟨(Cursor.start tokens).shift.startLocation, t.cursor.stopLocation⟩,
    ((Cursor.start tokens).shift.advance .anyLine).range, e, hgood, ?_⟩
  rw [hread, State.moveTo, hnone]
  rfl

/-- An alias whose type takes up the rest of the tokens. -/
lemma exists_readTokens_typeAlias (p : Parser) {tokens : List Token} {name : String}
    {kind : TokenKind} {kinds : List TokenKind} {T : TypeExpr}
    (htokens : tokens.map (·.kind.plain) = Goal.head "typealias" name ++ kind :: kinds)
    (hkind : kind.isBlank = false) (htype : ∀ s : State, s.cursor.Sees (kind :: kinds) →
      ∃ t last, Goal.type.Reads p.maxDepth s (.ok T) t ∧ t.noted = s.noted ∧ t.cursor.Sees [last]) :
    ∃ range, p.readTokens tokens =
      ⟨⟨rootRange tokens, [.typeAlias range ⟨[], []⟩ name T]⟩, []⟩ := by
  have hfirst : (Cursor.start tokens).shift.Sees (Goal.head "typealias" name ++ kind :: kinds) := by
    rw [← htokens, Cursor.shift_eq_land]
    exact Cursor.sees_land _ _
  have hstart := ((hfirst.advance_blank rfl .anyLine).advance_blank rfl .anyLine).advance_blank
    hkind .anyLine
  obtain ⟨t, last, hreads, hnoted, hlast⟩ := htype
    ⟨((((Cursor.start tokens).shift.advance .anyLine).advance .anyLine).advance .anyLine), []⟩ hstart
  have hdeclaration := Goal.reads_declaration "typealias"
    (s := ⟨(Cursor.start tokens).shift, []⟩) hfirst.here?_eq (by decide) (by decide) hlast
    fun way => by
      rw [Grammar.declarationNamed_typealias, Goal.meets_typeAlias hfirst]
      exact (Procedure.meets_read_of_reads hreads _).mpr ⟨rfl, rfl⟩
  have hread := p.readTokens_of_declaration (hfirst.startsDeclaration rfl) hdeclaration
    (hlast.advance_nil .sameLine).current?_eq_none
  have hnone : t.noted = [] := hnoted
  refine ⟨⟨(Cursor.start tokens).shift.startLocation, t.cursor.stopLocation⟩, ?_⟩
  rw [hread, State.moveTo, hnone]
  rfl

open TopLevel in
/-- Where nothing is complained of, a declaration is read at the start, and then the rest without a
complaint. -/
lemma exists_run_of_errors_nil (p : Parser) {tokens : List Token}
    (hstarts : (Cursor.start tokens).shift.startsDeclaration = true)
    (h : (p.readTokens tokens).errors = []) :
    ∃ d t found s, (Goal.declaration .topLevel).Reads p.maxDepth ⟨(Cursor.start tokens).shift, []⟩
        (.ok ⟨d, none⟩) t ∧
      Relation.ReflTransGen (Step p.maxDepth) ([d], t.moveTo t.cursor.shift) (found, s) ∧
      s.cursor.current? = none ∧ s.noted = [] ∧
      (p.readTokens tokens).root.declarations = found.reverse := by
  obtain ⟨found, s, hrun, hend, heq⟩ := p.exists_steps tokens
  have hnoted : s.noted = [] := by simpa [heq] using h
  have hcurrent : (Cursor.start tokens).shift.current?.isSome := by
    cases tokens with
    | nil => cases hstarts
    | cons token tokens => rfl
  rcases hrun.cases_head with hnil | ⟨q, hstep, hrun⟩
  · cases hnil
    rw [hend] at hcurrent
    cases hcurrent
  · have hsuffix := (run_suffix hrun).2
    cases hstep with
    | pass _ hnot => simp [hstarts] at hnot
    | @declaration _ _ t r _ _ hreads =>
      rw [hnoted] at hsuffix
      rcases r with e | ⟨d, _ | e⟩
      · exact absurd (List.suffix_nil.mp hsuffix) (List.cons_ne_nil _ _)
      · exact ⟨d, t, found, s, hreads, hrun, hend, hnoted, by rw [heq]⟩
      · exact absurd (List.suffix_nil.mp hsuffix) (List.cons_ne_nil _ _)

/-- Where nothing is complained of, the declaration at the start is the first one. -/
lemma exists_reads_of_errors_nil (p : Parser) {tokens : List Token}
    (hstarts : (Cursor.start tokens).shift.startsDeclaration = true)
    (h : (p.readTokens tokens).errors = []) :
    ∃ d t rest, (Goal.declaration .topLevel).Reads p.maxDepth ⟨(Cursor.start tokens).shift, []⟩
        (.ok ⟨d, none⟩) t ∧
      (p.readTokens tokens).root.declarations = d :: rest := by
  obtain ⟨d, t, found, s, hreads, hrun, -, -, heq⟩ := p.exists_run_of_errors_nil hstarts h
  obtain ⟨rest, hrest⟩ := (TopLevel.run_suffix hrun).1
  have hlist : found = rest ++ [d] := hrest.symm
  exact ⟨d, t, rest.reverse, hreads, by rw [heq, hlist, List.reverse_append]; rfl⟩

end Parser

end FrontEnd
