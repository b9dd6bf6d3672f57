/-
Operands are written in tokens from which they are read again.

An operand is a node with what is glued to it, or it stands behind a sign or a `try`.  Each of
them is printed if the goals that it calls print what they read: `Grammar.operand_prints`.
-/
import FrontEnd.Proofs.RoundTrip.Printed

namespace FrontEnd

@[simp] lemma TokenKind.anyName?_punctuator (mark : Punctuator) :
    (TokenKind.punctuator mark).anyName? = none :=
  rfl

namespace Grammar

open Procedure

variable {room : Nat} {s : State} {kind : TokenKind}

/-- An expression that was read by a procedure is written in tokens from which the procedure
reads it again. -/
def PrintedBy (p : Procedure Expression) (room : Nat) (s s' : State)
    (admits : List TokenKind → Prop) (e : Expression) : Prop :=
  ∃ kinds, Written s s' e.text.toList kinds admits
    (p.Echoes room kinds · fun e' => e'.view .placeless = e.view .placeless)

/-- What is read without suffixes is printed, whatever stands behind it. -/
def PrimaryPrints (room : Nat) (s : State) : Prop :=
  primary.Prints room s fun base s' => PrintedBy primary room s s' (fun _ => True) base

/-- An operand is printed. -/
def OperandPrints (room : Nat) (s : State) : Prop :=
  operand.Prints room s fun e s' => PrintedBy operand room s s' s'.cursor.Admits e

/-! ### Nodes -/

/-- A node is written in the current token and others, from which it is built again. -/
structure WrittenNode (node : Procedure (Range → Expression)) (room : Nat) (s' : State)
    (kind : TokenKind) (kinds : List TokenKind) (build : Range → Expression) : Prop where
  texts_eq (r : Range) : TokenKind.texts (kind :: kinds) = (build r).text.toList
  alone : kind.anyName?.isSome → kinds = []
  spelled : s'.cursor.Spelled (kind :: kinds)
  echoes (later : List TokenKind) : node.Echoes room (kind :: kinds) later (LooksLike · build)

/-- The node that a token stands for is printed, if what it is built from is. -/
lemma primary_prints_node {node : Procedure (Range → Expression)}
    (hhere : s.cursor.here? = some kind) (hstarts : kind.StartsOperand) (hnode : Stands kind node)
    (h : node.Prints room s fun build s' => ∃ kinds, WrittenNode node room s' kind kinds build) :
    PrimaryPrints room s := by
  intro way
  rw [hnode _ _ _ _ _ hhere, meets_ranged]
  refine (h way).imp (fun way build s' hbuild => ?_) fun _ _ _ => id
  obtain ⟨hs', kinds, hwritten⟩ := hbuild
  refine ⟨hs', kind :: kinds, hwritten.texts_eq _,
    ⟨kind, kinds, rfl, hhere, hstarts, fun hname => ?_⟩, hwritten.spelled,
    fun later _ => primary_echoes hnode (hwritten.echoes later) _⟩
  simp [hwritten.alone hname, interest?]

/-- A token that is an operand for itself is printed. -/
lemma primary_prints_token (build : Range → Expression) (hs : Legible s.cursor.plainKinds)
    (hhere : s.cursor.here? = some kind) (hends : kind.EndsOperand)
    (hmark : ∀ mark, kind ≠ .punctuator mark) (hnode : Stands kind (pure build))
    (htext : ∀ r, (build r).text = kind.text)
    (hplaces : ∀ r r', (build r').view .placeless = (build r).view .placeless) :
    PrimaryPrints room s := by
  refine primary_prints_node hhere ⟨hends.isSolid, fun mark _ => hmark mark⟩ hnode fun way => ?_
  refine ⟨hs, [], fun r => ?_, fun _ => rfl, .single hs hhere hends,
    fun later => pure_echoes build hplaces⟩
  simp [htext]

/-- A word stands for a node without parts, or for nothing. -/
lemma keywordOperand_cases (word : String) : keywordOperand word = raise .expectedExpression ∨
    ∃ build, keywordOperand word = pure build ∧ (∀ r, (build r).text = word) ∧
      ∀ r r', (build r').view .placeless = (build r).view .placeless := by
  unfold keywordOperand
  split <;> first
    | exact .inl rfl
    | exact .inr ⟨_, rfl, fun _ => rfl, fun _ _ => rfl⟩

/-- A keyword is printed. -/
lemma keyword_prints {word : String} {role : KeywordRole} (hs : Legible s.cursor.plainKinds)
    (hhere : s.cursor.here? = some (.keyword word role)) (hrole : role ≠ .contextual) :
    PrimaryPrints room s := by
  have hnode : Stands (.keyword word role) (keywordOperand word) := by
    intro K way t ok err hhere
    simp only [primary, meets_ranged, meets_bind, meets_here, hhere]
  rcases keywordOperand_cases word with hraise | ⟨build, hbuild, htext, hplaces⟩
  · intro way
    rw [hnode _ _ _ _ _ hhere, meets_ranged, hraise]
    trivial
  · exact primary_prints_token build hs hhere trivial (by simp) (hbuild ▸ hnode) htext hplaces

/-- A member of the type that the context gives is printed. -/
lemma implicitMember_prints (hs : Legible s.cursor.plainKinds)
    (hhere : s.cursor.here? = some (.punctuator .period)) :
    PrimaryPrints room s := by
  have hnode : Stands (.punctuator .period) (do
      shift
      let name ← expectName
      return (.implicitMember · name)) := by
    intro K way t ok err hhere
    simp only [primary, meets_ranged, meets_bind, meets_here, hhere]
  refine primary_prints_node hhere ⟨⟨rfl, rfl⟩, by simp⟩ hnode fun way => ?_
  simp only [meets_bind, meets_shift, meets_expectName, meets_pure, State.cursor_moveTo]
  have hs' : Legible s.cursor.shift.plainKinds := by simpa using hs
  refine ⟨fun name hname => ⟨hs', ?_⟩, fun _ => trivial⟩
  obtain ⟨kind, hkind, hname⟩ := Option.bind_eq_some_iff.mp hname
  have hany : kind.anyName? = some name := by
    rcases kind with _ | _ | ⟨word, _ | _ | _ | _ | _⟩ | _ <;> first | exact hname | cases hname
  obtain ⟨htext, hends⟩ :=
    Cursor.written_of_memberName? hs' hkind (TokenKind.memberName?_of_anyName? hany)
  refine ⟨[kind], fun r => ?_, by simp, .member hs' hkind (TokenKind.memberName?_of_anyName? hany),
    fun later way t hsees => ?_⟩
  · rw [TokenKind.texts_cons, TokenKind.texts_cons, htext]
    simp [TokenKind.text, Punctuator.symbol, Expression.text, toString]
  · have hsees' : t.cursor.shift.Sees (kind :: later) := hsees.shift
    simp only [meets_bind, meets_shift, meets_expectName, meets_pure, State.cursor_moveTo,
      hsees'.here?_eq, List.head?_cons, Option.bind_some, hname, Option.some.injEq]
    refine ⟨?_, by simp⟩
    rintro _ rfl
    exact ⟨fun _ _ => rfl, rfl, kind, hsees'⟩

/-- What stands in parentheses is printed. -/
lemma parenthesized_prints (hs : Legible s.cursor.plainKinds)
    (hhere : s.cursor.here? = some (.punctuator .leftParen)) :
    PrimaryPrints room s := by
  have hnode : Stands (.punctuator .leftParen) (do
      advance .anyLine
      let inner ← read (.arguments .rightParen)
      return parenthesized inner) := by
    intro K way t ok err hhere
    simp only [primary, meets_ranged, meets_bind, meets_here, hhere]
  refine primary_prints_node hhere ⟨⟨rfl, rfl⟩, by simp⟩ hnode fun way => ?_
  simp only [meets_bind, meets_advance, meets_pure]
  refine meets_read_printing (by simpa using hs) (.inl rfl) fun inner u hu hinner => ⟨hu, ?_⟩
  obtain ⟨kind, kinds, hsolid, -, htexts, hspelled, hechoes⟩ := hinner
  refine ⟨kind :: kinds, fun r => ?_, by simp, hspelled.mark .leftParen (by decide),
    fun later way t hsees => ?_⟩
  · rw [TokenKind.texts_cons, htexts, toList_text_parenthesized]
    rfl
  · obtain ⟨inner', v, last, hreads, hview, hnoted, hlast⟩ :=
      (hechoes later).moveTo t (hsees.advance_next hsolid.1 .anyLine)
    simp only [meets_bind, meets_advance, meets_read_of_reads hreads, meets_pure]
    refine ⟨fun r r' => ?_, hnoted, last, hlast⟩
    rw [← view_parenthesized, ← view_parenthesized]
    exact congrArg (parenthesized · (r.view .placeless)) hview

section

variable {u v : State} {kinds : List TokenKind} {first : Expression}

/-- A dictionary is written in its brackets and what its keys and values are written in. -/
lemma WrittenNode.dictionary {value : Expression} {later : List Entry}
    (hfirst : Written s u first.text.toList (kind :: kinds) u.cursor.Admits
      ((Goal.expression 0).Echoes room (kind :: kinds) · first)) (hstarts : kind.StartsOperand)
    (hlater : Goal.entries.Printed room u (value, later) v) :
    ∃ kinds, WrittenNode collectionLiteral room v (.punctuator .leftSquare) kinds
      (.dictionary · (⟨first, value⟩ :: later)) := by
  obtain ⟨T, hlater⟩ := hlater
  have htext : kind.text.toList ++ TokenKind.texts kinds = first.text.toList := hfirst.texts_eq
  have hechoes (others : List TokenKind) := collectionLiteral_echoes_dictionary hstarts
    (hfirst.echoes (.punctuator .colon :: (T ++ others)) (Cursor.admits_closer _ (by decide) _))
    fun last => hlater.echoes last others trivial
  refine ⟨kind :: (kinds ++ .punctuator .colon :: T), fun r => ?_, nofun, ?_, hechoes⟩
  · rw [Expression.toList_text_dictionary, ← hlater.texts_eq, ← htext]
    simp [TokenKind.text, Punctuator.symbol]
  · simpa using hlater.spelled _ (hfirst.spelled.mark .leftSquare (by decide))

/-- An array is written in its brackets and what its elements are written in. -/
lemma WrittenNode.array {later : List Expression}
    (hfirst : Written s u first.text.toList (kind :: kinds) u.cursor.Admits
      ((Goal.expression 0).Echoes room (kind :: kinds) · first)) (hstarts : kind.StartsOperand)
    (hlater : Goal.elements.Printed room u later v) :
    ∃ kinds, WrittenNode collectionLiteral room v (.punctuator .leftSquare) kinds
      (.array · (first :: later)) := by
  obtain ⟨mark, T, hmark, hlater⟩ := hlater
  have htext : kind.text.toList ++ TokenKind.texts kinds = first.text.toList := hfirst.texts_eq
  simp only [List.mem_cons, List.not_mem_nil, or_false] at hmark
  have hcolon : mark ≠ .colon := by rcases hmark with rfl | rfl <;> decide
  have hcloser : mark ∈ Cursor.closers := by rcases hmark with rfl | rfl <;> decide
  have hechoes (others : List TokenKind) := collectionLiteral_echoes_array hstarts hcolon
    (hfirst.echoes (.punctuator mark :: (T ++ others)) (Cursor.admits_closer _ hcloser _))
    fun last => hlater.echoes last others trivial
  refine ⟨kind :: (kinds ++ .punctuator mark :: T), fun r => ?_, nofun, ?_, hechoes⟩
  · rw [Expression.toList_text_array, ← hlater.texts_eq, ← htext]
    simp [TokenKind.text, Punctuator.symbol]
  · simpa using hlater.spelled _ (hfirst.spelled.mark .leftSquare (by decide))

end

/-- A literal between brackets is printed. -/
lemma collection_prints (hs : Legible s.cursor.plainKinds)
    (hhere : s.cursor.here? = some (.punctuator .leftSquare)) :
    PrimaryPrints room s := by
  have hnode : Stands (.punctuator .leftSquare) collectionLiteral := by
    intro K way t ok err hhere
    simp only [primary, meets_ranged, meets_bind, meets_here, hhere]
  refine primary_prints_node hhere ⟨⟨rfl, rfl⟩, by simp⟩ hnode fun way => ?_
  have hu : Legible (s.cursor.advance .anyLine).plainKinds := by simpa using hs
  have hv : Legible ((s.cursor.advance .anyLine).advance .anyLine).plainKinds := by simpa using hs
  have hends : (TokenKind.punctuator .rightSquare).EndsOperand := by simp [TokenKind.EndsOperand]
  simp only [collectionLiteral, meets_bind, meets_advance, meets_isHere, State.cursor_moveTo,
    meets_ite, decide_eq_true_eq, meets_pure, meets_expectNext, meets_isNext]
  refine ⟨fun hclose => ?_, fun _ => ⟨fun _ => ⟨fun hclose => ?_, fun _ => trivial⟩, fun _ => ?_⟩⟩
  · refine ⟨hu, [.punctuator .rightSquare], fun r => ?_, by simp,
      (Cursor.Spelled.single hu hclose hends).mark .leftSquare (by decide),
      fun later => collectionLiteral_echoes_empty⟩
    simp [TokenKind.text, Punctuator.symbol, Expression.text, Expression.texts, Text.commas, toString]
  · refine ⟨hv, [.punctuator .colon, .punctuator .rightSquare], fun r => ?_, by simp,
      ((Cursor.Spelled.single hv hclose hends).mark .colon (by decide)).mark .leftSquare (by decide),
      fun later => collectionLiteral_echoes_colon⟩
    simp [TokenKind.text, Punctuator.symbol, Expression.text]
  · refine meets_read_printing hu trivial fun first u hu hfirst => ?_
    obtain ⟨E, hfirst⟩ := hfirst
    obtain ⟨kind, kinds, rfl, -, hstarts, -⟩ := hfirst.begins
    refine ⟨fun _ => meets_read_printing hu trivial fun _ _ hv hlater => ⟨hv, ?_⟩,
      fun _ => meets_read_printing hu trivial fun _ _ hv hlater => ⟨hv, ?_⟩⟩
    · exact WrittenNode.dictionary hfirst hstarts hlater
    · exact WrittenNode.array hfirst hstarts hlater

/-- An operand without anything glued to it is printed. -/
lemma primary_prints (hs : Legible s.cursor.plainKinds) :
    PrimaryPrints room s := by
  rcases hhere : s.cursor.here? with _ | kind
  · intro way
    simp [primary, hhere]
  -- a kind that starts no operand ends in an error, so nothing is to be printed
  have hother (hnode : Stands kind (raise .expectedExpression)) :
      PrimaryPrints room s := by
    intro way
    rw [hnode _ _ _ _ _ hhere, meets_ranged, meets_raise]
    trivial
  cases kind with
  | identifier name =>
    exact primary_prints_token (.identifier · name) hs hhere trivial (by simp)
      (fun K way t ok err h => by simp [primary, h]) (fun _ => rfl) fun _ _ => rfl
  | integer digits =>
    exact primary_prints_token (.integer · digits) hs hhere trivial (by simp)
      (fun K way t ok err h => by simp [primary, h]) (fun _ => rfl) fun _ _ => rfl
  | floating digits =>
    exact primary_prints_token (.floating · digits) hs hhere trivial (by simp)
      (fun K way t ok err h => by simp [primary, h]) (fun _ => rfl) fun _ _ => rfl
  | string content =>
    exact primary_prints_token (.string · content) hs hhere trivial (by simp)
      (fun K way t ok err h => by simp [primary, h]) (fun _ => rfl) fun _ _ => rfl
  | quotedIdentifier name => exact absurd (Cursor.mem_plainKinds hhere) (hs.unquoted name)
  | keyword word role =>
    by_cases hrole : role = .contextual
    · subst hrole
      exact primary_prints_token (.identifier · word) hs hhere trivial (by simp)
        (fun K way t ok err h => by simp [primary, h]) (fun _ => rfl) fun _ _ => rfl
    · exact keyword_prints hs hhere hrole
  | punctuator mark =>
    cases mark with
    | period => exact implicitMember_prints hs hhere
    | leftParen => exact parenthesized_prints hs hhere
    | leftSquare => exact collection_prints hs hhere
    | _ => exact hother fun K way t ok err h => by simp [primary, h]
  | _ => exact hother fun K way t ok err h => by simp [primary, h]

/-! ### Suffixes -/

/-- A suffix that is written in some tokens is printed with those behind it. -/
lemma printed_suffix {u v : State} {suffix : Suffix} {stop : Location} {glued : List PlacedSuffix}
    (kinds : List TokenKind) (hmark : ∃ mark ∈ interest? kinds, mark ≠ .punctuator .colon)
    (htexts : TokenKind.texts kinds = suffix.written)
    (hspelled : ∀ before, s.cursor.Spelled before → u.cursor.Spelled (before ++ kinds))
    (hechoes : ∀ first others later, (∀ last, Goal.suffixes.Echoes room (last :: others) later glued) →
      suffixes.Echoes room (first :: (kinds ++ others)) later
        fun a => Goal.view .placeless .suffixes a = Goal.view .placeless .suffixes (⟨suffix, stop⟩ :: glued))
    (hglued : Goal.suffixes.Printed room u glued v) :
    Goal.suffixes.Printed room s (⟨suffix, stop⟩ :: glued) v := by
  obtain ⟨T, -, hwritten⟩ := hglued
  obtain ⟨mark, hfirst, hcolon⟩ := hmark
  refine ⟨kinds ++ T, ?_, ?_, fun before hbefore => ?_, fun first later hlater =>
    .of_procedure (Goal.roomInside?_of_not_isLevel rfl)
      (hechoes first T later fun last => hwritten.echoes last later hlater)⟩
  · rw [interest?_append, hfirst]
    simpa using hcolon
  · rw [PlacedSuffix.written_cons, TokenKind.texts_append, htexts, hwritten.texts_eq]
  · rw [← List.append_assoc]
    exact hwritten.spelled _ (hspelled before hbefore)

/-- Arguments between these marks, glued to an operand, are read and written as a suffix. -/
structure IsBracketSuffix (opener closer : Punctuator) (build : List Argument → Suffix) : Prop where
  closes : closer = .rightParen ∨ closer = .rightSquare
  ne_colon : opener ≠ .colon
  solitary : opener ∈ Lexeme.solitary
  ender : ∃ e ∈ Rule.enders, opener.symbol.toList = [e]
  written_eq (inner : List Argument) : (build inner).written =
    opener.symbol.toList ++ ((Text.commas (Argument.texts inner)).toList ++ closer.symbol.toList)
  view_eq (inner inner' : List Argument)
    (h : Argument.views .placeless inner' = Argument.views .placeless inner) :
    (build inner').view .placeless = (build inner).view .placeless
  meets (K : Contract) (way : List Event) (t : State)
    (ok : List Event → List PlacedSuffix → State → Prop)
    (err : List Event → ParseError → State → Prop)
    (h : t.cursor.glued? 0 = some (.punctuator opener)) :
    suffixes.Meets K way t ok err ↔ (bracketSuffix closer build).Meets K way t ok err

lemma isBracketSuffix_call : IsBracketSuffix .leftParen .rightParen .call where
  closes := .inl rfl
  ne_colon := by decide
  solitary := by decide
  ender := ⟨'(', by decide, rfl⟩
  written_eq _ := rfl
  view_eq _ _ h := congrArg Suffix.call h
  meets K _ _ ok err := meets_suffixes_call K ok err

lemma isBracketSuffix_subscript : IsBracketSuffix .leftSquare .rightSquare .subscript where
  closes := .inr rfl
  ne_colon := by decide
  solitary := by decide
  ender := ⟨'[', by decide, rfl⟩
  written_eq _ := rfl
  view_eq _ _ h := congrArg Suffix.subscript h
  meets K _ _ ok err := meets_suffixes_subscript K ok err

/-- Arguments in brackets that are glued to an operand are printed, with the suffixes behind
them. -/
lemma bracketSuffix_prints {opener closer : Punctuator} {build : List Argument → Suffix}
    (hs : Legible s.cursor.plainKinds) (h : IsBracketSuffix opener closer build) :
    (bracketSuffix closer build).Prints room s
      fun glued s' => Goal.suffixes.Printed room s glued s' := by
  intro way
  simp only [bracketSuffix, suffixThen, meets_bind, meets_shift, meets_advance, meets_stopLocation,
    State.cursor_moveTo, State.moveTo_moveTo]
  refine meets_read_printing (by simpa using hs) h.closes fun inner u hu hinner => ?_
  obtain ⟨kind, kinds, hsolid, -, htexts, hspelled, hechoes⟩ := hinner
  refine meets_read_printing hu trivial fun glued v hv hglued => ⟨hv, ?_⟩
  refine printed_suffix (.punctuator opener :: kind :: kinds) ⟨_, rfl, ?_⟩ ?_ ?_ ?_ hglued
  · simpa using h.ne_colon
  · rw [h.written_eq, TokenKind.texts_cons, htexts]
    rfl
  · intro before hbefore
    obtain ⟨e, he, hsymbol⟩ := h.ender
    exact hbefore.append_ender hs (hspelled.mark opener h.solitary) he hsymbol
  · intro first others later hlater way t hsees
    have hopener : t.cursor.glued? 0 = some (.punctuator opener) := by
      rw [hsees.glued?_eq]
      rfl
    exact (h.meets _ _ _ _ _ hopener).mpr (bracketSuffix_echoes first _ (h.view_eq inner) hsolid.1
      (hechoes _) hlater way t hsees)

/-- What is glued to an operand is printed. -/
lemma suffixes_prints (hs : Legible s.cursor.plainKinds) :
    suffixes.Prints room s fun glued s' => Goal.suffixes.Printed room s glued s' := by
  intro way
  -- an opening bracket is read alike in both cases
  by_cases hcall : s.cursor.glued? 0 = some (.punctuator .leftParen)
  · rw [isBracketSuffix_call.meets _ _ _ _ _ hcall]
    exact bracketSuffix_prints hs isBracketSuffix_call way
  by_cases hsubscript : s.cursor.glued? 0 = some (.punctuator .leftSquare)
  · rw [isBracketSuffix_subscript.meets _ _ _ _ _ hsubscript]
    exact bracketSuffix_prints hs isBracketSuffix_subscript way
  simp only [suffixes, suffixThen, meets_bind, meets_glued]
  split
  next h => exact absurd h hcall
  next h => exact absurd h hsubscript
  next hglued =>
    have hperiod := Cursor.here?_shift_of_glued? hglued
    have hu : Legible s.cursor.shift.shift.plainKinds := by simpa using hs
    simp only [meets_bind, meets_shift, meets_here, State.cursor_moveTo, State.moveTo_moveTo]
    split
    next word hword =>
      obtain ⟨name, hname, hmember⟩ := Option.bind_eq_some_iff.mp hword
      obtain ⟨htext, hends⟩ := Cursor.written_of_memberName? hu hname hmember
      simp only [meets_bind, meets_stopLocation]
      refine meets_read_printing hu trivial fun glued v hv hglued => ⟨hv, ?_⟩
      refine printed_suffix [.punctuator .period, name] ⟨_, rfl, by simp⟩ ?_ ?_
        (fun first others later hlater => suffixes_echoes_member first _ hmember (hlater name)) hglued
      · rw [TokenKind.texts_cons, TokenKind.texts_cons, TokenKind.texts_nil, List.append_nil, htext]
        rfl
      · exact fun before hbefore => hbefore.append (.member hu hname hmember) fun last hlast hends' =>
          Cursor.halts_member hs hlast hperiod hname hends' (Option.isSome_of_mem hmember)
    next => trivial
  next hglued =>
    have hforced := Cursor.here?_shift_of_glued? hglued
    have hu : Legible s.cursor.shift.plainKinds := by simpa using hs
    simp only [meets_bind, meets_shift, meets_stopLocation]
    refine meets_read_printing hu trivial fun glued v hv hglued => ⟨hv, ?_⟩
    refine printed_suffix [.punctuator .exclamation] ⟨_, rfl, by simp⟩ rfl ?_
      (fun first others later hlater => suffixes_echoes_forced first _ (hlater _)) hglued
    exact fun before hbefore => hbefore.append_ender hs
      (.single hu hforced (by simp [TokenKind.EndsOperand])) (e := '!') (by decide) rfl
  next =>
    refine ⟨hs, [], by simp [interest?], rfl, fun before hbefore => by simpa using hbefore,
      fun first later hlater => .of_procedure (Goal.roomInside?_of_not_isLevel rfl) ?_⟩
    refine (suffixes_echoes_nil hlater).imp ?_
    rintro _ rfl
    rfl

/-! ### Operands -/

/-- A `try` with its mark stands apart from the expression behind it. -/
lemma spelled_attempt {c d : Cursor} {role : KeywordRole} {kinds : List TokenKind}
    (h : c.Spelled (.whitespace :: kinds)) (hd : Legible d.plainKinds)
    (hhere : d.here? = some (.keyword "try" role)) (attempt : AttemptKind) :
    c.Spelled (.keyword "try" role :: (attemptMarks attempt ++ .whitespace :: kinds)) := by
  have hmark (mark : Punctuator) : c.Spelled (.punctuator mark :: .whitespace :: kinds) :=
    h.cons (Lexeme.takes_mark mark) rfl fun later =>
      (Lexeme.takes_mark mark).halts_ender ⟨rfl, rfl⟩ (fun _ => nofun) (fun _ => nofun)
        (show ' ' ∈ Rule.enders by decide)
  have hword {e : Char} (he : Rule.continuesWord e = false) (later : List Char) :
      Rule.Halts "try".toList (e :: later) :=
    show Rule.Halts ('t' :: ['r', 'y']) (e :: later) from Rule.halts_of_startsWord rfl he
  cases attempt with
  | plain => exact h.solid hd hhere ⟨rfl, rfl⟩ fun _ => hword (e := ' ') rfl _
  | optional => exact (hmark .question).solid hd hhere ⟨rfl, rfl⟩ fun _ => hword (e := '?') rfl _
  | forced => exact (hmark .exclamation).solid hd hhere ⟨rfl, rfl⟩ fun _ => hword (e := '!') rfl _

section

variable {K : Contract} {way : List Event} {t : State} {ok : List Event → Expression → State → Prop}
  {err : List Event → ParseError → State → Prop}

lemma meets_operand_attempt {role : KeywordRole} (h : t.cursor.here? = some (.keyword "try" role)) :
    operand.Meets K way t ok err ↔ (ranged do
      let kind ← attemptKind
      advance .anyLine
      let body ← read (.expression 0)
      return (.attempt · kind body)).Meets K way t ok err := by
  simp only [operand, meets_bind, meets_isWordHere, h, Option.any_some, TokenKind.isKeyword,
    decide_true, if_true]

lemma meets_operand_unary {operator : String} (h : t.cursor.here? = some kind)
    (hsign : unaryOperator? kind = some operator) :
    operand.Meets K way t ok err ↔ (ranged do
      if (← glued 0).isNone then
        raise .expectedExpression
      else
        shift
        let inner ← read .operand
        return (.unary · operator inner)).Meets K way t ok err := by
  have htry : kind.isKeyword "try" = false := by
    cases kind <;> first | rfl | cases hsign
  simp only [operand, meets_bind, meets_isWordHere, h, Option.any_some, htry, Bool.false_eq_true,
    if_false, meets_here, Option.bind_some, hsign]

lemma meets_operand_primary (htry : t.cursor.here?.any (·.isKeyword "try") = false)
    (hsign : t.cursor.here?.bind unaryOperator? = none) :
    operand.Meets K way t ok err ↔ (do
      let base ← primary
      let glued ← read .suffixes
      return glued.foldl PlacedSuffix.apply base).Meets K way t ok err := by
  simp only [operand, meets_bind, meets_isWordHere, htry, Bool.false_eq_true, if_false, meets_here, hsign]

end

/-- An attempt is printed. -/
lemma attempt_prints {role : KeywordRole} (hs : Legible s.cursor.plainKinds)
    (hhere : s.cursor.here? = some (.keyword "try" role)) :
    OperandPrints room s := by
  intro way
  have hbody (attempt : AttemptKind) {c : Cursor} (hc : Legible c.plainKinds) (way : List Event) :
      (read (.expression 0)).Meets ((Contract.printing room).given Goal.Keeps) way
        (s.moveTo (c.advance .anyLine))
        (fun _ body s' => Legible s'.cursor.plainKinds ∧ PrintedBy operand room s s' s'.cursor.Admits
          (.attempt ⟨s.cursor.startLocation, s'.cursor.stopLocation⟩ attempt body))
        fun _ _ _ => True := by
    refine meets_read_printing (by simpa using hc) trivial fun body u hu ⟨B, hwritten⟩ => ⟨hu, ?_⟩
    obtain ⟨kind, kinds, rfl, -, hstarts, -⟩ := hwritten.begins
    have htext : kind.text.toList ++ TokenKind.texts kinds = body.text.toList := hwritten.texts_eq
    refine ⟨.keyword "try" role :: (attemptMarks attempt ++ .whitespace :: kind :: kinds), ?_,
      ⟨_, _, rfl, hhere, ⟨⟨rfl, rfl⟩, fun _ _ => nofun⟩, fun _ => ?_⟩,
      spelled_attempt (hwritten.spelled.blank hstarts.isSolid) hs hhere attempt, fun later hlater =>
        operand_echoes_attempt attempt _ rfl hstarts.isSolid.1 (hwritten.echoes later hlater)⟩
    · cases attempt <;>
        simp [Expression.text, ← htext, attemptMarks, TokenKind.text, AttemptKind.text,
          Punctuator.symbol, toString]
    · have hkind := hstarts.ne .colon (by simp)
      have hblank : TokenKind.whitespace.isBlank = true := rfl
      have hmark (mark : Punctuator) : (TokenKind.punctuator mark).isBlank = false := rfl
      cases attempt <;> simp [attemptMarks, interest?, hblank, hmark, hstarts.isSolid.1, hkind]
  have hmoved : Legible s.cursor.shift.plainKinds := by simpa using hs
  rw [meets_operand_attempt hhere]
  simp only [meets_ranged, attemptKind, meets_bind, meets_isGlued, meets_ite, decide_eq_true_eq,
    meets_shift, meets_advance, meets_pure, State.cursor_moveTo, State.moveTo_moveTo]
  exact ⟨fun _ => hbody .optional hmoved way,
    fun _ => ⟨fun _ => hbody .forced hmoved way, fun _ => hbody .plain hs way⟩⟩

/-- An operand with a sign in front is printed. -/
lemma unary_prints {operator : String} (hs : Legible s.cursor.plainKinds)
    (hhere : s.cursor.here? = some kind) (hsign : unaryOperator? kind = some operator) :
    OperandPrints room s := by
  intro way
  rw [meets_operand_unary hhere hsign]
  simp only [meets_ranged, meets_bind, meets_glued, meets_ite, Option.isNone_iff_eq_none, meets_raise,
    meets_shift, meets_pure, implies_true, true_and]
  intro hglued
  refine meets_read_printing (by simpa using hs) trivial fun inner u hu hinner => ⟨hu, ?_⟩
  obtain ⟨B, hwritten⟩ := hinner
  obtain ⟨next, kinds, rfl, hnext, hstarts, -⟩ := hwritten.begins
  have hsome : (unaryOperator? kind).isSome := Option.isSome_of_mem hsign
  have hsolid := TokenKind.isSolid_of_unaryOperator? hsome
  have htext : kind.text = operator := by
    rcases kind with _ | _ | _ | (_ | _) | _ | _ <;> first | exact Option.some.inj hsign | cases hsign
  refine ⟨kind :: next :: kinds, ?_, ⟨_, _, rfl, hhere, ⟨hsolid, ?_⟩, ?_⟩,
    hwritten.spelled.solid hs hhere hsolid fun later => ?_, fun later hlater =>
      operand_echoes_unary _ hsign hstarts.isSolid.1 (hwritten.echoes later hlater)⟩
  · rw [TokenKind.texts_cons, hwritten.texts_eq, htext]
    simp [Expression.text, toString]
  · rintro mark hmark rfl
    simp only [List.mem_cons, List.not_mem_nil, or_false] at hmark
    rcases hmark with rfl | rfl | rfl <;> cases hsign
  · have hname : kind.anyName? = none := by
      cases kind <;> first | rfl | cases hsign
    simp [hname]
  · rw [TokenKind.texts_cons, List.append_assoc]
    exact Cursor.halts_sign hs hhere hnext hsome hstarts.isSolid _

/-- An operand is printed. -/
lemma operand_prints (hs : Legible s.cursor.plainKinds) :
    OperandPrints room s := by
  rcases hsign : s.cursor.here?.bind unaryOperator? with _ | operator
  swap
  · obtain ⟨kind, hhere, hsign⟩ := Option.bind_eq_some_iff.mp hsign
    exact unary_prints hs hhere hsign
  rcases htry : s.cursor.here?.any (·.isKeyword "try") with _ | _
  swap
  · rcases hhere : s.cursor.here? with _ | kind <;> rw [hhere] at htry
    · cases htry
    cases kind with
    | keyword word role =>
      obtain rfl : word = "try" := of_decide_eq_true htry
      exact attempt_prints hs hhere
    | _ => cases htry
  intro way
  rw [meets_operand_primary htry hsign, meets_bind]
  refine (primary_prints hs way).imp (fun way base u hbase => ?_) fun _ _ _ => id
  obtain ⟨hu, B, hbase⟩ := hbase
  obtain ⟨kind, kinds, rfl, hhere, -, -⟩ := hbase.begins
  simp only [meets_bind, meets_pure]
  refine meets_read_printing hu trivial fun glued v hv hglued => ⟨hv, ?_⟩
  obtain ⟨T, hcolon, hglued⟩ := hglued
  rw [hhere] at htry hsign
  refine ⟨kind :: (kinds ++ T), ?_, hbase.begins.append hcolon, hglued.spelled _ hbase.spelled,
    fun later hlater => operand_echoes_primary htry hsign (hbase.echoes _ trivial)
      fun last => hglued.echoes last later hlater.unglued⟩
  rw [PlacedSuffix.toList_text_foldl, ← hglued.texts_eq, ← hbase.texts_eq, ← TokenKind.texts_append,
    List.cons_append]

end Grammar

end FrontEnd
