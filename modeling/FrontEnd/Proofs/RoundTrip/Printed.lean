/-
What is read is written in tokens from which it is read again.

`Goal.Printed` says of what comes of a goal that its text is the one of certain tokens, that these
are lexed apart, and that the goal reads the same from them.  While an expression is read, this
is known of its parts; here it is shown of arguments, of collections and of operands with
suffixes.
-/
import FrontEnd.Proofs.RoundTrip.Echo
import FrontEnd.Proofs.RoundTrip.ExpressionText

namespace FrontEnd

/-- What was read from one state to another is written in these tokens, where something may
stand behind them. -/
structure Written (s s' : State) (text : List Char) (kinds : List TokenKind)
    (admits echoes : List TokenKind → Prop) : Prop where
  texts_eq : TokenKind.texts kinds = text
  begins : s.cursor.Begins kinds
  spelled : s'.cursor.Spelled kinds
  echoes : ∀ later, admits later → echoes later

lemma Written.imp {s s' : State} {text : List Char} {kinds : List TokenKind}
    {admits echoes echoes' : List TokenKind → Prop} (h : Written s s' text kinds admits echoes)
    (himp : ∀ later, echoes later → echoes' later) : Written s s' text kinds admits echoes' :=
  ⟨h.texts_eq, h.begins, h.spelled, fun later hlater => himp later (h.echoes later hlater)⟩

/-- What was read behind an operand is written in these tokens, where something may stand
behind them. -/
structure WrittenBehind (s s' : State) (text : List Char) (kinds : List TokenKind)
    (admits : List TokenKind → Prop) (echoes : TokenKind → List TokenKind → Prop) : Prop where
  texts_eq : TokenKind.texts kinds = text
  spelled : ∀ before, s.cursor.Spelled before → s'.cursor.Spelled (before ++ kinds)
  echoes : ∀ first later, admits later → echoes first later

namespace Goal

/-- What comes of the goals of expressions is written in tokens from which it is read again. -/
def Printed (room : Nat) : (g : Goal) → State → g.Result → State → Prop
  | expression floor, s, e, s' =>
    ∃ kinds, Written s s' e.text.toList kinds s'.cursor.Admits ((expression floor).Echoes room kinds · e)
  | operand, s, e, s' =>
    ∃ kinds, Written s s' e.text.toList kinds s'.cursor.Admits (operand.Echoes room kinds · e)
  | operations floor, s, found, s' =>
    ∃ kinds, interest? kinds ≠ some (.punctuator .colon) ∧
      (∀ later, s'.cursor.Admits later → s.cursor.Admits (kinds ++ later)) ∧
      WrittenBehind s s' (Operation.written found) kinds s'.cursor.Admits
        fun first later => (operations floor).Echoes room (first :: kinds) later found
  | suffixes, s, glued, s' =>
    ∃ kinds, interest? kinds ≠ some (.punctuator .colon) ∧
      WrittenBehind s s' (PlacedSuffix.written glued) kinds Cursor.Unglued
        fun first later => suffixes.Echoes room (first :: kinds) later glued
  | elements, s, found, s' =>
    ∃ mark kinds, mark ∈ [Punctuator.comma, .rightSquare] ∧
      WrittenBehind s s' (Expression.laterText found) (.punctuator mark :: kinds) (fun _ => True)
        fun first later => elements.Echoes room (first :: .punctuator mark :: kinds) later found
  | entries, s, (value, found), s' =>
    ∃ kinds, WrittenBehind s s' (Entry.laterText value found) (.punctuator .colon :: kinds)
      (fun _ => True)
      fun first later => entries.Echoes room (first :: .punctuator .colon :: kinds) later (value, found)
  | arguments closer, _, inner, s' =>
    ∃ kind kinds, kind.IsSolid ∧
      (inner = [] → kind = .punctuator closer ∧ kinds = []) ∧
      TokenKind.texts (kind :: kinds) =
        (Text.commas (Argument.texts inner)).toList ++ closer.symbol.toList ∧
      s'.cursor.Spelled (kind :: kinds) ∧
      ∀ later, (arguments closer).Echoes room (kind :: kinds) later inner
  | _, _, _, _ => True

/-- The goals that make up expressions. -/
def Expresses : Goal → Prop
  | expression _ | operand | operations _ | suffixes | elements | entries => True
  | arguments closer => closer = .rightParen ∨ closer = .rightSquare
  | _ => False

end Goal

/-- What is read of legible tokens is printed. -/
def Contract.printing (room : Nat) : Contract where
  enter g s := g.Expresses ∧ Legible s.cursor.plainKinds
  value g s a s' := g.Printed room s a s'
  error _ _ _ _ := True

/-- A reading leaves the tokens as they are. -/
def Goal.Keeps (_ : Goal) (s s' : State) : Prop :=
  s'.cursor.toList = s.cursor.toList

lemma known_keeps : Contract.Known Goal.Keeps :=
  fun bound _ _ _ _ _ h => (Goal.Reads.onward_back ⟨bound, h⟩).toList_eq

namespace Procedure

variable {α : Type} {room : Nat} {s : State} {way : List Event}

/-- What a procedure ends in is as wanted, if the goals that it calls print what they read. -/
def Prints (p : Procedure α) (room : Nat) (s : State) (value : α → State → Prop) : Prop :=
  ∀ way, p.Meets ((Contract.printing room).given Goal.Keeps) way s
    (fun _ a s' => Legible s'.cursor.plainKinds ∧ value a s') fun _ _ _ => True

/-- A goal of expressions prints what it reads, and keeps the tokens legible. -/
lemma meets_read_printing {g : Goal} {ok : List Event → g.Result → State → Prop}
    (hs : Legible s.cursor.plainKinds) (hg : g.Expresses)
    (h : ∀ a s', Legible s'.cursor.plainKinds → g.Printed room s a s' →
      ok (.called g s :: way) a s') :
    @Meets (no_index g.Result) ((Contract.printing room).given Goal.Keeps) (read g) way s ok
      fun _ _ _ => True := by
  rw [meets_read]
  refine ⟨⟨hg, hs⟩, fun a s' ⟨hkeeps, hprinted⟩ => h a s' ?_ hprinted, fun _ _ _ => trivial⟩
  rwa [Cursor.plainKinds, hkeeps]

end Procedure

/-! ### Names and closing marks -/

lemma TokenKind.memberName?_of_anyName? {kind : TokenKind} {name : String}
    (h : kind.anyName? = some name) : Grammar.memberName? kind = some name := by
  cases kind <;> first | exact h | cases h

/-- The name of a member is written as it is, and an operand may end with it. -/
lemma Cursor.written_of_memberName? {c : Cursor} {kind : TokenKind} {name : String}
    (hc : Legible c.plainKinds) (h : c.here? = some kind)
    (hname : Grammar.memberName? kind = some name) : kind.text = name ∧ kind.EndsOperand := by
  cases kind with
  | identifier _ | keyword _ _ | integer _ => exact ⟨Option.some.inj hname, trivial⟩
  | quotedIdentifier _ => exact absurd (mem_plainKinds h) (hc.unquoted _)
  | _ => cases hname

/-- The name of a member with its period in front. -/
lemma Cursor.Spelled.member {c : Cursor} {kind : TokenKind} {name : String} (hc : Legible c.plainKinds)
    (h : c.here? = some kind) (hname : Grammar.memberName? kind = some name) :
    c.Spelled [.punctuator .period, kind] := by
  obtain ⟨-, hends⟩ := written_of_memberName? hc h hname
  refine (single hc h hends).cons (Lexeme.takes_mark .period) rfl fun later => ?_
  rw [TokenKind.texts_cons, List.append_assoc]
  refine (takes_of_here? hc h hends.isSolid).halts_period ?_ ?_
  · rintro rfl
    cases hname
  · rintro _ rfl
    cases hname

/-- What is known of the marks behind arguments. -/
structure Punctuator.ClosesArguments (closer : Punctuator) : Prop where
  text_eq : ∃ e ∈ Rule.enders, (TokenKind.punctuator closer).text.toList = [e]
  mem_closers : closer ∈ Cursor.closers
  endsOperand : (TokenKind.punctuator closer).EndsOperand
  ne_comma : closer ≠ .comma

lemma Punctuator.closesArguments {closer : Punctuator}
    (h : closer = .rightParen ∨ closer = .rightSquare) : closer.ClosesArguments := by
  rcases h with rfl | rfl
  · exact ⟨⟨')', by decide, rfl⟩, by decide, by simp [TokenKind.EndsOperand], by decide⟩
  · exact ⟨⟨']', by decide, rfl⟩, by decide, by simp [TokenKind.EndsOperand], by decide⟩

namespace Grammar

open Procedure

variable {room : Nat} {s : State}

/-! ### Arguments -/

/-- Arguments from the value of the first one on are printed. -/
lemma argumentsFrom_prints {closer : Punctuator} (label : Option String)
    (hs : Legible s.cursor.plainKinds) (hcloser : closer = .rightParen ∨ closer = .rightSquare) :
    (argumentsFrom closer label).Prints room s fun inner s' => inner ≠ [] ∧
      ∃ kinds, (∀ later, s.cursor.Begins (kinds ++ later)) ∧
        labelText label ++ TokenKind.texts kinds =
          (Text.commas (Argument.texts inner)).toList ++ closer.symbol.toList ∧
        s'.cursor.Spelled kinds ∧
        ∀ later, (argumentsFrom closer label).Echoes room kinds later
          fun a => Argument.views .placeless a = Argument.views .placeless inner := by
  intro way
  obtain ⟨⟨e, he, htext⟩, hclosers, hends, hcomma⟩ := Punctuator.closesArguments hcloser
  simp only [argumentsFrom, meets_bind, meets_isNext, meets_ite, decide_eq_true_eq,
    meets_advanceTwice, meets_pure, meets_expectNext]
  refine meets_read_printing hs trivial fun value u hu hvalue => ?_
  obtain ⟨V, hvalue⟩ := hvalue
  have hbegins {mark : Punctuator} (hmark : mark ≠ .colon) (others later : List TokenKind) :
      s.cursor.Begins ((V ++ .punctuator mark :: others) ++ later) := by
    rw [List.append_assoc]
    exact hvalue.begins.append (by simpa [interest?, TokenKind.isBlank, TokenKind.isInlineBlank,
      TokenKind.isLineBreak] using hmark)
  have hlast {v : State} (hv : v.cursor.Spelled [.punctuator closer]) :
      ∃ kinds, (∀ later, s.cursor.Begins (kinds ++ later)) ∧
        labelText label ++ TokenKind.texts kinds =
          (Text.commas (Argument.texts [⟨label, value⟩])).toList ++ closer.symbol.toList ∧
        v.cursor.Spelled kinds ∧
        ∀ later, (argumentsFrom closer label).Echoes room kinds later
          fun a => Argument.views .placeless a = Argument.views .placeless [⟨label, value⟩] := by
    refine ⟨V ++ [.punctuator closer], hbegins (by rintro rfl; simp at hcloser) _, ?_,
      hvalue.spelled.append_ender hu hv he htext, fun later =>
        argumentsFrom_echoes_single hcomma (hvalue.echoes _ (Cursor.admits_closer _ hclosers _))⟩
    rw [Argument.toList_commas_single, TokenKind.texts_append, hvalue.texts_eq]
    simp [TokenKind.text]
  refine ⟨fun _ => ?_, fun _ => ⟨fun hclose => ?_, fun _ => trivial⟩⟩
  · refine meets_read_printing (by simpa using hu) hcloser fun inner v hv hinner => ?_
    obtain ⟨kind, kinds, hsolid, hnil, htexts, hspelled, hechoes⟩ := hinner
    refine ⟨hv, List.cons_ne_nil _ _, ?_⟩
    cases inner with
    | nil =>
      -- the comma before the closing mark is not written
      obtain ⟨rfl, rfl⟩ := hnil rfl
      exact hlast hspelled
    | cons second others =>
      refine ⟨V ++ .punctuator .comma :: .whitespace :: kind :: kinds, hbegins (by decide) _, ?_, ?_,
        fun later => argumentsFrom_echoes_cons hsolid.1
          (hvalue.echoes _ (Cursor.admits_closer _ (by decide) _)) (hechoes later)⟩
      · rw [Argument.toList_commas_pair, TokenKind.texts_append, TokenKind.texts_cons,
          TokenKind.texts_cons, htexts, hvalue.texts_eq]
        simp [TokenKind.text, Punctuator.symbol]
      · exact hvalue.spelled.append_ender hu ((hspelled.blank hsolid).mark .comma (by decide))
          (e := ',') (by decide) rfl
  · have hu' : Legible (u.cursor.advance .anyLine).plainKinds := by simpa using hu
    exact ⟨hu', List.cons_ne_nil _ _, hlast (Cursor.Spelled.single hu' hclose hends)⟩

/-- Arguments are printed. -/
lemma arguments_prints {closer : Punctuator} (hs : Legible s.cursor.plainKinds)
    (hcloser : closer = .rightParen ∨ closer = .rightSquare) :
    (arguments closer).Prints room s fun inner s' => (Goal.arguments closer).Printed room s inner s' := by
  intro way
  have hends := (Punctuator.closesArguments hcloser).endsOperand
  simp only [arguments_eq, argumentLabel, meets_bind, meets_isHere, meets_ite, decide_eq_true_eq,
    meets_here, meets_pure]
  refine ⟨fun hhere => ⟨hs, .punctuator closer, [], ⟨rfl, rfl⟩, fun _ => ⟨rfl, rfl⟩, ?_,
    .single hs hhere hends, fun later => .of_procedure (Goal.roomInside?_of_not_isLevel rfl)
      ((arguments_echoes_nil closer).imp fun a ha => by rw [ha])⟩, fun hhere => ?_⟩
  · simp [Argument.texts, Text.commas, TokenKind.text]
  -- without a label, also where a name comes first that no colon follows
  have hunlabeled : (argumentsFrom closer none).Meets ((Contract.printing room).given Goal.Keeps) way s
      (fun _ inner s' => Legible s'.cursor.plainKinds ∧
        (Goal.arguments closer).Printed room s inner s') fun _ _ _ => True := by
    refine (argumentsFrom_prints none hs hcloser way).imp (fun way inner s' h => ?_) fun _ _ _ => id
    obtain ⟨hs', hne, kinds, hbegins, htexts, hspelled, hechoes⟩ := h
    obtain ⟨first, rest, hcons, hfirst, hstarts, -⟩ := hbegins []
    rw [List.append_nil] at hcons
    subst hcons
    refine ⟨hs', first, rest, hstarts.isSolid, fun hnil => absurd hnil hne, htexts, hspelled,
      fun later => .of_procedure (Goal.roomInside?_of_not_isLevel rfl)
        (arguments_echoes_unlabeled ?_ ?_ (hechoes later))⟩
    · exact hstarts.ne closer (by rcases hcloser with rfl | rfl <;> simp)
    · obtain ⟨_, _, heq, -, -, hlabel⟩ := hbegins later
      cases heq
      exact hlabel
  split
  next => simpa using hunlabeled
  next name hname =>
    simp only [meets_bind, meets_isNext, meets_ite, decide_eq_true_eq, meets_pure, Option.isSome_some,
      Option.isSome_none, Bool.false_eq_true, false_imp_iff, true_imp_iff, not_false_eq_true,
      not_true_eq_false, true_and, and_true, meets_advanceTwice]
    refine ⟨fun hcolon => ?_, fun _ => hunlabeled⟩
    obtain ⟨kind, hkind, hname⟩ := Option.bind_eq_some_iff.mp hname
    obtain ⟨htext, hends⟩ :=
      Cursor.written_of_memberName? hs hkind (TokenKind.memberName?_of_anyName? hname)
    have hsolid := hends.isSolid
    have hu : Legible ((s.cursor.advance .anyLine).advance .anyLine).plainKinds := by simpa using hs
    have hvalue : (argumentsFrom closer (some name)).Prints room
        (s.moveTo ((s.cursor.advance .anyLine).advance .anyLine)) _ :=
      argumentsFrom_prints (some name) hu hcloser
    refine (hvalue way).imp (fun way inner s' h => ?_) fun _ _ _ => id
    obtain ⟨hs', hne, kinds, hbegins, htexts, hspelled, hechoes⟩ := h
    obtain ⟨first, rest, hcons, -, hstarts, -⟩ := hbegins []
    rw [List.append_nil] at hcons
    subst hcons
    -- what was read is spelled behind the label, its colon and a blank
    have hcolonSpelled := (hspelled.blank hstarts.isSolid).mark .colon (by decide)
    refine ⟨hs', kind, _, hsolid, fun hnil => absurd hnil hne, ?_,
      hcolonSpelled.solid hs hkind hsolid fun later => ?_,
      fun later => .of_procedure (Goal.roomInside?_of_not_isLevel rfl)
        (arguments_echoes_labeled hname hstarts.isSolid.1 (hechoes later))⟩
    · rw [← htexts, TokenKind.texts_cons, htext]
      simp [labelText, TokenKind.text, Punctuator.symbol]
    · exact Cursor.halts_ender hs hkind hsolid (by decide) _

/-! ### Collections -/

/-- The closing bracket alone. -/
lemma spelled_rightSquare (hs : Legible s.cursor.plainKinds) {t : State}
    (ht : Legible t.cursor.plainKinds) (hhere : t.cursor.here? = some (.punctuator .rightSquare))
    {before : List TokenKind} (hbefore : s.cursor.Spelled before) :
    t.cursor.Spelled (before ++ [.punctuator .rightSquare]) :=
  hbefore.append_ender hs (.single ht hhere (by simp [TokenKind.EndsOperand])) (e := ']') (by decide) rfl

/-- The elements of an array behind its first one are printed. -/
lemma elements_prints (hs : Legible s.cursor.plainKinds) :
    elements.Prints room s fun found s' => Goal.elements.Printed room s found s' := by
  intro way
  have hnil {t : State} (ht : Legible t.cursor.plainKinds)
      (hhere : t.cursor.here? = some (.punctuator .rightSquare)) :
      Goal.elements.Printed room s [] t :=
    ⟨.rightSquare, [], by simp, rfl, fun before hbefore => spelled_rightSquare hs ht hhere hbefore,
      fun first later _ => .of_procedure (Goal.roomInside?_of_not_isLevel rfl)
        ((elements_echoes_nil first).imp fun a ha => by rw [ha])⟩
  simp only [elements, meets_bind, meets_isNext, meets_ite, decide_eq_true_eq, meets_advanceTwice,
    meets_isHere, State.cursor_moveTo, meets_pure, meets_expectNext]
  have hu : Legible ((s.cursor.advance .anyLine).advance .anyLine).plainKinds := by simpa using hs
  refine ⟨fun _ => ⟨fun hhere => ⟨hu, hnil hu hhere⟩, fun _ => ?_⟩,
    fun _ => ⟨fun hhere => ?_, fun _ => trivial⟩⟩
  · refine meets_read_printing hu trivial fun e v hv he => ?_
    obtain ⟨V, he⟩ := he
    obtain ⟨first, rest, rfl, hfirst, hstarts, -⟩ := he.begins
    refine meets_read_printing hv trivial fun found w hw hfound => ⟨hw, ?_⟩
    obtain ⟨mark, T, hmark, hfound⟩ := hfound
    refine ⟨.comma, .whitespace :: first :: (rest ++ .punctuator mark :: T), by simp, ?_,
      fun before hbefore => ?_, fun left later _ => .of_procedure (Goal.roomInside?_of_not_isLevel rfl)
        (elements_echoes_cons left hstarts (he.echoes _ (Cursor.admits_closer _ ?_ _))
          fun last => hfound.echoes last later trivial)⟩
    · have htexts := hfound.texts_eq
      have helement := he.texts_eq
      rw [TokenKind.texts_cons] at htexts helement
      rw [Expression.laterText_cons, ← htexts, ← helement]
      simp [TokenKind.text, Punctuator.symbol]
    · have helement := (he.spelled.blank hstarts.isSolid).mark .comma (by decide)
      have hall := hfound.spelled _ (hbefore.append_ender hs helement (e := ',') (by decide) rfl)
      simpa using hall
    · simp only [List.mem_cons, List.not_mem_nil, or_false] at hmark
      rcases hmark with rfl | rfl <;> decide
  · have hu' : Legible (s.cursor.advance .anyLine).plainKinds := by simpa using hs
    exact ⟨hu', hnil hu' hhere⟩

/-- The value of a key and the entries behind it are printed. -/
lemma entries_prints (hs : Legible s.cursor.plainKinds) :
    entries.Prints room s fun found s' => Goal.entries.Printed room s found s' := by
  intro way
  have hu : Legible ((s.cursor.advance .anyLine).advance .anyLine).plainKinds := by simpa using hs
  simp only [entries, meets_bind, meets_isNext, meets_ite, decide_eq_true_eq, meets_advanceTwice,
    meets_isHere, State.cursor_moveTo, meets_pure, meets_expectNext, meets_advance, meets_raise,
    implies_true, and_true]
  refine meets_read_printing hu trivial fun value v hv hvalue => ?_
  obtain ⟨V, hvalue⟩ := hvalue
  obtain ⟨first, rest, rfl, hfirst, hstarts, -⟩ := hvalue.begins
  have hbefore {before : List TokenKind} (hbefore : s.cursor.Spelled before) :
      v.cursor.Spelled (before ++ .punctuator .colon :: .whitespace :: first :: rest) :=
    hbefore.append_ender hs ((hvalue.spelled.blank hstarts.isSolid).mark .colon (by decide))
      (e := ':') (by decide) rfl
  have htext : first.text.toList ++ TokenKind.texts rest = value.text.toList := hvalue.texts_eq
  -- the last entry, with or without a comma behind it
  have hnil {t : State} (ht : Legible t.cursor.plainKinds)
      (hhere : t.cursor.here? = some (.punctuator .rightSquare)) :
      Goal.entries.Printed room s (value, []) t := by
    have hechoes (left : TokenKind) (later : List TokenKind) :=
      entries_echoes_single left hstarts.isSolid.1
        (hvalue.echoes (.punctuator .rightSquare :: later) (Cursor.admits_closer _ (by decide) _))
    refine ⟨.whitespace :: first :: (rest ++ [TokenKind.punctuator .rightSquare]), ?_, fun before h => ?_,
      fun left later _ => .of_procedure (Goal.roomInside?_of_not_isLevel rfl) (hechoes left later)⟩
    · simp [Entry.laterText, Entry.texts, ← htext, TokenKind.text, Punctuator.symbol]
    · simpa using spelled_rightSquare hv ht hhere (hbefore h)
  refine ⟨fun _ => ⟨fun hhere => ⟨by simpa using hv, hnil (by simpa using hv) hhere⟩, fun _ => ?_⟩,
    fun _ hhere => ⟨by simpa using hv, hnil (by simpa using hv) hhere⟩⟩
  -- another key, its value and the entries behind them
  refine meets_read_printing (by simpa using hv) trivial fun key w hw hkey => ?_
  obtain ⟨K, hkey⟩ := hkey
  obtain ⟨after, keys, rfl, -, hafter, -⟩ := hkey.begins
  refine fun _ => meets_read_printing hw trivial fun entries x hx hfound => ⟨hx, ?_⟩
  obtain ⟨next, found⟩ := entries
  obtain ⟨T, hfound⟩ := hfound
  have hechoes (left : TokenKind) (later : List TokenKind) :=
    entries_echoes_cons left hstarts.isSolid.1 hafter
      (hvalue.echoes (.punctuator .comma :: .whitespace :: after ::
        (keys ++ .punctuator .colon :: (T ++ later))) (Cursor.admits_closer _ (by decide) _))
      (hkey.echoes (.punctuator .colon :: (T ++ later)) (Cursor.admits_closer _ (by decide) _))
      fun last => hfound.echoes last later trivial
  refine ⟨.whitespace :: first :: (rest ++ .punctuator .comma :: .whitespace :: after ::
      (keys ++ .punctuator .colon :: T)), ?_, fun before h => ?_,
    fun left later _ => .of_procedure (Goal.roomInside?_of_not_isLevel rfl) (hechoes left later)⟩
  · have hkeyText : after.text.toList ++ TokenKind.texts keys = key.text.toList := hkey.texts_eq
    rw [Entry.laterText_cons, ← hfound.texts_eq, ← htext, ← hkeyText]
    simp [TokenKind.text, Punctuator.symbol]
  · have hkeySpelled := (hkey.spelled.blank hafter.isSolid).mark .comma (by decide)
    have hall := hfound.spelled _ ((hbefore h).append_ender hv hkeySpelled (e := ',') (by decide) rfl)
    simpa using hall

end Grammar

end FrontEnd
