/-
Expressions are written in tokens from which they are read again.

An expression is an operand with operations.  With operands and the parts of expressions in
brackets this closes the circle: what is read of legible tokens is printed, and so every
expression that is read of them is, `Goal.Reads.printed`.
-/
import FrontEnd.Proofs.RoundTrip.Operand

namespace FrontEnd

namespace Grammar

open Procedure

variable {room : Nat} {s : State}

/-! ### Operations -/

/-- An operator with its right operand is printed with the operations behind it. -/
lemma printed_operation {floor : Nat} {operator : String} {right : Expression} {stop : Location}
    {found : List Operation} {u v w : State} (hs : Legible s.cursor.plainKinds)
    (hahead : s.cursor.binaryAhead? = some operator)
    (hlevel : ¬ (Precedence.ofOperator operator).level < floor)
    (hright : (Goal.expression (Precedence.ofOperator operator).rightFloor).Printed room u right v)
    (hfound : (Goal.operations floor).Printed room v found w) :
    (Goal.operations floor).Printed room s (⟨operator, right, stop⟩ :: found) w := by
  obtain ⟨R, hright⟩ := hright
  obtain ⟨T, -, hadmits, hfound⟩ := hfound
  obtain ⟨kind, kinds, rfl, -, hstarts, -⟩ := hright.begins
  have hmoved : Legible (s.cursor.advance .sameLine).plainKinds := by simpa using hs
  obtain ⟨sign, hfollowing, hbinary⟩ := Cursor.following?_of_binaryAhead? hahead
  have hsign : (s.cursor.advance .sameLine).here? = some sign := by
    rw [Cursor.here?_advance, hfollowing]
  have hblank := TokenKind.isBlank_of_binary? hbinary
  have hsolid : sign.IsSolid := ⟨hblank, by cases sign <;> first | rfl | cases hbinary⟩
  have htext : sign.text = operator := by
    rcases sign with _ | _ | _ | (_ | _) | _ | _ <;>
      first | exact Option.some.inj hbinary | cases hbinary
  -- the printed form sets a blank on both sides of the operator, however it was written
  refine ⟨.whitespace :: sign :: .whitespace :: kind :: (kinds ++ T), ?_, fun later _ =>
    Cursor.admits_operator hblank (hahead.trans hbinary.symm) _, ?_, fun before hbefore => ?_,
    fun first later hlater => .of_procedure (Goal.roomInside?_of_not_isLevel rfl)
      (operations_echoes_cons first _ hbinary hlevel hstarts.isSolid.1
        (hright.echoes _ (hadmits later hlater)) fun last => hfound.echoes last later hlater)⟩
  · have hspace : TokenKind.whitespace.isBlank = true := rfl
    have hcolon : sign ≠ .punctuator .colon := by
      rintro rfl
      cases hbinary
    simp [interest?, hspace, hblank, hcolon]
  · have hrightText : kind.text.toList ++ TokenKind.texts kinds = right.text.toList := hright.texts_eq
    rw [Operation.written_cons, ← hfound.texts_eq, ← hrightText, TokenKind.texts_cons,
      TokenKind.texts_cons, htext]
    simp [TokenKind.text]
  · -- the blanks keep the operator apart from both operands
    have hoperator := ((hright.spelled.blank hstarts.isSolid).solid hmoved hsign hsolid fun later =>
      Cursor.halts_ender hmoved hsign hsolid (show ' ' ∈ Rule.enders by decide) _).blank hsolid
    have hall := hfound.spelled _ (hbefore.append_ender hs hoperator (e := ' ') (by decide) rfl)
    simpa using hall

/-- Operations are printed. -/
lemma operations_prints {floor : Nat} (hs : Legible s.cursor.plainKinds) :
    (operations floor).Prints room s fun found s' =>
      (Goal.operations floor).Printed room s found s' := by
  intro way
  have hnil (hlevel : ∀ operator, s.cursor.binaryAhead? = some operator →
      (Precedence.ofOperator operator).level < floor) :
      (Goal.operations floor).Printed room s [] s := by
    refine ⟨[], by simp [interest?], fun _ => id, rfl, fun before hbefore => by simpa using hbefore,
      fun first later hlater => .of_procedure (Goal.roomInside?_of_not_isLevel rfl) ?_⟩
    refine (operations_echoes_nil fun operator hoperator => ?_).imp ?_
    · rcases hlater.operator with hnone | hsame
      · rw [hnone] at hoperator
        cases hoperator
      · exact hlevel operator (hsame ▸ hoperator)
    · rintro _ rfl
      rfl
  simp only [operations, meets_bind, meets_binaryAhead]
  split
  next hnone => exact ⟨hs, hnil (by simp [hnone])⟩
  next operator hahead =>
    simp only [meets_ite, meets_pure, meets_bind, meets_advance, State.cursor_moveTo,
      State.moveTo_moveTo, meets_stopLocation]
    refine ⟨fun hlevel => ⟨hs, hnil fun operator' hoperator => ?_⟩, fun hlevel => ?_⟩
    · rw [hahead] at hoperator
      obtain rfl := Option.some.inj hoperator
      exact hlevel
    · refine meets_read_printing (by simpa using hs) trivial fun right v hv hright => ?_
      exact meets_read_printing hv trivial fun found w hw hfound =>
        ⟨hw, printed_operation hs hahead hlevel hright hfound⟩

/-- An expression is printed. -/
lemma expression_prints {floor : Nat} (hs : Legible s.cursor.plainKinds) :
    (expression floor).Prints room s fun e s' =>
      PrintedBy (expression floor) room s s' s'.cursor.Admits e := by
  intro way
  simp only [expression, meets_bind, meets_startLocation]
  refine (operand_prints hs way).imp (fun way first u hfirst => ?_) fun _ _ _ => id
  obtain ⟨hu, B, hfirst⟩ := hfirst
  simp only [meets_pure]
  refine meets_read_printing hu trivial fun found v hv hfound => ⟨hv, ?_⟩
  obtain ⟨T, hcolon, hadmits, hfound⟩ := hfound
  refine ⟨B ++ T, ?_, hfirst.begins.append hcolon, hfound.spelled _ hfirst.spelled, fun later hlater =>
    expression_echoes _ (hfirst.echoes _ (hadmits later hlater)) fun last =>
      hfound.echoes last later hlater⟩
  rw [Operation.toList_text_foldl, ← hfound.texts_eq, ← hfirst.texts_eq, TokenKind.texts_append]

end Grammar

/-! ### All goals of expressions -/

/-- A goal prints what it reads, if its procedure does so wherever its goals do. -/
lemma Goal.meets_of_prints (g : Goal) {room inside : Nat} {s : State}
    {value : g.Result → State → Prop} {passed : List Event → Prop} {ended : g.Result → State → Prop}
    {failed : ParseError → State → Prop} (h : g.procedure.Prints inside s value)
    (hvalue : ∀ a s', value a s' → g.Printed room s a s') :
    g.procedure.Meets ((Contract.printing inside).given Goal.Keeps) [] s
      (fun way a s' => passed way → ended a s' → g.Printed room s a s')
      fun way e s' => passed way → failed e s' → True :=
  (h []).imp (fun _ a s' ha _ _ => hvalue a s' ha.2) fun _ _ _ _ _ _ => trivial

/-- Every goal of expressions prints what it reads. -/
lemma printing_kept : Contract.Family.Kept Goal.Keeps fun _ room => .printing room where
  procedure below room inside g s hroom henter := by
    obtain ⟨hg, hs⟩ := henter
    cases g with
    | expression floor =>
      exact Goal.meets_of_prints (.expression floor) (Grammar.expression_prints hs) fun e s' ⟨kinds, hwritten⟩ =>
        ⟨kinds, hwritten.imp fun _ => .of_procedure hroom⟩
    | operand =>
      exact Goal.meets_of_prints .operand (Grammar.operand_prints hs) fun e s' ⟨kinds, hwritten⟩ =>
        ⟨kinds, hwritten.imp fun _ => .of_procedure hroom⟩
    | operations floor =>
      obtain rfl : room = inside := Option.some.inj hroom
      exact Goal.meets_of_prints (.operations floor) (Grammar.operations_prints hs) fun _ _ => id
    | suffixes =>
      obtain rfl : room = inside := Option.some.inj hroom
      exact Goal.meets_of_prints .suffixes (Grammar.suffixes_prints hs) fun _ _ => id
    | elements =>
      obtain rfl : room = inside := Option.some.inj hroom
      exact Goal.meets_of_prints .elements (Grammar.elements_prints hs) fun _ _ => id
    | entries =>
      obtain rfl : room = inside := Option.some.inj hroom
      exact Goal.meets_of_prints .entries (Grammar.entries_prints hs) fun _ _ => id
    | arguments closer =>
      obtain rfl : room = inside := Option.some.inj hroom
      exact Goal.meets_of_prints (.arguments closer) (Grammar.arguments_prints hs hg) fun _ _ => id
    | _ => exact hg.elim
  noRoom _ _ _ _ _ _ := trivial

namespace Goal

/-- An expression that is read of legible tokens is written in tokens from which it is read
again. -/
theorem Reads.printed {room floor : Nat} {s s' : State} {e : Expression}
    (h : (expression floor).Reads room s (.ok e) s') (hs : Legible s.cursor.plainKinds) :
    ∃ kinds, Written s s' e.text.toList kinds s'.cursor.Admits
      ((expression floor).Echoes room kinds · e) := by
  obtain ⟨bound, hrun⟩ := h
  have hexpresses : (expression floor).Expresses := trivial
  exact (printing_kept.finished known_keeps bound room _ s ⟨hexpresses, hs⟩).1 e s' hrun

end Goal

end FrontEnd
