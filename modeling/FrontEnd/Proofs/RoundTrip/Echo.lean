/-
Reading what is written anew.

From wherever certain tokens are seen, with others behind them, a goal reads something that
looks like what was read before: `Goal.Echoes`.  Each procedure of expressions echoes what its
parts echo.
-/
import FrontEnd.Proofs.RoundTrip.Spelling
import FrontEnd.Proofs.RoundTrip.TypeReading
import FrontEnd.Proofs.View.Expression

namespace FrontEnd

/-- From wherever these kinds are seen, with the later ones behind them, a procedure ends on the
last of them, in something good and without new errors. -/
def Procedure.Echoes {α : Type} (p : Procedure α) (room : Nat) (kinds later : List TokenKind)
    (good : α → Prop) : Prop :=
  ∀ (way : List Event) (t : State), t.cursor.Sees (kinds ++ later) →
    p.Meets (.reading room) way t
      (fun _ a u => good a ∧ u.noted = t.noted ∧ ∃ last, u.cursor.Sees (last :: later))
      fun _ _ _ => False

/-- The same from a state with its cursor moved to such a place. -/
lemma Procedure.Echoes.moveTo {α : Type} {p : Procedure α} {room : Nat}
    {kinds later : List TokenKind} {good : α → Prop} (h : p.Echoes room kinds later good)
    (way : List Event) (s : State) {c : Cursor} (hsees : c.Sees (kinds ++ later)) :
    p.Meets (.reading room) way (s.moveTo c)
      (fun _ a u => good a ∧ u.noted = s.noted ∧ ∃ last, u.cursor.Sees (last :: later))
      fun _ _ _ => False :=
  h way (s.moveTo c) hsees

lemma Procedure.Echoes.imp {α : Type} {p : Procedure α} {room : Nat} {kinds later : List TokenKind}
    {good good' : α → Prop} (h : p.Echoes room kinds later good) (hgood : ∀ a, good a → good' a) :
    p.Echoes room kinds later good' :=
  fun way t hsees => (h way t hsees).imp (fun _ a _ ha => ⟨hgood a ha.1, ha.2⟩) fun _ _ _ => id

/-- From wherever these kinds are seen, with the later ones behind them, a goal reads up to the
last of them something that looks like `a` but for the places, without new errors. -/
def Goal.Echoes (g : Goal) (room : Nat) (kinds later : List TokenKind) (a : g.Result) : Prop :=
  ∀ t : State, t.cursor.Sees (kinds ++ later) →
    ∃ a' u last, g.Reads room t (.ok a') u ∧ g.view .placeless a' = g.view .placeless a ∧
      u.noted = t.noted ∧ u.cursor.Sees (last :: later)

lemma Goal.Echoes.of_procedure {g : Goal} {room inside : Nat} {kinds later : List TokenKind}
    {a : g.Result} (hroom : g.roomInside? room = some inside)
    (h : g.procedure.Echoes inside kinds later
      fun a' => g.view .placeless a' = g.view .placeless a) : g.Echoes room kinds later a := by
  intro t hsees
  obtain ⟨a', u, hreads, hgood, hnoted, last, hlast⟩ :=
    Reads.exists_ok_of_meets hroom (h [] t hsees)
  exact ⟨a', u, last, hreads, hgood, hnoted, hlast⟩

/-- The same from a state with its cursor moved to such a place. -/
lemma Goal.Echoes.moveTo {g : Goal} {room : Nat} {kinds later : List TokenKind} {a : g.Result}
    (h : g.Echoes room kinds later a) (s : State) {c : Cursor} (hsees : c.Sees (kinds ++ later)) :
    ∃ a' u last, g.Reads room (s.moveTo c) (.ok a') u ∧
      g.view .placeless a' = g.view .placeless a ∧ u.noted = s.noted ∧
      u.cursor.Sees (last :: later) :=
  h (s.moveTo c) hsees

/-- What stands in front of a token of interest is passed over to it. -/
lemma Cursor.Sees.following?_eq_interest? {c : Cursor} {kind : TokenKind} {kinds : List TokenKind}
    (h : c.Sees (kind :: kinds)) : c.following? .anyLine = interest? kinds := by
  rw [h.following?_eq, interest?, Cursor.find?_not_eq_head?_dropWhile]
  rfl

namespace Grammar

open Procedure

variable {room : Nat} {kind opener name sign : TokenKind} {kinds others later : List TokenKind}
  {way : List Event} {t : State}

/-! ### Arguments -/

/-- Arguments from the value of the first one on. -/
def argumentsFrom (closer : Punctuator) (label : Option String) : Procedure (List Argument) := do
  let value ← read (.expression 0)
  if ← isNext .comma .anyLine then
    advanceTwice
    let later ← read (.arguments closer)
    return ⟨label, value⟩ :: later
  else
    expectNext closer
    return [⟨label, value⟩]

lemma arguments_eq (closer : Punctuator) :
    arguments closer = (do
      if ← isHere closer then
        return []
      else
        let label ← argumentLabel
        if label.isSome then
          advanceTwice
        argumentsFrom closer label) := rfl

lemma arguments_echoes_nil (closer : Punctuator) :
    (arguments closer).Echoes room [.punctuator closer] later (· = []) := by
  intro way t hsees
  simp only [arguments, meets_bind, meets_isHere, hsees.here?_eq, meets_ite, meets_pure]
  exact ⟨fun _ => ⟨trivial, trivial, _, hsees⟩, fun h => absurd (by simp) h⟩

variable {value : Expression} {label : Option String}

/-- The last argument. -/
lemma argumentsFrom_echoes_single {closer : Punctuator} (hcloser : closer ≠ .comma)
    (hvalue : (Goal.expression 0).Echoes room kinds (.punctuator closer :: later) value) :
    (argumentsFrom closer label).Echoes room (kinds ++ [.punctuator closer]) later
      fun a => Argument.views .placeless a = Argument.views .placeless [⟨label, value⟩] := by
  intro way t hsees
  rw [List.append_assoc] at hsees
  obtain ⟨value', u, last, hreads, hview, hnoted, hlast⟩ := hvalue t hsees
  have hclose := hlast.advance_next rfl .anyLine
  have hcomma : u.cursor.following? .anyLine ≠ some (.punctuator .comma) := by
    simpa [hlast.following?_next rfl] using hcloser
  have hviews : Argument.views .placeless [⟨label, value'⟩] =
      Argument.views .placeless [⟨label, value⟩] := by
    simpa [Argument.views] using hview
  simp only [argumentsFrom, meets_bind, meets_read_of_reads hreads, meets_isNext, hcomma, meets_ite,
    meets_expectNext, hclose.here?_eq, meets_pure]
  simp only [decide_false, Bool.false_eq_true, false_imp_iff, not_false_eq_true, true_imp_iff,
    List.head?_cons, not_true_eq_false, ne_eq, and_true, true_and]
  exact ⟨hviews, hnoted, _, hclose⟩

/-- An argument with further ones behind it. -/
lemma argumentsFrom_echoes_cons {closer : Punctuator} {rest : List Argument}
    (hkind : kind.isBlank = false)
    (hvalue : (Goal.expression 0).Echoes room kinds
      (.punctuator .comma :: .whitespace :: kind :: (others ++ later)) value)
    (hrest : (Goal.arguments closer).Echoes room (kind :: others) later rest) :
    (argumentsFrom closer label).Echoes room
      (kinds ++ .punctuator .comma :: .whitespace :: kind :: others) later
      fun a => Argument.views .placeless a = Argument.views .placeless (⟨label, value⟩ :: rest) := by
  intro way t hsees
  rw [List.append_assoc] at hsees
  obtain ⟨value', u, last, hreads, hview, hnoted, hlast⟩ := hvalue t hsees
  have hnext := (hlast.advance_next rfl .anyLine).advance_blank hkind .anyLine
  obtain ⟨rest', v, last', hreads', hview', hnoted', hlast'⟩ := hrest.moveTo u hnext
  have hviews : Argument.views .placeless (⟨label, value'⟩ :: rest') =
      Argument.views .placeless (⟨label, value⟩ :: rest) := by
    simpa [Argument.views] using ⟨hview, hview'⟩
  simp only [argumentsFrom, meets_bind, meets_read_of_reads hreads, meets_isNext,
    hlast.following?_next rfl, meets_ite, meets_advanceTwice, meets_read_of_reads hreads', meets_pure]
  simp only [decide_true, true_imp_iff, not_true_eq_false, false_imp_iff, and_true]
  exact ⟨hviews, hnoted'.trans hnoted, _, hlast'⟩

/-- Arguments that start with a value. -/
lemma arguments_echoes_unlabeled {closer : Punctuator} {good : List Argument → Prop}
    (hkind : kind ≠ .punctuator closer)
    (hlabel : kind.anyName?.isSome → interest? (kinds ++ later) ≠ some (.punctuator .colon))
    (h : (argumentsFrom closer none).Echoes room (kind :: kinds) later good) :
    (arguments closer).Echoes room (kind :: kinds) later good := by
  intro way t hsees
  have hfrom := h way t hsees
  have hfollowing := hsees.following?_eq_interest?
  simp only [arguments_eq, argumentLabel, meets_bind, meets_isHere, hsees.here?_eq, meets_ite,
    meets_here, List.cons_append, List.head?_cons, Option.some.injEq, hkind, Option.bind_some]
  refine ⟨fun h => by simp at h, fun _ => ?_⟩
  rcases hname : kind.anyName? with _ | name
  · simpa using hfrom
  · have hcolon : t.cursor.following? .anyLine ≠ some (.punctuator .colon) := by
      rw [hfollowing]
      exact hlabel (by simp [hname])
    simpa [hcolon] using hfrom

/-- Arguments that start with a label. -/
lemma arguments_echoes_labeled {closer : Punctuator} {good : List Argument → Prop} {word : String}
    (hname : name.anyName? = some word) (hkind : kind.isBlank = false)
    (h : (argumentsFrom closer (some word)).Echoes room (kind :: kinds) later good) :
    (arguments closer).Echoes room
      (name :: .punctuator .colon :: .whitespace :: kind :: kinds) later good := by
  intro way t hsees
  have hvalue := (hsees.advance_next rfl .anyLine).advance_blank hkind .anyLine
  have hfrom := h.moveTo way t hvalue
  have hmark : name ≠ .punctuator closer := by
    rintro rfl
    cases hname
  simp only [arguments_eq, argumentLabel, meets_bind, meets_isHere, hsees.here?_eq, meets_ite,
    meets_here, List.cons_append, List.head?_cons, Option.some.injEq, hmark, Option.bind_some, hname,
    meets_isNext, hsees.following?_next rfl]
  simpa using hfrom

/-! ### Collections -/

/-- The end of an array. -/
lemma elements_echoes_nil (first : TokenKind) :
    elements.Echoes room [first, .punctuator .rightSquare] later (· = []) := by
  intro way t hsees
  have hclose : (t.cursor.advance .anyLine).Sees (.punctuator .rightSquare :: later) :=
    hsees.advance_next rfl .anyLine
  have hcomma : t.cursor.following? .anyLine ≠ some (.punctuator .comma) := by
    rw [hsees.following?_next rfl]
    decide
  simp only [elements, meets_bind, meets_isNext, hcomma, decide_false, Bool.false_eq_true, if_false,
    meets_expectNext, hclose.here?_eq, meets_pure]
  exact ⟨fun _ => ⟨trivial, rfl, _, hclose⟩, fun h => h rfl⟩

/-- An element of an array with further ones behind it. -/
lemma elements_echoes_cons {e : Expression} {rest : List Expression} (first : TokenKind)
    (hkind : kind.StartsOperand)
    (helement : (Goal.expression 0).Echoes room (kind :: kinds) (others ++ later) e)
    (hrest : ∀ last, Goal.elements.Echoes room (last :: others) later rest) :
    elements.Echoes room (first :: .punctuator .comma :: .whitespace :: kind :: (kinds ++ others)) later
      fun a => Expression.views .placeless a = Expression.views .placeless (e :: rest) := by
  intro way t hsees
  have hcomma : t.cursor.following? .anyLine = some (.punctuator .comma) :=
    hsees.following?_next rfl _
  have hnext : ((t.cursor.advance .anyLine).advance .anyLine).Sees
      (kind :: kinds ++ (others ++ later)) := by
    rw [List.cons_append, ← List.append_assoc]
    exact (hsees.advance_next rfl .anyLine).advance_blank hkind.isSolid.1 .anyLine
  have hnot := hkind.ne .rightSquare (by simp)
  obtain ⟨e', u, last, hreads, hview, hnoted, hlast⟩ := helement.moveTo t hnext
  obtain ⟨rest', v, last', hreads', hview', hnoted', hlast'⟩ := hrest last u hlast
  simp only [elements, meets_bind, meets_isNext, hcomma, decide_true, if_true, meets_advanceTwice,
    meets_isHere, State.cursor_moveTo, hnext.here?_eq, List.cons_append, List.head?_cons,
    Option.some.injEq, hnot, decide_false, Bool.false_eq_true, if_false,
    meets_read_of_reads hreads, meets_read_of_reads hreads', meets_pure]
  refine ⟨?_, hnoted'.trans hnoted, last', hlast'⟩
  rw [Expression.views, Expression.views]
  exact congrArg₂ List.cons hview hview'

/-- The last value of a dictionary. -/
lemma entries_echoes_single {value : Expression} (first : TokenKind) (hkind : kind.isBlank = false)
    (hvalue : (Goal.expression 0).Echoes room (kind :: kinds) (.punctuator .rightSquare :: later) value) :
    entries.Echoes room
      (first :: .punctuator .colon :: .whitespace :: kind :: (kinds ++ [.punctuator .rightSquare])) later
      fun a => Goal.view .placeless .entries a = Goal.view .placeless .entries (value, []) := by
  intro way t hsees
  have hnext : ((t.cursor.advance .anyLine).advance .anyLine).Sees
      (kind :: kinds ++ .punctuator .rightSquare :: later) := by
    simpa using (hsees.advance_next rfl .anyLine).advance_blank hkind .anyLine
  obtain ⟨value', u, last, hreads, hview, hnoted, hlast⟩ := hvalue.moveTo t hnext
  have hclose := hlast.advance_next rfl .anyLine
  have hcomma : u.cursor.following? .anyLine ≠ some (.punctuator .comma) := by
    rw [hlast.following?_next rfl]
    decide
  simp only [entries, meets_bind, meets_advanceTwice, meets_read_of_reads hreads, meets_isNext, hcomma,
    decide_false, Bool.false_eq_true, if_false, meets_expectNext, hclose.here?_eq, meets_pure]
  exact ⟨fun _ => ⟨Prod.ext hview rfl, hnoted, _, hclose⟩, fun h => h rfl⟩

/-- A value of a dictionary with further entries behind it. -/
lemma entries_echoes_cons {value key next : Expression} {rest : List Entry} {after : TokenKind}
    {keys : List TokenKind} (first : TokenKind) (hkind : kind.isBlank = false)
    (hafter : after.StartsOperand)
    (hvalue : (Goal.expression 0).Echoes room (kind :: kinds)
      (.punctuator .comma :: .whitespace :: after :: (keys ++ .punctuator .colon :: (others ++ later)))
      value)
    (hkey : (Goal.expression 0).Echoes room (after :: keys) (.punctuator .colon :: (others ++ later)) key)
    (hrest : ∀ last, Goal.entries.Echoes room (last :: .punctuator .colon :: others) later (next, rest)) :
    entries.Echoes room (first :: .punctuator .colon :: .whitespace :: kind :: (kinds ++
        .punctuator .comma :: .whitespace :: after :: (keys ++ .punctuator .colon :: others))) later
      fun a => Goal.view .placeless .entries a =
        Goal.view .placeless .entries (value, ⟨key, next⟩ :: rest) := by
  -- value, comma, key and colon, each read where the last one ended
  intro way t hsees
  have hnext : ((t.cursor.advance .anyLine).advance .anyLine).Sees
      (kind :: kinds ++ .punctuator .comma :: .whitespace :: after ::
        (keys ++ .punctuator .colon :: (others ++ later))) := by
    simpa using (hsees.advance_next rfl .anyLine).advance_blank hkind .anyLine
  have hnot := hafter.ne .rightSquare (by simp)
  obtain ⟨value', u, last, hreads, hview, hnoted, hlast⟩ := hvalue.moveTo t hnext
  have hcomma : u.cursor.following? .anyLine = some (.punctuator .comma) :=
    hlast.following?_next rfl _
  have hafterSees := (hlast.advance_next rfl .anyLine).advance_blank hafter.isSolid.1 .anyLine
  obtain ⟨key', v, last', hreads', hview', hnoted', hlast'⟩ := hkey.moveTo u hafterSees
  have hcolon : v.cursor.following? .anyLine = some (.punctuator .colon) :=
    hlast'.following?_next rfl _
  obtain ⟨⟨next', rest'⟩, w, last'', hreads'', hview'', hnoted'', hlast''⟩ := hrest last' v hlast'
  obtain ⟨hnextView, hrestView⟩ := Prod.ext_iff.mp hview''
  simp only [entries, meets_bind, meets_advanceTwice, meets_read_of_reads hreads, meets_isNext, hcomma,
    decide_true, if_true, meets_isHere, State.cursor_moveTo, hafterSees.here?_eq,
    List.head?_cons, Option.some.injEq, hnot, decide_false, Bool.false_eq_true, if_false,
    meets_read_of_reads hreads', hcolon, meets_read_of_reads hreads'', meets_pure]
  refine ⟨Prod.ext hview ?_, (hnoted''.trans hnoted').trans hnoted, last'', hlast''⟩
  change Entry.views _ _ = Entry.views _ _
  rw [Entry.views, Entry.views]
  exact congrArg₂ List.cons (congrArg₂ Entry.mk hview' hnextView) hrestView

/-- Two nodes look alike wherever they stand. -/
def LooksLike (build' build : Range → Expression) : Prop :=
  ∀ r r', (build' r').view .placeless = (build r).view .placeless

lemma collectionLiteral_echoes_empty :
    collectionLiteral.Echoes room [.punctuator .leftSquare, .punctuator .rightSquare] later
      (LooksLike · (.array · [])) := by
  intro way t hsees
  have hclose := hsees.advance_next rfl .anyLine
  simp only [collectionLiteral, meets_bind, meets_advance, meets_isHere, State.cursor_moveTo,
    hclose.here?_eq, List.head?_cons, decide_true, if_true, meets_pure]
  exact ⟨fun _ _ => rfl, rfl, _, hclose⟩

lemma collectionLiteral_echoes_colon :
    collectionLiteral.Echoes room
      [.punctuator .leftSquare, .punctuator .colon, .punctuator .rightSquare] later
      (LooksLike · (.dictionary · [])) := by
  intro way t hsees
  have hcolon := hsees.advance_next rfl .anyLine
  have hclose := hcolon.advance_next rfl .anyLine
  simp [collectionLiteral, hcolon.here?_eq, hclose.here?_eq]
  exact ⟨fun _ _ => rfl, rfl, _, hclose⟩

lemma collectionLiteral_echoes_array {e : Expression} {rest : List Expression} {mark : Punctuator}
    (hkind : kind.StartsOperand) (hmark : mark ≠ .colon)
    (helement : (Goal.expression 0).Echoes room (kind :: kinds) (.punctuator mark :: (others ++ later)) e)
    (hrest : ∀ last, Goal.elements.Echoes room (last :: .punctuator mark :: others) later rest) :
    collectionLiteral.Echoes room
      (.punctuator .leftSquare :: kind :: (kinds ++ .punctuator mark :: others)) later
      (LooksLike · (.array · (e :: rest))) := by
  intro way t hsees
  have hnext : (t.cursor.advance .anyLine).Sees
      (kind :: kinds ++ .punctuator mark :: (others ++ later)) := by
    simpa using hsees.advance_next hkind.isSolid.1 .anyLine
  obtain ⟨e', u, last, hreads, hview, hnoted, hlast⟩ := helement.moveTo t hnext
  obtain ⟨rest', v, last', hreads', hview', hnoted', hlast'⟩ := hrest last u hlast
  have hcolon : u.cursor.following? .anyLine ≠ some (.punctuator .colon) := by
    rw [hlast.following?_next rfl]
    simpa using hmark
  simp only [collectionLiteral, meets_bind, meets_advance, meets_isHere, State.cursor_moveTo,
    hnext.here?_eq, List.cons_append, List.head?_cons, Option.some.injEq, hkind.ne .rightSquare (by simp),
    hkind.ne .colon (by simp),
    decide_false, Bool.false_eq_true, if_false, meets_read_of_reads hreads, meets_isNext, hcolon,
    meets_read_of_reads hreads', meets_pure]
  refine ⟨fun r r' => ?_, hnoted'.trans hnoted, last', hlast'⟩
  rw [Expression.view, Expression.view, Expression.views, Expression.views]
  exact congrArg _ (congrArg₂ List.cons hview hview')

lemma collectionLiteral_echoes_dictionary {key value : Expression} {rest : List Entry}
    (hkind : kind.StartsOperand)
    (hkey : (Goal.expression 0).Echoes room (kind :: kinds) (.punctuator .colon :: (others ++ later)) key)
    (hrest : ∀ last, Goal.entries.Echoes room (last :: .punctuator .colon :: others) later (value, rest)) :
    collectionLiteral.Echoes room
      (.punctuator .leftSquare :: kind :: (kinds ++ .punctuator .colon :: others)) later
      (LooksLike · (.dictionary · (⟨key, value⟩ :: rest))) := by
  intro way t hsees
  have hnext : (t.cursor.advance .anyLine).Sees
      (kind :: kinds ++ .punctuator .colon :: (others ++ later)) := by
    simpa using hsees.advance_next hkind.isSolid.1 .anyLine
  obtain ⟨key', u, last, hreads, hview, hnoted, hlast⟩ := hkey.moveTo t hnext
  have hcolon : u.cursor.following? .anyLine = some (.punctuator .colon) := hlast.following?_next rfl _
  obtain ⟨⟨value', rest'⟩, v, last', hreads', hview', hnoted', hlast'⟩ := hrest last u hlast
  obtain ⟨hvalueView, hrestView⟩ := Prod.ext_iff.mp hview'
  simp only [collectionLiteral, meets_bind, meets_advance, meets_isHere, State.cursor_moveTo,
    hnext.here?_eq, List.cons_append, List.head?_cons, Option.some.injEq, hkind.ne .rightSquare (by simp),
    hkind.ne .colon (by simp),
    decide_false, Bool.false_eq_true, if_false, meets_read_of_reads hreads, meets_isNext, hcolon,
    decide_true, if_true, meets_read_of_reads hreads', meets_pure]
  refine ⟨fun r r' => ?_, hnoted'.trans hnoted, last', hlast'⟩
  rw [Expression.view, Expression.view, Entry.views, Entry.views]
  exact congrArg _ (congrArg₂ List.cons (congrArg₂ Entry.mk hview hvalueView) hrestView)

/-! ### Operands -/

/-- A token stands for what a procedure builds where an operand starts with it. -/
def Stands (kind : TokenKind) (node : Procedure (Range → Expression)) : Prop :=
  ∀ (K : Contract) (way : List Event) (t : State) (ok : List Event → Expression → State → Prop)
    (err : List Event → ParseError → State → Prop), t.cursor.here? = some kind →
    (primary.Meets K way t ok err ↔ (ranged node).Meets K way t ok err)

lemma primary_echoes {node : Procedure (Range → Expression)} {build : Range → Expression}
    (hnode : Stands kind node)
    (h : node.Echoes room (kind :: kinds) later (LooksLike · build)) (r : Range) :
    primary.Echoes room (kind :: kinds) later fun e => e.view .placeless = (build r).view .placeless := by
  intro way t hsees
  rw [hnode _ _ _ _ _ hsees.here?_eq, meets_ranged]
  refine (h way t hsees).imp (fun way build' u hu => ?_) fun _ _ _ => id
  exact ⟨hu.1 _ _, hu.2⟩

/-- What one token stands for. -/
lemma pure_echoes (build : Range → Expression)
    (hplaces : ∀ r r', (build r').view .placeless = (build r).view .placeless) :
    (pure build : Procedure (Range → Expression)).Echoes room [kind] later (LooksLike · build) :=
  fun _ _ hsees => ⟨hplaces, rfl, kind, hsees⟩

/-! ### Suffixes -/

lemma suffixThen_echoes {suffix suffix' : Suffix} {glued : List PlacedSuffix} (stop : Location)
    (hsuffix : suffix'.view .placeless = suffix.view .placeless)
    (h : Goal.suffixes.Echoes room (kind :: kinds) later glued) :
    (suffixThen suffix').Echoes room (kind :: kinds) later
      fun a => Goal.view .placeless .suffixes a = Goal.view .placeless .suffixes (⟨suffix, stop⟩ :: glued) := by
  intro way t hsees
  obtain ⟨glued', u, last, hreads, hview, hnoted, hlast⟩ := h t hsees
  simp only [suffixThen, meets_bind, meets_stopLocation, meets_read_of_reads hreads, meets_pure]
  refine ⟨?_, hnoted, last, hlast⟩
  exact congrArg₂ List.cons (congrArg₂ PlacedSuffix.mk hsuffix rfl) hview

/-- Arguments in brackets that are glued to an operand, and the suffixes behind them. -/
def bracketSuffix (closer : Punctuator) (build : List Argument → Suffix) :
    Procedure (List PlacedSuffix) := do
  shift
  advance .anyLine
  let inner ← read (.arguments closer)
  suffixThen (build inner)

lemma bracketSuffix_echoes {closer : Punctuator} {build : List Argument → Suffix}
    {inner : List Argument} {glued : List PlacedSuffix} (first : TokenKind) (stop : Location)
    (hbuild : ∀ inner', Argument.views .placeless inner' = Argument.views .placeless inner →
      (build inner').view .placeless = (build inner).view .placeless)
    (hkind : kind.isBlank = false)
    (hinner : (Goal.arguments closer).Echoes room (kind :: kinds) (others ++ later) inner)
    (hlater : ∀ last, Goal.suffixes.Echoes room (last :: others) later glued) :
    (bracketSuffix closer build).Echoes room (first :: opener :: kind :: (kinds ++ others)) later
      fun a => Goal.view .placeless .suffixes a =
        Goal.view .placeless .suffixes (⟨build inner, stop⟩ :: glued) := by
  intro way t hsees
  have hnext : (t.cursor.shift.advance .anyLine).Sees (kind :: kinds ++ (others ++ later)) := by
    rw [List.cons_append, ← List.append_assoc]
    exact hsees.shift.advance_next hkind .anyLine
  obtain ⟨inner', u, last, hreads, hview, hnoted, hlast⟩ := hinner.moveTo t hnext
  simp only [bracketSuffix, meets_bind, meets_shift, meets_advance, State.cursor_moveTo,
    State.moveTo_moveTo, meets_read_of_reads hreads]
  refine (suffixThen_echoes stop (hbuild inner' hview) (hlater last) _ u hlast).imp
    (fun way a v hv => ?_) fun _ _ _ => id
  exact ⟨hv.1, hv.2.1.trans hnoted, hv.2.2⟩

section

variable (K : Contract) (ok : List Event → List PlacedSuffix → State → Prop)
  (err : List Event → ParseError → State → Prop)

lemma meets_suffixes_call (h : t.cursor.glued? 0 = some (.punctuator .leftParen)) :
    suffixes.Meets K way t ok err ↔ (bracketSuffix .rightParen .call).Meets K way t ok err := by
  simp only [suffixes, bracketSuffix, meets_bind, meets_glued, h]

lemma meets_suffixes_subscript (h : t.cursor.glued? 0 = some (.punctuator .leftSquare)) :
    suffixes.Meets K way t ok err ↔ (bracketSuffix .rightSquare .subscript).Meets K way t ok err := by
  simp only [suffixes, bracketSuffix, meets_bind, meets_glued, h]

end

lemma suffixes_echoes_nil (hlater : Cursor.Unglued later) :
    suffixes.Echoes room [kind] later (· = []) := by
  intro way t hsees
  have hglued : ∀ kind ∈ Cursor.suffixMarks, t.cursor.glued? 0 ≠ some kind := by
    intro mark hmark hsome
    rw [hsees.glued?_eq, Option.filter_eq_some_iff, ← List.head?_eq_getElem?] at hsome
    exact hlater mark hsome.1 hmark
  simp only [Cursor.suffixMarks, List.forall_mem_cons] at hglued
  simp only [suffixes, meets_bind, meets_glued]
  split
  next h => exact absurd h hglued.1
  next h => exact absurd h hglued.2.1
  next h => exact absurd h hglued.2.2.1
  next h => exact absurd h hglued.2.2.2.1
  next => exact ⟨rfl, rfl, kind, hsees⟩

lemma suffixes_echoes_member {word : String} {glued : List PlacedSuffix} (first : TokenKind)
    (stop : Location) (hname : memberName? name = some word)
    (hlater : Goal.suffixes.Echoes room (name :: others) later glued) :
    suffixes.Echoes room (first :: .punctuator .period :: name :: others) later
      fun a => Goal.view .placeless .suffixes a =
        Goal.view .placeless .suffixes (⟨.member word, stop⟩ :: glued) := by
  intro way t hsees
  have hglued : t.cursor.glued? 0 = some (.punctuator .period) := by
    rw [hsees.glued?_eq]
    rfl
  have hsees' : t.cursor.shift.shift.Sees (name :: others ++ later) := hsees.shift.shift
  simp only [suffixes, meets_bind, meets_glued, hglued, meets_shift, State.cursor_moveTo, meets_here,
    hsees'.here?_eq, List.cons_append, List.head?_cons, Option.bind_some, hname, State.moveTo_moveTo]
  exact (suffixThen_echoes stop rfl hlater).moveTo way t hsees'

lemma suffixes_echoes_forced {glued : List PlacedSuffix} (first : TokenKind) (stop : Location)
    (hlater : Goal.suffixes.Echoes room (.punctuator .exclamation :: others) later glued) :
    suffixes.Echoes room (first :: .punctuator .exclamation :: others) later
      fun a => Goal.view .placeless .suffixes a =
        Goal.view .placeless .suffixes (⟨.forced, stop⟩ :: glued) := by
  intro way t hsees
  have hglued : t.cursor.glued? 0 = some (.punctuator .exclamation) := by
    rw [hsees.glued?_eq]
    rfl
  have hsees' : t.cursor.shift.Sees (.punctuator .exclamation :: others ++ later) := hsees.shift
  simp only [suffixes, meets_bind, meets_glued, hglued, meets_shift]
  exact (suffixThen_echoes stop rfl hlater).moveTo way t hsees'

/-! ### Operators -/

/-- The mark of an attempt. -/
def attemptMarks : AttemptKind → List TokenKind
  | .plain => []
  | .optional => [.punctuator .question]
  | .forced => [.punctuator .exclamation]

lemma attemptKind_echoes (attempt : AttemptKind) :
    attemptKind.Echoes room (sign :: attemptMarks attempt) (.whitespace :: later) (· = attempt) := by
  intro way t hsees
  have hglued := hsees.glued?_eq 0
  cases attempt with
  | plain =>
    have hnone : t.cursor.glued? 0 = none := hglued
    simp only [attemptKind, meets_bind, meets_isGlued, hnone, reduceCtorEq, decide_false,
      Bool.false_eq_true, if_false, meets_pure]
    exact ⟨trivial, trivial, sign, hsees⟩
  | optional =>
    have hmark : t.cursor.glued? 0 = some (.punctuator .question) := hglued
    simp only [attemptKind, meets_bind, meets_isGlued, hmark, decide_true, if_true, meets_shift,
      meets_pure]
    exact ⟨trivial, rfl, _, hsees.shift⟩
  | forced =>
    have hmark : t.cursor.glued? 0 = some (.punctuator .exclamation) := hglued
    have hnot : Punctuator.exclamation ≠ .question := by decide
    simp only [attemptKind, meets_bind, meets_isGlued, hmark, Option.some.injEq,
      TokenKind.punctuator.injEq, hnot, decide_false, Bool.false_eq_true, if_false, decide_true, if_true,
      meets_shift, meets_pure]
    exact ⟨trivial, rfl, _, hsees.shift⟩

lemma operand_echoes_attempt {body : Expression} (attempt : AttemptKind) (r : Range)
    (htry : sign.isKeyword "try") (hkind : kind.isBlank = false)
    (hbody : (Goal.expression 0).Echoes room (kind :: kinds) later body) :
    operand.Echoes room (sign :: (attemptMarks attempt ++ .whitespace :: kind :: kinds)) later
      fun e => e.view .placeless = (Expression.attempt r attempt body).view .placeless := by
  intro way t hsees
  have hhere : t.cursor.here? = some sign := hsees.here?_eq
  have hsees' : t.cursor.Sees (sign :: attemptMarks attempt ++
      .whitespace :: (kind :: kinds ++ later)) := by
    simpa using hsees
  simp only [operand, meets_bind, meets_isWordHere, hhere, Option.any_some, htry, if_true, meets_ranged]
  refine (attemptKind_echoes attempt way t hsees').imp (fun way found u hu => ?_) fun _ _ _ => id
  obtain ⟨rfl, hnoted, last, hlast⟩ := hu
  obtain ⟨body', v, last', hreads, hview, hnoted', hlast'⟩ :=
    hbody.moveTo u (hlast.advance_blank hkind .anyLine)
  simp only [meets_advance, meets_read_of_reads hreads, meets_pure]
  refine ⟨?_, hnoted'.trans hnoted, last', hlast'⟩
  rw [Expression.view, Expression.view]
  exact congrArg _ hview

lemma operand_echoes_unary {inner : Expression} {operator : String} (r : Range)
    (hsign : unaryOperator? sign = some operator) (hkind : kind.isBlank = false)
    (hinner : Goal.operand.Echoes room (kind :: kinds) later inner) :
    operand.Echoes room (sign :: kind :: kinds) later
      fun e => e.view .placeless = (Expression.unary r operator inner).view .placeless := by
  intro way t hsees
  have hhere : t.cursor.here? = some sign := hsees.here?_eq
  have htry : sign.isKeyword "try" = false := by
    cases sign <;> first | rfl | cases hsign
  have hglued : t.cursor.glued? 0 = some kind := by
    rw [hsees.glued?_eq]
    change (some kind).filter _ = _
    rw [Option.filter_some, hkind]
    rfl
  obtain ⟨inner', u, last, hreads, hview, hnoted, hlast⟩ := hinner.moveTo t hsees.shift
  simp only [operand, meets_bind, meets_isWordHere, hhere, Option.any_some, htry, Bool.false_eq_true,
    if_false, meets_here, Option.bind_some, hsign, meets_ranged, meets_glued, hglued,
    Option.isNone_some, meets_shift, meets_read_of_reads hreads, meets_pure]
  refine ⟨?_, hnoted, last, hlast⟩
  rw [Expression.view, Expression.view]
  exact congrArg _ hview

lemma operand_echoes_primary {base : Expression} {glued : List PlacedSuffix}
    (htry : kind.isKeyword "try" = false) (hsign : unaryOperator? kind = none)
    (hbase : primary.Echoes room (kind :: kinds) (others ++ later)
      fun e => e.view .placeless = base.view .placeless)
    (hglued : ∀ last, Goal.suffixes.Echoes room (last :: others) later glued) :
    operand.Echoes room (kind :: (kinds ++ others)) later
      fun e => e.view .placeless = (glued.foldl PlacedSuffix.apply base).view .placeless := by
  intro way t hsees
  have hhere : t.cursor.here? = some kind := hsees.here?_eq
  have hsees' : t.cursor.Sees (kind :: kinds ++ (others ++ later)) := by
    simpa using hsees
  simp only [operand, meets_bind, meets_isWordHere, hhere, Option.any_some, htry, Bool.false_eq_true,
    if_false, meets_here, Option.bind_some, hsign]
  refine (hbase way t hsees').imp (fun way base' u hu => ?_) fun _ _ _ => id
  obtain ⟨hview, hnoted, last, hlast⟩ := hu
  obtain ⟨glued', v, last', hreads, hview', hnoted', hlast'⟩ := hglued last u hlast
  simp only [meets_read_of_reads hreads, meets_pure]
  refine ⟨?_, hnoted'.trans hnoted, last', hlast'⟩
  rw [← view_foldl_suffix, ← view_foldl_suffix, hview]
  exact congrArg (fun l => List.foldl PlacedSuffix.apply (base.view .placeless) l) hview'

lemma operations_echoes_nil {floor : Nat} (hlater : ∀ operator, binaryAmong? later = some operator →
      (Precedence.ofOperator operator).level < floor) :
    (operations floor).Echoes room [kind] later (· = []) := by
  intro way t hsees
  have hahead : t.cursor.binaryAhead? = binaryAmong? later := hsees.binaryAhead?_eq
  simp only [operations, meets_bind, meets_binaryAhead, hahead]
  rcases hsome : binaryAmong? later with _ | operator
  · exact ⟨rfl, rfl, kind, hsees⟩
  · simp only [hlater operator hsome, if_true, meets_pure]
    exact ⟨trivial, trivial, kind, hsees⟩

lemma operations_echoes_cons {floor : Nat} {operator : String} {right : Expression}
    {rest : List Operation} (first : TokenKind) (stop : Location) (hsign : sign.binary? = some operator)
    (hlevel : ¬ (Precedence.ofOperator operator).level < floor) (hkind : kind.isBlank = false)
    (hright : (Goal.expression (Precedence.ofOperator operator).rightFloor).Echoes room (kind :: kinds)
      (others ++ later) right)
    (hrest : ∀ last, (Goal.operations floor).Echoes room (last :: others) later rest) :
    (operations floor).Echoes room
      (first :: .whitespace :: sign :: .whitespace :: kind :: (kinds ++ others)) later
      fun a => Goal.view .placeless (.operations floor) a =
        Goal.view .placeless (.operations floor) (⟨operator, right, stop⟩ :: rest) := by
  intro way t hsees
  have hblank := TokenKind.isBlank_of_binary? hsign
  have hahead : t.cursor.binaryAhead? = some operator := by
    rw [hsees.binaryAhead?_eq]
    exact (binaryAmong?_spaced hblank rfl).trans hsign
  have hnext : ((t.cursor.advance .sameLine).advance .anyLine).Sees
      (kind :: kinds ++ (others ++ later)) := by
    rw [List.cons_append, ← List.append_assoc]
    exact (hsees.advance_blank hblank .sameLine).advance_blank hkind .anyLine
  obtain ⟨right', u, last, hreads, hview, hnoted, hlast⟩ := hright.moveTo t hnext
  obtain ⟨rest', v, last', hreads', hview', hnoted', hlast'⟩ := hrest last u hlast
  simp only [operations, meets_bind, meets_binaryAhead, hahead, hlevel, if_false, meets_advance,
    State.cursor_moveTo, State.moveTo_moveTo, meets_read_of_reads hreads, meets_stopLocation,
    meets_read_of_reads hreads', meets_pure]
  refine ⟨?_, hnoted'.trans hnoted, last', hlast'⟩
  exact congrArg₂ List.cons (congrArg₂ (Operation.mk operator · ·) hview rfl) hview'

lemma expression_echoes {floor : Nat} {first : Expression} {rest : List Operation} (start : Location)
    (hfirst : operand.Echoes room kinds (others ++ later)
      fun e => e.view .placeless = first.view .placeless)
    (hrest : ∀ last, (Goal.operations floor).Echoes room (last :: others) later rest) :
    (expression floor).Echoes room (kinds ++ others) later
      fun e => e.view .placeless = (rest.foldl (Operation.apply start) first).view .placeless := by
  intro way t hsees
  rw [List.append_assoc] at hsees
  simp only [expression, meets_bind, meets_startLocation]
  refine (hfirst way t hsees).imp (fun way first' u hu => ?_) fun _ _ _ => id
  obtain ⟨hview, hnoted, last, hlast⟩ := hu
  obtain ⟨rest', v, last', hreads, hview', hnoted', hlast'⟩ := hrest last u hlast
  simp only [meets_read_of_reads hreads, meets_pure]
  refine ⟨?_, hnoted'.trans hnoted, last', hlast'⟩
  rw [← view_foldl_operation, ← view_foldl_operation, hview]
  exact congrArg (fun l => List.foldl (Operation.apply .origin) (first.view .placeless) l) hview'

end Grammar

end FrontEnd
