/-
Declarations of the top level at the end of the list.

The last declaration may end with the list.  There it is behind the last token where the one in the
longer list is on the separator, so that the two agree on where the next declaration may start
(`Goal.Reads.declaration_followedBy`).  Only the names behind the module of an import make a detour: in
the longer list they give the separator back, before it is looked for again
(`Grammar.exists_submodules`).
-/
import FrontEnd.Proofs.Sequel.Reading

namespace FrontEnd

/-- The list ends behind a cursor, and the longer one stands on the last token of the list; or the
two are at one place. -/
inductive Sequel.Rests (q : Sequel) : Cursor → Cursor → Prop where
  | inside {c : Cursor} (h : c.here? ≠ none) : Rests q c (c.followedBy q)
  | last (behind : List Token) (token : Token) :
    Rests q (.finish (token :: behind)) (.on behind token q.tokens)

lemma Sequel.Rests.range_stop {q : Sequel} {c d : Cursor} (h : q.Rests c d) :
    d.range.stop = c.range.stop := by
  cases h with
  | inside h => rw [Cursor.range_followedBy q h]
  | last behind token => rfl

/-- The way to the separator from the last token of the list. -/
lemma Sequel.Rests.advance_sameLine {q : Sequel} {c d : Cursor} (h : q.Rests c d) :
    d.advance .sameLine = (c.advance .sameLine).followedBy q := by
  cases h with
  | inside h => exact Cursor.advance_sameLine_followedBy q h
  | last behind token =>
    have hstop : Reach.sameLine.passes q.separator.kind = false := q.isInlineBlank_separator
    rw [Cursor.advance_eq_land, Cursor.advance_eq_land, Cursor.followedBy_land]
    simp [Cursor.remaining, Cursor.current?, Cursor.behind, Sequel.tokens, hstop]

/-- Where no token is left on the way, the longer list goes on with the separator. -/
lemma Cursor.followedBy_of_here?_advance {q : Sequel} {c : Cursor} {reach : Reach}
    (h : (c.advance reach).here? = none) :
    ((c.advance reach).followedBy q).here? = some q.separator.kind.plain := by
  rw [advance_eq_land] at h ⊢
  rcases hdrop : c.remaining.dropWhile fun t => reach.passes t.kind with _ | ⟨t, a⟩
  · rw [hdrop]
    rfl
  · rw [hdrop] at h
    exact absurd h (Option.some_ne_none _)

/-- The separator has no name. -/
lemma Sequel.name?_separator (q : Sequel) (contextual : Bool) :
    q.separator.kind.plain.name? contextual = none := by
  rcases q.plain_separator with h | h <;> rw [h] <;> rfl

/-- Behind the list no name is found. -/
lemma Cursor.name?_shift_followedBy {q : Sequel} {c : Cursor} (hc : c.here? ≠ none)
    {contextual : Bool} (h : c.shift.here?.bind (·.name? contextual) = none) :
    (c.shift.followedBy q).here?.bind (·.name? contextual) = none := by
  obtain ⟨b, t, (_ | ⟨u, a⟩), rfl⟩ := exists_on_of_here? hc
  · exact q.name?_separator contextual
  · exact h

namespace Grammar

open Procedure

variable {q : Sequel} {s : State} {room : Nat}

/-- The separator of two declarations is found where the list ends. -/
lemma separator_followedBy {d : Cursor} (hrests : q.Rests s.cursor d) (way way' : List Event) :
    (separator .topLevel).Meets (.reading room) way s
      (fun _ complaint t => complaint = none →
        (separator .topLevel).Meets (.reading room) way' (s.moveTo d)
          (fun _ b u => b = none ∧ u = t.followedBy q) fun _ _ _ => False)
      fun _ _ _ => True := by
  have hseparated (hhere : ((s.cursor.advance .sameLine).followedBy q).here? = some .lineFeed ∨
      ((s.cursor.advance .sameLine).followedBy q).here? = some (.punctuator .semicolon)) :
      (separator .topLevel).Meets (.reading room) way' (s.moveTo d)
        (fun _ b u => b = none ∧ u = (s.moveTo (s.cursor.advance .sameLine)).followedBy q)
        fun _ _ _ => False := by
    rw [separator, meets_bind, meets_advance, meets_bind, meets_here, State.cursor_moveTo,
      State.cursor_moveTo, hrests.advance_sameLine]
    rcases hhere with h | h <;> rw [h] <;> exact ⟨rfl, rfl⟩
  rw [separator, meets_bind, meets_advance, meets_bind, meets_here, State.cursor_moveTo]
  split
  next hnone =>
    refine fun _ => hseparated ?_
    rw [Cursor.followedBy_of_here?_advance hnone]
    rcases q.plain_separator with h | h
    · exact .inl (congrArg some h)
    · exact .inr (congrArg some h)
  next h =>
    refine fun _ => hseparated (.inr ?_)
    rw [Cursor.here?_followedBy q (by simp [h]), h]
  next h =>
    refine fun _ => hseparated (.inl ?_)
    rw [Cursor.here?_followedBy q (by simp [h]), h]
  · simp [Context.isNested]

end Grammar

/-! ### The names behind a module -/

namespace Goal

open Procedure

variable {q : Sequel} {room : Nat} {c d : Cursor} {noted : List ParseError} {names : List String}

lemma Reads.of_submodules_meets {s t : State} (h : Grammar.submodules.Meets (.reading room) [] s
    (fun _ b s' => b = names ∧ s' = t) fun _ _ _ => False) :
    submodules.Reads room s (.ok names) t :=
  .of_meets (roomInside?_of_not_isLevel rfl) h

lemma submodules_reads_of_none (h : c.here? = none) :
    submodules.Reads room ⟨c, noted⟩ (.ok []) ⟨c, noted⟩ := by
  refine .of_submodules_meets ?_
  rw [Grammar.submodules, meets_bind, meets_here, h]
  exact ⟨rfl, rfl⟩

lemma submodules_reads_of_ne {kind : TokenKind} (h : c.here? = some kind)
    (hne : kind ≠ .punctuator .period) :
    submodules.Reads room ⟨c, noted⟩ (.ok []) ⟨c.unshift, noted⟩ := by
  refine .of_submodules_meets ?_
  rw [Grammar.submodules, meets_bind, meets_here, h]
  split
  next hnone => cases hnone
  next hperiod => exact absurd (Option.some.inj hperiod) hne
  · have hsome : c.current? ≠ none := fun hnone => by simp [Cursor.here?, Cursor.kind?, hnone] at h
    simp [hsome, State.moveTo]

lemma submodules_reads_of_name {name : String} (h : c.here? = some (.punctuator .period))
    (hname : c.shift.here?.bind (·.name? true) = some name)
    (hlater : submodules.Reads room ⟨c.shift.shift, noted⟩ (.ok names) ⟨d, noted⟩) :
    submodules.Reads room ⟨c, noted⟩ (.ok (name :: names)) ⟨d, noted⟩ := by
  refine .of_submodules_meets ?_
  rw [Grammar.submodules, meets_bind, meets_here, h]
  rw [meets_bind, meets_shift, meets_bind, meets_here, State.cursor_moveTo, hname]
  rw [meets_bind, meets_shift, meets_bind]
  exact (meets_read_of_reads hlater _).mpr ⟨rfl, rfl⟩

lemma submodules_reads_of_name_eq_none (h : c.here? = some (.punctuator .period))
    (hname : c.shift.here?.bind (·.name? true) = none)
    (hlater : submodules.Reads room ⟨c.shift, noted⟩ (.ok names) ⟨d, noted⟩) :
    submodules.Reads room ⟨c, noted⟩ (.ok names) ⟨d, noted⟩ := by
  refine .of_submodules_meets ?_
  rw [Grammar.submodules, meets_bind, meets_here, h]
  rw [meets_bind, meets_shift, meets_bind, meets_here, State.cursor_moveTo, hname]
  exact (meets_read_of_reads hlater _).mpr ⟨rfl, rfl⟩

/-- The names behind a module are the same, and where they end with the list they give the separator
back. -/
lemma exists_submodules (q : Sequel) (room : Nat) (noted : List ParseError) (c : Cursor)
    (hbehind : c.behind ≠ []) :
    ∃ names d d', submodules.Reads room ⟨c, noted⟩ (.ok names) ⟨d, noted⟩ ∧
      submodules.Reads room ⟨c.followedBy q, noted⟩ (.ok names) ⟨d', noted⟩ ∧ q.Rests d d' := by
  -- a step on leaves something behind, so that one step back does not lead out of the list
  have hshift {c : Cursor} (h : c.behind ≠ []) : c.shift.behind ≠ [] := by
    rw [Cursor.behind_shift]
    exact List.append_ne_nil_of_right_ne_nil _ h
  induction hleft : c.left using Nat.strong_induction_on generalizing c with
  | _ left ih =>
    rcases hhere : c.here? with _ | kind
    · -- at the end of the list the longer one shows the separator, and gives it back
      obtain ⟨p, b, rfl⟩ : ∃ p b, c = .finish (p :: b) := by
        rcases c with a | ⟨b, t, a⟩ | _ | ⟨p, b⟩
        · exact absurd rfl hbehind
        · cases hhere
        · exact absurd rfl hbehind
        · exact ⟨p, b, rfl⟩
      refine ⟨[], _, .on b p q.tokens, submodules_reads_of_none hhere,
        submodules_reads_of_ne rfl ?_, .last b p⟩
      rcases q.plain_separator with h | h <;> rw [h] <;> simp
    have hc : c.here? ≠ none := by simp [hhere]
    have hhere' : (c.followedBy q).here? = some kind := by rw [Cursor.here?_followedBy q hc, hhere]
    have hlt : c.shift.left < left := by
      have hpos := Cursor.left_pos_of_here? hhere
      rw [Cursor.left_shift]
      omega
    by_cases hperiod : kind = .punctuator .period
    · subst hperiod
      rcases hname : c.shift.here?.bind (·.name? true) with _ | name
      · obtain ⟨names, d, d', hreads, hreads', hrests⟩ := ih _ hlt c.shift (hshift hbehind) rfl
        refine ⟨names, d, d', submodules_reads_of_name_eq_none hhere hname hreads,
          submodules_reads_of_name_eq_none hhere' ?_ ?_, hrests⟩
        · rw [Cursor.shift_followedBy q hc]
          exact Cursor.name?_shift_followedBy hc hname
        · rwa [Cursor.shift_followedBy q hc]
      · have hnext : c.shift.here? ≠ none := by
          intro hnone
          simp [hnone] at hname
        have hlt' : c.shift.shift.left < left := by
          rw [Cursor.left_shift]
          omega
        obtain ⟨names, d, d', hreads, hreads', hrests⟩ :=
          ih _ hlt' c.shift.shift (hshift (hshift hbehind)) rfl
        refine ⟨name :: names, d, d', submodules_reads_of_name hhere hname hreads,
          submodules_reads_of_name hhere' ?_ ?_, hrests⟩
        · rwa [Cursor.shift_followedBy q hc, Cursor.here?_followedBy q hnext]
        · rwa [Cursor.shift_followedBy q hc, Cursor.shift_followedBy q hnext]
    · -- another token is given back in both
      refine ⟨[], c.unshift, (c.followedBy q).unshift, submodules_reads_of_ne hhere hperiod,
        submodules_reads_of_ne hhere' hperiod, ?_⟩
      rw [Cursor.unshift_followedBy q hc]
      refine .inside ?_
      rw [Cursor.here?_unshift (Cursor.current?_isSome_of_here? hhere)]
      simpa using hbehind

end Goal

/-! ### A declaration -/

namespace Procedure

variable {α β : Type} {q : Sequel} {s : State} {below inside : Nat} {good : α → Prop}

/-- Whatever a procedure ends in in the list, if it notes no error and the value is good, it ends in
the same in the list that goes on. -/
def Carries (q : Sequel) (below inside : Nat) (p : Procedure α) (s : State) (good : α → Prop) :
    Prop :=
  ∀ a t, p.perform (Goal.run below inside) s = .finished (.ok a) t → t.noted = s.noted → good a →
    ∀ way, p.Meets (.reading inside) way (s.followedBy q) (fun _ b u => b = a ∧ u = t.followedBy q)
      fun _ _ _ => False

/-- What a procedure in a row ends in is what the second one ends in from where the first one
does. -/
lemma exists_of_perform_bind {callee : (g : Goal) → State → Outcome g.Result} {p : Procedure α}
    {f : α → Procedure β} {b : β} {t : State}
    (h : (p >>= f).perform callee s = .finished (.ok b) t) :
    ∃ a u, p.perform callee s = .finished (.ok a) u ∧ (f a).perform callee u = .finished (.ok b) t := by
  change (p.bind f).perform callee s = _ at h
  induction p generalizing s with
  | done a => exact ⟨a, s, rfl, h⟩
  | fail e => cases h
  | ask i next ih => exact ih _ h
  | call g next ih =>
    simp only [Procedure.bind, perform] at h ⊢
    rcases hc : callee g s with ⟨r, u⟩ | _
    · rw [hc] at h
      exact ih r h
    · simp [hc] at h
  | note e next ih => exact ih h

/-- A procedure stays in its list, if the goals it calls do. -/
lemma toList_of_perform {callee : (g : Goal) → State → Outcome g.Result}
    (hcallee : ∀ g s r s', callee g s = .finished r s' → s'.cursor.toList = s.cursor.toList)
    {p : Procedure α} {r : Except ParseError α} {t : State}
    (h : p.perform callee s = .finished r t) : t.cursor.toList = s.cursor.toList := by
  induction p generalizing s with
  | done a =>
    cases h
    rfl
  | fail e =>
    cases h
    rfl
  | ask i next ih => exact (ih _ h).trans (i.toList_perform s.cursor)
  | call g next ih =>
    simp only [perform] at h
    rcases hc : callee g s with ⟨r', u⟩ | _
    · rw [hc] at h
      exact (ih _ h).trans (hcallee _ _ _ _ hc)
    · simp [hc] at h
  | note e next ih => exact ih (s := s.note e) h

/-- Behind a procedure that keeps abreast, a further one ends in the same if it does so from each
place where the first one ends abreast. -/
lemma Abreast.carries {p : Procedure β} {f : β → Procedure α} {ok out : β → State → Prop}
    (h : p.Abreast q s ok out) (hno : Unattributed s.cursor.toList)
    (hok : ∀ b u, ok b u → Unattributed u.cursor.toList → (f b).Carries q below inside u good)
    (hout : ∀ b u, out b u → (f b).Yields feedingOnward u fun a _ => ¬ good a) :
    (p >>= f).Carries q below inside s good := by
  intro a t hr hquiet hgood way
  obtain ⟨b, u, hb, ha⟩ := exists_of_perform_bind hr
  have hnoted := Goal.noted_suffix_of_run below inside
  have hvalue : ∀ g s a s', Goal.run below inside g s = .finished (.ok a) s' →
      s'.noted = s.noted → feedingOnward.value g s a s' :=
    fun g s a s' hr hquiet => ⟨Goal.Reads.onward_back ⟨below, hr⟩, Goal.Reads.fed ⟨below, hr⟩ hquiet⟩
  have hu := noted_eq_of_suffix (noted_suffix_of_perform hnoted hb) (noted_suffix_of_perform hnoted ha)
    hquiet
  have ht : t.noted = u.noted := hquiet.trans hu.symm
  rcases h.perform hnoted hvalue (fun g s a s' hlist hs hr hquiet =>
      Goal.Reads.followedBy ⟨below, hr⟩ hquiet hs (hlist ▸ hno)) rfl hb hu way with ⟨hmeets, hends⟩ | hends
  · have hlist := toList_of_perform (fun g s r s' hr => (Goal.Reads.onward_back ⟨below, hr⟩).toList_eq) hb
    rw [meets_bind]
    refine hmeets.imp (fun way b' u' hends' => ?_) fun _ _ _ h => h
    obtain ⟨rfl, rfl⟩ := hends'
    exact hok b' u hends (hlist ▸ hno) a t ha ht hgood way
  · exact absurd hgood ((hout b u hends).perform hnoted (fun g s a s' _ => hvalue g s a s') ha ht)

end Procedure

namespace Grammar

open Procedure

variable {q : Sequel} {s : State} {below inside : Nat}

/-- What stands in front of a declaration up to its keyword: where it starts, the header, and the
keyword. -/
def declarationFront (context : Context) : Procedure (Location × Header × String) := do
  let start ← startLocation
  let attributes ← read .attributes
  let modifiers ← read .modifiers
  match (← here).bind (declarationKeyword? context) with
  | some word => return (start, ⟨attributes, modifiers⟩, word)
  | none => raise (if modifiers.isEmpty then .internal else .expectedDeclaration)

lemma declaration_eq (context : Context) :
    declaration context = declarationFront context >>= fun (start, header, word) =>
      declarationFrom context start header word := by
  simp only [declaration, declarationFront, bind_bind]
  refine bind_congr fun start => bind_congr fun attributes => bind_congr fun modifiers =>
    bind_congr fun kind => ?_
  rcases kind.bind (declarationKeyword? context) with _ | word <;> rfl

/-- What an import imports, up to the name of the module. -/
def importFront : Procedure (ImportKind × String) := do
  advance .anyLine
  let kind ← importKind
  let module ← expectName
  return (kind, module)

/-- The rest of an import. -/
def importRest (context : Context) (start : Location) (header : Header) (kind : ImportKind) (module : String) : Procedure (Kept Declaration) := do
  shift
  let names ← read .submodules
  let range ← rangeFrom start
  let complaint ← importEnd context kind names
  return ⟨.importing range header kind module names, complaint⟩

lemma importing_eq (context : Context) (start : Location) (header : Header) :
    importing context start header = importFront >>= fun (kind, module) =>
      importRest context start header kind module := by
  simp only [importing, importFront, importRest, bind_bind]
  rfl

lemma declarationFront_paces (context : Context) (hs : s.cursor.here? ≠ none) :
    (declarationFront context).Paces q s fun _ _ => False := by
  rw [declarationFront, Paces, abreast_startLocation_bind _ hs, abreast_read_bind _ _ hs]
  refine fun attributes t _ => ⟨fun ht => ?_, fun hparts => hparts.elim⟩
  rw [abreast_read_bind _ _ ht]
  refine fun modifiers u _ => ⟨fun hu => ?_, fun hbarren => ?_⟩
  · rw [abreast_here_bind _ hu]
    split
    · exact .inl hu
    · exact abreast_raise _
  · have hbarren : u.cursor.Barren := hbarren
    simp
    obtain h' | h' | h' | ⟨symbol, h'⟩ | h' := hbarren.here?_cases <;>
      simp [h', declarationKeyword?]

lemma importFront_paces (hs : s.cursor.here? ≠ none) :
    importFront.Paces q s fun _ _ => False := by
  rw [importFront, Paces, abreast_advance_bind _ _ hs]
  refine ⟨fun hnext => ?_, fun hnone => ?_⟩
  · rw [← Cursor.here?_advance] at hnext
    refine (importKind_paces hnext).bind (fun kind t ht => ?_) fun kind t h => ?_
    · rw [abreast_expectName_bind _ ht]
      exact fun name _ => .inl ht
    · rw [yields_bind, yields_expectName]
      intro name hname
      obtain h' | h' | h' | ⟨symbol, h'⟩ | h' := h.here?_cases <;> simp [h', TokenKind.name?] at hname
  · rw [← Cursor.here?_advance] at hnone
    simp [importKind, hnone]

/-- What a procedure carries over, by the ways through it in the list. -/
lemma carries_of_meets {α : Type} {p : Procedure α} {good : α → Prop}
    (h : ∀ way, p.Meets (.reading inside) [] s
      (fun _ a t => good a → p.Meets (.reading inside) way (s.followedBy q)
        (fun _ b u => b = a ∧ u = t.followedBy q) fun _ _ _ => False) fun _ _ _ => True) :
    p.Carries q below inside s good := by
  intro a t hr _ hgood way
  exact ((h way).perform (Goal.run below inside) (fun g s a s' _ hr => ⟨below, hr⟩)
    fun g s e s' _ hr => ⟨below, hr⟩).1 a t hr hgood

lemma importRest_carries (start : Location) (header : Header) (kind : ImportKind) (module : String)
    (hs : s.cursor.here? ≠ none) :
    (importRest .topLevel start header kind module).Carries q below inside s
      (·.complaint = none) := by
  have hbehind : s.cursor.shift.behind ≠ [] := by
    obtain ⟨b, t, a, hc⟩ := Cursor.exists_on_of_here? hs
    rw [Cursor.behind_shift, hc]
    exact List.cons_ne_nil _ _
  obtain ⟨names, d, d', hreads, hreads', hrests⟩ :=
    Goal.exists_submodules q inside s.noted s.cursor.shift hbehind
  refine carries_of_meets fun way' => ?_
  -- in either list the rest of the import is its end, behind the names
  have hmeets (way : List Event) (s' : State) (ok : List Event → Kept Declaration → State → Prop)
      (err : List Event → ParseError → State → Prop) {c : Cursor}
      (hs' : Goal.submodules.Reads inside (s'.moveTo s'.cursor.shift) (.ok names) (s'.moveTo c)) :
      (importRest .topLevel start header kind module).Meets (.reading inside) way s' ok err ↔
      (importEnd .topLevel kind names).Meets (.reading inside)
        (.called .submodules (s'.moveTo s'.cursor.shift) :: way) (s'.moveTo c)
        (fun way complaint t => ok way
          ⟨.importing ⟨start, c.stopLocation⟩ header kind module names, complaint⟩ t) err := by
    rw [importRest, meets_bind, meets_shift, meets_bind, meets_read_of_reads hs', meets_bind,
      meets_rangeFrom, meets_bind]
    rfl
  have hreads' : Goal.submodules.Reads inside ((s.followedBy q).moveTo (s.followedBy q).cursor.shift)
      (.ok names) ((s.followedBy q).moveTo d') := by
    rw [State.followedBy, State.cursor_moveTo, Cursor.shift_followedBy q hs]
    exact hreads'
  rw [hmeets _ _ _ _ hreads, importEnd]
  -- an import that is complained of is not carried over
  by_cases hmissing : kind ≠ .module && names.isEmpty
  · rw [if_pos hmissing]
    simp
  · rw [if_neg hmissing]
    refine (separator_followedBy hrests _ (.called .submodules
      ((s.followedBy q).moveTo (s.followedBy q).cursor.shift) :: way')).imp
      (fun way complaint t hends hgood => ?_) fun _ _ _ h => h
    rw [hmeets _ _ _ _ hreads', importEnd, if_neg hmissing]
    refine (hends hgood).imp (fun way b u hb => ?_) fun _ _ _ h => h
    obtain ⟨rfl, rfl⟩ := hb
    have hstop : d'.stopLocation = d.stopLocation := hrests.range_stop
    have hgood : complaint = none := hgood
    rw [hstop, hgood]
    exact ⟨rfl, rfl⟩

/-- A declaration that was read with the separator behind it. -/
lemma rest_carries (start : Location) (node : Range → Declaration) (hs : s.cursor.here? ≠ none) :
    (do
      let range ← rangeFrom start
      let complaint ← separator .topLevel
      return ⟨node range, complaint⟩ : Procedure (Kept Declaration)).Carries q below inside s
        (·.complaint = none) := by
  refine carries_of_meets fun way' => ?_
  rw [meets_bind, meets_rangeFrom, meets_bind]
  refine (separator_followedBy (q := q) (.inside hs) _ way').imp (fun way complaint t hends hgood => ?_)
    fun _ _ _ h => h
  rw [meets_bind, meets_rangeFrom, meets_bind]
  refine (hends hgood).imp (fun way b u hb => ?_) fun _ _ _ h => h
  obtain ⟨rfl, rfl⟩ := hb
  have hstop : (s.followedBy q).cursor.stopLocation = s.cursor.stopLocation :=
    congrArg Range.stop (Cursor.range_followedBy q hs)
  have hgood : complaint = none := hgood
  rw [hstop, hgood]
  exact ⟨rfl, rfl⟩

lemma declarationFrom_carries (start : Location) (header : Header) (word : String)
    (hs : s.cursor.here? ≠ none) (hno : Unattributed s.cursor.toList) :
    (declarationFrom .topLevel start header word).Carries q below inside s
      (·.complaint = none) := by
  rw [declarationFrom]
  split
  · rw [importing_eq]
    exact (importFront_paces hs).carries hno (fun names u hu _ => importRest_carries start header _ _ hu)
      fun _ _ h => h.elim
  · refine (declarationNamed_paces header word hs).carries hno (fun node u hu _ => ?_) fun node u h => ?_
    · exact rest_carries start node hu
    · rw [yields_bind, yields_rangeFrom, yields_bind]
      exact separator_yields_of_operatorLast .topLevel h

lemma declaration_carries (hs : s.cursor.here? ≠ none) (hno : Unattributed s.cursor.toList) :
    (declaration .topLevel).Carries q below inside s (·.complaint = none) := by
  rw [declaration_eq]
  exact (declarationFront_paces .topLevel hs).carries hno
    (fun front u hu hno => declarationFrom_carries _ _ _ hu hno) fun _ _ h => h.elim

end Grammar

/-- A declaration of the top level that is read without an error ends alike in the list that goes
on. -/
theorem Goal.Reads.declaration_followedBy {q : Sequel} {room : Nat} {s t : State} {d : Declaration}
    (h : (declaration .topLevel).Reads room s (.ok ⟨d, none⟩) t) (hquiet : t.noted = s.noted)
    (hs : s.cursor.here? ≠ none) (hno : Unattributed s.cursor.toList) :
    (declaration .topLevel).Reads room (s.followedBy q) (.ok ⟨d, none⟩) (t.followedBy q) := by
  obtain ⟨bound, hr⟩ := h
  rcases bound with _ | below
  · cases hr
  · have hroom : (declaration .topLevel).roomInside? room = some room := roomInside?_of_not_isLevel rfl
    rw [run, hroom] at hr
    exact .of_meets hroom (Grammar.declaration_carries hs hno _ _ hr hquiet rfl [])

end FrontEnd
