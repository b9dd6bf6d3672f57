/-
What is read as an import, the other way round.

Tokens that spell an import, with nothing between its names but one period each, are read up to the
separator behind them as this import, whatever blanks stand in front of the name of the module.

* `Goal.exists_reads_submodules`: the names behind a module.
* `Goal.exists_reads_importing`: an import with its separator.
* `Parser.exists_readTokens_importing`: a list of tokens that is one import.
-/
import FrontEnd.Proofs.Imports.Accepted
import FrontEnd.Proofs.RoundTrip.Declaration
import FrontEnd.Proofs.Sequel.TopLevel
import FrontEnd.Proofs.Spacing.Reading

namespace FrontEnd

/-! ### What stands behind an import -/

/-- Names behind a module, each with its period in front. -/
def dotted (parts : List TokenKind) : List TokenKind :=
  parts.flatMap fun part => [.period, part]

/-- The kinds of the tokens of an import with nothing but periods between its names: blanks may
stand in front of the keyword of what is imported, and behind it. -/
def importKinds (what : ImportKind) (gap gap' : List TokenKind) (first : TokenKind)
    (parts : List TokenKind) : List TokenKind :=
  .keyword "import" .declaration :: (gap ++ (what.keywords ++ (gap' ++ first :: dotted parts)))

/-- What ends a text behind a declaration: blanks on its line, and then nothing or a separator with
blanks behind it. -/
inductive Closing : List TokenKind → Prop where
  | nil : Closing []
  | blank {kind : TokenKind} {kinds : List TokenKind} (hkind : kind.isInlineBlank = true)
      (h : Closing kinds) : Closing (kind :: kinds)
  | separator {kind : TokenKind} {kinds : List TokenKind}
      (hkind : kind = .punctuator .semicolon ∨ kind = .lineFeed)
      (hkinds : ∀ later ∈ kinds, later.isBlank = true) : Closing (kind :: kinds)

namespace Closing

variable {kind : TokenKind} {kinds : List TokenKind}

/-- The end or a separator follows on the line. -/
lemma dropWhile (h : Closing kinds) :
    kinds.dropWhile Reach.sameLine.passes = [] ∨
      ∃ kind later, kinds.dropWhile Reach.sameLine.passes = kind :: later ∧
        (kind = .punctuator .semicolon ∨ kind = .lineFeed) ∧ ∀ next ∈ later, next.isBlank = true := by
  induction h with
  | nil => exact .inl rfl
  | @blank kind kinds hkind h ih =>
    have hpasses : Reach.sameLine.passes kind = true := hkind
    rwa [List.dropWhile_cons_of_pos hpasses]
  | @separator kind kinds hkind hkinds =>
    have hstops : Reach.sameLine.passes kind = false := by rcases hkind with rfl | rfl <;> rfl
    rw [List.dropWhile_cons_of_neg (by simp [hstops])]
    exact .inr ⟨kind, kinds, rfl, hkind, hkinds⟩

/-- No period follows. -/
lemma head_ne_period (h : Closing (kind :: kinds)) : kind ≠ .period := by
  rintro rfl
  cases h with
  | blank hkind _ => cases hkind
  | separator hkind _ => rcases hkind with h | h <;> cases h

end Closing

/-- Behind blanks the next token of interest is found. -/
lemma dropWhile_gap {gap kinds : List TokenKind} {first : TokenKind}
    (hgap : ∀ blank ∈ gap, blank.isBlank = true) (hfirst : first.isBlank = false) :
    (gap ++ first :: kinds).dropWhile Reach.anyLine.passes = first :: kinds := by
  have hpasses : Reach.anyLine.passes first = false := hfirst
  have hblanks : ∀ blank ∈ gap, Reach.anyLine.passes blank = true := hgap
  rw [List.dropWhile_append_of_pos hblanks, List.dropWhile_cons_of_neg (by simp [hpasses])]

lemma ImportKind.keywords_of_ne {what : ImportKind} (h : what ≠ .module) :
    what.keywords = [.keyword what.name .declaration] ∧
      ImportKind.ofKeyword? what.name = some what := by
  cases what <;> first | exact absurd rfl h | exact ⟨rfl, rfl⟩

/-! ### Readings -/

namespace Goal

open Procedure

variable {room : Nat} {noted : List ParseError} {s : State} {kind : TokenKind}
  {ending : List TokenKind}

/-- The names behind a module are read up to the last one, from where the ending follows. -/
lemma exists_reads_submodules {parts : List TokenKind} {names : List String} (hending : Closing ending)
    (hnames : List.Forall₂ (fun part name => part.name? true = some name) parts names) {c : Cursor}
    (hc : c.Sees (kind :: (dotted parts ++ ending))) :
    ∃ d, submodules.Reads room ⟨c.shift, noted⟩ (.ok names) ⟨d, noted⟩ ∧
      (d.advance .sameLine).Sees (ending.dropWhile Reach.sameLine.passes) := by
  induction hnames generalizing c kind with
  | nil =>
    have hshift : c.shift.Sees ending := hc.shift
    rcases ending with _ | ⟨next, ending⟩
    · exact ⟨c.shift, submodules_reads_of_none hshift.here?_eq, hshift.advance .sameLine⟩
    · refine ⟨c, ?_, hc.advance .sameLine⟩
      have hhere : c.shift.here? = some next := hshift.here?_eq
      have hreads : submodules.Reads room ⟨c.shift, noted⟩ (.ok []) ⟨c.shift.unshift, noted⟩ :=
        submodules_reads_of_ne hhere hending.head_ne_period
      rwa [Cursor.unshift_shift (Cursor.current?_isSome_of_here? hhere)] at hreads
  | @cons part name parts names hname _ ih =>
    have hperiod : c.shift.Sees (.period :: part :: (dotted parts ++ ending)) := hc.shift
    have hpart := hperiod.shift
    obtain ⟨d, hreads, hsees⟩ := ih hpart
    refine ⟨d, submodules_reads_of_name hperiod.here?_eq ?_ hreads, hsees⟩
    rw [hpart.here?_eq]
    exact hname

/-- A separator behind an import. -/
lemma separator_of_closing (hending : Closing ending)
    (hs : (s.cursor.advance .sameLine).Sees (ending.dropWhile Reach.sameLine.passes))
    (way : List Event) :
    (Grammar.separator .topLevel).Meets (.reading room) way s
      (fun _ complaint t => complaint = none ∧ t = s.moveTo (s.cursor.advance .sameLine))
      fun _ _ _ => False := by
  rw [Grammar.separator, meets_bind, meets_advance, meets_bind, meets_here, State.cursor_moveTo,
    hs.here?_eq]
  rcases hending.dropWhile with hnil | ⟨kind, later, hcons, hkind, -⟩
  · rw [hnil]
    exact ⟨rfl, rfl⟩
  · rw [hcons]
    rcases hkind with rfl | rfl <;> exact ⟨rfl, rfl⟩

/-- The keyword of what is imported is read, or none where the name of a module follows. -/
lemma meets_importKind {what : ImportKind} {first : TokenKind} {gap kinds : List TokenKind}
    {name : String} (hfirst : first.name? true = some name)
    (hgap : ∀ blank ∈ gap, blank.isBlank = true)
    (hs : s.cursor.Sees
      ((what.keywords ++ (gap ++ first :: kinds)).dropWhile Reach.anyLine.passes))
    (way : List Event) :
    Grammar.importKind.Meets (.reading room) way s
      (fun _ found t => found = what ∧ ∃ c : Cursor, t = s.moveTo c ∧ c.Sees (first :: kinds))
      fun _ _ _ => False := by
  have hblank := TokenKind.isBlank_of_name? hfirst
  by_cases hwhat : what = .module
  · subst hwhat
    have hsees : s.cursor.Sees (first :: kinds) := by
      rwa [ImportKind.keywords, List.nil_append, dropWhile_gap hgap hblank] at hs
    have hmodule : (pure .module : Procedure ImportKind).Meets (.reading room) way s
        (fun _ found t => found = .module ∧ ∃ c : Cursor, t = s.moveTo c ∧ c.Sees (first :: kinds))
        fun _ _ _ => False := ⟨rfl, s.cursor, rfl, hsees⟩
    rw [Grammar.importKind, meets_bind, meets_here, hsees.here?_eq, List.head?_cons]
    -- a keyword of a declaration is no name
    cases first with
    | keyword word role => cases role <;> first | exact hmodule | cases hfirst
    | _ => exact hmodule
  · obtain ⟨hkeywords, hofKeyword⟩ := ImportKind.keywords_of_ne hwhat
    have hsees : s.cursor.Sees (.keyword what.name .declaration :: (gap ++ first :: kinds)) := by
      rw [hkeywords] at hs
      exact hs
    have hnext := hsees.advance .anyLine
    rw [List.tail_cons, dropWhile_gap hgap hblank] at hnext
    rw [Grammar.importKind, meets_bind, meets_here, hsees.here?_eq, List.head?_cons]
    simp only [hofKeyword, meets_bind, meets_advance, meets_pure]
    exact ⟨trivial, _, rfl, hnext⟩

/-- An import with its separator. -/
lemma exists_reads_importing {what : ImportKind} {gap gap' : List TokenKind} {first : TokenKind}
    {module : String} {parts : List TokenKind} {names : List String} (hending : Closing ending)
    (hgap : ∀ blank ∈ gap, blank.isBlank = true) (hgap' : ∀ blank ∈ gap', blank.isBlank = true)
    (hmodule : first.name? true = some module)
    (hnames : List.Forall₂ (fun part name => part.name? true = some name) parts names)
    (hinside : what ≠ .module → names ≠ [])
    (hs : s.cursor.Sees (importKinds what gap gap' first parts ++ ending)) :
    ∃ range c, (declaration .topLevel).Reads room s
        (.ok ⟨.importing range ⟨[], []⟩ what module names, none⟩) (s.moveTo c) ∧
      c.Sees (ending.dropWhile Reach.sameLine.passes) := by
  have hhere : s.cursor.here? = some (.keyword "import" .declaration) := hs.here?_eq
  -- behind the keyword the reading goes on to the kind or the name
  have hnext : (s.cursor.advance .anyLine).Sees
      ((what.keywords ++ (gap' ++ first :: (dotted parts ++ ending))).dropWhile
        Reach.anyLine.passes) := by
    have hblanks : ∀ blank ∈ gap, Reach.anyLine.passes blank = true := hgap
    have hadvance := hs.advance .anyLine
    rw [importKinds, List.cons_append, List.tail_cons, List.append_assoc,
      List.dropWhile_append_of_pos hblanks] at hadvance
    simpa using hadvance
  have hmeets : (declaration .topLevel).procedure.Meets (.reading room) [] s
      (fun _ kept t => ∃ range c, kept = ⟨.importing range ⟨[], []⟩ what module names, none⟩ ∧
        t = s.moveTo c ∧ c.Sees (ending.dropWhile Reach.sameLine.passes))
      fun _ _ _ => False := by
    rw [procedure, meets_declarationFrom_nil hhere (by decide)]
    simp only [Grammar.declarationFrom, if_true, Grammar.importing, meets_bind, meets_advance]
    refine (meets_importKind hmodule hgap' hnext _).imp (fun way found t ht => ?_) fun _ _ _ h => h
    obtain ⟨rfl, c, rfl, hc⟩ := ht
    have hname : c.here?.bind (·.name? true) = some module := by
      rw [hc.here?_eq]
      exact hmodule
    -- the names behind it lead to the ending
    obtain ⟨d, hreads, hd⟩ : ∃ d, submodules.Reads room ⟨c.shift, s.noted⟩ (.ok names)
        ⟨d, s.noted⟩ ∧ (d.advance .sameLine).Sees (ending.dropWhile Reach.sameLine.passes) :=
      exists_reads_submodules hending hnames hc
    have hinside' : ¬ (decide (found ≠ .module) && names.isEmpty) = true := by
      simpa using hinside
    refine (meets_expectName ..).mpr ⟨fun name hfound => ?_, fun hnone => ?_⟩
    · obtain rfl := Option.some.inj (hname.symm.trans hfound)
      rw [meets_shift]
      refine (meets_read_of_reads hreads _).mpr ?_
      rw [meets_rangeFrom, Grammar.importEnd, if_neg hinside']
      refine (separator_of_closing hending hd _).imp (fun way complaint u hu => ?_) fun _ _ _ h => h
      obtain ⟨rfl, rfl⟩ := hu
      exact ⟨_, _, rfl, rfl, hd⟩
    · cases hname.symm.trans hnone
  obtain ⟨kept, t, hreads, range, c, rfl, rfl, hsees⟩ :=
    Reads.exists_ok_of_meets (roomInside?_of_not_isLevel rfl) hmeets
  exact ⟨range, c, hreads, hsees⟩

end Goal

/-- A list of tokens that is one import, up to the separator behind it, is read without an error as
this import. -/
theorem Parser.exists_readTokens_importing (p : Parser) {tokens : List Token} {what : ImportKind}
    {gap gap' parts ending : List TokenKind} {first : TokenKind} {module : String}
    {names : List String}
    (htokens : tokens.map (·.kind.plain) = importKinds what gap gap' first parts ++ ending)
    (hgap : ∀ blank ∈ gap, blank.isBlank = true) (hgap' : ∀ blank ∈ gap', blank.isBlank = true)
    (hmodule : first.name? true = some module)
    (hnames : List.Forall₂ (fun part name => part.name? true = some name) parts names)
    (hinside : what ≠ .module → names ≠ []) (hending : Closing ending) :
    ∃ range, p.readTokens tokens =
      ⟨⟨rootRange tokens, [.importing range ⟨[], []⟩ what module names]⟩, []⟩ := by
  have hfirst : (Cursor.start tokens).shift.Sees (importKinds what gap gap' first parts ++ ending) := by
    rw [← htokens, Cursor.shift_eq_land]
    exact Cursor.sees_land _ _
  obtain ⟨range, c, hreads, hc⟩ : ∃ range c, (Goal.declaration .topLevel).Reads p.maxDepth
      ⟨(Cursor.start tokens).shift, []⟩ (.ok ⟨.importing range ⟨[], []⟩ what module names, none⟩)
      ⟨c, []⟩ ∧ c.Sees (ending.dropWhile Reach.sameLine.passes) :=
    Goal.exists_reads_importing hending hgap hgap' hmodule hnames hinside hfirst
  have hstarts := hfirst.startsDeclaration rfl
  have hcurrent : (Cursor.start tokens).shift.current?.isSome :=
    Cursor.current?_isSome_of_here? hfirst.here?_eq
  have hstep : TopLevel.Step p.maxDepth ([], ⟨(Cursor.start tokens).shift, []⟩)
      ([.importing range ⟨[], []⟩ what module names], ⟨c.shift, []⟩) :=
    .declaration hcurrent hstarts hreads
  -- behind the separator there are blanks only
  have hblank : ∀ t ∈ c.shift.ahead, t.isBlank = true := by
    have hkinds : ∀ kind ∈ (ending.dropWhile Reach.sameLine.passes).tail, kind.isBlank = true := by
      rcases hending.dropWhile with hnil | ⟨kind, later, hcons, -, hlater⟩
      · simp [hnil]
      · rwa [hcons, List.tail_cons]
    intro t ht
    rw [Cursor.shift_eq_land, Cursor.ahead_land] at ht
    rw [Token.isBlank, ← TokenKind.isBlank_plain]
    exact hkinds _ (hc.remaining_eq ▸ List.mem_map_of_mem ht)
  obtain ⟨d, hdrifts, -, hpos, hahead⟩ := Cursor.exists_drifts (Cursor.position_shift_pos c)
  have hend : d.current? = none := by
    rw [Cursor.dropBlanks, List.dropWhile_eq_nil_iff.mpr hblank] at hahead
    rw [← Cursor.head?_ahead hpos, hahead]
    rfl
  refine ⟨range, ?_⟩
  exact p.readTokens_eq_of_run ((Relation.ReflTransGen.single hstep).trans
    (TopLevel.run_of_drifts hdrifts)) hend

end FrontEnd
