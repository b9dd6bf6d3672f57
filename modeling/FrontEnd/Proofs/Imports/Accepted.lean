/-
What is read as an import.

In a text without errors an import has the tokens of its attributes and modifiers, the keyword
`import`, the keyword of its kind unless it imports a module as a whole, the name of the module, and
the names inside of it with a period in front of each.  Apart from blanks there are no other tokens
in its range, but for one more period that may stand behind the last name.

* `Header.Spelled`, `ImportSpelled`: the kinds of these tokens.
* `Parser.readText_importing`: the tokens within the range of an import are such tokens.
-/
import FrontEnd.Proofs.Contract.Returns
import FrontEnd.Proofs.Cursor.Sees
import FrontEnd.Proofs.Cursor.Segment
import FrontEnd.Proofs.Lexical.Seam
import FrontEnd.Proofs.Placement.Found

namespace FrontEnd

/-! ### Kinds of tokens -/

namespace TokenKind

/-- The kind of a period. -/
abbrev period : TokenKind :=
  .punctuator .period

lemma isBlank_of_name? {kind : TokenKind} {contextual : Bool} {name : String}
    (h : kind.name? contextual = some name) : kind.isBlank = false := by
  cases kind <;> simp_all [name?, isBlank, isInlineBlank, isLineBreak]

lemma isBlank_of_modifier? {kind : TokenKind} {word : String} (h : kind.modifier? = some word) :
    kind.isBlank = false := by
  cases kind <;> simp_all [modifier?, isBlank, isInlineBlank, isLineBreak]

end TokenKind

/-- The kinds of the tokens of attributes; a mark without a name counts for none. -/
inductive AttributesSpelled : List String → List TokenKind → Prop where
  | nil : AttributesSpelled [] []
  | named {name : String} {names : List String} {kind : TokenKind} {kinds : List TokenKind}
      (hname : kind.name? false = some name) (h : AttributesSpelled names kinds) :
      AttributesSpelled (name :: names) (.punctuator .atSign :: kind :: kinds)
  | bare {names : List String} {kinds : List TokenKind} (h : AttributesSpelled names kinds) :
      AttributesSpelled names (.punctuator .atSign :: kinds)

/-- The kinds of the tokens in front of the keyword of a declaration. -/
def Header.Spelled (h : Header) (kinds : List TokenKind) : Prop :=
  ∃ marks words, kinds = marks ++ words ∧ AttributesSpelled h.attributes marks ∧
    List.Forall₂ (fun word kind => kind.modifier? = some word) h.modifiers words

/-- The kinds of the tokens of the names behind a module: each has a period in front of it, and one
period more may stand at the end. -/
inductive SubmodulesSpelled : List String → List TokenKind → Prop where
  | nil : SubmodulesSpelled [] []
  | period : SubmodulesSpelled [] [.period]
  | cons {name : String} {names : List String} {kind : TokenKind} {kinds : List TokenKind}
      (hname : kind.name? true = some name) (h : SubmodulesSpelled names kinds) :
      SubmodulesSpelled (name :: names) (.period :: kind :: kinds)

/-- The keyword of what is imported; a module has none. -/
def ImportKind.keywords : ImportKind → List TokenKind
  | .module => []
  | kind => [.keyword kind.name .declaration]

/-- The kinds of the tokens of an import, from its keyword on. -/
def ImportSpelled (kind : ImportKind) (module : String) (names : List String)
    (kinds : List TokenKind) : Prop :=
  ∃ first later, kinds = .keyword "import" .declaration :: (kind.keywords ++ first :: later) ∧
    first.name? true = some module ∧ SubmodulesSpelled names later ∧
    (kind ≠ .module → names ≠ [])

/-! ### Tokens behind a cursor -/

namespace Cursor

/-- What the grammar sees of the tokens before the current one, apart from blanks, the latest
first. -/
def solids (c : Cursor) : List TokenKind :=
  (c.behind.map (·.kind.plain)).filter (!·.isBlank)

variable {c : Cursor}

lemma solids_shift (c : Cursor) : c.shift.solids = c.here?.toList.filter (!·.isBlank) ++ c.solids := by
  rw [solids, behind_shift, List.map_append, List.filter_append, solids]
  rcases c with a | ⟨b, t, a⟩ | b <;> rfl

lemma solids_shift_of_here? {kind : TokenKind} (h : c.here? = some kind)
    (hkind : kind.isBlank = false) : c.shift.solids = kind :: c.solids := by
  simp [solids_shift, h, hkind]

lemma solids_shift_of_none (h : c.here? = none) : c.shift.solids = c.solids := by
  simp [solids_shift, h]

/-- The way to the next token of interest passes blanks. -/
lemma solids_advance (reach : Reach) (c : Cursor) : (c.advance reach).solids = c.shift.solids := by
  obtain ⟨passed, hbehind, hpassed⟩ := behind_advance reach c
  have hnone : (passed.map (·.kind.plain)).filter (!·.isBlank) = [] := by
    refine List.filter_eq_nil_iff.mpr fun kind hkind => ?_
    obtain ⟨t, ht, rfl⟩ := List.mem_map.mp hkind
    rw [TokenKind.isBlank_plain, isBlank_of_passes (hpassed t ht)]
    decide
  rw [solids, hbehind, List.map_append, List.filter_append, hnone, List.nil_append, solids]

lemma exists_here?_of_bind {α : Type} {f : TokenKind → Option α} {a : α}
    (h : c.here?.bind f = some a) : ∃ kind, c.here? = some kind ∧ f kind = some a :=
  Option.bind_eq_some_iff.mp h

end Cursor

/-! ### Periods in a text -/

lemma Rule.Finds.eq_of_period {text : List Char} {kind : TokenKind} (h : Rule.Finds text kind)
    (hkind : kind = .period) : text = ['.'] ∨ text = ['.', '.'] := by
  cases h with
  | mark mark =>
    obtain rfl : mark = .period := TokenKind.punctuator.inj hkind
    exact .inl rfl
  | periods => exact .inr rfl
  | word =>
    rw [TokenKind.ofWord] at hkind
    split at hkind <;> cases hkind
  | @number text rule hrule =>
    simp only [numbers, literals, List.dropLast, List.mem_cons, List.not_mem_nil, or_false] at hrule
    rcases hrule with rfl | rfl | rfl | rfl | rfl | rfl <;> cases hkind
  | _ => cases hkind

/-- Of two lexemes one behind the other not both are periods. -/
lemma Lexeme.not_periods {text : List Char} {lexeme next : Lexeme} {later : List Lexeme}
    (h : lexeme :: next :: later <:+ Lexeme.ofChars text) :
    ¬ (lexeme.kind = .period ∧ next.kind = .period) := by
  rintro ⟨hlexeme, hnext⟩
  obtain ⟨htakes, hhalts⟩ := halts_of_suffix h (by rw [hlexeme]; exact ⟨rfl, rfl⟩)
  obtain ⟨htakes', -⟩ := halts_of_suffix ((List.suffix_cons _ _).trans h)
    (by rw [hnext]; exact ⟨rfl, rfl⟩)
  have hperiod : ['.'] <+: ((next :: later).map (·.text)).flatten := by
    rw [List.map_cons, List.flatten_cons]
    rcases htakes'.finds.eq_of_period hnext with htext | htext <;> rw [htext] <;> exact ⟨_, rfl⟩
  -- together with the next period the first one would be two periods, or the operator of three
  obtain ⟨hnone, -⟩ := hhalts ['.'] hperiod (by simp)
  rcases htakes.finds.eq_of_period hlexeme with htext | htext <;> rw [htext] at hnone
  · exact hnone (Rule.fixed ".." .period) (by simp [Rule.language, Rule.marks])
      (Regex.matches_literal.mpr rfl)
  · exact hnone (Rule.fixed "..." (.operator "...")) (by simp [Rule.language, Rule.operators])
      (Regex.matches_literal.mpr rfl)

/-- Between two periods stands something else. -/
def Token.PeriodsApart (tokens : List Token) : Prop :=
  tokens.IsChain fun t u => ¬ (t.kind = .period ∧ u.kind = .period)

lemma Token.periodsApart_ofText (text : String) : PeriodsApart (ofText text) := by
  suffices hkinds : (((ofText text).map (·.kind)).IsChain fun kind next =>
      ¬ (kind = .period ∧ next = .period)) from (List.isChain_map _).mp hkinds
  rw [ofText, ofChars, map_kind_place, List.isChain_map]
  refine List.isChain_iff_forall_rel_of_append_cons_cons.mpr fun lexeme next before later heq => ?_
  exact Lexeme.not_periods ⟨before, heq.symm⟩

/-- Behind a period stands none. -/
lemma Token.PeriodsApart.here?_shift_ne {c : Cursor} (h : PeriodsApart c.toList)
    (hc : c.here? = some .period) : c.shift.here? ≠ some .period := by
  have hkind {t : Token} (ht : t.kind.plain = .period) : t.kind = .period := by
    cases hk : t.kind <;> simp_all [TokenKind.plain]
  rcases c with a | ⟨b, t, (_ | ⟨u, a⟩)⟩ | b
  · cases hc
  · simp [Cursor.shift, Cursor.here?, Cursor.kind?, Cursor.current?]
  · intro hnext
    rw [Cursor.toList_on] at h
    refine List.isChain_iff_forall_rel_of_append_cons_cons.mp h rfl ⟨hkind ?_, hkind ?_⟩
    · simpa [Cursor.here?, Cursor.kind?, Cursor.current?] using hc
    · simpa [Cursor.shift, Cursor.here?, Cursor.kind?, Cursor.current?] using hnext
  · cases hc

/-! ### What the goals pass -/

/-- What the goals of an import pass. -/
@[simp] def Goal.Passes (tokens : List Token) : (g : Goal) → Cursor → g.Result → Cursor → Prop
  | attributes, c, names, c' =>
    ∃ kinds, AttributesSpelled names kinds ∧ c'.solids = kinds.reverse ++ c.solids
  | modifiers, c, words, c' =>
    ∃ kinds, List.Forall₂ (fun word kind => kind.modifier? = some word) words kinds ∧
      c'.solids = kinds.reverse ++ c.solids
  | submodules, c, names, c' =>
    ∃ kinds, SubmodulesSpelled names kinds ∧ c'.shift.solids = kinds.reverse ++ c.solids ∧
      (c.here? ≠ some .period → kinds = [])
  | declaration _, c, kept, _ =>
    kept.complaint = none → ∀ r header kind module names,
      kept.value = .importing r header kind module names →
        ∃ last : Cursor, last.toList = tokens ∧ last.left ≤ c.left ∧
          r = ⟨c.startLocation, last.stopLocation⟩ ∧
          ∃ lead inner, header.Spelled lead ∧ ImportSpelled kind module names inner ∧
            last.shift.solids = (lead ++ inner).reverse ++ c.solids
  | _, _, _, _ => True

/-- What the goals of an import pass in given tokens. -/
def passing (tokens : List Token) : Contract where
  enter _ _ := True
  value g s a s' := s.cursor.toList = tokens → g.Passes tokens s.cursor a s'.cursor
  error _ _ _ _ := True

/-- What the goals pass that are called. -/
abbrev passed (tokens : List Token) : Contract :=
  (passing tokens).given fun g s s' => s.cursor.Onward g.givesBack s'.cursor

section

variable (tokens : List Token) (g : Goal) (s s' : State)

end

namespace Grammar

open Procedure

variable {tokens : List Token} {s : State}

/-- Reading goes on behind what the goal passes. -/
lemma yields_read_passed {g : Goal} {ok : g.Result → State → Prop} (hlist : s.cursor.toList = tokens)
    (h : ∀ a s', s.cursor.Onward g.givesBack s'.cursor → g.Passes tokens s.cursor a s'.cursor →
      ok a s') : (read g).Yields (passed tokens) s ok :=
  (yields_read ..).mpr ⟨trivial, fun a s' hread => h a s' hread.1 (hread.2 hlist)⟩

lemma attributes_passes (hlist : s.cursor.toList = tokens) :
    attributes.Yields (passed tokens) s
      fun a s' => Goal.attributes.Passes tokens s.cursor a s'.cursor := by
  simp only [attributes, yields_bind, yields_isHere, decide_eq_true_eq, yields_ite, yields_pure]
  refine ⟨fun hmark => ?_, fun _ => ⟨[], .nil, rfl⟩⟩
  have hmark' : s.cursor.shift.solids = .punctuator .atSign :: s.cursor.solids :=
    Cursor.solids_shift_of_here? hmark rfl
  simp only [yields_advance, yields_here, State.cursor_moveTo]
  split
  next name hname =>
    obtain ⟨kind, hkind, hname⟩ := Cursor.exists_here?_of_bind hname
    have hshift := Cursor.solids_shift_of_here? hkind (TokenKind.isBlank_of_name? hname)
    rw [Cursor.solids_advance, hmark'] at hshift
    simp only [yields_bind, yields_advance, State.cursor_moveTo]
    refine yields_read_passed (by simpa using hlist) fun names t _ hnames => ?_
    obtain ⟨kinds, hspelled, hsolids⟩ := hnames
    refine ⟨_, .named hname hspelled, ?_⟩
    rw [hsolids, State.cursor_moveTo, Cursor.solids_advance, hshift]
    simp
  · refine yields_read_passed (by simpa using hlist) fun names t _ hnames => ?_
    obtain ⟨kinds, hspelled, hsolids⟩ := hnames
    refine ⟨_, .bare hspelled, ?_⟩
    rw [hsolids, State.cursor_moveTo, Cursor.solids_advance, hmark']
    simp

lemma modifiers_passes (hlist : s.cursor.toList = tokens) :
    modifiers.Yields (passed tokens) s
      fun a s' => Goal.modifiers.Passes tokens s.cursor a s'.cursor := by
  simp only [modifiers, yields_bind, yields_here]
  split
  next word hword =>
    obtain ⟨kind, hkind, hword⟩ := Cursor.exists_here?_of_bind hword
    simp only [yields_bind, yields_advance]
    refine yields_read_passed (by simpa using hlist) fun words t _ hwords => ?_
    obtain ⟨kinds, hspelled, hsolids⟩ := hwords
    refine ⟨_, .cons hword hspelled, ?_⟩
    rw [hsolids, State.cursor_moveTo, Cursor.solids_advance,
      Cursor.solids_shift_of_here? hkind (TokenKind.isBlank_of_modifier? hword)]
    simp
  · exact ⟨[], .nil, rfl⟩

/-- The names behind a module; a period that no name follows is the last token. -/
lemma submodules_passes (hperiods : Token.PeriodsApart tokens) (hlist : s.cursor.toList = tokens) :
    submodules.Yields (passed tokens) s
      fun a s' => Goal.submodules.Passes tokens s.cursor a s'.cursor := by
  simp only [submodules, yields_bind, yields_here]
  split
  next hnone => exact ⟨[], .nil, Cursor.solids_shift_of_none hnone, fun _ => rfl⟩
  next hperiod =>
    have hperiod' : s.cursor.shift.solids = .period :: s.cursor.solids :=
      Cursor.solids_shift_of_here? hperiod rfl
    simp only [yields_bind, yields_shift, yields_here, State.cursor_moveTo]
    split
    next name hname =>
      obtain ⟨kind, hkind, hname⟩ := Cursor.exists_here?_of_bind hname
      have hshift := Cursor.solids_shift_of_here? hkind (TokenKind.isBlank_of_name? hname)
      simp only [yields_bind, yields_shift, State.cursor_moveTo]
      refine yields_read_passed (by simpa using hlist) fun names t _ hnames => ?_
      obtain ⟨kinds, hspelled, hsolids, -⟩ := hnames
      refine ⟨_, .cons hname hspelled, ?_, fun hne => absurd hperiod hne⟩
      rw [hsolids, State.cursor_moveTo, hshift, hperiod']
      simp
    · refine yields_read_passed (by simpa using hlist) fun names t _ hnames => ?_
      obtain ⟨kinds, hspelled, hsolids, hnil⟩ := hnames
      -- behind this period there is no other one, so nothing more is passed
      obtain rfl := hnil ((hlist ▸ hperiods).here?_shift_ne hperiod)
      cases hspelled
      refine ⟨_, .period, ?_, fun hne => absurd hperiod hne⟩
      rw [hsolids, State.cursor_moveTo, hperiod']
      simp
  next hne =>
    simp only [yields_bind, yields_stepBack, yields_pure, State.cursor_moveTo]
    refine fun hcurrent => ⟨[], .nil, ?_, fun _ => rfl⟩
    rw [Cursor.shift_unshift hcurrent]
    rfl

lemma keywords_of_ofKeyword? {word : String} {kind : ImportKind}
    (h : ImportKind.ofKeyword? word = some kind) :
    kind.keywords = [.keyword word .declaration] := by
  have hname : kind.name = word := by simpa using List.find?_some h
  have hmem := List.mem_of_find?_eq_some h
  rw [← hname]
  cases kind
  case module => simp [ImportKind.symbols] at hmem
  all_goals rfl

/-- The keyword of what is imported is passed, if there is one. -/
lemma importKind_passes {K : Contract} :
    importKind.Yields K s fun kind s' => s'.cursor.toList = s.cursor.toList ∧
      s'.cursor.left ≤ s.cursor.left ∧ s'.cursor.solids = kind.keywords.reverse ++ s.cursor.solids := by
  have hmodule : (pure ImportKind.module : Procedure ImportKind).Yields K s fun kind s' =>
      s'.cursor.toList = s.cursor.toList ∧ s'.cursor.left ≤ s.cursor.left ∧
        s'.cursor.solids = kind.keywords.reverse ++ s.cursor.solids := ⟨rfl, le_rfl, rfl⟩
  simp only [importKind, yields_bind, yields_here]
  split
  next word hword =>
    split
    next kind hkind =>
      simp only [yields_bind, yields_advance, yields_pure, State.cursor_moveTo]
      refine ⟨Cursor.toList_advance _ _, (Cursor.left_advance_le _ _).trans (Nat.sub_le _ _), ?_⟩
      rw [Cursor.solids_advance, Cursor.solids_shift_of_here? hword rfl, keywords_of_ofKeyword? hkind]
      rfl
    · exact hmodule
  · exact hmodule

/-- An import that is not complained of. -/
lemma importing_passes (context : Context) (start : Location) (header : Header)
    (hlist : s.cursor.toList = tokens)
    (hword : s.cursor.here? = some (.keyword "import" .declaration)) :
    (importing context start header).Yields (passed tokens) s fun kept _ =>
      kept.complaint = none → ∃ last : Cursor, ∃ kind module names inner, last.toList = tokens ∧
        last.left ≤ s.cursor.left ∧
        kept.value = .importing ⟨start, last.stopLocation⟩ header kind module names ∧
        ImportSpelled kind module names inner ∧
        last.shift.solids = inner.reverse ++ s.cursor.solids := by
  -- the solids behind the cursor are what is spelled: each step adds the token that it takes
  have hleft := Cursor.left_pos_of_here? hword
  have hadvance := Cursor.left_advance_le .anyLine s.cursor
  simp only [importing, yields_bind, yields_advance]
  refine importKind_passes.imp fun kind t ht => ?_
  obtain ⟨hlist', hleft', hsolids⟩ := ht
  rw [State.cursor_moveTo, Cursor.solids_advance, Cursor.solids_shift_of_here? hword rfl] at hsolids
  rw [State.cursor_moveTo] at hlist' hleft'
  refine (yields_expectName ..).mpr fun module hmodule => ?_
  obtain ⟨first, hfirst, hname⟩ := Cursor.exists_here?_of_bind hmodule
  have hshift := Cursor.solids_shift_of_here? hfirst (TokenKind.isBlank_of_name? hname)
  simp only [yields_shift]
  refine yields_read_passed (by simpa [hlist'] using hlist) fun names u hon hnames => ?_
  obtain ⟨kinds, hspelled, hlast, -⟩ := hnames
  rw [State.cursor_moveTo] at hlast hon
  simp only [yields_rangeFrom, importEnd, yields_ite]
  -- without names the import is complained of, unless a module is imported as a whole
  refine ⟨fun _ => by simp, fun hnamed => (yields_true fun _ _ => trivial).imp fun complaint v _ _ => ?_⟩
  refine ⟨u.cursor, kind, module, names, _, ?_, ?_, rfl,
    ⟨first, kinds, rfl, hname, hspelled, ?_⟩, ?_⟩
  · rw [hon.toList_eq, Cursor.toList_shift, hlist', Cursor.toList_advance, hlist]
  · have hback := hon.left_le
    rw [Cursor.left_shift, Goal.givesBack] at hback
    omega
  · rintro hkind rfl
    exact hnamed (by simp [hkind])
  · rw [hlast, hshift, hsolids]
    simp

/-- A declaration that is not complained of, where it is an import. -/
lemma declaration_passes (context : Context) (hlist : s.cursor.toList = tokens) :
    (declaration context).Yields (passed tokens) s
      fun a s' => (Goal.declaration context).Passes tokens s.cursor a s'.cursor := by
  simp only [declaration, yields_bind, yields_startLocation]
  refine yields_read_passed hlist fun names t hon hnames => ?_
  obtain ⟨marks, hmarks, hsolids⟩ := hnames
  have hlist' : t.cursor.toList = tokens := hon.toList_eq.trans hlist
  refine yields_read_passed hlist' fun words u hon' hwords => ?_
  obtain ⟨kinds, hkinds, hsolids'⟩ := hwords
  have hlist'' : u.cursor.toList = tokens := hon'.toList_eq.trans hlist'
  have hleft := hon.left_le
  have hleft' := hon'.left_le
  simp only [Goal.givesBack, Nat.add_zero] at hleft hleft'
  simp only [yields_here]
  split
  next word hword =>
    simp only [declarationFrom, yields_ite, yields_bind, yields_rangeFrom, yields_pure]
    refine ⟨?_, fun _ => ?_⟩
    · rintro rfl
      have hkeyword : u.cursor.here? = some (.keyword "import" .declaration) := by
        obtain ⟨kind, hkind, hname⟩ := Cursor.exists_here?_of_bind hword
        cases kind <;> simp [declarationKeyword?] at hname
        obtain ⟨hrole, rfl⟩ := hname
        obtain rfl := hrole.resolve_right (by simp)
        exact hkind
      refine (importing_passes context _ _ hlist'' hkeyword).imp fun kept v hkept hnone => ?_
      obtain ⟨last, kind, module, names', inner, hlast, hleft'', hvalue, hspelled, hsolids''⟩ :=
        hkept hnone
      rintro r header kind' module' names'' heq
      rw [hvalue] at heq
      cases heq
      refine ⟨last, hlast, by omega, rfl, marks ++ kinds, inner, ⟨marks, kinds, rfl, hmarks, hkinds⟩,
        hspelled, ?_⟩
      rw [hsolids'', hsolids', hsolids]
      simp
    · -- the other keywords build no import
      refine ((yields_true fun _ _ => trivial).and_returns (declarationNamed_returns _ word)).imp
        fun node v hnode => ?_
      refine (yields_true fun _ _ => trivial).imp fun complaint w _ _ r header kind module names heq => ?_
      exact absurd heq ((hnode.2 _).2 _ _ _ _ _)
  · simp

end Grammar

/-! ### Readings -/

open Grammar in
lemma Goal.procedure_passes {tokens : List Token} (hperiods : Token.PeriodsApart tokens) (g : Goal)
    (s : State) : g.procedure.Yields (passed tokens) s ((passing tokens).value g s) := by
  by_cases hlist : s.cursor.toList = tokens
  · suffices h : g.procedure.Yields (passed tokens) s fun a s' =>
        g.Passes tokens s.cursor a s'.cursor from h.imp fun _ _ hpasses _ => hpasses
    cases g with
    | attributes => exact attributes_passes hlist
    | modifiers => exact modifiers_passes hlist
    | submodules => exact submodules_passes hperiods hlist
    | declaration context => exact declaration_passes context hlist
    | _ => exact Procedure.yields_true fun _ _ => trivial
  · exact (Procedure.yields_true fun _ _ => trivial).imp fun _ _ _ hother => absurd hother hlist

/-- The tokens within the range of an import are those of its attributes and modifiers, and behind
them those of the import. -/
theorem Parser.readText_importing (p : Parser) (text : String)
    (herrors : (p.readText text).errors = []) :
    ∀ r header kind module names,
      .importing r header kind module names ∈ (p.readText text).root.declarations →
        ∃ lead inner, header.Spelled lead ∧ ImportSpelled kind module names inner ∧
          (((Token.ofText text).filter (·.range.Within r)).map (·.kind.plain)).filter (!·.isBlank) =
            lead ++ inner := by
  intro r header kind module names hd
  obtain ⟨s, t, hread⟩ := p.exists_readFrom herrors hd
  have hpasses := hread.reads.quiet_given (K := passing (Token.ofText text)) Goal.known_onward
    (fun g s _ => g.procedure_passes (Token.periodsApart_ofText text) s) trivial hread.quiet
  obtain ⟨last, hlast, hleft, rfl, lead, inner, hlead, hinner, hsolids⟩ :=
    hpasses hread.toList_eq rfl r header kind module names rfl
  refine ⟨lead, inner, hlead, hinner, ?_⟩
  have hlist : last.toList = s.cursor.toList := hlast.trans hread.toList_eq.symm
  obtain ⟨between, hbetween⟩ := Cursor.exists_passed (d := last.shift)
    ((Cursor.toList_shift last).trans hlist) hread.placed.position_pos
    ((Cursor.left_shift last).trans_le ((Nat.sub_le _ _).trans hleft))
  have hwithin := hread.placed.filter_within hlist hleft hbetween
  rw [hread.toList_eq] at hwithin
  rw [Cursor.solids, hbetween, List.map_append, List.filter_append] at hsolids
  rw [hwithin, List.map_reverse, List.filter_reverse, List.append_cancel_right hsolids,
    List.reverse_reverse]

end FrontEnd
