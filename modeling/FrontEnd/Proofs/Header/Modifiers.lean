/-
Modifiers in front of a declaration.

A text that starts with the keyword of a declaration and is read to one declaration is still read to
it behind modifiers, under a header with these modifiers.  Only the first of them are lost: a modifier
that is a keyword in certain places only does not start a declaration, so the loop over the top level
passes over it until the first other keyword comes.

* `Goal.reads_modifiers`: modifiers, each with a space behind it, are read up to the last one.
* `TopLevel.run_past`: what starts no declaration is passed over.
* `Parser.exists_readTokens_modified`: the tokens of modifiers in front of a declaration.
* `Parser.readText_modified`: a text of modifiers in front of one of a declaration.
-/
import FrontEnd.Proofs.Header.Basic
import FrontEnd.Proofs.Lexical.Seam
import FrontEnd.Proofs.Sequel.Earlier
import FrontEnd.Proofs.Spacing.Places

namespace FrontEnd

/-! ### Modifiers as tokens -/

/-- The kinds of the tokens of modifiers, each with a space behind it. -/
def modifierKinds (words : List String) : List TokenKind :=
  words.flatMap fun word => [.ofWord word, .whitespace]

/-- Whether a word is a keyword in certain places only. -/
def isContextualWord (word : String) : Bool :=
  KeywordRole.contextual.words.contains word

lemma modifierKinds_append (words later : List String) :
    modifierKinds (words ++ later) = modifierKinds words ++ modifierKinds later :=
  List.flatMap_append

lemma ofWord_of_mem_modifiers : ∀ word ∈ KeywordRole.modifiers, TokenKind.ofWord word =
    .keyword word (if isContextualWord word then .contextual else .declaration) :=
  forall_mem_of_all (by decide)

lemma modifier?_of_mem_modifiers {word : String} (h : word ∈ KeywordRole.modifiers) :
    (TokenKind.ofWord word).modifier? = some word := by
  rw [ofWord_of_mem_modifiers word h]
  split <;> simpa [TokenKind.modifier?] using h

lemma isBlank_of_mem_modifiers {word : String} (h : word ∈ KeywordRole.modifiers) :
    (TokenKind.ofWord word).isBlank = false := by
  rw [ofWord_of_mem_modifiers word h]
  rfl

/-- Behind modifiers, as behind none, no blank comes first. -/
lemma isBlank_head_of_modified {words : List String} {front rest : List Token}
    (hwords : ∀ word ∈ words, word ∈ KeywordRole.modifiers)
    (hfront : front.map (·.kind) = modifierKinds words)
    (hrest : ∀ t ∈ rest.head?, t.isBlank = false) :
    ∀ t ∈ (front ++ rest).head?, t.kind.isBlank = false := by
  rcases words with _ | ⟨first, words⟩
  · obtain rfl : front = [] := by simpa [modifierKinds] using hfront
    exact hrest
  · obtain ⟨u, front, rfl, hu, -⟩ := List.map_eq_cons_iff.mp hfront
    intro t ht
    obtain rfl : u = t := Option.some.inj ht
    rw [hu]
    exact isBlank_of_mem_modifiers (hwords first List.mem_cons_self)

/-! ### The reading of modifiers -/

/-- One blank is passed on the way to the next token of interest. -/
lemma Cursor.advance_over {reach : Reach} {blank : Token} {rest : List Token}
    (hblank : reach.passes blank.kind = true)
    (hrest : ∀ t ∈ rest.head?, reach.passes t.kind = false) (behind : List Token) (t : Token) :
    (on behind t (blank :: rest)).advance reach = land (blank :: t :: behind) rest := by
  rw [advance_eq_land]
  rcases rest with _ | ⟨u, rest⟩
  · simp [remaining, current?, Cursor.behind, hblank]
  · simp [remaining, current?, Cursor.behind, hblank, hrest u rfl]

namespace Goal

open Procedure Cursor

variable {room : Nat} {words : List String} {front rest : List Token}

/-- Modifiers are read up to the token behind them, which is none. -/
lemma reads_modifiers (hwords : ∀ word ∈ words, word ∈ KeywordRole.modifiers)
    (hfront : front.map (·.kind) = modifierKinds words)
    (hrest : ∀ t ∈ rest.head?, t.isBlank = false ∧ t.kind.plain.modifier? = none)
    (behind : List Token) (noted : List ParseError) :
    modifiers.Reads room ⟨land behind (front ++ rest), noted⟩ (.ok words)
      ⟨land (front.reverse ++ behind) rest, noted⟩ := by
  induction words generalizing front behind with
  | nil =>
    obtain rfl : front = [] := by simpa [modifierKinds] using hfront
    refine reads_modifiers_nil ?_
    cases rest with
    | nil => rfl
    | cons t rest => exact (hrest t rfl).2
  | cons word words ih =>
    obtain ⟨hword, hwords⟩ := List.forall_mem_cons.mp hwords
    obtain ⟨t, front, rfl, ht, hfront⟩ := List.map_eq_cons_iff.mp hfront
    obtain ⟨blank, front, rfl, hblank, hfront⟩ := List.map_eq_cons_iff.mp hfront
    have hhere : (on behind t (blank :: (front ++ rest))).here? = some (.ofWord word) := by
      rw [here?, kind?, current?, Option.map_some, Option.map_some, ht,
        ofWord_of_mem_modifiers word hword]
      rfl
    -- behind the blank stands the next modifier or the token that ends them
    have hnext := isBlank_head_of_modified hwords hfront fun t ht => (hrest t ht).1
    have hpasses : Reach.anyLine.passes blank.kind = true := by
      rw [hblank]
      rfl
    have hadvance := advance_over hpasses hnext behind t
    have hlater : modifiers.Reads room ⟨land (blank :: t :: behind) (front ++ rest), noted⟩
        (.ok words) ⟨land (front.reverse ++ blank :: t :: behind) rest, noted⟩ :=
      ih hwords hfront (blank :: t :: behind)
    -- one call reads the first word and its blank, and leaves the rest to the hypothesis
    have hmeets : Goal.modifiers.procedure.Meets (.reading room) []
        ⟨on behind t (blank :: (front ++ rest)), noted⟩
        (fun _ found s => found = word :: words ∧
          s = ⟨land (front.reverse ++ blank :: t :: behind) rest, noted⟩) fun _ _ _ => False := by
      simp only [procedure, Grammar.modifiers, meets_bind, meets_here, hhere, Option.bind_some,
        modifier?_of_mem_modifiers hword, meets_advance, hadvance, State.moveTo]
      exact (meets_read_of_reads hlater _).mpr ⟨rfl, rfl⟩
    rw [List.reverse_cons, List.reverse_cons, List.append_assoc, List.append_assoc]
    exact Reads.of_meets (roomInside?_of_not_isLevel rfl) hmeets

end Goal

/-! ### The loop over the top level -/

namespace TopLevel

open Cursor

variable {room : Nat}

/-- A token that neither starts a declaration nor is an error. -/
def Idle (t : Token) : Prop :=
  t.kind.isDeclarationKeyword = false ∧ t.kind ≠ .punctuator .atSign ∧ t.kind.isInvalid = false

/-- The loop over the top level passes over what starts no declaration. -/
lemma run_past {passed : List Token} (h : ∀ t ∈ passed, Idle t) (rest behind : List Token)
    (found : List Declaration) (noted : List ParseError) :
    Relation.ReflTransGen (Step room) (found, ⟨land behind (passed ++ rest), noted⟩)
      (found, ⟨land (passed.reverse ++ behind) rest, noted⟩) := by
  induction passed generalizing behind with
  | nil => exact .refl
  | cons t passed ih =>
    obtain ⟨⟨hkeyword, hsign, hvalid⟩, hpassed⟩ := List.forall_mem_cons.mp h
    have hstarts : (on behind t (passed ++ rest)).startsDeclaration = false := by
      obtain ⟨kind, span, range⟩ := t
      cases kind <;>
        simp_all [startsDeclaration, HeaderPlace.leadsOn, current?, remaining,
          TokenKind.isDeclarationKeyword]
    have hstep : Step room (found, ⟨on behind t (passed ++ rest), noted⟩) _ := .pass rfl hstarts
    rw [passOver, if_neg (by simp [hvalid]), State.moveTo, shift_eq_land] at hstep
    have hlater := ih hpassed (t :: behind)
    rw [List.reverse_cons, List.append_assoc]
    exact hlater.head hstep

/-- The loop over the top level adds the same to whatever was found before. -/
lemma Step.found_append {found found' : List Declaration} {s s' : State}
    (h : Step room (found, s) (found', s')) :
    ∃ added, found' = added ++ found ∧ ∀ before, Step room (before, s) (added ++ before, s') := by
  generalize hp : (found, s) = p, hq : (found', s') = q at h
  cases h with
  | @declaration _ _ t r hcurrent hstarts hreads =>
    cases hp
    cases hq
    rcases r with e | ⟨d, _ | e⟩
    · exact ⟨[], rfl, fun before => .declaration hcurrent hstarts hreads⟩
    · exact ⟨[d], rfl, fun before => .declaration hcurrent hstarts hreads⟩
    · exact ⟨[d], rfl, fun before => .declaration hcurrent hstarts hreads⟩
  | pass hcurrent hstarts =>
    cases hp
    cases hq
    exact ⟨[], rfl, fun before => .pass hcurrent hstarts⟩

lemma run_found_append {p q : List Declaration × State} (h : Relation.ReflTransGen (Step room) p q) :
    ∃ added, q.1 = added ++ p.1 ∧
      ∀ before, Relation.ReflTransGen (Step room) (before, p.2) (added ++ before, q.2) := by
  induction h with
  | refl => exact ⟨[], rfl, fun before => .refl⟩
  | tail _ hstep ih =>
    obtain ⟨added, hadded, hrun⟩ := ih
    obtain ⟨more, hmore, hnext⟩ := hstep.found_append
    refine ⟨more ++ added, by rw [hmore, hadded, List.append_assoc], fun before => ?_⟩
    rw [List.append_assoc]
    exact (hrun before).tail (hnext _)

end TopLevel

/-! ### Modifiers in front of declarations -/

section

variable {words : List String} {front tokens : List Token} {word : String}

open TopLevel

/-- Modifiers that are keywords in certain places only start no declaration. -/
lemma idle_of_contextual (hwords : ∀ word ∈ words, word ∈ KeywordRole.modifiers)
    (hcontextual : ∀ word ∈ words, isContextualWord word = true)
    (hfront : front.map (·.kind) = modifierKinds words) : ∀ t ∈ front, Idle t := by
  intro t ht
  have hmem : t.kind ∈ modifierKinds words := hfront ▸ List.mem_map_of_mem ht
  obtain ⟨word, hword, hkind⟩ := List.mem_flatMap.mp hmem
  rw [ofWord_of_mem_modifiers word (hwords word hword), if_pos (hcontextual word hword)] at hkind
  simp only [List.mem_cons, List.not_mem_nil, or_false] at hkind
  rcases hkind with hkind | hkind <;> simp [Idle, hkind, TokenKind.isDeclarationKeyword,
    TokenKind.role?, TokenKind.isInvalid]

/-- A declaration starts at the first modifier that is a keyword everywhere, and without one at the
keyword of the declaration. -/
lemma isDeclarationKeyword_of_modified (hwords : ∀ word ∈ words, word ∈ KeywordRole.modifiers)
    (hfront : front.map (·.kind) = modifierKinds (words.dropWhile isContextualWord))
    (hkeyword : tokens.head?.map (·.kind) = some (.keyword word .declaration)) :
    ∃ t rest, front ++ tokens = t :: rest ∧ t.kind.plain.isDeclarationKeyword = true := by
  rcases hdrop : words.dropWhile isContextualWord with _ | ⟨first, later⟩
  · rw [hdrop] at hfront
    obtain rfl : front = [] := by simpa [modifierKinds] using hfront
    obtain ⟨k, hk, hkind⟩ := Option.map_eq_some_iff.mp hkeyword
    obtain ⟨rest, rfl⟩ := List.head?_eq_some_iff.mp hk
    exact ⟨k, rest, rfl, by rw [hkind]; rfl⟩
  · rw [hdrop] at hfront
    obtain ⟨u, front, rfl, hu, -⟩ := List.map_eq_cons_iff.mp hfront
    have hmem : first ∈ words :=
      (List.dropWhile_sublist _).mem (by rw [hdrop]; exact List.mem_cons_self)
    have hplain : isContextualWord first = false := by
      have hhead := List.head?_dropWhile_not isContextualWord words
      simpa [hdrop] using hhead
    rw [ofWord_of_mem_modifiers first (hwords first hmem), if_neg (by simp [hplain])] at hu
    exact ⟨u, front ++ tokens, rfl, by rw [hu]; rfl⟩

lemma Cursor.startsDeclaration_land {t : Token} {rest : List Token}
    (h : t.kind.plain.isDeclarationKeyword = true) (behind : List Token) :
    (land behind (t :: rest)).startsDeclaration = true :=
  (sees_land behind (t :: rest)).startsDeclaration h

end

/-- A declaration that is read without modifiers is read behind some of them, too. -/
lemma Goal.Reads.modified {room : Nat} {words : List String} {word : String} {kept ahead : List Token}
    {k : Token} {d : Declaration} {complaint : Option ParseError} {t : State}
    (h : (declaration .topLevel).Reads room ⟨Cursor.land [] (k :: ahead), []⟩
      (.ok ⟨d, complaint⟩) t)
    (hkind : k.kind = .keyword word .declaration) (hword : word ∉ KeywordRole.modifiers)
    (hwords : ∀ word ∈ words, word ∈ KeywordRole.modifiers)
    (hkept : kept.map (·.kind) = modifierKinds words) (behind : List Token) :
    ∃ start, (declaration .topLevel).Reads room ⟨Cursor.land behind (kept ++ k :: ahead), []⟩
      (.ok ⟨d.rehead start ⟨[], words⟩, complaint⟩) (t.precededBy (kept.reverse ++ behind)) := by
  have hplain : k.kind.plain = .keyword word .declaration := by
    rw [hkind]
    rfl
  have hnone : KeywordRole.modifiers.contains word = false := by simpa using hword
  have hmodifiers : modifiers.Reads room ⟨Cursor.land behind (kept ++ k :: ahead), []⟩ (.ok words)
      ⟨Cursor.land (kept.reverse ++ behind) (k :: ahead), []⟩ := by
    refine reads_modifiers hwords hkept (fun t ht => ?_) behind []
    obtain rfl := Option.some.inj ht
    rw [Token.isBlank, hplain, hkind]
    exact ⟨rfl, by simpa [TokenKind.modifier?] using hword⟩
  -- no attributes stand before the modifiers
  have hsign : (Cursor.land behind (kept ++ k :: ahead)).here? ≠ some (.punctuator .atSign) := by
    rw [(Cursor.sees_land behind _).here?_eq]
    rcases words with _ | ⟨first, words⟩
    · obtain rfl : kept = [] := by simpa [modifierKinds] using hkept
      simp [hplain]
    · obtain ⟨u, kept, rfl, hu, -⟩ := List.map_eq_cons_iff.mp hkept
      simp [hu, ofWord_of_mem_modifiers first (hwords first List.mem_cons_self), TokenKind.plain]
  have hstarts : (Cursor.land [] (k :: ahead)).startsDeclaration = true :=
    Cursor.startsDeclaration_land (by rw [hplain]; rfl) []
  -- behind the modifiers the declaration is read as alone, and then takes the new header
  have hbehind : (declaration .topLevel).Reads room
      (State.precededBy (kept.reverse ++ behind) ⟨Cursor.land [] (k :: ahead), []⟩)
      (.ok ⟨d, complaint⟩) (t.precededBy (kept.reverse ++ behind)) :=
    h.precededBy ⟨Nat.one_pos, .inl hstarts⟩ (by simp [Cursor.land])
  have hhere : (Cursor.land (kept.reverse ++ behind) (k :: ahead)).here? =
      some (.keyword word .declaration) := by
    rw [(Cursor.sees_land _ _).here?_eq, List.map_cons, List.head?_cons, hplain]
  exact ⟨_, hbehind.rehead (s := ⟨Cursor.land behind (kept ++ k :: ahead), []⟩) hhere hnone hsign
    hmodifiers⟩

open TopLevel Cursor in
/-- Behind tokens that are passed over, and others in front of it, a declaration is found and the loop
goes on as it does alone. -/
lemma TopLevel.run_behind {room : Nat} {passed kept tokens : List Token} {d : Declaration}
    {added : List Declaration} {s t : State} (hidle : ∀ t ∈ passed, Idle t)
    (hfirst : ∃ t rest, kept ++ tokens = t :: rest ∧ t.kind.plain.isDeclarationKeyword = true)
    (hreads : (Goal.declaration .topLevel).Reads room ⟨land passed.reverse (kept ++ tokens), []⟩
      (.ok ⟨d, none⟩) (t.precededBy (kept.reverse ++ passed.reverse)))
    (hpos : 0 < t.cursor.position)
    (hrun : ∀ before, Relation.ReflTransGen (Step room) (before, t.moveTo t.cursor.shift)
      (added ++ before, s)) :
    Relation.ReflTransGen (Step room) ([], ⟨(Cursor.start (passed ++ kept ++ tokens)).shift, []⟩)
      (added ++ [d], s.precededBy (kept.reverse ++ passed.reverse)) := by
  obtain ⟨first, rest, hfirst, hkeyword⟩ := hfirst
  have hpast : Relation.ReflTransGen (Step room)
      ([], ⟨(Cursor.start (passed ++ kept ++ tokens)).shift, []⟩)
      ([], ⟨land passed.reverse (kept ++ tokens), []⟩) := by
    have hpast := @run_past room _ hidle (kept ++ tokens) [] [] []
    rw [List.append_nil, ← List.append_assoc] at hpast
    rw [shift_eq_land]
    exact hpast
  have hstep : Step room ([], ⟨land passed.reverse (kept ++ tokens), []⟩) _ :=
    .declaration (by rw [hfirst]; rfl) (by rw [hfirst]; exact startsDeclaration_land hkeyword _) hreads
  have hnext : (t.precededBy (kept.reverse ++ passed.reverse)).moveTo
      (t.precededBy (kept.reverse ++ passed.reverse)).cursor.shift =
        (t.moveTo t.cursor.shift).precededBy (kept.reverse ++ passed.reverse) := by
    simp only [State.precededBy, State.cursor_moveTo, State.moveTo_moveTo, shift_precededBy _ hpos]
  have hlater := @run_precededBy (kept.reverse ++ passed.reverse) _ [d] _ _
    (position_shift_pos t.cursor) (hrun [])
  rw [List.append_nil] at hlater
  exact hpast.trans (.head hstep (hnext ▸ hlater))

namespace Parser

open TopLevel Cursor in
/-- Modifiers in front of a list that is read without errors and starts with the keyword of a
declaration are the modifiers of this declaration, from the first one on that is a keyword everywhere. -/
theorem exists_readTokens_modified (p : Parser) {front tokens : List Token} {words : List String}
    {word : String} {d : Declaration} {later : List Declaration}
    (hwords : ∀ word ∈ words, word ∈ KeywordRole.modifiers)
    (hfront : front.map (·.kind) = modifierKinds words)
    (hkeyword : tokens.head?.map (·.kind) = some (.keyword word .declaration))
    (hword : word ∉ KeywordRole.modifiers)
    (hread : (p.readTokens tokens).root.declarations = d :: later)
    (hquiet : (p.readTokens tokens).errors = []) :
    ∃ start, p.readTokens (front ++ tokens) = ⟨⟨rootRange (front ++ tokens),
      d.rehead start ⟨[], words.dropWhile isContextualWord⟩ :: later⟩, []⟩ := by
  obtain ⟨k, hk, hkind⟩ := Option.map_eq_some_iff.mp hkeyword
  obtain ⟨ahead, rfl⟩ := List.head?_eq_some_iff.mp hk
  -- the reading of the declaration, and of the rest
  have hstarts : (Cursor.start (k :: ahead)).shift.startsDeclaration = true :=
    startsDeclaration_land (by rw [hkind]; rfl) []
  obtain ⟨d', t, found, s, hreads, hrun, hend, hnoted, heq⟩ :=
    p.exists_run_of_errors_nil hstarts hquiet
  obtain ⟨added, hadded, hrun⟩ := run_found_append hrun
  obtain ⟨rfl, rfl⟩ : d' = d ∧ added.reverse = later := by
    have hfound : found = added ++ [d'] := hadded
    simpa [heq, hfound] using hread
  -- the modifiers that are passed over, and those that are read
  rw [← List.takeWhile_append_dropWhile (p := isContextualWord) (l := words), modifierKinds_append] at hfront
  obtain ⟨passed, kept, rfl, hpassed, hkept⟩ := List.map_eq_append_iff.mp hfront
  have hidle := idle_of_contextual (fun word h => hwords word ((List.takeWhile_sublist _).mem h))
    (fun word h => List.mem_takeWhile_imp h) hpassed
  have hfirst := isDeclarationKeyword_of_modified hwords hkept hkeyword
  obtain ⟨start, hdeclaration⟩ := hreads.modified hkind hword
    (fun word h => hwords word ((List.dropWhile_sublist _).mem h)) hkept passed.reverse
  have hpos : 0 < t.cursor.position := (hreads.onward (by simp)).2.trans_lt' Nat.one_pos
  have hall := run_behind hidle hfirst hdeclaration hpos hrun
  have hends : (s.precededBy (kept.reverse ++ passed.reverse)).cursor.current? = none :=
    (current?_precededBy _ _).trans hend
  refine ⟨start, ?_⟩
  rw [p.readTokens_eq_of_run hall hends]
  simp [State.precededBy, State.moveTo, hnoted]

end Parser

/-! ### Texts -/

lemma isWord_of_mem_modifiers {word : String} (h : word ∈ KeywordRole.modifiers) :
    Rule.IsWord word.toList := by
  have hall : ∀ word ∈ KeywordRole.modifiers, word.toList.head?.any Rule.startsWord = true ∧
      word.toList.tail.all Rule.continuesWord = true := forall_mem_of_all (by decide)
  obtain ⟨hstart, hlater⟩ := hall word h
  rcases hchars : word.toList with _ | ⟨c, rest⟩
  · simp [hchars] at hstart
  · rw [hchars] at hstart hlater
    exact ⟨c, rest, rfl, by simpa using hstart, by simpa using hlater⟩

namespace Lexeme

open Rule

/-- A text whose first lexeme is a keyword starts like a word. -/
lemma exists_startsWord {text : List Char} {word : String} {role : KeywordRole}
    (h : (kinds text).head? = some (.keyword word role)) :
    ∃ c rest, text = c :: rest ∧ startsWord c = true := by
  rcases text with _ | ⟨c, rest⟩
  · cases h
  · have hfirst : (first c rest).kind = .keyword word role := by
      rw [kinds, ofChars_cons, List.map_cons, List.head?_cons] at h
      exact Option.some.inj h
    obtain ⟨later, hlater⟩ := (first_spec c rest).1
    have htakes := (first_halts (by rw [hfirst]; exact ⟨rfl, rfl⟩) hlater).1
    rcases htext : (first c rest).text with _ | ⟨d, piece⟩
    · exact absurd htext (first_spec c rest).2
    · rw [htext, hfirst] at htakes
      rw [htext] at hlater
      obtain rfl := (List.cons.inj hlater).1
      exact ⟨d, rest, rfl, htakes.finds.opens⟩

/-- Modifiers with a space behind each are lexed apart from what starts like a word. -/
lemma kinds_modifiers {words : List String} (hwords : ∀ word ∈ words, word ∈ KeywordRole.modifiers)
    {text : List Char} (htext : ∃ c rest, text = c :: rest ∧ startsWord c = true) :
    kinds (words.flatMap (fun word => word.toList ++ [' ']) ++ text) =
        modifierKinds words ++ kinds text ∧
      ∃ c rest, words.flatMap (fun word => word.toList ++ [' ']) ++ text = c :: rest ∧
        startsWord c = true := by
  induction words with
  | nil => exact ⟨rfl, htext⟩
  | cons word words ih =>
    obtain ⟨hword, hwords⟩ := List.forall_mem_cons.mp hwords
    obtain ⟨hkinds, d, later, hlater, hd⟩ := ih hwords
    have hisWord := isWord_of_mem_modifiers hword
    have hspace : kinds (' ' :: d :: later) = .whitespace :: kinds (d :: later) := by
      refine kinds_space fun b hb hmem => ?_
      obtain rfl := Option.some.inj hb
      simp only [List.mem_cons, List.not_mem_nil, or_false] at hmem
      rcases hmem with rfl | rfl | rfl <;> cases hd
    have hbefore : Before (continuesWord · = true) (' ' :: d :: later) := by
      intro b hb hcontinues
      obtain rfl := Option.some.inj hb
      cases hcontinues
    have hsplit : (word :: words).flatMap (fun word => word.toList ++ [' ']) ++ text =
        word.toList ++ ' ' :: d :: later := by
      rw [← hlater]
      simp
    obtain ⟨c, rest, hchars, hc, -⟩ := hisWord
    refine ⟨?_, c, rest ++ ' ' :: d :: later, by rw [hsplit, hchars]; rfl, hc⟩
    rw [hsplit, kinds_word (isWord_of_mem_modifiers hword) hbefore, hspace, ← hlater, hkinds,
      String.ofList_toList]
    rfl

end Lexeme

/-- Modifiers in front of a text that is read without errors and starts with the keyword of a
declaration are the modifiers of this declaration, from the first one on that is a keyword everywhere;
nothing else changes but ranges. -/
theorem Parser.readText_modified (p : Parser) {words : List String} {text word : String}
    {d : Declaration} {later : List Declaration}
    (hwords : ∀ word ∈ words, word ∈ KeywordRole.modifiers)
    (hkeyword : (Token.ofText text).head?.map (·.kind) = some (.keyword word .declaration))
    (hword : word ∉ KeywordRole.modifiers)
    (hread : (p.readText text).root.declarations = d :: later)
    (hquiet : (p.readText text).errors = []) :
    (p.readText (String.join (words.map (· ++ " ")) ++ text)).errors = [] ∧
      (p.readText (String.join (words.map (· ++ " ")) ++ text)).root.declarations.map
          (·.view .placeless) =
        (d.rehead d.range.start ⟨[], words.dropWhile isContextualWord⟩ :: later).map
          (·.view .placeless) := by
  have hwritten : (String.join (words.map (· ++ " ")) ++ text).toList =
      words.flatMap (fun word => word.toList ++ [' ']) ++ text.toList := by
    simp [List.flatMap_map]
  have hstart : ∃ c rest, text.toList = c :: rest ∧ Rule.startsWord c = true := by
    have hhead : (Lexeme.kinds text.toList).head? = some (.keyword word .declaration) := by
      rw [← Token.kinds_ofText, List.head?_map, hkeyword]
    exact Lexeme.exists_startsWord hhead
  have hkinds := (Lexeme.kinds_modifiers hwords hstart).1
  rw [← hwritten, ← Token.kinds_ofText, ← Token.kinds_ofText] at hkinds
  obtain ⟨front, tokens, hsplit, hfront, htokens⟩ := List.map_eq_append_iff.mp hkinds
  -- the declaration alone, where it stands now
  obtain ⟨hdeclarations, herrors⟩ := p.readTokens_displaced htokens
  have hread' : (p.readTokens (Token.ofText text)).root.declarations = d :: later := hread
  have hquiet' : (p.readTokens (Token.ofText text)).errors = [] := hquiet
  rw [hread'] at hdeclarations
  obtain ⟨d', later', heq, hd, hlater⟩ := List.map_eq_cons_iff.mp hdeclarations
  have hnone : (p.readTokens tokens).errors = [] := by simpa [hquiet'] using herrors
  have hkeyword' : tokens.head?.map (·.kind) = some (.keyword word .declaration) := by
    rw [← List.head?_map, htokens, List.head?_map, hkeyword]
  obtain ⟨start, hall⟩ := p.exists_readTokens_modified hwords hfront hkeyword' hword heq hnone
  rw [readText, hsplit, hall]
  refine ⟨rfl, ?_⟩
  rw [List.map_cons, List.map_cons, hlater, Declaration.view_rehead, Declaration.view_rehead, hd]
  rfl

/-- A modifier that is a keyword in certain places only is lost in front of the others, and kept
behind them. -/
example : (Parser.readText {} "final public final let x = 1").root.declarations.map
    (·.header.modifiers) = [["public", "final"]] := by
  decide +kernel

end FrontEnd
