/-
What stands behind a declaration.

Behind a declaration of the top level its line must end, or a semicolon must stand.  Where another token
stands there, this is complained of, and the error stands not on that token but on the one in front of
it: the last token of the declaration, or the last blank behind it.

* `Token.crowding?`: the complaint about what stands behind a token.
* `Goal.Reads.ends`: this is what a declaration of the top level is complained of for, unless it ought
  to name something inside a module.
* `Parser.separated`: in a text the token that stands there starts where the span of the error stops.
-/
import FrontEnd.Proofs.Contract.Returns
import FrontEnd.Proofs.Contract.Run
import FrontEnd.Proofs.Cursor.Behind
import FrontEnd.Proofs.Lexical.Lossless
import FrontEnd.Proofs.Placement.Found

namespace FrontEnd

/-- Whether tokens of a kind separate a declaration from the next one. -/
def TokenKind.isSeparator (kind : TokenKind) : Bool :=
  kind.isLineBreak || kind = .punctuator .semicolon

lemma TokenKind.isSeparator_iff {kind : TokenKind} :
    kind.isSeparator = true ↔ kind.plain = .lineFeed ∨ kind.plain = .punctuator .semicolon := by
  cases kind <;> simp [isSeparator, isLineBreak, plain]

/-- The complaint about what stands behind a token: about the first token there that is no blank, if it
is on the line and no semicolon.  The error stands on the token in front of that one. -/
def Token.crowding? (last : Token) (after : List Token) : Option ParseError :=
  match after.dropWhile Token.isInlineBlank with
  | [] => none
  | next :: _ =>
    if next.kind.isSeparator then none
    else
      let front := (after.takeWhile Token.isInlineBlank).getLast?.getD last
      some ⟨.missingSeparator, front.span, front.range⟩

/-- An import that says of what kind it is, but names nothing inside the module. -/
def Declaration.namesNothing : Declaration → Bool
  | .importing _ _ kind _ names => kind ≠ .module && names.isEmpty
  | _ => false

lemma Declaration.namesNothing_eq_false {d : Declaration}
    (h : ∀ r header kind module names, d ≠ .importing r header kind module names) :
    d.namesNothing = false := by
  cases d with
  | importing r header kind module names => exact absurd rfl (h r header kind module names)
  | _ => rfl

/-- A declaration ends on a token of a list, and is complained of for what stands behind it, or for
naming nothing. -/
def Kept.Ends (kept : Kept Declaration) (tokens : List Token) : Prop :=
  ∃ before last after, tokens = before ++ last :: after ∧
    kept.value.range.stop = last.range.stop ∧
    if kept.value.namesNothing then ∃ e, kept.complaint = some e ∧ e.kind = .missingModuleName
    else kept.complaint = last.crowding? after

namespace Cursor

variable {c : Cursor} {last : Token} {before : List Token}

/-- Behind the start of a list a cursor stands on a token, or behind the last one. -/
lemma exists_last (hpos : 0 < c.position) (hne : c.toList ≠ []) :
    ∃ last before, c.shift.behind = last :: before := by
  rcases c with a | ⟨b, t, a⟩ | (_ | ⟨t, b⟩)
  · exact absurd hpos (Nat.lt_irrefl 0)
  · exact ⟨t, b, behind_shift _⟩
  · exact absurd (toList_finish []) hne
  · exact ⟨t, b, rfl⟩

lemma toList_eq_of_behind_shift (h : c.shift.behind = last :: before) :
    c.toList = before.reverse ++ last :: c.remaining := by
  rw [behind_shift] at h
  rw [toList, consumed]
  rcases c with a | ⟨b, t, a⟩ | b <;> simp_all [current?, behind, remaining]

lemma stopLocation_of_behind_shift (h : c.shift.behind = last :: before) :
    c.stopLocation = last.range.stop := by
  rw [behind_shift] at h
  rcases c with a | ⟨b, t, a⟩ | b <;>
    simp_all [stopLocation, range, current?, behind, last?, Range.point]

/-- From the next token of interest on the line, the token in front of it is found by a step back. -/
lemma error_unshift_advance {next : Token} {later : List Token}
    (h : c.shift.behind = last :: before)
    (hnext : c.remaining.dropWhile Token.isInlineBlank = next :: later) (kind : ErrorKind) :
    (c.advance .sameLine).unshift.error kind =
      let front := (c.remaining.takeWhile Token.isInlineBlank).getLast?.getD last
      ⟨kind, front.span, front.range⟩ := by
  have hland : c.advance .sameLine =
      land ((c.remaining.takeWhile Token.isInlineBlank).reverse ++ last :: before) (next :: later) := by
    rw [← hnext, ← h, behind_shift]
    exact advance_eq_land .sameLine c
  rw [hland]
  rcases List.eq_nil_or_concat (c.remaining.takeWhile Token.isInlineBlank) with hnil | ⟨l, t, hconcat⟩
  · rw [hnil]
    rfl
  · rw [hconcat]
    simp [land, unshift, unshift?, Cursor.error, span, range, current?]

end Cursor

namespace Grammar

open Procedure

variable {K : Contract} {way : List Event} {s : State} {last : Token} {before : List Token}

/-- What the separator behind a declaration of the top level is complained of for. -/
lemma separator_crowding (h : s.cursor.shift.behind = last :: before)
    {err : List Event → ParseError → State → Prop} :
    (separator .topLevel).Meets K way s
      (fun _ complaint _ => complaint = last.crowding? s.cursor.remaining) err := by
  have hhere : (s.cursor.advance .sameLine).here? =
      (s.cursor.remaining.dropWhile Token.isInlineBlank).head?.map (·.kind.plain) := by
    rw [Cursor.here?_advance, Cursor.following?, Cursor.next?, Cursor.find?_not_eq_head?_dropWhile]
    rfl
  rw [separator, meets_bind, meets_advance, meets_bind, meets_here, State.cursor_moveTo, hhere,
    Token.crowding?]
  rcases hnext : s.cursor.remaining.dropWhile Token.isInlineBlank with _ | ⟨next, later⟩
  · simp
  · have herror := Cursor.error_unshift_advance h hnext .missingSeparator
    rw [hnext, List.head?_cons, Option.map_some] at hhere
    by_cases hseparator : next.kind.isSeparator = true
    · rcases TokenKind.isSeparator_iff.mp hseparator with hkind | hkind <;>
        simp [hkind, hseparator]
    · obtain ⟨hbreak, hsemicolon⟩ := not_or.mp (mt TokenKind.isSeparator_iff.mpr hseparator)
      have hcurrent := Option.isSome_iff_ne_none.mp (Cursor.current?_isSome_of_here? hhere)
      have hnested : Context.topLevel.isNested = false := rfl
      simp only [List.head?_cons, Option.map_some, hseparator]
      split <;> simp_all

/-- The end of an import. -/
lemma importEnd_ends (hs : s.cursor.Placed) (hne : s.cursor.toList ≠ []) (start : Location)
    (header : Header) (kind : ImportKind) (module : String) (names : List String)
    {err : List Event → ParseError → State → Prop} :
    (importEnd .topLevel kind names).Meets K way s
      (fun _ complaint _ => Kept.Ends
        ⟨.importing ⟨start, s.cursor.stopLocation⟩ header kind module names, complaint⟩
        s.cursor.toList) err := by
  obtain ⟨last, before, hlast⟩ := Cursor.exists_last hs.position_pos hne
  have hends {complaint : Option ParseError}
      (h : if (kind ≠ .module && names.isEmpty) then
          ∃ e, complaint = some e ∧ e.kind = .missingModuleName
        else complaint = last.crowding? s.cursor.remaining) :
      Kept.Ends ⟨.importing ⟨start, s.cursor.stopLocation⟩ header kind module names, complaint⟩
        s.cursor.toList :=
    ⟨_, _, _, Cursor.toList_eq_of_behind_shift hlast, Cursor.stopLocation_of_behind_shift hlast, h⟩
  unfold importEnd
  split
  next hnothing =>
    simp only [meets_bind, meets_errorHere, meets_pure]
    exact hends ((if_pos hnothing).mpr ⟨_, rfl, rfl⟩)
  next hnothing =>
    exact (separator_crowding hlast).imp (fun _ _ _ h => hends ((if_neg hnothing).mpr h))
      fun _ _ _ h => h

lemma importing_ends (start : Location) (header : Header) (hs : s.cursor.Placed)
    (hne : s.cursor.toList ≠ []) (hleft : 0 < s.cursor.left) :
    (importing .topLevel start header).Meets placing way s
      (fun _ kept _ => kept.Ends s.cursor.toList) fun _ _ _ => True := by
  simp [importing]
  refine importKind_places.imp fun way kind t ht _ name hname => ⟨by grind -ring -linarith, fun names u hu => ?_⟩
  have hsu : s.cursor.Onward 0 u.cursor := by grind -ring -linarith
  have hu' := hs.of_left_le hsu.toList_eq hsu.left_le
  rw [← hsu.toList_eq] at hne ⊢
  exact importEnd_ends hu' hne start header kind name names

/-- What a declaration of the top level is complained of for, from its keyword on. -/
lemma declarationFrom_ends (start : Location) (header : Header) (word : String)
    (hs : s.cursor.Placed) (hleft : 0 < s.cursor.left) (hstart : start ≤ s.cursor.startLocation) :
    (declarationFrom .topLevel start header word).Meets placing way s
      (fun _ kept _ => kept.Ends s.cursor.toList) fun _ _ _ => True := by
  have hne : s.cursor.toList ≠ [] := by
    rintro h
    have := s.cursor.position_add_left
    have := hs.position_pos
    rw [h, List.length_nil] at *
    omega
  unfold declarationFrom
  split
  · exact importing_ends start header hs hne hleft
  · rw [meets_bind]
    refine ((declarationNamed_places header word start hs hleft hstart way).and_returns
      (declarationNamed_returns header word)).imp (fun way node t ht => ?_) fun _ _ _ h => h
    obtain ⟨⟨honward, -⟩, hnode⟩ := ht
    have htp := hs.of_left_le honward.toList_eq honward.left_le
    rw [← honward.toList_eq] at hne ⊢
    obtain ⟨last, before, hlast⟩ := Cursor.exists_last htp.position_pos hne
    simp only [meets_bind, meets_rangeFrom]
    refine (separator_crowding hlast).imp (fun _ complaint _ h => ?_) fun _ _ _ h => h
    obtain ⟨hrange, himport⟩ := hnode ⟨start, t.cursor.stopLocation⟩
    refine ⟨_, _, _, Cursor.toList_eq_of_behind_shift hlast, ?_, ?_⟩
    · rw [hrange]
      exact Cursor.stopLocation_of_behind_shift hlast
    · simpa [Declaration.namesNothing_eq_false himport] using h

/-- What a declaration of the top level is complained of for. -/
lemma declaration_ends (way : List Event) (hs : s.cursor.Placed) :
    (declaration .topLevel).Meets placing way s (fun _ kept _ => kept.Ends s.cursor.toList)
      fun _ _ _ => True := by
  simp [declaration]
  refine ⟨hs, fun attributes t ht => ⟨by grind -ring -linarith, fun modifiers u hu => ?_⟩⟩
  have hsu : s.cursor.Onward 0 u.cursor := by grind -ring -linarith
  split
  next word hword =>
    have hleft := Cursor.left_pos_of_bind_here? hword
    have hup := hs.of_left_le hsu.toList_eq hsu.left_le
    have hstart : s.cursor.startLocation ≤ u.cursor.startLocation :=
      hs.start_le_start hsu.toList_eq hsu.left_le
    rw [← hsu.toList_eq]
    exact declarationFrom_ends _ _ word hup hleft hstart
  · simp

end Grammar

namespace Goal

/-- A declaration of the top level is complained of for what stands behind it, or for naming nothing. -/
theorem Reads.ends {room : Nat} {s t : State} {kept : Kept Declaration}
    (h : (declaration .topLevel).Reads room s (.ok kept) t) (hs : s.cursor.Placed) :
    kept.Ends s.cursor.toList := by
  have hroom : (declaration .topLevel).roomInside? room = some room :=
    roomInside?_of_not_isLevel rfl
  obtain ⟨_ | below, h⟩ := h
  · cases h
  · rw [run, hroom] at h
    exact ((Grammar.declaration_ends [] hs).perform (run below room)
      (fun _ _ _ _ henter hr => ⟨known_onward _ _ _ _ _ _ hr, Reads.places ⟨below, hr⟩ henter⟩)
      fun _ _ _ _ _ hr => ⟨known_onward _ _ _ _ _ _ hr, trivial⟩).1 _ _ h

end Goal

/-! ### In a text -/

/-- Behind each declaration of the top level stands what `Token.crowding?` does not complain of, or the
complaint is among the errors. -/
theorem Parser.exists_ends (p : Parser) {text : String} {d : Declaration}
    (hd : d ∈ (p.readText text).root.declarations) :
    ∃ complaint, Kept.Ends ⟨d, complaint⟩ (Token.ofText text) ∧
      ∀ e ∈ complaint, e ∈ (p.readText text).errors := by
  obtain ⟨found, s, hrun, -, heq⟩ := p.exists_steps (Token.ofText text)
  rw [readText, heq] at hd ⊢
  obtain hnil | ⟨complaint, u, t, hreads, -, hlist, hplaced, hnoted⟩ :=
    TopLevel.exists_reads_of_run hrun (TopLevel.placed_start (Token.inOrder_ofText text))
      (List.mem_reverse.mp hd)
  · cases hnil
  · refine ⟨complaint, hlist ▸ hreads.ends hplaced, fun e he => List.mem_reverse.mpr ?_⟩
    exact hnoted.subset (List.mem_append_left _ (Option.mem_toList.mpr he))

/-- Of two spans one behind the other the second one starts where the first one stops. -/
lemma Span.Tile.start_eq_stop {before later : List Span} {span next : Span} {start stop : Nat}
    (h : Tile start (before ++ span :: next :: later) stop) :
    span.start < span.stop ∧ next.start = span.stop := by
  induction before generalizing start with
  | nil =>
    obtain ⟨hstart, hlt, hnext, -⟩ := h
    exact ⟨hstart ▸ hlt, hnext⟩
  | cons first before ih => exact ih h.2.2

/-- In a text the last one of a token and the blanks behind it ends where the next token starts. -/
lemma Token.span_front {text : String} {before blanks later : List Token} {last next front : Token}
    (htext : ofText text = before ++ last :: (blanks ++ next :: later))
    (hfront : (last :: blanks).getLast? = some front) :
    front.span.start < front.span.stop ∧ next.span.start = front.span.stop := by
  have htile := tile_ofText text
  have hsplit : before ++ last :: (blanks ++ next :: later) =
      (before ++ (last :: blanks).dropLast) ++ front :: next :: later := by
    rw [← List.cons_append, ← List.dropLast_append_getLast? front hfront]
    simp
  rw [htext, hsplit, List.map_append, List.map_cons, List.map_cons] at htile
  exact htile.start_eq_stop

/-- **Where a semicolon is missing.**  Behind each declaration of the top level, unless it names
nothing, stand blanks, and then a separator or the end of the text; where another token stands there, an
error reports the missing separator, and its span is that of the token in front of the other one, so
that a semicolon at its end would stand between the two. -/
theorem Parser.separated (p : Parser) {text : String} {d : Declaration}
    (hd : d ∈ (p.readText text).root.declarations) (hnames : d.namesNothing = false) :
    ∃ before last blanks rest, Token.ofText text = before ++ last :: (blanks ++ rest) ∧
      d.range.stop = last.range.stop ∧ (∀ t ∈ blanks, t.isInlineBlank = true) ∧
      ∀ next ∈ rest.head?, next.isInlineBlank = false ∧
        (next.kind.isSeparator = false →
          ∃ e ∈ (p.readText text).errors, e.kind = .missingSeparator ∧
            (∃ front ∈ last :: blanks, e.span = front.span) ∧
            e.span.start < e.span.stop ∧ next.span.start = e.span.stop) := by
  obtain ⟨complaint, ⟨before, last, after, htext, hstop, hcomplaint⟩, herrors⟩ := p.exists_ends hd
  have hafter := List.takeWhile_append_dropWhile (p := Token.isInlineBlank) (l := after)
  rw [← hafter] at htext
  refine ⟨before, last, _, _, htext, hstop, fun t => List.mem_takeWhile_imp, fun next hnext => ?_⟩
  have hblank := List.head?_dropWhile_not Token.isInlineBlank after
  obtain ⟨later, hrest⟩ := List.head?_eq_some_iff.mp hnext
  rw [hrest] at htext hblank
  refine ⟨by simpa using hblank, fun hseparator => ?_⟩
  have hcrowding : complaint = last.crowding? after := by simpa [hnames] using hcomplaint
  simp only [Token.crowding?, hrest, hseparator] at hcrowding
  have hfront := List.getLast?_cons (a := last) (l := after.takeWhile Token.isInlineBlank)
  refine ⟨_, herrors _ hcrowding, rfl, ⟨_, List.mem_of_getLast? hfront, rfl⟩, ?_⟩
  exact Token.span_front htext hfront

/-- The error stands on the blank in front of the second declaration. -/
example : (Parser.readText {} "let a = 1 let b").errors.map (·.span) = [⟨9, 10⟩] := by
  decide +kernel

end FrontEnd
