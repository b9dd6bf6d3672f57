/-
The errors of a text come in the order of the text.

* `Goal.run_inOrder`: the reading of a goal notes its errors in order, and the error that it
  ends in, or that was found behind what it read, is at the place where it ends.
* `TopLevel.Step.inOrder`: so does a turn of the loop over the top level.
* `Parser.readText_errors_inOrder`: each error of a text is at one of its tokens or at its
  end, and no error starts before the one listed in front of it.
-/
import FrontEnd.Proofs.Lexical.Lossless
import FrontEnd.Proofs.Order.Grammar
import FrontEnd.Proofs.Progress.Termination

namespace FrontEnd

/-! ### Readings and the loop over the top level -/

namespace Goal

/-- Only goals that start with a reserve are levels of nesting. -/
lemma one_le_reserve_of_roomInside? {g : Goal} {room : Nat} (h : g.roomInside? room = none) :
    1 ≤ g.reserve := by
  unfold roomInside? at h
  split at h
  case isTrue hlevel => cases g <;> simp [isLevel] at hlevel ⊢
  case isFalse => cases h

/-- A reading notes its errors in order. -/
theorem run_inOrder (bound room : Nat) (g : Goal) (s : State) (hs : s.InOrder g.reserve) :
    (g.run bound room s).InOrder g.complaint? := by
  induction bound generalizing room g s with
  | zero => trivial
  | succ below ih =>
    rw [run]
    rcases hroom : g.roomInside? room with _ | inside
    · exact ⟨hs.weaken (one_le_reserve_of_roomInside? hroom), _, rfl⟩
    · exact g.prompt.perform (fun g s hs => ih inside g s hs) hs (by simp)

end Goal

namespace TopLevel

/-- A turn of the loop over the top level notes its errors in order. -/
theorem Step.inOrder {room : Nat} {p q : List Declaration × State} (h : Step room p q)
    (hp : p.2.InOrder 1) : q.2.InOrder 1 := by
  have hshift : ∀ {s : State}, s.InOrder 1 → (s.moveTo s.cursor.shift).InOrder 1 := by
    intro s hs
    refine hs.moveTo (m := 0) (n := 0) (Nat.zero_le 1) (Cursor.toList_shift _) ?_
    rw [Cursor.left_shift]
    omega
  cases h with
  | @declaration found s t r hcurrent hstarts hreads =>
    obtain ⟨bound, hr⟩ := hreads
    have ht := Goal.run_inOrder bound room (.declaration .topLevel) s hp
    rw [hr] at ht
    have htaken : (takeUp found r t).2.InOrder 1 := by
      rcases r with e | ⟨d, _ | e⟩
      · exact ht.1.note Nat.one_pos ht.2
      · exact ht.1
      · exact ht.1.note Nat.one_pos (ht.2 e rfl)
    rw [← cursor_takeUp found r t]
    exact hshift htaken
  | @pass found s token hcurrent hstarts =>
    have hpassed : (passOver token s).InOrder 1 := by
      unfold passOver
      split
      · exact hp.note Nat.one_pos ⟨_, rfl⟩
      · exact hp
    rw [← cursor_passOver token s]
    exact hshift hpassed

end TopLevel

open TopLevel in
/-- The errors of a list of tokens, the latest first, stand in the order of their places. -/
lemma Parser.exists_told (p : Parser) (tokens : List Token) :
    ∃ position, Told tokens position (p.readTokens tokens).errors.reverse := by
  obtain ⟨found, s, hrun, -, heq⟩ := p.exists_steps tokens
  have hfirst : State.InOrder 1 ⟨(Cursor.start tokens).shift, []⟩ := by
    refine ⟨1, .none, fun _ => ?_⟩
    rcases tokens with _ | ⟨t, tokens⟩ <;> exact Nat.le_refl 2
  have hall : s.InOrder 1 ∧ s.cursor.toList = tokens := by
    have hlast : ∀ q, Relation.ReflTransGen (Step p.maxDepth)
        ([], ⟨(Cursor.start tokens).shift, []⟩) q → q.2.InOrder 1 ∧ q.2.cursor.toList = tokens := by
      intro q hq
      induction hq with
      | refl => exact ⟨hfirst, by simp⟩
      | tail _ hstep ih => exact ⟨hstep.inOrder ih.1, hstep.left_lt.1.trans ih.2⟩
    exact hlast _ hrun
  obtain ⟨⟨position, htold, -⟩, hlist⟩ := hall
  refine ⟨position, ?_⟩
  rw [heq, List.reverse_reverse, ← hlist]
  exact htold

/-! ### Places of cursors and bytes -/

namespace Cursor

variable {c : Cursor}

lemma current?_eq_getElem? (hc : 0 < c.position) : c.current? = c.toList[c.position - 1]? := by
  rcases c with a | ⟨b, t, a⟩ | b
  · exact absurd hc (Nat.lt_irrefl 0)
  · simp [current?, position]
  · simp [current?, position]

lemma last?_eq_getLast? (hc : c.current? = none) : c.last? = c.toList.getLast? := by
  rcases c with a | ⟨b, t, a⟩ | b
  · simp [last?]
  · cases hc
  · simp [last?, List.getLast?_reverse]

end Cursor

namespace Span.Tile

variable {start stop : Nat} {spans : List Span}

/-- No tile starts before the first offset, nor does what is behind the last one. -/
lemma le_start (h : Tile start spans stop) (i : Nat) : start ≤ spans[i]?.elim stop (·.start) := by
  induction spans generalizing start i with
  | nil => exact Nat.le_of_eq h
  | cons span later ih =>
    obtain ⟨hstart, hlt, hlater⟩ := h
    cases i with
    | zero => exact Nat.le_of_eq hstart.symm
    | succ i => exact (Nat.le_of_lt hlt).trans (ih hlater i)

/-- A later tile starts later, and the last offset is behind all of them. -/
lemma start_le_start (h : Tile start spans stop) {i j : Nat} (hij : i ≤ j) :
    spans[i]?.elim stop (·.start) ≤ spans[j]?.elim stop (·.start) := by
  induction spans generalizing start i j with
  | nil => exact Nat.le_refl _
  | cons span later ih =>
    cases i with
    | zero =>
      have hle := h.le_start j
      rw [← h.1] at hle
      exact hle
    | succ i =>
      obtain ⟨k, rfl⟩ := Nat.exists_eq_add_of_lt hij
      exact ih h.2.2 (Nat.le_add_right i k)

/-- The last tile ends at the last offset. -/
lemma stop_getLast? (h : Tile start spans stop) : spans.getLast?.elim start (·.stop) = stop := by
  induction spans generalizing start with
  | nil => exact h
  | cons span later ih =>
    have hlater := ih h.2.2
    cases later with
    | nil => exact hlater
    | cons next rest =>
      rw [List.getLast?_cons_cons]
      rw [List.getLast?_cons] at hlater ⊢
      exact hlater

/-- Of tiles, and the point behind them, no two start together. -/
lemma eq_of_start_eq {start stop : Nat} {spans : List Span} (h : Tile start spans stop)
    {s t : Span} (hs : s ∈ spans ∨ s = Span.point stop) (ht : t ∈ spans ∨ t = Span.point stop)
    (hst : s.start = t.start) : s = t := by
  induction spans generalizing start with
  | nil =>
    rw [hs.resolve_left List.not_mem_nil, ht.resolve_left List.not_mem_nil]
  | cons span later ih =>
    obtain ⟨hstart, hlt, hlater⟩ := h
    -- all but the first tile start behind it
    have hbehind {s : Span} (hs : s ∈ later ∨ s = Span.point stop) : span.start < s.start := by
      rw [hstart]
      refine hlt.trans_le ?_
      rcases hs with hs | rfl
      · obtain ⟨i, hi⟩ := List.getElem?_of_mem hs
        simpa [hi] using hlater.le_start i
      · simpa [Span.point] using hlater.le_start later.length
    rw [List.mem_cons, or_assoc] at hs ht
    rcases hs with rfl | hs <;> rcases ht with rfl | ht
    · rfl
    · exact absurd hst (hbehind ht).ne
    · exact absurd hst (hbehind hs).ne'
    · exact ih hlater hs ht

end Span.Tile

/-- An empty text ends where it starts. -/
lemma LineTable.range_point_nil : (ofChars []).range (Span.point 0) = Range.point .origin := by
  have hlocate : (ofChars []).locate 0 = .origin := by
    simp [locate, ofChars, laterStarts, lineAt, search, searchBetween, start, Location.origin]
  rw [range, Span.point, hlocate]
  rfl

namespace Token

variable {text : String} {c : Cursor}

/-- Where a cursor stands in a text: on one of its tokens, or at its end. -/
lemma span_cursor (hlist : c.toList = ofText text) :
    (∃ t ∈ ofText text, c.current? = some t ∧ c.span = t.span ∧ c.range = t.range) ∨
      c.current? = none ∧ c.span = Span.point text.utf8ByteSize ∧
        c.range = (LineTable.ofChars text.toList).range (Span.point text.utf8ByteSize) := by
  rcases hcurrent : c.current? with _ | t
  · refine .inr ⟨rfl, ?_⟩
    have hlast := (tile_ofText text).stop_getLast?
    rw [List.getLast?_map] at hlast
    rw [Cursor.span, Cursor.range, hcurrent, Cursor.last?_eq_getLast? hcurrent, hlist]
    rcases hend : (ofText text).getLast? with _ | t
    · obtain rfl := ofText_eq_nil.mp (List.getLast?_eq_none_iff.mp hend)
      exact ⟨rfl, (LineTable.range_point_nil).symm⟩
    · rw [hend] at hlast
      have hstop : t.span.stop = text.utf8ByteSize := hlast
      have ht := range_of_mem_ofText (List.mem_of_getLast? hend)
      simp only [Option.elim_some, hstop, ht, LineTable.range, true_and]
      rfl
  · refine .inl ⟨t, ?_, rfl, ?_⟩
    · rw [← hlist, Cursor.toList, hcurrent]
      simp
    · rw [Cursor.span, Cursor.range, hcurrent]
      exact ⟨rfl, rfl⟩

/-- A later cursor starts at a later byte. -/
lemma span_cursor_le {d : Cursor} (hc : c.toList = ofText text) (hd : d.toList = ofText text)
    (hpos : 0 < c.position) (hle : c.position ≤ d.position) : c.span.start ≤ d.span.start := by
  have hstart : ∀ {c : Cursor}, c.toList = ofText text → 0 < c.position →
      c.span.start = ((ofText text).map (·.span))[c.position - 1]?.elim text.utf8ByteSize
        (·.start) := by
    intro c hc hpos
    have hcurrent := Cursor.current?_eq_getElem? hpos
    rw [hc] at hcurrent
    rw [List.getElem?_map, ← hcurrent]
    rcases span_cursor hc with ⟨t, -, ht, hspan, -⟩ | ⟨hnone, hspan, -⟩
    · rw [ht, hspan]
      rfl
    · rw [hnone, hspan]
      rfl
  rw [hstart hc hpos, hstart hd (hpos.trans_le hle)]
  exact (tile_ofText text).start_le_start (Nat.sub_le_sub_right hle 1)

end Token

/-! ### The errors of a text -/

/-- Errors at places in order start at bytes in order. -/
lemma Told.errors_inOrder {text : String} {position : Nat} {errors : List ParseError}
    (h : Told (Token.ofText text) position errors) :
    (∀ e ∈ errors, ((∃ t ∈ Token.ofText text, e.span = t.span) ∨
        e.span = Span.point text.utf8ByteSize) ∧
      e.range = (LineTable.ofChars text.toList).range e.span) ∧
    errors.Pairwise (fun later earlier => earlier.span.start ≤ later.span.start) ∧
    ∀ c : Cursor, c.toList = Token.ofText text → position ≤ c.position →
      ∀ e ∈ errors, e.span.start ≤ c.span.start := by
  induction h with
  | none => simp
  | @next position errors d kind earlier hlist hle ih =>
    obtain ⟨hplaces, hpairs, hbehind⟩ := ih
    have hdpos : 0 < d.position := earlier.one_le.trans hle
    refine ⟨List.forall_mem_cons.mpr ⟨?_, hplaces⟩, List.pairwise_cons.mpr ⟨?_, hpairs⟩, ?_⟩
    · simp only [Cursor.error]
      rcases Token.span_cursor hlist with ⟨t, ht, -, hspan, hrange⟩ | ⟨-, hspan, hrange⟩
      · refine ⟨.inl ⟨t, ht, hspan⟩, ?_⟩
        rw [hrange, hspan, Token.range_of_mem_ofText ht]
      · exact ⟨.inr hspan, by rw [hrange, hspan]⟩
    · exact hbehind d hlist hle
    · intro c hc hcle
      refine List.forall_mem_cons.mpr ⟨Token.span_cursor_le hlist hc hdpos hcle, ?_⟩
      exact hbehind c hc (hle.trans hcle)

/-- The errors of a text come in the order of the text.

Each error is at one of the tokens of the text, or at its end; its lines and columns are those
of its bytes.  No error starts before the one listed in front of it. -/
theorem Parser.readText_errors_inOrder (p : Parser) (text : String) :
    (∀ e ∈ (p.readText text).errors,
      ((∃ t ∈ Token.ofText text, e.span = t.span) ∨ e.span = Span.point text.utf8ByteSize) ∧
        e.range = (LineTable.ofChars text.toList).range e.span) ∧
    (p.readText text).errors.Pairwise fun e later => e.span.start ≤ later.span.start := by
  obtain ⟨position, htold⟩ := p.exists_told (Token.ofText text)
  obtain ⟨hplaces, hpairs, -⟩ := htold.errors_inOrder
  refine ⟨fun e he => hplaces e (List.mem_reverse.mpr he), ?_⟩
  exact List.pairwise_reverse.mp hpairs

end FrontEnd
