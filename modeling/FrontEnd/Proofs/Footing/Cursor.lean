/-
Where the cursor may stand when it is asked something.

A text may be written with more or fewer blanks, and with one or two tokens for a line
break.  The cursor then stands on corresponding tokens, unless it stands on blanks.  So
the grammar should put most of its questions from a token that is not blank (`Clear`),
and the others from one that is no line break (`OnLine`).  An error may be placed on a
line break, but only directly behind a token that is not blank (`Placeable`).
`Instruction.Fits` says so for each instruction.
-/
import FrontEnd.Grammar.Procedure
import FrontEnd.Proofs.Cursor.Behind

namespace FrontEnd

namespace Cursor

variable {c : Cursor}

/-- The cursor stands on no blank. -/
def Clear (c : Cursor) : Prop :=
  ∀ kind, c.here? = some kind → kind.isBlank = false

/-- The cursor stands on no line break. -/
def OnLine (c : Cursor) : Prop :=
  c.here? ≠ some .lineFeed

/-- If the cursor stands on a line break, then directly behind a token that is not
blank. -/
def Placeable (c : Cursor) : Prop :=
  c.OnLine ∨ c.unshift.Clear

@[grind →] lemma Clear.onLine (h : c.Clear) : c.OnLine := by
  intro hhere
  simpa [TokenKind.isBlank, TokenKind.isLineBreak] using h _ hhere

@[grind →] lemma OnLine.placeable (h : c.OnLine) : c.Placeable :=
  .inl h

/-! ### Answers that say where the cursor stands -/

lemma clear_of_here?_eq_none (h : c.here? = none) : c.Clear := by
  simp [Clear, h]

@[grind →] lemma clear_of_here? {kind : TokenKind} (h : c.here? = some kind)
    (hkind : kind.isBlank = false) : c.Clear := by
  intro kind' h'
  rw [h, Option.some.injEq] at h'
  rwa [← h']

lemma clear_of_any {p : TokenKind → Bool} (h : c.here?.any p = true)
    (hp : ∀ kind, kind.isBlank = true → p kind = false) : c.Clear := by
  rcases hkind : c.here? with _ | kind
  · simp [hkind] at h
  · rw [hkind, Option.any_some] at h
    refine clear_of_here? hkind ?_
    by_contra hblank
    simp [hp kind (by simpa using hblank)] at h

lemma clear_of_bind {α : Type} {f : TokenKind → Option α} {a : α} (h : c.here?.bind f = some a)
    (hf : ∀ kind, kind.isBlank = true → f kind = none) : c.Clear := by
  obtain ⟨kind, hkind, ha⟩ := Option.bind_eq_some_iff.mp h
  refine clear_of_here? hkind ?_
  by_contra hblank
  simp [hf kind (by simpa using hblank)] at ha

@[grind →] lemma clear_of_isKeyword {word : String} (h : c.here?.any (·.isKeyword word) = true) :
    c.Clear := by
  refine clear_of_any h fun kind hkind => ?_
  cases kind <;>
    simp_all [TokenKind.isBlank, TokenKind.isInlineBlank, TokenKind.isLineBreak,
      TokenKind.isKeyword]

@[grind →] lemma clear_of_name? {contextual : Bool} {name : String}
    (h : c.here?.bind (·.name? contextual) = some name) : c.Clear := by
  refine clear_of_bind h fun kind hkind => ?_
  cases kind <;>
    simp_all [TokenKind.isBlank, TokenKind.isInlineBlank, TokenKind.isLineBreak, TokenKind.name?]

/-! ### Moves -/

/-- What a search finds it does not pass. -/
lemma passes_of_following? {reach : Reach} {kind : TokenKind}
    (h : c.following? reach = some kind) : reach.passes kind = false ∧
      (reach = .anyLine → kind.isBlank = false) := by
  obtain ⟨t, ht, rfl⟩ := Option.map_eq_some_iff.mp h
  have hpasses := List.find?_some ht
  simp only [Bool.not_eq_eq_eq_not, Bool.not_true] at hpasses
  rcases t with ⟨kind, span, range⟩
  cases reach <;> cases kind <;>
    simp_all [Reach.passes, TokenKind.plain, TokenKind.isBlank, TokenKind.isInlineBlank,
      TokenKind.isLineBreak]

@[simp] lemma clear_advance_anyLine (c : Cursor) : (c.advance .anyLine).Clear := by
  intro kind h
  rw [here?_advance] at h
  exact (passes_of_following? h).2 rfl

@[simp] lemma onLine_advance_anyLine (c : Cursor) : (c.advance .anyLine).OnLine :=
  (clear_advance_anyLine c).onLine

@[simp] lemma placeable_advance_anyLine (c : Cursor) : (c.advance .anyLine).Placeable :=
  (onLine_advance_anyLine c).placeable

/-- The next token of interest on the line is no blank, unless the line ends. -/
@[grind! .] lemma clear_advance_sameLine (c : Cursor) :
    (c.advance .sameLine).here? = some .lineFeed ∨ (c.advance .sameLine).Clear := by
  rcases hkind : (c.advance .sameLine).here? with _ | kind
  · exact .inr (clear_of_here?_eq_none hkind)
  · by_cases hbreak : kind = .lineFeed
    · exact .inl (by rw [hbreak])
    · refine .inr (clear_of_here? hkind ?_)
      rw [here?_advance] at hkind
      have hpasses := (passes_of_following? hkind).1
      obtain ⟨t, -, rfl⟩ := Option.map_eq_some_iff.mp hkind
      rcases t with ⟨kind, span, range⟩
      cases kind <;>
        simp_all [Reach.passes, TokenKind.plain, TokenKind.isBlank, TokenKind.isInlineBlank,
          TokenKind.isLineBreak]

/-- A shift from a token that is not blank. -/
@[grind →] lemma Clear.placeable_shift (h : c.Clear) : c.shift.Placeable := by
  rcases hcurrent : c.shift.current? with _ | t
  · refine .inl fun hhere => ?_
    simp [here?, kind?, hcurrent] at hhere
  · exact .inr (by rwa [unshift_shift (by simp [hcurrent])])

lemma isBlank_of_glued? {n : Nat} {kind : TokenKind} (h : c.glued? n = some kind) :
    kind.isBlank = false := by
  simpa using (Option.filter_eq_some_iff.mp h).2

lemma clear_shift_of_glued? {kind : TokenKind} (h : c.glued? 0 = some kind) : c.shift.Clear :=
  clear_of_here? (here?_shift_of_glued? h) (isBlank_of_glued? h)

lemma clear_shift_of_glued?_ne_none (h : c.glued? 0 ≠ none) : c.shift.Clear := by
  obtain ⟨kind, hkind⟩ := Option.ne_none_iff_exists'.mp h
  exact clear_shift_of_glued? hkind

lemma clear_shift_shift_of_glued? {kind : TokenKind} (h : c.glued? 1 = some kind) :
    c.shift.shift.Clear :=
  clear_of_here? (here?_shift_shift_of_glued? h) (isBlank_of_glued? h)

@[grind →] lemma clear_shift_shift_of_bind_glued? {α : Type} {f : TokenKind → Option α}
    (h : ((c.glued? 1).bind f).isSome = true) : c.shift.shift.Clear := by
  obtain ⟨a, ha⟩ := Option.isSome_iff_exists.mp h
  obtain ⟨kind, hkind, -⟩ := Option.bind_eq_some_iff.mp ha
  exact clear_shift_shift_of_glued? hkind

grind_pattern clear_shift_of_glued? => c.glued? 0, some kind
grind_pattern clear_shift_shift_of_glued? => c.glued? 1, some kind

/-- Before the next token of interest on the line stands no line break, unless the way to it
started on one. -/
lemma OnLine.unshift_advance (h : c.OnLine) :
    (c.advance .sameLine).current?.isSome → (c.advance .sameLine).unshift.OnLine := by
  intro hcurrent hhere
  obtain ⟨passed, heq, hpassed⟩ := behind_advance .sameLine c
  rw [here?_unshift hcurrent, heq, behind_shift] at hhere
  rcases passed with _ | ⟨t, passed⟩
  · rcases c with a | ⟨b, t, a⟩ | b
    · simp [current?, behind] at hhere
    · simp only [current?, List.nil_append, Option.toList_some, List.singleton_append,
        List.head?_cons, Option.map_some, Option.some.injEq] at hhere
      exact h (by simpa [here?, kind?, current?] using hhere)
    · simp [advance, shift, skipCurrent, current?] at hcurrent
  · have hpasses := hpassed t (List.mem_cons_self ..)
    rcases t with ⟨kind, span, range⟩
    cases kind <;> simp_all [Reach.passes, TokenKind.isInlineBlank, TokenKind.plain]

lemma OnLine.shiftBy {n : Nat} (h : c.OnLine)
    (hahead : ∀ t ∈ c.remaining.take n, t.kind.isLineBreak = false) : (c.shiftBy n).OnLine := by
  induction n generalizing c with
  | zero => exact h
  | succ n ih =>
    rcases c with (_ | ⟨t, a⟩) | ⟨b, t, (_ | ⟨u, a⟩)⟩ | b
    case start.cons | on.cons =>
      simp only [remaining, List.take_succ_cons, List.forall_mem_cons] at hahead
      refine ih (fun hhere => ?_) hahead.2
      simp only [shift, here?, kind?, current?, Option.map_some, Option.some.injEq] at hhere
      obtain ⟨hbreak, -⟩ := hahead
      revert hhere hbreak
      generalize Token.kind _ = kind
      cases kind <;> simp [TokenKind.plain, TokenKind.isLineBreak]
    all_goals exact ih (by simp [OnLine, shift, here?, kind?, current?]) (by simp [remaining, shift])

/-- The last token of a line is no line break. -/
lemma OnLine.toEndOfLine (h : c.OnLine) : c.toEndOfLine.OnLine := by
  refine h.shiftBy fun t ht => ?_
  rw [restOfLine, ← List.prefix_iff_eq_take.mp (List.takeWhile_prefix _)] at ht
  simpa using List.mem_takeWhile_imp ht

/-! ### Behind the first token -/

@[simp] lemma position_shift_pos (c : Cursor) : 0 < c.shift.position := by
  rcases c with (_ | ⟨t, a⟩) | ⟨b, t, (_ | ⟨n, a⟩)⟩ | b <;> simp [shift, position]

lemma position_shift_le_advance (reach : Reach) (c : Cursor) :
    c.shift.position ≤ (c.advance reach).position := by
  rw [advance]
  have hlist := c.shift.position_add_left
  rcases hs : c.shift with a | ⟨b, t, a⟩ | b
  · exact Nat.le_refl _
  · have hseek := (seek reach.passes b t a).position_add_left
    have hle := left_seek_le reach.passes b t a
    rw [toList_seek] at hseek
    simp only [hs, toList_on, left] at hlist
    simp only [skipCurrent]
    omega
  · exact Nat.le_refl _

@[simp] lemma position_advance_pos (reach : Reach) (c : Cursor) : 0 < (c.advance reach).position :=
  lt_of_lt_of_le (position_shift_pos c) (position_shift_le_advance reach c)

lemma position_le_toEndOfLine (c : Cursor) : c.position ≤ c.toEndOfLine.position := by
  have h₁ := c.position_add_left
  have h₂ := c.toEndOfLine.position_add_left
  have h₃ := left_toEndOfLine_le c
  rw [toList_toEndOfLine] at h₂
  omega

lemma position_unshift (h : c.current?.isSome) : c.unshift.position + 1 = c.position := by
  rcases c with a | ⟨(_ | ⟨p, b⟩), t, a⟩ | b <;>
    simp [unshift, unshift?, position, current?] at h ⊢

/-- From a place behind the first token, a move onward that finds a token passes the first
one. -/
lemma one_lt_position_shift (hc : 0 < c.position) (h : c.shift.current?.isSome) :
    1 < c.shift.position := by
  rcases c with a | ⟨b, t, (_ | ⟨n, a⟩)⟩ | b <;> simp [current?, shift, position] at hc h ⊢

lemma one_lt_position_advance (reach : Reach) (hc : 0 < c.position)
    (h : (c.advance reach).current?.isSome) : 1 < (c.advance reach).position := by
  refine lt_of_lt_of_le (one_lt_position_shift hc ?_) (position_shift_le_advance reach c)
  rcases hs : c.shift with a | ⟨b, t, a⟩ | b
  · simp [advance, hs, skipCurrent, current?] at h
  · rfl
  · simp [advance, hs, skipCurrent, current?] at h

end Cursor

end FrontEnd
