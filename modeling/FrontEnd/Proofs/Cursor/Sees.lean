/-
What a cursor sees.

The grammar sees the kinds of the current token and of those behind it.  A cursor that sees
certain kinds sees the later ones when it has gone on, and answers every question that does not
ask for places from them.  So a reading can be followed on the kinds alone.
-/
import FrontEnd.Proofs.Cursor.Behind

namespace FrontEnd

/-! ### Plain kinds -/

namespace TokenKind

@[simp] lemma isInlineBlank_plain (kind : TokenKind) : kind.plain.isInlineBlank = kind.isInlineBlank := by
  cases kind <;> rfl

@[simp] lemma isLineBreak_plain (kind : TokenKind) : kind.plain.isLineBreak = kind.isLineBreak := by
  cases kind <;> rfl

@[simp] lemma isBlank_plain (kind : TokenKind) : kind.plain.isBlank = kind.isBlank := by
  simp [isBlank]

@[simp] lemma binary?_plain (kind : TokenKind) : kind.plain.binary? = kind.binary? := by
  cases kind <;> rfl

/-- A kind that only separates, or stands, in a search on one line and on any. -/
lemma isInlineBlank_eq_false {kind : TokenKind} (h : kind.isBlank = false) :
    kind.isInlineBlank = false :=
  (Bool.or_eq_false_iff.mp h).1

@[simp] lemma isDeclarationKeyword_plain (kind : TokenKind) :
    kind.plain.isDeclarationKeyword = kind.isDeclarationKeyword := by
  cases kind <;> rfl

end TokenKind

@[simp] lemma Reach.passes_plain (reach : Reach) (kind : TokenKind) :
    reach.passes kind.plain = reach.passes kind := by
  cases reach <;> simp [passes]

lemma Reach.passes_whitespace (reach : Reach) : reach.passes .whitespace = true := by
  cases reach <;> rfl

lemma Reach.passes_eq_false {reach : Reach} {kind : TokenKind} (h : kind.isBlank = false) :
    reach.passes kind = false := by
  cases reach
  · exact TokenKind.isInlineBlank_eq_false h
  · exact h

/-- The binary operator at the start of a list of kinds, on the same line. -/
def binaryAmong? (kinds : List TokenKind) : Option String :=
  let spacedBefore := kinds.head?.any TokenKind.isInlineBlank
  match kinds.dropWhile TokenKind.isInlineBlank with
  | [] => none
  | kind :: later =>
    if spacedBefore = later.head?.all TokenKind.isBlank then kind.binary? else none

lemma dropWhile_plain (reach : Reach) (tokens : List Token) :
    (tokens.map (·.kind.plain)).dropWhile reach.passes =
      (tokens.dropWhile fun t => reach.passes t.kind).map (·.kind.plain) := by
  rw [List.dropWhile_map]
  simp [Function.comp_def]

lemma TokenKind.isBlank_of_binary? {kind : TokenKind} {operator : String}
    (h : kind.binary? = some operator) : kind.isBlank = false := by
  cases kind <;> simp [binary?] at h <;> rfl

/-- What stands between two blanks is a binary operator if it may be one. -/
lemma binaryAmong?_spaced {sign after : TokenKind} {later : List TokenKind}
    (hsign : sign.isBlank = false) (hafter : after.isBlank = true) :
    binaryAmong? (.whitespace :: sign :: after :: later) = sign.binary? := by
  rw [binaryAmong?, List.dropWhile_cons_of_pos rfl,
    List.dropWhile_cons_of_neg (by simp [TokenKind.isInlineBlank_eq_false hsign])]
  simp [hafter, TokenKind.isInlineBlank]

lemma binaryAmong?_plain (tokens : List Token) :
    binaryAmong? (tokens.map (·.kind.plain)) = binaryAhead? tokens := by
  have hdrop : (tokens.map (·.kind.plain)).dropWhile TokenKind.isInlineBlank =
      (tokens.dropWhile Token.isInlineBlank).map (·.kind.plain) := dropWhile_plain .sameLine tokens
  rw [binaryAmong?, binaryAhead?, hdrop, List.head?_map, Option.any_map]
  cases tokens.dropWhile Token.isInlineBlank with
  | nil => rfl
  | cons token later =>
    simp only [List.map_cons, List.head?_map, Option.all_map, TokenKind.isInlineBlank_plain,
      TokenKind.isBlank_plain, TokenKind.binary?_plain]
    rfl

namespace Cursor

/-- A cursor sees the kinds of the current token and of those behind it. -/
structure Sees (kinds : List TokenKind) (c : Cursor) : Prop where
  here?_eq : c.here? = kinds.head?
  remaining_eq : c.remaining.map (·.kind.plain) = kinds.tail

variable {c : Cursor} {kind : TokenKind} {kinds : List TokenKind}

lemma sees_land (behind tokens : List Token) :
    (land behind tokens).Sees (tokens.map (·.kind.plain)) := by
  cases tokens <;> exact ⟨rfl, rfl⟩

namespace Sees

lemma shift (h : c.Sees kinds) : c.shift.Sees kinds.tail := by
  rw [shift_eq_land, ← h.remaining_eq]
  exact sees_land _ _

lemma advance (h : c.Sees kinds) (reach : Reach) :
    (c.advance reach).Sees (kinds.tail.dropWhile reach.passes) := by
  rw [advance_eq_land, ← h.remaining_eq, dropWhile_plain]
  exact sees_land _ _

/-- The next token of interest is the next one, if that is not blank. -/
lemma advance_next {next : TokenKind} (h : c.Sees (kind :: next :: kinds))
    (hnext : next.isBlank = false) (reach : Reach) : (c.advance reach).Sees (next :: kinds) := by
  have hsees := h.advance reach
  rwa [List.tail_cons, List.dropWhile_cons_of_neg (by simp [Reach.passes_eq_false hnext])] at hsees

/-- The next token of interest stands behind a blank. -/
lemma advance_blank {next : TokenKind} (h : c.Sees (kind :: .whitespace :: next :: kinds))
    (hnext : next.isBlank = false) (reach : Reach) : (c.advance reach).Sees (next :: kinds) := by
  have hsees := h.advance reach
  rwa [List.tail_cons, List.dropWhile_cons_of_pos reach.passes_whitespace,
    List.dropWhile_cons_of_neg (by simp [Reach.passes_eq_false hnext])] at hsees

/-- Behind the last token there is none of interest. -/
lemma advance_nil (h : c.Sees [kind]) (reach : Reach) : (c.advance reach).Sees [] :=
  h.advance reach

lemma glued?_eq (h : c.Sees kinds) (n : Nat) :
    c.glued? n = kinds.tail[n]?.filter fun kind => !kind.isBlank := by
  rw [glued?, ← h.remaining_eq, List.getElem?_map]

lemma following?_eq (h : c.Sees kinds) (reach : Reach) :
    c.following? reach = (kinds.tail.dropWhile reach.passes).head? := by
  rw [← here?_advance]
  exact (h.advance reach).here?_eq

lemma binaryAhead?_eq (h : c.Sees kinds) : c.binaryAhead? = binaryAmong? kinds.tail := by
  rw [binaryAhead?, ← h.remaining_eq, binaryAmong?_plain]

/-- A declaration starts at a keyword of one. -/
lemma startsDeclaration (h : c.Sees (kind :: kinds)) (hkind : kind.isDeclarationKeyword = true) :
    c.startsDeclaration = true := by
  have hhere := h.here?_eq
  rcases hcurrent : c.current? with _ | t
  · simp [here?, kind?, hcurrent] at hhere
  · have hplain : t.kind.plain = kind := by simpa [here?, kind?, hcurrent] using hhere
    have ht : t.kind.isDeclarationKeyword = true := by
      rwa [← TokenKind.isDeclarationKeyword_plain, hplain]
    rw [Cursor.startsDeclaration, hcurrent]
    cases hk : t.kind <;> simp [hk, TokenKind.isDeclarationKeyword, TokenKind.role?] at ht
    simp [HeaderPlace.leadsOn, hk, ht, TokenKind.isDeclarationKeyword, TokenKind.role?]

/-- A cursor that sees nothing is at the end. -/
lemma current?_eq_none (h : c.Sees []) : c.current? = none := by
  have hhere := h.here?_eq
  rcases hcurrent : c.current? with _ | t
  · rfl
  · simp [here?, kind?, hcurrent] at hhere

end Sees

end Cursor

end FrontEnd
