/-
What counts of a list of tokens.

A spacing says which blanks count together with the blank behind them, and what is kept of
each token.  The gist of a list is what is left of it: of blanks that count together the last
one only.  The grammar cannot tell a list from its gist, so each search through a list of
tokens finds the same in both.
-/
import Mathlib.Tactic.Common
import FrontEnd.Proofs.Cursor.Sees

namespace FrontEnd

/-- Which blanks count as one with the next one, and what is kept of a token.  Only blanks that
the grammar cannot tell apart count as one, and what it sees of a token is kept. -/
structure Spacing where
  merges : Token → Token → Bool
  bare : Token → Token
  isBlank_of_merges : ∀ t u, merges t u = true → t.isBlank = true
  plain_of_merges : ∀ t u, merges t u = true → t.kind.plain = u.kind.plain
  plain_bare : ∀ t, (bare t).kind.plain = t.kind.plain

namespace Spacing

variable (σ : Spacing)

/-- What counts of a list of tokens. -/
def gist : List Token → List Token
  | [] => []
  | t :: later => if later.head?.any (σ.merges t) then gist later else σ.bare t :: gist later

variable {σ} {t u : Token} {l l' m : List Token}

@[simp] lemma gist_nil : σ.gist [] = [] := rfl

lemma gist_cons_of_merges (h : σ.merges t u = true) : σ.gist (t :: u :: l) = σ.gist (u :: l) := by
  simp [gist, h]

lemma gist_cons (h : ∀ u ∈ l.head?, σ.merges t u = false) :
    σ.gist (t :: l) = σ.bare t :: σ.gist l := by
  rcases l with _ | ⟨u, l⟩
  · rfl
  · simp [gist, h u rfl]

lemma merges_eq_false (h : t.isBlank = false) (u : Token) : σ.merges t u = false := by
  by_contra hmerges
  simp [σ.isBlank_of_merges t u (by simpa using hmerges)] at h

lemma gist_cons_of_not_isBlank (h : t.isBlank = false) :
    σ.gist (t :: l) = σ.bare t :: σ.gist l :=
  gist_cons fun u _ => merges_eq_false h u

/-- A token counts together with the next one, or is kept. -/
lemma gist_induction {P : List Token → Prop} (nil : P [])
    (merged : ∀ t u l, σ.merges t u = true → t.isBlank = true → t.kind.plain = u.kind.plain →
      P (u :: l) → P (t :: u :: l))
    (kept : ∀ t l, (∀ u ∈ l.head?, σ.merges t u = false) → P l → P (t :: l)) (l : List Token) :
    P l := by
  induction l with
  | nil => exact nil
  | cons t l ih =>
    rcases l with _ | ⟨u, l⟩
    · exact kept t [] (by simp) ih
    · by_cases h : σ.merges t u = true
      · exact merged t u l h (σ.isBlank_of_merges t u h) (σ.plain_of_merges t u h) ih
      · exact kept t (u :: l) (by simpa using h) ih

lemma gist_eq_nil : σ.gist l = [] ↔ l = [] := by
  induction l using gist_induction (σ := σ) with
  | nil => simp
  | merged t u l h _ _ ih => simpa [gist_cons_of_merges h] using ih
  | kept t l h ih => simp [gist_cons h]

/-- The grammar sees the same token first. -/
lemma head?_gist (σ : Spacing) (l : List Token) :
    (σ.gist l).head?.map (·.kind.plain) = l.head?.map (·.kind.plain) := by
  induction l using gist_induction (σ := σ) with
  | nil => rfl
  | merged t u l h _ hplain ih => simpa [gist_cons_of_merges h, hplain] using ih
  | kept t l h ih => simp [gist_cons h, σ.plain_bare]

lemma gist_append (h : ∀ t ∈ l.getLast?, ∀ u ∈ m.head?, σ.merges t u = false) :
    σ.gist (l ++ m) = σ.gist l ++ σ.gist m := by
  induction l using gist_induction (σ := σ) with
  | nil => rfl
  | merged t u l hmerges _ _ ih =>
    rw [List.cons_append, List.cons_append, gist_cons_of_merges hmerges,
      gist_cons_of_merges hmerges]
    exact ih (by simpa using h)
  | kept t l hkept ih =>
    have hkept' : ∀ u ∈ (l ++ m).head?, σ.merges t u = false := by
      rcases l with _ | ⟨v, l⟩
      · exact h t rfl
      · exact hkept
    rw [List.cons_append, gist_cons hkept', gist_cons hkept, List.cons_append, ih]
    rcases l with _ | ⟨v, l⟩
    · simp
    · simpa using h

lemma getLast?_gist (σ : Spacing) (l : List Token) :
    (σ.gist l).getLast? = l.getLast?.map σ.bare := by
  induction l using gist_induction (σ := σ) with
  | nil => rfl
  | merged t u l h _ _ ih => rw [gist_cons_of_merges h, ih, List.getLast?_cons_cons]
  | kept t l h ih =>
    rw [gist_cons h, List.getLast?_cons, ih, List.getLast?_cons]
    cases l.getLast? <;> rfl

/-- A search that passes blanks does not see the difference. -/
lemma gist_dropWhile {p : Token → Bool} (hp : ∀ t u, t.kind.plain = u.kind.plain → p t = p u)
    (l : List Token) : σ.gist (l.dropWhile p) = (σ.gist l).dropWhile p := by
  induction l using gist_induction (σ := σ) with
  | nil => rfl
  | merged t u l h _ hplain ih =>
    rw [gist_cons_of_merges h, ← ih]
    by_cases ht : p t = true
    · rw [List.dropWhile_cons_of_pos ht]
    · have hu : ¬ p u = true := hp t u hplain ▸ ht
      rw [List.dropWhile_cons_of_neg ht, List.dropWhile_cons_of_neg hu, gist_cons_of_merges h]
  | kept t l h ih =>
    rw [gist_cons h]
    have hbare := hp _ _ (σ.plain_bare t)
    by_cases ht : p t = true
    · rw [List.dropWhile_cons_of_pos ht, List.dropWhile_cons_of_pos (hbare ▸ ht), ih]
    · rw [List.dropWhile_cons_of_neg ht, List.dropWhile_cons_of_neg (hbare ▸ ht), gist_cons h]

end Spacing

/-- Whether a search passes a token. -/
lemma Reach.passes_congr (reach : Reach) {t u : Token} (h : t.kind.plain = u.kind.plain) :
    reach.passes t.kind = reach.passes u.kind := by
  cases reach
  · have hblank := congrArg TokenKind.isInlineBlank h
    simpa [Reach.passes] using hblank
  · have hblank := congrArg TokenKind.isBlank h
    simpa [Reach.passes] using hblank

/-! ### Lookahead -/

/-- Whether a token leads on to a declaration hangs on what the grammar sees of it. -/
lemma HeaderPlace.leadsOn_cons_congr {t u : Token} (h : t.kind.plain = u.kind.plain)
    {l m : List Token} (hlater : ∀ place : HeaderPlace, place.leadsOn l = place.leadsOn m)
    (place : HeaderPlace) : place.leadsOn (t :: l) = place.leadsOn (u :: m) := by
  have hplain (t : Token) (l : List Token) :
      place.leadsOn (t :: l) = place.leadsOn (⟨t.kind.plain, default, default⟩ :: l) := by
    obtain ⟨kind, span, range⟩ := t
    cases place <;> cases kind <;> simp [leadsOn, TokenKind.plain, TokenKind.isBlank,
      TokenKind.isLineBreak, TokenKind.isInlineBlank, TokenKind.isDeclarationKeyword,
      TokenKind.role?]
  rw [hplain t, hplain u, h]
  generalize u.kind.plain = kind
  cases place <;> cases kind <;> simp [leadsOn, hlater]

/-- A blank in front of another one that looks the same makes no difference. -/
lemma HeaderPlace.leadsOn_cons_blank {t u : Token} (hblank : t.isBlank = true)
    (h : t.kind.plain = u.kind.plain) (place : HeaderPlace) (l : List Token) :
    place.leadsOn (t :: u :: l) = place.leadsOn (u :: l) := by
  obtain ⟨kind, span, range⟩ := t
  obtain ⟨kind', span', range'⟩ := u
  cases kind <;> simp [Token.isBlank, TokenKind.isBlank, TokenKind.isLineBreak,
    TokenKind.isInlineBlank] at hblank <;> cases kind' <;>
    simp [TokenKind.plain] at h <;> cases place <;>
    simp [leadsOn, TokenKind.isBlank, TokenKind.isLineBreak, TokenKind.isInlineBlank,
      TokenKind.isDeclarationKeyword, TokenKind.role?]

namespace Spacing

variable {σ : Spacing}

lemma leadsOn_gist (place : HeaderPlace) (l : List Token) :
    place.leadsOn (σ.gist l) = place.leadsOn l := by
  induction l using gist_induction (σ := σ) generalizing place with
  | nil => rfl
  | merged t u l h hblank hplain ih =>
    rw [gist_cons_of_merges h, ih, HeaderPlace.leadsOn_cons_blank hblank hplain]
  | kept t l h ih =>
    rw [gist_cons h]
    exact HeaderPlace.leadsOn_cons_congr (σ.plain_bare t) ih place

/-- How an operator is written hangs on what the grammar sees of it. -/
lemma binary?_plain (kind : TokenKind) : kind.plain.binary? = kind.binary? := by
  cases kind <;> rfl

/-- Whether the first token of a list has a property that the grammar sees. -/
lemma any_head?_gist {p : Token → Bool} (hp : ∀ t u, t.kind.plain = u.kind.plain → p t = p u)
    (l : List Token) :
    (σ.gist l).head?.any p = l.head?.any p ∧ (σ.gist l).head?.all p = l.head?.all p := by
  have hhead := σ.head?_gist l
  rcases h : l.head? with _ | t <;> rcases h' : (σ.gist l).head? with _ | u <;>
    simp only [h, h', Option.map_none, Option.map_some, reduceCtorEq, Option.some.injEq] at hhead
  · exact ⟨rfl, rfl⟩
  · exact ⟨hp u t hhead, hp u t hhead⟩

lemma binaryAhead?_gist (l : List Token) : binaryAhead? (σ.gist l) = binaryAhead? l := by
  have hinline (t u : Token) (h : t.kind.plain = u.kind.plain) :
      t.isInlineBlank = u.isInlineBlank := by
    have hplain := congrArg TokenKind.isInlineBlank h
    simpa [Token.isInlineBlank] using hplain
  have hblank (t u : Token) (h : t.kind.plain = u.kind.plain) : t.isBlank = u.isBlank := by
    have hplain := congrArg TokenKind.isBlank h
    simpa [Token.isBlank] using hplain
  rw [binaryAhead?, binaryAhead?, (any_head?_gist hinline l).1, ← gist_dropWhile hinline]
  rcases l.dropWhile Token.isInlineBlank with _ | ⟨t, later⟩
  · rfl
  by_cases ht : t.isBlank = true
  · -- a line break is no operator, whatever stands behind it
    have hnone {t : Token} (ht : t.isBlank = true) : t.kind.binary? = none := by
      obtain ⟨kind, span, range⟩ := t
      cases kind <;> simp [Token.isBlank, TokenKind.isBlank, TokenKind.isLineBreak,
        TokenKind.isInlineBlank, TokenKind.binary?] at ht ⊢
    have hhead := (any_head?_gist (σ := σ) hblank (t :: later)).1
    rcases hgist : σ.gist (t :: later) with _ | ⟨u, later'⟩
    · simp [hnone ht]
    · rw [hgist, List.head?_cons, Option.any_some, List.head?_cons, Option.any_some, ht] at hhead
      simp [hnone ht, hnone hhead]
  · rw [gist_cons_of_not_isBlank (by simpa using ht)]
    simp only [(any_head?_gist hblank later).2]
    rw [← binary?_plain, σ.plain_bare, binary?_plain]

end Spacing

/-! ### What is glued together -/

/-- What the grammar sees of the token at a place of a list, unless it is blank. -/
def gluedAt (l : List Token) (n : Nat) : Option TokenKind :=
  (l[n]?.map (·.kind.plain)).filter fun kind => !kind.isBlank

lemma Spacing.gluedAt_gist (σ : Spacing) {n : Nat} {l : List Token}
    (h : ∀ m < n, (gluedAt l m).isSome) : gluedAt (σ.gist l) n = gluedAt l n := by
  induction n generalizing l with
  | zero =>
    have hhead := σ.head?_gist l
    rw [gluedAt, gluedAt, ← List.head?_eq_getElem?, ← List.head?_eq_getElem?, hhead]
  | succ n ih =>
    rcases l with _ | ⟨t, l⟩
    · rfl
    have ht : t.isBlank = false := by
      by_contra ht
      have hsome := h 0 (Nat.succ_pos n)
      simp [gluedAt, Token.isBlank] at hsome ht
      simp [ht] at hsome
    rw [gist_cons_of_not_isBlank ht]
    exact ih fun m hm => h (m + 1) (Nat.succ_lt_succ hm)

/-! ### Recovery -/

namespace Cursor

open seekBoundary

/-- The tokens from the next boundary on, when `depth` braces are open. -/
def fromBoundary (depth : Nat) : List Token → List Token
  | [] => []
  | t :: later =>
    if (boundary? depth t.kind).isSome then t :: later
    else fromBoundary (depthAfter depth t.kind) later

lemma boundary?_plain (depth : Nat) (kind : TokenKind) :
    (boundary? depth kind.plain).isSome = (boundary? depth kind).isSome := by
  cases depth <;> cases kind <;> rfl

lemma depthAfter_plain (depth : Nat) (kind : TokenKind) :
    depthAfter depth kind.plain = depthAfter depth kind := by
  cases kind <;> rfl

end Cursor

open Cursor Cursor.seekBoundary in
lemma Spacing.gist_fromBoundary (σ : Spacing) (depth : Nat) (l : List Token) :
    σ.gist (fromBoundary depth l) = fromBoundary depth (σ.gist l) := by
  induction l using gist_induction (σ := σ) generalizing depth with
  | nil => rfl
  | merged t u l h hblank hplain ih =>
    rw [gist_cons_of_merges h, ← ih]
    have hboundary : (boundary? depth t.kind).isSome = (boundary? depth u.kind).isSome := by
      rw [← boundary?_plain, hplain, boundary?_plain]
    have hdepth : depthAfter depth t.kind = depth := by
      revert hblank
      rw [Token.isBlank]
      cases t.kind <;> simp [TokenKind.isBlank, TokenKind.isLineBreak, TokenKind.isInlineBlank,
        depthAfter]
    by_cases ht : (boundary? depth t.kind).isSome = true
    · rw [fromBoundary, if_pos ht, fromBoundary, if_pos (hboundary ▸ ht), gist_cons_of_merges h]
    · rw [fromBoundary, if_neg ht, hdepth]
  | kept t l h ih =>
    have hboundary : (boundary? depth (σ.bare t).kind).isSome = (boundary? depth t.kind).isSome := by
      rw [← boundary?_plain, σ.plain_bare, boundary?_plain]
    have hdepth : depthAfter depth (σ.bare t).kind = depthAfter depth t.kind := by
      rw [← depthAfter_plain, σ.plain_bare, depthAfter_plain]
    rw [gist_cons h, fromBoundary, fromBoundary, hboundary, hdepth, ← ih]
    split
    · rw [gist_cons h]
    · rfl

end FrontEnd
