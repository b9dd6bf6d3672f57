/-
The next boundary of a block.

The search for it counts the braces that are opened on the way.  Up to the boundary the count is
the number of opening braces less that of closing ones (`Cursor.Comes`): it never has to go below
zero, since the closing brace that would take it there is the boundary.  So the search stops at the
first token between braces that balance which is a line break, a semicolon, or a closing brace.  The
main result is `Cursor.resynchronize_onto`.
-/
import Mathlib.Order.Bounds.Basic
import FrontEnd.Proofs.Cursor.Behind

namespace FrontEnd

/-- A kind that ends statements of the block that it stands in. -/
def TokenKind.EndsStatement (kind : TokenKind) : Prop :=
  kind ∈ [.lineFeed, .carriageReturn, .punctuator .semicolon, .punctuator .rightBrace]

instance : DecidablePred TokenKind.EndsStatement :=
  fun _ => inferInstanceAs (Decidable (_ ∈ _))

/-- The number of opening braces less the number of closing ones. -/
def braceBalance (tokens : List Token) : Int :=
  tokens.countP (·.kind = .punctuator .leftBrace) - tokens.countP (·.kind = .punctuator .rightBrace)

namespace Cursor

/-- The cursor on the token with a given index; behind the last one, if there is none. -/
def onto (tokens : List Token) (i : Nat) : Cursor :=
  (start tokens).shiftBy (i + 1)

/-- The tokens from one index up to another. -/
def between (tokens : List Token) (c i : Nat) : List Token :=
  (tokens.take i).drop c

/-- A token that ends statements, behind braces that balance. -/
def Boundary (tokens : List Token) (c q : Nat) : Prop :=
  c ≤ q ∧ braceBalance (between tokens c q) = 0 ∧ ∃ t, tokens[q]? = some t ∧ t.kind.EndsStatement

/-- How many braces the search counts as open behind some tokens. -/
def depthBehind (passed : List Token) : Nat :=
  passed.foldl (fun depth t => seekBoundary.depthAfter depth t.kind) 0

/-- The search for a boundary from where it has come to. -/
def seekOn (depth : Nat) : Cursor → Cursor
  | on behind token ahead => seekBoundary depth behind token ahead
  | c => c

/-- From one index the search for a boundary comes to another, and has counted the braces. -/
structure Comes (tokens : List Token) (c i : Nat) : Prop where
  resynchronize_eq : (onto tokens c).resynchronize =
    (onto tokens i).seekOn (depthBehind (between tokens c i))
  depth_eq : (depthBehind (between tokens c i) : Int) = braceBalance (between tokens c i)

variable {tokens : List Token} {c i q : Nat} {t : Token}

/-! ### Places in a list -/

lemma shiftBy_succ (n : Nat) (c : Cursor) : c.shiftBy (n + 1) = (c.shiftBy n).shift := by
  induction n generalizing c with
  | zero => rfl
  | succ n ih => rw [shiftBy, ih, shiftBy]

lemma onto_succ (tokens : List Token) (i : Nat) : onto tokens (i + 1) = (onto tokens i).shift :=
  shiftBy_succ _ _

lemma onto_eq_land (tokens : List Token) (i : Nat) :
    onto tokens i = land (tokens.take i).reverse (tokens.drop i) := by
  induction i with
  | zero => cases tokens <;> rfl
  | succ i ih =>
    rw [onto_succ, ih]
    rcases hdrop : tokens.drop i with _ | ⟨t, later⟩
    · have hle := List.drop_eq_nil_iff.mp hdrop
      rw [List.take_of_length_le hle, List.take_of_length_le (Nat.le_succ_of_le hle),
        List.drop_eq_nil_iff.mpr (Nat.le_succ_of_le hle)]
      rfl
    · have hget : tokens[i]? = some t := by
        rw [← List.head?_drop, hdrop]
        rfl
      have hlater : tokens.drop (i + 1) = later := by
        rw [← List.tail_drop, hdrop]
        rfl
      rw [List.take_add_one, hget, hlater, List.reverse_append]
      cases later <;> rfl

/-- On a token stands the cursor with the tokens before it behind and those after it ahead. -/
lemma onto_eq_on (h : tokens[i]? = some t) :
    onto tokens i = on (tokens.take i).reverse t (tokens.drop (i + 1)) := by
  obtain ⟨hlt, hget⟩ := List.getElem?_eq_some_iff.mp h
  rw [onto_eq_land, List.drop_eq_getElem_cons hlt, hget]
  rfl

/-- One token before a token. -/
lemma unshift_onto (h : tokens[i]? = some t) : (onto tokens i).unshift = (start tokens).shiftBy i := by
  have hshift : onto tokens i = ((start tokens).shiftBy i).shift := shiftBy_succ _ _
  have hcurrent : ((start tokens).shiftBy i).shift.current?.isSome := by
    rw [← hshift, onto_eq_on h]
    rfl
  rw [hshift, unshift_shift hcurrent]

/-! ### Counting braces -/

lemma between_self (tokens : List Token) (c : Nat) : between tokens c c = [] :=
  List.drop_eq_nil_iff.mpr (List.length_take_le c tokens)

lemma between_succ (hc : c ≤ i) (h : tokens[i]? = some t) :
    between tokens c (i + 1) = between tokens c i ++ [t] := by
  obtain ⟨hlt, -⟩ := List.getElem?_eq_some_iff.mp h
  rw [between, between, List.take_add_one, h, Option.toList_some, List.drop_append_of_le_length]
  rw [List.length_take]
  omega

lemma depthBehind_append (passed : List Token) (t : Token) :
    depthBehind (passed ++ [t]) = seekBoundary.depthAfter (depthBehind passed) t.kind := by
  rw [depthBehind, List.foldl_append]
  rfl

/-- How the balance changes with a token. -/
lemma braceBalance_append (passed : List Token) (t : Token) :
    braceBalance (passed ++ [t]) = braceBalance passed +
      if t.kind = .punctuator .leftBrace then 1 else if t.kind = .punctuator .rightBrace then -1 else 0 := by
  have hbraces : TokenKind.punctuator .leftBrace ≠ .punctuator .rightBrace := by decide
  unfold braceBalance
  rw [List.countP_append, List.countP_append, List.countP_singleton, List.countP_singleton]
  by_cases hleft : t.kind = .punctuator .leftBrace
  · simp [hleft, hbraces]
    omega
  · by_cases hright : t.kind = .punctuator .rightBrace
    · simp [hright, hbraces.symm]
      omega
    · simp [hleft, hright]

/-- The count goes with the balance, unless a brace is closed that was not opened. -/
lemma depthAfter_eq {depth : Nat} {kind : TokenKind}
    (h : kind = .punctuator .rightBrace → 0 < depth) :
    (seekBoundary.depthAfter depth kind : Int) = depth +
      if kind = .punctuator .leftBrace then 1 else if kind = .punctuator .rightBrace then -1 else 0 := by
  unfold seekBoundary.depthAfter
  split
  · rfl
  · have hpos := h rfl
    rw [if_neg (by decide), if_pos rfl]
    omega
  · next hleft hright => rw [if_neg (hleft ·), if_neg (hright ·), Int.add_zero]

/-! ### One step of the search -/

lemma boundary?_eq_none_iff {depth : Nat} {kind : TokenKind} :
    seekBoundary.boundary? depth kind = none ↔ ¬ (depth = 0 ∧ kind.EndsStatement) := by
  unfold seekBoundary.boundary? TokenKind.EndsStatement
  split_ifs with hdepth
  · subst hdepth
    split <;> simp_all
  · simp [hdepth]

/-- At a boundary the search ends, in front of a closing brace. -/
lemma seekOn_boundary (h : tokens[q]? = some t) (ht : t.kind.EndsStatement) :
    (onto tokens q).seekOn 0 =
      if t.kind = .punctuator .rightBrace then (start tokens).shiftBy q else onto tokens q := by
  rw [← unshift_onto h, onto_eq_on h, seekOn]
  simp only [TokenKind.EndsStatement, List.mem_cons, List.not_mem_nil, or_false] at ht
  rcases ht with hkind | hkind | hkind | hkind <;>
    cases tokens.drop (q + 1) <;>
      simp [seekBoundary, seekBoundary.boundary?, seekBoundary.stop, hkind]

/-- Elsewhere the search passes the token and counts it. -/
lemma seekOn_succ {depth : Nat} (h : tokens[i]? = some t)
    (hnone : seekBoundary.boundary? depth t.kind = none) :
    (onto tokens i).seekOn depth =
      (onto tokens (i + 1)).seekOn (seekBoundary.depthAfter depth t.kind) := by
  rw [onto_succ, onto_eq_on h, seekOn]
  cases tokens.drop (i + 1) <;> rw [seekBoundary, hnone] <;> rfl

/-! ### The whole search -/

/-- A step of the search that meets no boundary keeps the count right. -/
lemma Comes.succ (h : Comes tokens c i) (hc : c ≤ i) (ht : tokens[i]? = some t)
    (hpass : ¬ Boundary tokens c i) : Comes tokens c (i + 1) := by
  have hnot : ¬ (depthBehind (between tokens c i) = 0 ∧ t.kind.EndsStatement) := by
    rintro ⟨hdepth, hends⟩
    refine hpass ⟨hc, ?_, t, ht, hends⟩
    rw [← h.depth_eq, hdepth]
    rfl
  constructor
  · rw [between_succ hc ht, depthBehind_append, h.resynchronize_eq]
    exact seekOn_succ ht (boundary?_eq_none_iff.mpr hnot)
  · rw [between_succ hc ht, depthBehind_append, braceBalance_append, ← h.depth_eq]
    refine depthAfter_eq fun hbrace => Nat.pos_of_ne_zero fun hdepth => hnot ⟨hdepth, ?_⟩
    rw [hbrace]
    decide

lemma comes_self (tokens : List Token) (c : Nat) : Comes tokens c c := by
  constructor
  · rw [between_self]
    cases onto tokens c <;> rfl
  · rw [between_self]
    rfl

/-- The search comes up to the first boundary. -/
lemma comes_of_le (hc : c ≤ i) (hi : i ≤ tokens.length)
    (hfirst : i ∈ lowerBounds {q | Boundary tokens c q}) : Comes tokens c i := by
  induction i, hc using Nat.le_induction with
  | base => exact comes_self tokens c
  | succ i hc ih =>
    obtain ⟨t, ht⟩ : ∃ t, tokens[i]? = some t := ⟨_, List.getElem?_eq_getElem hi⟩
    have hcomes := ih (Nat.le_of_succ_le hi) fun q hq => Nat.le_of_succ_le (hfirst hq)
    exact hcomes.succ hc ht fun hboundary => Nat.not_succ_le_self i (hfirst hboundary)

/-- Where no token is left, the search ends at once. -/
lemma resynchronize_onto_of_le (h : tokens.length ≤ c) :
    (onto tokens c).resynchronize = onto tokens tokens.length := by
  rw [onto_eq_land, onto_eq_land, List.take_of_length_le h, List.take_length,
    List.drop_eq_nil_iff.mpr h, List.drop_length]
  rfl

/-- A closing brace that the search passes was opened on the way. -/
lemma Comes.braceBalance_pos (h : Comes tokens c i) (hc : c ≤ i) (ht : tokens[i]? = some t)
    (hbrace : t.kind = .punctuator .rightBrace) (hpass : ¬ Boundary tokens c i) :
    0 < braceBalance (between tokens c i) := by
  have hends : t.kind.EndsStatement := by
    rw [hbrace]
    decide
  have hne : braceBalance (between tokens c i) ≠ 0 := fun hzero => hpass ⟨hc, hzero, t, ht, hends⟩
  have hdepth := h.depth_eq
  omega

/-- The search for the next boundary stops at the first token, behind braces that balance, that is
a line break, a semicolon or a closing brace: on the token, or one token before a closing brace.
Without such a token it goes on behind the last one.

Up to there the count of open braces is their balance, so it never is below zero, and a closing
brace that is passed was opened on the way. -/
theorem resynchronize_onto (tokens : List Token) (c : Nat) :
    let found := (onto tokens c).resynchronize
    (∀ q t, IsLeast {q | Boundary tokens c q} q → tokens[q]? = some t →
      found = if t.kind = .punctuator .rightBrace then (start tokens).shiftBy q else onto tokens q) ∧
    ((∀ q, ¬ Boundary tokens c q) → found = onto tokens tokens.length) ∧
    (∀ i, c ≤ i → i ≤ tokens.length → i ∈ lowerBounds {q | Boundary tokens c q} →
      Comes tokens c i) ∧
    ∀ i t, c ≤ i → (∀ q, Boundary tokens c q → i < q) → tokens[i]? = some t →
      t.kind = .punctuator .rightBrace → 0 < braceBalance (between tokens c i) := by
  intro found
  refine ⟨fun q t hleast ht => ?_, fun hnone => ?_, fun i hc hi hfirst => comes_of_le hc hi hfirst,
    fun i t hc hpassed ht hbrace => ?_⟩
  · obtain ⟨⟨hc, hbalance, u, hu, hends⟩, hfirst⟩ := hleast
    obtain rfl : u = t := Option.some.inj (hu.symm.trans ht)
    obtain ⟨hlt, -⟩ := List.getElem?_eq_some_iff.mp hu
    have hcomes := comes_of_le hc hlt.le hfirst
    have hdepth : depthBehind (between tokens c q) = 0 := by
      have hcount := hcomes.depth_eq
      omega
    rw [← seekOn_boundary hu hends, ← hdepth]
    exact hcomes.resynchronize_eq
  · rcases Nat.le_total c tokens.length with hc | hc
    · have hcomes := comes_of_le hc (Nat.le_refl _) fun q hq => absurd hq (hnone q)
      have hend : onto tokens tokens.length = finish tokens.reverse := by
        rw [onto_eq_land, List.take_length, List.drop_length]
        rfl
      have hfound := hcomes.resynchronize_eq
      rw [hend] at hfound ⊢
      exact hfound
    · exact resynchronize_onto_of_le hc
  · obtain ⟨hlt, -⟩ := List.getElem?_eq_some_iff.mp ht
    have hcomes := comes_of_le hc hlt.le fun q hq => (hpassed q hq).le
    exact hcomes.braceBalance_pos hc ht hbrace fun hboundary => Nat.lt_irrefl i (hpassed i hboundary)

end Cursor

end FrontEnd
