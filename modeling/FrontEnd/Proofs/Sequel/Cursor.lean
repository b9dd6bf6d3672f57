/-
Cursors in a list that goes on.

A list of tokens may be continued by a separator and a further text.  A cursor in the list then
has its like in the longer list, and as long as it has not come to the end of its own list it
cannot tell the two apart: it sees the same tokens, and moves alike
(`Cursor.followedBy`).  What it finds where its own list ends is the separator, or the keyword
behind it.
-/
import FrontEnd.Grammar.Error
import FrontEnd.Proofs.Cursor.Sees

namespace FrontEnd

/-- A prefix of a longer list is passed alike, if it is not passed as a whole. -/
lemma dropWhile_append_of_ne_nil {α : Type} {p : α → Bool} {l : List α}
    (h : l.dropWhile p ≠ []) (m : List α) :
    (l ++ m).dropWhile p = l.dropWhile p ++ m ∧ (l ++ m).takeWhile p = l.takeWhile p := by
  induction l with
  | nil => exact absurd rfl h
  | cons a l ih =>
    by_cases ha : p a = true
    · rw [List.dropWhile_cons_of_pos ha] at h
      simp [ha, ih h]
    · simp [ha]

/-- What a list of tokens may be continued by: a line break or a semicolon, and then nothing or
a text that starts with the keyword of a declaration. -/
structure Sequel where
  separator : Token
  later : List Token
  separates : separator.kind.isLineBreak = true ∨ separator.kind = .punctuator .semicolon
  starts : ∀ t ∈ later.head?, t.kind.isDeclarationKeyword = true

namespace Sequel

/-- The tokens of a sequel. -/
def tokens (q : Sequel) : List Token :=
  q.separator :: q.later

variable (q : Sequel)

/-- The grammar sees a line break or a semicolon. -/
lemma plain_separator :
    q.separator.kind.plain = .lineFeed ∨ q.separator.kind.plain = .punctuator .semicolon := by
  rcases q.separates with h | h
  · cases hkind : q.separator.kind <;> simp [hkind, TokenKind.isLineBreak] at h
    · exact .inl rfl
    · exact .inl rfl
  · exact .inr (by rw [h]; rfl)

lemma isInlineBlank_separator : q.separator.kind.isInlineBlank = false := by
  rw [← TokenKind.isInlineBlank_plain]
  rcases q.plain_separator with h | h <;> rw [h] <;> rfl

lemma binary?_separator : q.separator.kind.binary? = none := by
  rw [← TokenKind.binary?_plain]
  rcases q.plain_separator with h | h <;> rw [h] <;> rfl

/-- What a search finds in a sequel. -/
inductive Shows (reach : Reach) : TokenKind → Prop where
  | lineFeed : Shows reach .lineFeed
  | semicolon : Shows reach (.punctuator .semicolon)
  | keyword (word : String) (h : reach = .anyLine) : Shows reach (.keyword word .declaration)

lemma shows_of_find? {reach : Reach} {t : Token}
    (h : q.tokens.find? (fun t => !reach.passes t.kind) = some t) : Shows reach t.kind.plain := by
  have hseparator : Shows reach q.separator.kind.plain := by
    rcases q.plain_separator with h | h <;> rw [h]
    · exact .lineFeed
    · exact .semicolon
  by_cases hpasses : reach.passes q.separator.kind = true
  · have hreach : reach = .anyLine := by
      cases reach
      · simp [Reach.passes, q.isInlineBlank_separator] at hpasses
      · rfl
    rcases hlater : q.later with _ | ⟨u, rest⟩
    · simp [tokens, hlater, hpasses] at h
    · have hu := q.starts u (by simp [hlater])
      cases hkind : u.kind <;>
        simp [hkind, TokenKind.isDeclarationKeyword, TokenKind.role?] at hu
      next word role =>
        have hkept : reach.passes u.kind = false := by rw [hkind, hreach]; rfl
        have hfound : u = t := by simpa [tokens, hlater, hpasses, hkept] using h
        rw [← hfound, hkind, hu]
        exact .keyword word hreach
  · have hfound : q.separator = t := by simpa [tokens, hpasses] using h
    rw [← hfound]
    exact hseparator

end Sequel

namespace Cursor

variable {c : Cursor} (q : Sequel)

/-- The same place in the list that goes on; behind the last token of the list that is the
separator. -/
def followedBy : Cursor → Cursor
  | start ahead => start (ahead ++ q.tokens)
  | on behind token ahead => on behind token (ahead ++ q.tokens)
  | finish behind => on behind q.separator q.later

lemma followedBy_land (behind tokens : List Token) :
    (land behind tokens).followedBy q = land behind (tokens ++ q.tokens) := by
  cases tokens <;> rfl

/-! ### Places -/

lemma exists_on_of_here? (h : c.here? ≠ none) : ∃ b t a, c = on b t a := by
  rcases c with a | ⟨b, t, a⟩ | b
  · exact absurd rfl h
  · exact ⟨b, t, a, rfl⟩
  · exact absurd rfl h

lemma here?_followedBy (h : c.here? ≠ none) : (c.followedBy q).here? = c.here? := by
  obtain ⟨b, t, a, rfl⟩ := exists_on_of_here? h
  rfl

lemma range_followedBy (h : c.here? ≠ none) : (c.followedBy q).range = c.range := by
  obtain ⟨b, t, a, rfl⟩ := exists_on_of_here? h
  rfl

lemma error_followedBy (h : c.here? ≠ none) (kind : ErrorKind) :
    (c.followedBy q).error kind = c.error kind := by
  obtain ⟨b, t, a, rfl⟩ := exists_on_of_here? h
  rfl

lemma remaining_followedBy (h : c.here? ≠ none) :
    (c.followedBy q).remaining = c.remaining ++ q.tokens := by
  obtain ⟨b, t, a, rfl⟩ := exists_on_of_here? h
  rfl

/-! ### Moves -/

lemma shift_followedBy (h : c.here? ≠ none) : (c.followedBy q).shift = c.shift.followedBy q := by
  obtain ⟨b, t, (_ | ⟨n, a⟩), rfl⟩ := exists_on_of_here? h <;> rfl

lemma unshift_followedBy (h : c.here? ≠ none) :
    (c.followedBy q).unshift = c.unshift.followedBy q := by
  obtain ⟨(_ | ⟨p, b⟩), t, a, rfl⟩ := exists_on_of_here? h <;> rfl

lemma dropWhile_remaining_ne_nil {reach : Reach} (h : c.following? reach ≠ none) :
    c.remaining.dropWhile (fun t => reach.passes t.kind) ≠ [] := by
  intro hdrop
  refine h ?_
  rw [following?, next?, find?_not_eq_head?_dropWhile, hdrop]
  rfl

lemma passes_of_following?_eq_none {reach : Reach} (h : c.following? reach = none) :
    ∀ t ∈ c.remaining, reach.passes t.kind = true := by
  intro t ht
  rw [following?, Option.map_eq_none_iff, next?, List.find?_eq_none] at h
  simpa using h t ht

/-- The way to a token of interest in the list. -/
lemma advance_followedBy {reach : Reach} (h : c.here? ≠ none) (hnext : c.following? reach ≠ none) :
    (c.followedBy q).advance reach = (c.advance reach).followedBy q := by
  have happend := dropWhile_append_of_ne_nil (dropWhile_remaining_ne_nil hnext) q.tokens
  obtain ⟨b, t, a, rfl⟩ := exists_on_of_here? h
  rw [advance_eq_land, advance_eq_land, followedBy_land, remaining_followedBy q h, happend.1,
    happend.2]
  rfl

/-- On the line, the way leads to the separator where the list ends. -/
lemma advance_sameLine_followedBy (h : c.here? ≠ none) :
    (c.followedBy q).advance .sameLine = (c.advance .sameLine).followedBy q := by
  by_cases hnext : c.following? .sameLine = none
  · have hpasses := passes_of_following?_eq_none hnext
    have hstop : Reach.sameLine.passes q.separator.kind = false := q.isInlineBlank_separator
    rw [advance_eq_land, advance_eq_land, followedBy_land, remaining_followedBy q h,
      List.takeWhile_append_of_pos hpasses, List.dropWhile_append_of_pos hpasses,
      List.dropWhile_eq_nil_iff.mpr hpasses, List.takeWhile_eq_self_iff.mpr hpasses, Sequel.tokens,
      List.takeWhile_cons, List.dropWhile_cons, hstop]
    obtain ⟨b, t, a, rfl⟩ := exists_on_of_here? h
    simp [followedBy, current?, behind]
  · exact advance_followedBy q h hnext

/-- Before the token that a search finds stands a token too. -/
lemma here?_unshift_advance {reach : Reach} (h : c.here? ≠ none) (hnext : c.following? reach ≠ none) :
    (c.advance reach).unshift.here? ≠ none := by
  obtain ⟨kind, hkind⟩ := Option.ne_none_iff_exists'.mp hnext
  rw [← here?_advance] at hkind
  obtain ⟨passed, heq, -⟩ := behind_advance reach c
  obtain ⟨b, t, a, rfl⟩ := exists_on_of_here? h
  rw [here?_unshift (current?_isSome_of_here? hkind), heq, behind_shift]
  cases passed <;> simp [current?]

/-! ### Questions -/

lemma following?_followedBy {reach : Reach} (h : c.here? ≠ none) (hnext : c.following? reach ≠ none) :
    (c.followedBy q).following? reach = c.following? reach := by
  obtain ⟨t, ht⟩ := Option.ne_none_iff_exists'.mp (mt Option.map_eq_none_iff.mpr hnext)
  rw [following?, following?, ht, next?, remaining_followedBy q h, List.find?_append]
  rw [next?] at ht
  rw [ht, Option.some_or]

/-- Where nothing of interest is left in the list, a search finds what a sequel shows. -/
lemma shows_of_following?_eq_none {reach : Reach} (h : c.here? ≠ none)
    (hnext : c.following? reach = none) {kind : TokenKind}
    (hkind : (c.followedBy q).following? reach = some kind) : Sequel.Shows reach kind := by
  rw [following?, next?, Option.map_eq_none_iff] at hnext
  rw [following?, next?, remaining_followedBy q h, List.find?_append, hnext, Option.none_or] at hkind
  obtain ⟨t, ht, rfl⟩ := Option.map_eq_some_iff.mp hkind
  exact q.shows_of_find? ht

lemma glued?_followedBy {n : Nat} (h : c.here? ≠ none) (hn : n < c.remaining.length) :
    (c.followedBy q).glued? n = c.glued? n := by
  rw [glued?, remaining_followedBy q h, List.getElem?_append_left hn, glued?]

@[simp] lemma here?_shift_of_glued?_ne_none (h : c.glued? 0 ≠ none) :
    c.shift.here? = c.glued? 0 := by
  obtain ⟨kind, hkind⟩ := Option.ne_none_iff_exists'.mp h
  rw [hkind, here?_shift_of_glued? hkind]

@[simp] lemma here?_shift_shift_of_glued?_ne_none (h : c.glued? 1 ≠ none) :
    c.shift.shift.here? = c.glued? 1 := by
  obtain ⟨kind, hkind⟩ := Option.ne_none_iff_exists'.mp h
  rw [hkind, here?_shift_shift_of_glued? hkind]

/-- What is glued to the end of the list is a semicolon, or nothing. -/
lemma glued?_length_followedBy (h : c.here? ≠ none) :
    (c.followedBy q).glued? c.remaining.length = none ∨
      (c.followedBy q).glued? c.remaining.length = some (.punctuator .semicolon) := by
  rw [glued?, remaining_followedBy q h, List.getElem?_append_right (Nat.le_refl _), Nat.sub_self,
    Sequel.tokens, List.getElem?_cons_zero, Option.map_some]
  rcases q.plain_separator with hplain | hplain <;> rw [hplain]
  · exact .inl rfl
  · exact .inr rfl

lemma startsDeclaration_followedBy (h : c.here? ≠ none)
    (hsign : c.here? ≠ some (.punctuator .atSign)) :
    (c.followedBy q).startsDeclaration = c.startsDeclaration := by
  obtain ⟨b, t, a, rfl⟩ := exists_on_of_here? h
  have hkind : t.kind ≠ .punctuator .atSign := fun hkind => hsign (by
    rw [here?, kind?, current?, Option.map_some, Option.map_some, hkind]
    rfl)
  have hhead (later : List Token) :
      HeaderPlace.head.leadsOn (t :: later) = t.kind.isDeclarationKeyword := by
    cases ht : t.kind with
    | punctuator mark => cases mark <;> simp [HeaderPlace.leadsOn, ht] at hkind ⊢
    | _ => simp [HeaderPlace.leadsOn, ht]
  exact (hhead _).trans (hhead _).symm

/-- An operator or an equals sign is the last token of the list, and on the line. -/
def OperatorLast (c : Cursor) : Prop :=
  ∃ t, c.remaining.dropWhile Token.isInlineBlank = [t] ∧ t.kind.binary?.isSome = true

lemma binaryAhead?_followedBy (h : c.here? ≠ none) (hlast : ¬ c.OperatorLast) :
    (c.followedBy q).binaryAhead? = c.binaryAhead? := by
  rw [binaryAhead?, remaining_followedBy q h, binaryAhead?]
  rw [OperatorLast] at hlast
  generalize c.remaining = rest at hlast ⊢
  have hstop : ¬ Token.isInlineBlank q.separator = true := by
    rw [Token.isInlineBlank, q.isInlineBlank_separator]
    exact Bool.false_ne_true
  rw [FrontEnd.binaryAhead?, FrontEnd.binaryAhead?]
  rcases hdrop : rest.dropWhile Token.isInlineBlank with _ | ⟨t, later⟩
  · -- nothing but the separator comes next
    have hpasses := List.dropWhile_eq_nil_iff.mp hdrop
    rw [List.dropWhile_append_of_pos hpasses, Sequel.tokens, List.dropWhile_cons_of_neg hstop]
    simp [q.binary?_separator]
  · have hne : rest.dropWhile Token.isInlineBlank ≠ [] := by simp [hdrop]
    have hrest : rest ≠ [] := by
      rintro rfl
      exact hne rfl
    obtain ⟨first, more, rfl⟩ := List.exists_cons_of_ne_nil hrest
    rw [(dropWhile_append_of_ne_nil hne _).1, hdrop]
    rcases later with _ | ⟨u, later⟩
    · have hbinary : t.kind.binary? = none := by simpa [hdrop] using hlast
      simp [hbinary]
    · rfl

/-! ### The end of the line -/

lemma shiftBy_followedBy {n : Nat} (h : c.here? ≠ none) (hn : n ≤ c.remaining.length) :
    (c.followedBy q).shiftBy n = (c.shiftBy n).followedBy q ∧ (c.shiftBy n).here? ≠ none := by
  induction n generalizing c with
  | zero => exact ⟨rfl, h⟩
  | succ n ih =>
    obtain ⟨b, t, (_ | ⟨u, a⟩), rfl⟩ := exists_on_of_here? h
    · simp [remaining] at hn
    · exact ih (c := on (t :: b) u a) (Option.some_ne_none _) (by simpa [remaining] using hn)

/-- A line that ends in the list ends there in the longer one. -/
lemma restOfLine_followedBy (h : c.here? ≠ none) (hbreak : c.restOfLine ≠ c.remaining) :
    (c.followedBy q).restOfLine = c.restOfLine := by
  have hdrop : c.remaining.dropWhile (fun t => !t.kind.isLineBreak) ≠ [] := fun hdrop =>
    hbreak (List.takeWhile_eq_self_iff.mpr (List.dropWhile_eq_nil_iff.mp hdrop))
  rw [restOfLine, remaining_followedBy q h, (dropWhile_append_of_ne_nil hdrop _).2, restOfLine]

lemma length_restOfLine_le (c : Cursor) : c.restOfLine.length ≤ c.remaining.length :=
  (List.takeWhile_prefix _).length_le

lemma here?_toEndOfLine (h : c.here? ≠ none) : c.toEndOfLine.here? ≠ none :=
  by
  have hsequel : Sequel :=
    ⟨⟨.lineFeed, default, default⟩, [], .inl rfl, by simp⟩
  exact (shiftBy_followedBy hsequel h c.length_restOfLine_le).2

lemma takeLine_followedBy (h : c.here? ≠ none) (hbreak : c.restOfLine ≠ c.remaining) :
    (c.followedBy q).lineText = c.lineText ∧
      (c.followedBy q).toEndOfLine = c.toEndOfLine.followedBy q := by
  rw [lineText, toEndOfLine, restOfLine_followedBy q h hbreak]
  exact ⟨rfl, (shiftBy_followedBy q h c.length_restOfLine_le).1⟩

end Cursor

end FrontEnd
