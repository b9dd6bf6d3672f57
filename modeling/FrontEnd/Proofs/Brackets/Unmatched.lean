/-
Brackets that are closed.

Behind a cursor some tokens may be unmatched: opening brackets that nothing has closed,
closing ones that closed nothing, and invalid tokens.  `Token.unmatched` lists them with
their places, the latest first.  A place is listed at most once, so a stretch of tokens that
leaves the list as it was has opened and closed brackets of its own only
(`Token.Bracketed`), and holds no invalid token.
-/
import FrontEnd.Proofs.Cursor.Behind

namespace FrontEnd

/-- The bracket that closes an opening one. -/
@[grind =] def Punctuator.closer? : Punctuator → Option Punctuator
  | leftParen => some rightParen
  | leftBrace => some rightBrace
  | leftSquare => some rightSquare
  | _ => none

/-- A closing bracket. -/
@[grind =] def Punctuator.isCloser : Punctuator → Bool
  | rightParen | rightBrace | rightSquare => true
  | _ => false

namespace TokenKind

/-- The bracket that closes an opening one. -/
@[grind =] def closer? : TokenKind → Option TokenKind
  | punctuator mark => mark.closer?.map punctuator
  | _ => none

/-- A closing bracket. -/
@[grind =] def isCloser : TokenKind → Bool
  | punctuator mark => mark.isCloser
  | _ => false

/-- A token that needs no other one: no bracket, and not invalid. -/
@[grind =] def isNeutral : TokenKind → Bool
  | punctuator mark => mark.closer?.isNone && !mark.isCloser
  | invalid _ => false
  | identifier _ | quotedIdentifier _ | keyword _ _ | operator _ | integer _ | floating _
  | string _ | whitespace | comment _ | lineFeed | carriageReturn => true

lemma isNeutral_of_isBlank {kind : TokenKind} (h : kind.isBlank = true) : kind.isNeutral = true := by
  cases kind <;> simp_all [isBlank, isInlineBlank, isLineBreak, isNeutral]

end TokenKind

namespace Token

/-- Tokens whose brackets are properly nested: each closing bracket closes the latest
opening one that is not closed yet, which is of its own kind, and none is left open. -/
inductive Bracketed : List Token → Prop where
  | nil : Bracketed []
  /-- A token that is no bracket. -/
  | cons {t : Token} {later : List Token} (hopener : t.kind.closer? = none)
      (hcloser : t.kind.isCloser = false) (hlater : Bracketed later) : Bracketed (t :: later)
  /-- A pair of brackets with what they hold. -/
  | pair {opener closer : Token} {inner later : List Token}
      (hcloses : opener.kind.closer? = some closer.kind) (hinner : Bracketed inner)
      (hlater : Bracketed later) : Bracketed (opener :: (inner ++ closer :: later))

/-- The unmatched tokens behind one more token. -/
def settle (place : Nat) (kind : TokenKind) (before : List (Nat × TokenKind)) :
    List (Nat × TokenKind) :=
  if kind.isNeutral then before
  else if before.head?.any fun entry => entry.2.closer? = some kind then before.tail
  else (place, kind) :: before

/-- The unmatched tokens of a list, which stands with the latest first. -/
def unmatched : List Token → List (Nat × TokenKind)
  | [] => []
  | t :: behind => settle behind.length t.kind (unmatched behind)

variable {place : Nat} {kind : TokenKind} {before : List (Nat × TokenKind)}
  {entry : Nat × TokenKind} {behind : List Token}

lemma mem_of_mem_settle (h : entry ∈ settle place kind before) :
    entry = (place, kind) ∨ entry ∈ before := by
  unfold settle at h
  split at h
  · exact .inr h
  · split at h
    · exact .inr (List.mem_of_mem_tail h)
    · exact List.mem_cons.mp h

/-- Only an opening bracket is ever closed. -/
lemma mem_settle (h : entry ∈ before) (hentry : entry.2.closer? = none) :
    entry ∈ settle place kind before := by
  unfold settle
  split
  · exact h
  · split
    next hcloses =>
      rcases before with _ | ⟨first, rest⟩
      · cases h
      · refine (List.mem_cons.mp h).resolve_left ?_
        rintro rfl
        simp [hentry] at hcloses
    next => exact List.mem_cons_of_mem _ h

/-- Places are listed from the latest to the earliest. -/
lemma pairwise_unmatched (behind : List Token) :
    (unmatched behind).Pairwise (fun e f => f.1 < e.1) ∧
      ∀ entry ∈ unmatched behind, entry.1 < behind.length := by
  induction behind with
  | nil => simp [unmatched]
  | cons t behind ih =>
    obtain ⟨hpairwise, hlt⟩ := ih
    rw [unmatched, settle]
    split
    · exact ⟨hpairwise, fun e he => Nat.lt_succ_of_lt (hlt e he)⟩
    · split
      · exact ⟨hpairwise.tail, fun e he => Nat.lt_succ_of_lt (hlt e (List.mem_of_mem_tail he))⟩
      · refine ⟨List.pairwise_cons.mpr ⟨hlt, hpairwise⟩, List.forall_mem_cons.mpr ⟨?_, ?_⟩⟩
        · exact Nat.lt_succ_self _
        · exact fun e he => Nat.lt_succ_of_lt (hlt e he)

/-- What is unmatched further on was unmatched before, or stands further on. -/
lemma mem_unmatched_of_append {later : List Token} (h : entry ∈ unmatched (later ++ behind))
    (hplace : entry.1 < behind.length) : entry ∈ unmatched behind := by
  induction later with
  | nil => exact h
  | cons t later ih =>
    rcases mem_of_mem_settle h with rfl | h
    · have hlength : (later ++ behind).length < behind.length := hplace
      rw [List.length_append] at hlength
      omega
    · exact ih h

/-- What nothing closes stays unmatched. -/
lemma mem_unmatched_append (later : List Token) (h : entry ∈ unmatched behind)
    (hentry : entry.2.closer? = none) : entry ∈ unmatched (later ++ behind) := by
  induction later with
  | nil => exact h
  | cons t later ih => exact mem_settle ih hentry

/-- Tokens that close some brackets, the latest one first, and else only their own. -/
def Closes : List TokenKind → List Token → Prop
  | [], tokens => Bracketed tokens
  | opener :: openers, tokens => ∃ inner closer later, tokens = inner ++ closer :: later ∧
      opener.closer? = some closer.kind ∧ Bracketed inner ∧ Closes openers later

variable {openers : List TokenKind} {t : Token} {tokens : List Token}

lemma Closes.cons_neutral (h : Closes openers tokens) (ht : t.kind.isNeutral = true) :
    Closes openers (t :: tokens) := by
  have hopener : t.kind.closer? = none := by
    cases hkind : t.kind <;> simp_all [TokenKind.isNeutral, TokenKind.closer?]
  have hcloser : t.kind.isCloser = false := by
    cases hkind : t.kind <;> simp_all [TokenKind.isNeutral, TokenKind.isCloser]
  cases openers with
  | nil => exact .cons hopener hcloser h
  | cons opener openers =>
    obtain ⟨inner, closer, later, rfl, hcloses, hinner, hlater⟩ := h
    exact ⟨t :: inner, closer, later, rfl, hcloses, .cons hopener hcloser hinner, hlater⟩

lemma Closes.cons_opener (h : Closes (t.kind :: openers) tokens) :
    Closes openers (t :: tokens) := by
  obtain ⟨inner, closer, later, rfl, hcloses, hinner, hlater⟩ := h
  cases openers with
  | nil => exact .pair hcloses hinner hlater
  | cons opener openers =>
    obtain ⟨inner', closer', later', rfl, hcloses', hinner', hlater'⟩ := hlater
    exact ⟨t :: (inner ++ closer :: inner'), closer', later', by simp, hcloses',
      .pair hcloses hinner hinner', hlater'⟩

/-- Tokens that close what was opened behind a place, and leave what was unmatched there. -/
lemma closes_of_unmatched {ground : List Token} {opened : List (Nat × TokenKind)}
    (hopened : unmatched behind = opened ++ unmatched ground)
    (hground : ground.length ≤ behind.length)
    (hend : unmatched (tokens.reverse ++ behind) = unmatched ground) :
    Closes (opened.map Prod.snd) tokens ∧ ∀ t ∈ tokens, t.kind.isInvalid = false := by
  induction tokens generalizing behind opened with
  | nil =>
    rw [List.reverse_nil, List.nil_append, hopened] at hend
    obtain rfl := List.append_left_eq_self.mp hend
    exact ⟨.nil, by simp⟩
  | cons t tokens ih =>
    obtain ⟨hpairwise, hlt⟩ := pairwise_unmatched ground
    rw [List.reverse_cons, List.append_assoc, List.singleton_append] at hend
    have hle : ground.length ≤ (t :: behind).length := Nat.le_succ_of_le hground
    by_cases hneutral : t.kind.isNeutral = true
    · have hsettle : unmatched (t :: behind) = opened ++ unmatched ground := by
        rw [unmatched, settle, if_pos hneutral, hopened]
      obtain ⟨hcloses, hvalid⟩ := ih hsettle hle hend
      refine ⟨hcloses.cons_neutral hneutral, List.forall_mem_cons.mpr ⟨?_, hvalid⟩⟩
      cases hkind : t.kind <;> simp_all [TokenKind.isNeutral, TokenKind.isInvalid]
    by_cases htop : (unmatched behind).head?.any fun entry => entry.2.closer? = some t.kind
    · have hsettle : unmatched (t :: behind) = (unmatched behind).tail := by
        rw [unmatched, settle, if_neg hneutral, if_pos htop]
      rw [hopened] at htop hsettle
      rcases opened with _ | ⟨opener, opened⟩
      · -- what was open at the ground is missed at the end
        rcases hopen : unmatched ground with _ | ⟨first, rest⟩
        · simp [hopen] at htop
        · rw [hopen] at hsettle hlt hpairwise
          have hfirst := hlt first (List.mem_cons_self ..)
          have hend' : first ∈ unmatched (tokens.reverse ++ t :: behind) := by
            rw [hend, hopen]
            exact List.mem_cons_self ..
          have hmem : first ∈ unmatched (t :: behind) := mem_unmatched_of_append hend' (by omega)
          rw [hsettle] at hmem
          exact absurd ((List.pairwise_cons.mp hpairwise).1 first hmem) (Nat.lt_irrefl _)
      · have hcloser : opener.2.closer? = some t.kind := by simpa using htop
        obtain ⟨hcloses, hvalid⟩ := ih hsettle hle hend
        refine ⟨⟨[], t, tokens, rfl, hcloser, .nil, hcloses⟩,
          List.forall_mem_cons.mpr ⟨?_, hvalid⟩⟩
        cases hkind : opener.2 with
        | punctuator mark =>
          rw [hkind] at hcloser
          obtain ⟨closer, -, hcloser⟩ := Option.map_eq_some_iff.mp hcloser
          rw [← hcloser]
          rfl
        | _ => simp [hkind, TokenKind.closer?] at hcloser
    · have hsettle : unmatched (t :: behind) = (behind.length, t.kind) :: unmatched behind := by
        rw [unmatched, settle, if_neg hneutral, if_neg htop]
      -- nothing that stands behind the ground stays unmatched, so this one opens
      have hopener : (t.kind.closer?).isSome := by
        by_contra hnone
        have hmem : (behind.length, t.kind) ∈ unmatched (t :: behind) := by
          rw [hsettle]
          exact List.mem_cons_self ..
        replace hmem := mem_unmatched_append tokens.reverse hmem (by simpa using hnone)
        rw [hend] at hmem
        exact absurd (hlt _ hmem) (Nat.not_lt.mpr hground)
      have hopened' : unmatched (t :: behind) =
          ((behind.length, t.kind) :: opened) ++ unmatched ground := by
        rw [hsettle, hopened, List.cons_append]
      obtain ⟨hcloses, hvalid⟩ := ih hopened' hle hend
      refine ⟨hcloses.cons_opener, List.forall_mem_cons.mpr ⟨?_, hvalid⟩⟩
      cases hkind : t.kind <;> simp_all [TokenKind.closer?, TokenKind.isInvalid]

/-- Tokens that leave the unmatched ones as they were are properly nested, and none of them is
invalid. -/
lemma bracketed_of_unmatched_eq
    (h : unmatched (tokens.reverse ++ behind) = unmatched behind) :
    Bracketed tokens ∧ ∀ t ∈ tokens, t.kind.isInvalid = false :=
  closes_of_unmatched (List.nil_append _).symm (Nat.le_refl _) h

end Token

namespace Cursor

variable {c : Cursor}

/-- The unmatched tokens before the current one. -/
def unmatched (c : Cursor) : List (Nat × TokenKind) :=
  Token.unmatched c.behind

/-- What the grammar sees of a token is unmatched like the token. -/
lemma unmatched_shift_of_here? {kind : TokenKind} (h : c.here? = some kind)
    (hkind : kind.isInvalid = false) :
    c.shift.unmatched = Token.settle c.behind.length kind c.unmatched := by
  rcases c with a | ⟨b, t, a⟩ | b
  · simp [here?, kind?, current?] at h
  · simp only [here?, kind?, current?, Option.map_some, Option.some.injEq] at h
    subst h
    rw [unmatched, behind_shift, current?, Option.toList_some, List.singleton_append,
      Token.unmatched]
    revert hkind
    cases t.kind with
    | invalid text => simp [TokenKind.plain, TokenKind.isInvalid]
    | _ => exact fun _ => rfl
  · simp [here?, kind?, current?] at h

lemma unmatched_shift_of_here?_eq_none (h : c.here? = none) :
    c.shift.unmatched = c.unmatched := by
  rcases c with a | ⟨b, t, a⟩ | b
  · rw [unmatched, behind_shift]
    rfl
  · simp [here?, kind?, current?] at h
  · rfl

/-- Past a token that needs no other one. -/
@[grind →] lemma unmatched_shift_of_neutral {kind : TokenKind} (h : c.here? = some kind)
    (hkind : kind.isNeutral = true) : c.shift.unmatched = c.unmatched := by
  have hvalid : kind.isInvalid = false := by
    cases kind <;> simp_all [TokenKind.isNeutral, TokenKind.isInvalid]
  rw [unmatched_shift_of_here? h hvalid, Token.settle, if_pos hkind]

/-- Past an opening bracket. -/
@[grind →] lemma unmatched_shift_of_opener {mark closer : Punctuator}
    (h : c.here? = some (.punctuator mark)) (hmark : mark.closer? = some closer) :
    c.shift.unmatched = (c.behind.length, .punctuator mark) :: c.unmatched := by
  have hneutral : (TokenKind.punctuator mark).isNeutral = false := by
    simp [TokenKind.isNeutral, hmark]
  have hcloses (opener : TokenKind) : opener.closer? ≠ some (.punctuator mark) := by
    intro hcloses
    cases opener with
    | punctuator opener =>
      cases opener <;> cases mark <;>
        simp [TokenKind.closer?, Punctuator.closer?] at hcloses hmark
    | _ => simp [TokenKind.closer?] at hcloses
  rw [unmatched_shift_of_here? h rfl, Token.settle, hneutral, if_neg Bool.false_ne_true, if_neg]
  rcases c.unmatched with _ | ⟨first, rest⟩ <;> simp [hcloses]

/-- Past a bracket that closes the latest one that is open. -/
lemma unmatched_shift_of_closer {mark closer : Punctuator} {place : Nat}
    {rest : List (Nat × TokenKind)} (h : c.here? = some (.punctuator closer))
    (hopen : c.unmatched = (place, .punctuator mark) :: rest)
    (hmark : mark.closer? = some closer) : c.shift.unmatched = rest := by
  have hneutral : (TokenKind.punctuator closer).isNeutral = false := by
    cases mark <;> simp [Punctuator.closer?] at hmark <;> subst hmark <;> rfl
  rw [unmatched_shift_of_here? h rfl, Token.settle, hneutral, if_neg Bool.false_ne_true, hopen,
    if_pos (by simp [TokenKind.closer?, hmark]), List.tail_cons]

grind_pattern unmatched_shift_of_closer =>
  c.here?, TokenKind.punctuator closer, c.unmatched, (place, TokenKind.punctuator mark) :: rest

lemma unmatched_append_of_blanks {passed behind : List Token}
    (h : ∀ t ∈ passed, t.kind.isBlank = true) :
    Token.unmatched (passed ++ behind) = Token.unmatched behind := by
  induction passed with
  | nil => rfl
  | cons t passed ih =>
    obtain ⟨ht, hpassed⟩ := List.forall_mem_cons.mp h
    rw [List.cons_append, Token.unmatched, Token.settle,
      if_pos (TokenKind.isNeutral_of_isBlank ht), ih hpassed]

/-- The way to the next token of interest passes blanks only. -/
@[simp, grind =] lemma unmatched_advance (reach : Reach) (c : Cursor) :
    (c.advance reach).unmatched = c.shift.unmatched := by
  obtain ⟨passed, heq, hpassed⟩ := behind_advance reach c
  rw [unmatched, heq, unmatched_append_of_blanks fun t ht => isBlank_of_passes (hpassed t ht),
    unmatched]

/-! ### Answers that say that the current token is neutral -/

lemma unmatched_shift_of_any {p : TokenKind → Bool} (h : c.here?.any p = true)
    (hp : ∀ kind, kind.isNeutral = false → p kind = false) : c.shift.unmatched = c.unmatched := by
  obtain ⟨kind, hkind, hany⟩ := (Option.any_eq_true _ _).mp h
  refine unmatched_shift_of_neutral hkind ?_
  by_contra hneutral
  simp [hp kind (by simpa using hneutral)] at hany

lemma unmatched_shift_of_bind {α : Type} {f : TokenKind → Option α} {a : α}
    (h : c.here?.bind f = some a) (hf : ∀ kind, kind.isNeutral = false → f kind = none) :
    c.shift.unmatched = c.unmatched := by
  obtain ⟨kind, hkind, ha⟩ := Option.bind_eq_some_iff.mp h
  refine unmatched_shift_of_neutral hkind ?_
  by_contra hneutral
  simp [hf kind (by simpa using hneutral)] at ha

@[grind →] lemma unmatched_shift_of_isKeyword {word : String}
    (h : c.here?.any (·.isKeyword word) = true) : c.shift.unmatched = c.unmatched := by
  refine unmatched_shift_of_any h fun kind hkind => ?_
  cases kind <;> simp_all [TokenKind.isNeutral, TokenKind.isKeyword]

@[grind →] lemma unmatched_shift_of_name? {contextual : Bool} {name : String}
    (h : c.here?.bind (·.name? contextual) = some name) : c.shift.unmatched = c.unmatched := by
  refine unmatched_shift_of_bind h fun kind hkind => ?_
  cases kind <;> simp_all [TokenKind.isNeutral, TokenKind.name?]

@[grind →] lemma unmatched_shift_of_anyName? {name : String}
    (h : c.here?.bind (·.anyName?) = some name) : c.shift.unmatched = c.unmatched := by
  refine unmatched_shift_of_bind h fun kind hkind => ?_
  cases kind <;> simp_all [TokenKind.isNeutral, TokenKind.anyName?]

/-! ### The same for the next token of interest -/

variable {reach : Reach}

@[grind →] lemma unmatched_shift_advance_of_neutral {kind : TokenKind}
    (h : c.following? reach = some kind) (hkind : kind.isNeutral = true) :
    (c.advance reach).shift.unmatched = c.shift.unmatched := by
  rw [← here?_advance] at h
  rw [unmatched_shift_of_neutral h hkind, unmatched_advance]

@[grind →] lemma unmatched_shift_advance_of_isKeyword {word : String}
    (h : (c.following? reach).any (·.isKeyword word) = true) :
    (c.advance reach).shift.unmatched = c.shift.unmatched := by
  rw [← here?_advance] at h
  rw [unmatched_shift_of_isKeyword h, unmatched_advance]

@[grind →] lemma unmatched_shift_advance_of_binaryAhead? {operator : String}
    (h : c.binaryAhead? = some operator) :
    (c.advance .sameLine).shift.unmatched = c.shift.unmatched := by
  obtain ⟨kind, hkind, hbinary⟩ := following?_of_binaryAhead? h
  refine unmatched_shift_advance_of_neutral hkind ?_
  cases kind with
  | punctuator mark =>
    cases mark <;>
      simp_all [TokenKind.binary?, TokenKind.isNeutral, Punctuator.closer?, Punctuator.isCloser]
  | _ => simp_all [TokenKind.binary?, TokenKind.isNeutral]

end Cursor

end FrontEnd
