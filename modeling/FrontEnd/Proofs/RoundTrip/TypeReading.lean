/-
Types are read from their spelling.

From every place where the spelling of a type is seen, with something behind it that does not
belong to a type, the type is read up to the last token of its spelling
(`TypeExpr.reads_spelling`).  Marks behind a type are read with it; so the induction carries
the marks that stand behind the part of a type that is left.
-/
import FrontEnd.Proofs.Contract.Run
import FrontEnd.Proofs.Cursor.Sees
import FrontEnd.Proofs.RoundTrip.TypeText

namespace FrontEnd

/-! ### What is seen behind a token -/

namespace Cursor.Sees

variable {c : Cursor} {kind next : TokenKind} {kinds : List TokenKind}

lemma following?_next (h : c.Sees (kind :: next :: kinds)) (hnext : next.isBlank = false)
    (reach : Reach) : c.following? reach = some next := by
  rw [h.following?_eq, List.tail_cons,
    List.dropWhile_cons_of_neg (by simp [Reach.passes_eq_false hnext])]
  rfl

lemma following?_blank (h : c.Sees (kind :: .whitespace :: next :: kinds))
    (hnext : next.isBlank = false) (reach : Reach) : c.following? reach = some next := by
  rw [h.following?_eq, List.tail_cons, List.dropWhile_cons_of_pos reach.passes_whitespace,
    List.dropWhile_cons_of_neg (by simp [Reach.passes_eq_false hnext])]
  rfl

end Cursor.Sees

/-- From wherever these kinds are seen, with the later ones behind them, a goal is read to be
`a`, up to the last of them and without new errors. -/
def Goal.ReadsFrom (g : Goal) (room : Nat) (kinds later : List TokenKind) (a : g.Result) : Prop :=
  ∀ s : State, s.cursor.Sees (kinds ++ later) →
    ∃ t last, g.Reads room s (.ok a) t ∧ t.noted = s.noted ∧ t.cursor.Sees (last :: later)

/-- The same for a part of the procedure of a goal. -/
def Procedure.EndsFrom {α : Type} (p : Procedure α) (room : Nat) (kinds later : List TokenKind)
    (a : α) : Prop :=
  ∀ (way : List Event) (s : State), s.cursor.Sees (kinds ++ later) →
    ∃ t last, t.noted = s.noted ∧ t.cursor.Sees (last :: later) ∧
      p.Meets (.reading room) way s (fun _ b s' => b = a ∧ s' = t) fun _ _ _ => False

/-! ### The tokens of a spelling -/

/-- The kind of the token for a mark. -/
def TypeMark.kind : TypeMark → TokenKind
  | question => .punctuator .question
  | exclamation => .punctuator .exclamation

lemma TokenKind.ofWord_cases (word : String) :
    ofWord word = identifier word ∨ ∃ role, ofWord word = keyword word role := by
  unfold ofWord
  split
  · exact .inr ⟨_, rfl⟩
  · exact .inl rfl

lemma TokenKind.isBlank_ofWord (word : String) : (ofWord word).isBlank = false := by
  rcases ofWord_cases word with h | ⟨role, h⟩ <;> rw [h] <;> rfl

/-- A kind that a type starts with. -/
def TokenKind.StartsType (kind : TokenKind) : Prop :=
  kind = .punctuator .leftSquare ∨ kind = .punctuator .leftParen ∨ ∃ word, kind = .ofWord word

lemma TokenKind.StartsType.isBlank {kind : TokenKind} (h : kind.StartsType) :
    kind.isBlank = false := by
  rcases h with rfl | rfl | ⟨word, rfl⟩
  · rfl
  · rfl
  · exact isBlank_ofWord word

lemma TokenKind.StartsType.ne {kind : TokenKind} (h : kind.StartsType) :
    kind ≠ .punctuator .rightParen := by
  rcases h with rfl | rfl | ⟨word, rfl⟩
  · decide
  · decide
  · rcases ofWord_cases word with h | ⟨role, h⟩ <;> rw [h] <;> exact nofun

namespace TypeExpr

lemma exists_spelling_cons : (T : TypeExpr) → T.Named →
    ∃ kind rest, T.spelling = kind :: rest ∧ kind.StartsType
  | .named path, h => by
    have hnamed := h path (by simp [parts])
    rcases path with _ | ⟨⟨name, arguments⟩, rest⟩
    · exact hnamed.elim
    · exact ⟨_, _, rfl, .inr (.inr ⟨name, rfl⟩)⟩
  | .array element, _ => ⟨_, _, rfl, .inl rfl⟩
  | .dictionary key value, _ => ⟨_, _, rfl, .inl rfl⟩
  | .optional wrapped, h => by
    obtain ⟨kind, rest, heq, hkind⟩ := exists_spelling_cons wrapped fun path hpath =>
      h path (by simp [parts, hpath])
    exact ⟨kind, _, by rw [spelling, heq, List.cons_append], hkind⟩
  | .unwrapped wrapped, h => by
    obtain ⟨kind, rest, heq, hkind⟩ := exists_spelling_cons wrapped fun path hpath =>
      h path (by simp [parts, hpath])
    exact ⟨kind, _, by rw [spelling, heq, List.cons_append], hkind⟩
  | .tuple elements, _ => ⟨_, _, rfl, .inr (.inl rfl)⟩
  | .function parameters throws result, _ => ⟨_, _, rfl, .inr (.inl rfl)⟩

/-- What may stand behind a type in the spelling of another one. -/
def followers : List TokenKind :=
  [.punctuator .comma, .punctuator .colon, .punctuator .rightSquare, .punctuator .rightParen,
    .operator ">"]

/-- What is seen behind a type, if anything, is a token that may follow one. -/
def Followed (later : List TokenKind) : Prop :=
  ∀ kind, later.head? = some kind → kind ∈ followers

end TypeExpr

namespace Goal

open Procedure

variable {inside : Nat} {later : List TokenKind}

/-- Marks are read one after the other. -/
lemma typeMarks_readsFrom (room : Nat) (first : TokenKind) (marks : List TypeMark)
    (hlater : TypeExpr.Followed later) :
    typeMarks.ReadsFrom room (first :: marks.map TypeMark.kind) later marks := by
  induction marks generalizing first with
  | nil =>
    intro s hsees
    refine ⟨s, first, Reads.of_meets (roomInside?_of_not_isLevel rfl) ?_, rfl, hsees⟩
    have hglued := hsees.glued?_eq 0
    simp only [procedure, Grammar.typeMarks, meets_bind, meets_glued, hglued]
    rcases later with _ | ⟨kind, later⟩
    · simp
    · have hkind := hlater kind rfl
      simp only [TypeExpr.followers, List.mem_cons, List.not_mem_nil, or_false] at hkind
      rcases hkind with rfl | rfl | rfl | rfl | rfl <;>
        simp [TokenKind.isBlank, TokenKind.isInlineBlank, TokenKind.isLineBreak]
  | cons mark marks ih =>
    intro s hsees
    have hshift : (s.moveTo s.cursor.shift).cursor.Sees
        ((mark.kind :: marks.map TypeMark.kind) ++ later) := hsees.shift
    obtain ⟨t, last, hreads, hnoted, hlast⟩ := ih mark.kind _ hshift
    refine ⟨t, last, Reads.of_meets (roomInside?_of_not_isLevel rfl) ?_, hnoted, hlast⟩
    have hglued : s.cursor.glued? 0 = some mark.kind := by
      rw [hsees.glued?_eq]
      cases mark <;> rfl
    simp only [procedure, Grammar.typeMarks, meets_bind, meets_glued, hglued]
    cases mark <;>
      simp only [TypeMark.kind, meets_bind, meets_shift, meets_read_of_reads hreads, meets_pure,
        and_self]

/-- A type is read with the marks behind it. -/
lemma type_readsFrom {kinds : List TokenKind} {T : TypeExpr} (marks : List TypeMark)
    (hlater : TypeExpr.Followed later)
    (h : Grammar.unmarkedType.EndsFrom inside kinds (marks.map TypeMark.kind ++ later) T) :
    type.ReadsFrom (inside + 1) (kinds ++ marks.map TypeMark.kind) later
      (marks.foldl TypeExpr.mark T) := by
  intro s hsees
  rw [List.append_assoc] at hsees
  obtain ⟨t, first, hnoted, hfirst, hmeets⟩ := h [] s hsees
  obtain ⟨u, last, hreads, hnoted', hlast⟩ := typeMarks_readsFrom inside first marks hlater t hfirst
  refine ⟨u, last, Reads.of_meets (roomInside?_of_isLevel rfl) ?_, hnoted'.trans hnoted, hlast⟩
  simp only [procedure, Grammar.type, meets_bind]
  refine hmeets.imp (fun way b s' hb => ?_) fun _ _ _ => id
  obtain ⟨rfl, rfl⟩ := hb
  simp only [meets_read_of_reads hreads, meets_pure, and_self]

/-- What stands behind a tuple leads neither to an arrow nor to marks of a function. -/
def EndsTuple (later : List TokenKind) : Prop :=
  ∀ kind, later.head? = some kind →
    kind.isBlank = false ∧ kind.isKeyword "throws" = false ∧ kind ≠ .punctuator .arrow

lemma endsTuple_marks (marks : List TypeMark) (hlater : TypeExpr.Followed later) :
    EndsTuple (marks.map TypeMark.kind ++ later) := by
  intro kind hkind
  cases marks with
  | nil =>
    have hmem := hlater kind hkind
    simp only [TypeExpr.followers, List.mem_cons, List.not_mem_nil, or_false] at hmem
    rcases hmem with rfl | rfl | rfl | rfl | rfl <;> decide
  | cons mark marks =>
    cases hkind
    cases mark <;> decide

/-- A collection of one type. -/
lemma array_endsFrom {element : TypeExpr} (hnamed : element.Named)
    (h : type.ReadsFrom inside element.spelling (.punctuator .rightSquare :: later) element) :
    Grammar.unmarkedType.EndsFrom inside (TypeExpr.array element).spelling later (.array element) := by
  intro way s hsees
  obtain ⟨kind, rest, hspelling, hkind⟩ := element.exists_spelling_cons hnamed
  have hopen : s.cursor.Sees (.punctuator .leftSquare :: kind :: (rest ++
      .punctuator .rightSquare :: later)) := by
    simpa [TypeExpr.spelling, hspelling] using hsees
  obtain ⟨t, last, hreads, hnoted, hlast⟩ := h (s.moveTo (s.cursor.advance .anyLine))
    (by rw [hspelling]; exact hopen.advance_next hkind.isBlank .anyLine)
  have hclose := hlast.advance_next rfl .anyLine
  refine ⟨t.moveTo (t.cursor.advance .anyLine), _, hnoted, hclose, ?_⟩
  simp only [Grammar.unmarkedType, Grammar.collectionType, meets_bind, meets_here, hopen.here?_eq,
    List.head?_cons, meets_advance, meets_read_of_reads hreads, meets_isNext,
    hlast.following?_next rfl, meets_ite, meets_expectNext, hclose.here?_eq, meets_pure]
  simp

/-- A collection of keys with values. -/
lemma dictionary_endsFrom {key value : TypeExpr} (hkeyNamed : key.Named) (hvalueNamed : value.Named)
    (hkey : type.ReadsFrom inside key.spelling (.punctuator .colon :: .whitespace ::
      (value.spelling ++ .punctuator .rightSquare :: later)) key)
    (hvalue : type.ReadsFrom inside value.spelling (.punctuator .rightSquare :: later) value) :
    Grammar.unmarkedType.EndsFrom inside (TypeExpr.dictionary key value).spelling later
      (.dictionary key value) := by
  intro way s hsees
  obtain ⟨kind, rest, hspelling, hkind⟩ := key.exists_spelling_cons hkeyNamed
  obtain ⟨kind', rest', hspelling', hkind'⟩ := value.exists_spelling_cons hvalueNamed
  have hopen : s.cursor.Sees (.punctuator .leftSquare :: kind :: (rest ++ .punctuator .colon ::
      .whitespace :: (value.spelling ++ .punctuator .rightSquare :: later))) := by
    simpa [TypeExpr.spelling, hspelling] using hsees
  obtain ⟨t, last, hreads, hnoted, hlast⟩ := hkey (s.moveTo (s.cursor.advance .anyLine))
    (by rw [hspelling]; exact hopen.advance_next hkind.isBlank .anyLine)
  have hcolon := hlast.advance_next rfl .anyLine
  rw [hspelling'] at hcolon
  obtain ⟨u, last', hreads', hnoted', hlast'⟩ := hvalue
    (t.moveTo ((t.cursor.advance .anyLine).advance .anyLine))
    (by rw [hspelling']; exact hcolon.advance_blank hkind'.isBlank .anyLine)
  have hclose := hlast'.advance_next rfl .anyLine
  refine ⟨u.moveTo (u.cursor.advance .anyLine), _, hnoted'.trans hnoted, hclose, ?_⟩
  simp only [Grammar.unmarkedType, Grammar.collectionType, meets_bind, meets_here, hopen.here?_eq,
    List.head?_cons, meets_advance, meets_read_of_reads hreads, meets_isNext,
    hlast.following?_next rfl, meets_ite, meets_advanceTwice, meets_read_of_reads hreads',
    meets_expectNext, hclose.here?_eq, meets_pure]
  simp

/-- The elements of a tuple, with the parentheses around them. -/
lemma tupleTypeElements_endsFrom {elements : List TypeExpr}
    (hnamed : ∀ type rest, elements = type :: rest → type.Named)
    (h : ∀ type rest, elements = type :: rest →
      types.ReadsFrom inside (TypeExpr.spellings elements) (.punctuator .rightParen :: later)
        elements) :
    Grammar.tupleTypeElements.EndsFrom inside
      (.punctuator .leftParen :: (TypeExpr.spellings elements ++ [.punctuator .rightParen])) later
      elements := by
  intro way s hsees
  rcases elements with _ | ⟨first, rest⟩
  · have hopen : s.cursor.Sees (.punctuator .leftParen :: .punctuator .rightParen :: later) := hsees
    have hclose := hopen.advance_next rfl .anyLine
    refine ⟨s.moveTo (s.cursor.advance .anyLine), _, rfl, hclose, ?_⟩
    simp only [Grammar.tupleTypeElements, meets_bind, meets_advance, meets_isHere,
      State.cursor_moveTo, hclose.here?_eq, List.head?_cons, meets_ite, meets_pure]
    simp
  · obtain ⟨kind, others, hspelling, hkind⟩ := first.exists_spelling_cons (hnamed first rest rfl)
    have hspellings : TypeExpr.spellings (first :: rest) =
        kind :: (others ++ TypeExpr.laterSpellings rest) := by
      rw [TypeExpr.spellings, hspelling, List.cons_append]
    have hopen : s.cursor.Sees (.punctuator .leftParen :: kind ::
        (others ++ TypeExpr.laterSpellings rest ++ .punctuator .rightParen :: later)) := by
      simpa [hspellings] using hsees
    have hfirst := hopen.advance_next hkind.isBlank .anyLine
    obtain ⟨t, last, hreads, hnoted, hlast⟩ := h first rest rfl
      (s.moveTo (s.cursor.advance .anyLine)) (by rw [hspellings]; exact hfirst)
    have hclose := hlast.advance_next rfl .anyLine
    refine ⟨t.moveTo (t.cursor.advance .anyLine), _, hnoted, hclose, ?_⟩
    have hnot : kind ≠ .punctuator .rightParen := hkind.ne
    simp only [Grammar.tupleTypeElements, meets_bind, meets_advance, meets_isHere,
      State.cursor_moveTo, hfirst.here?_eq, List.head?_cons, Option.some.injEq, hnot, meets_ite,
      meets_read_of_reads hreads, meets_expectNext, hclose.here?_eq, meets_pure]
    simp

/-- A tuple. -/
lemma tuple_endsFrom {elements : List TypeExpr} (hlater : EndsTuple later)
    (h : Grammar.tupleTypeElements.EndsFrom inside (TypeExpr.tuple elements).spelling later
      elements) :
    Grammar.unmarkedType.EndsFrom inside (TypeExpr.tuple elements).spelling later
      (.tuple elements) := by
  intro way s hsees
  obtain ⟨t, last, hnoted, hlast, hmeets⟩ := h way s hsees
  have hhere : s.cursor.here? = some (.punctuator .leftParen) := hsees.here?_eq
  have hfollowing : t.cursor.following? .sameLine = later.head? := by
    rcases later with _ | ⟨kind, later⟩
    · exact hlast.following?_eq _
    · exact hlast.following?_next (hlater kind rfl).1 _
  have hthrows : later.head?.any (·.isKeyword "throws") = false := by
    rcases later with _ | ⟨kind, later⟩
    · rfl
    · exact (hlater kind rfl).2.1
  have harrow : later.head? ≠ some (.punctuator .arrow) :=
    fun harrow => (hlater _ harrow).2.2 rfl
  refine ⟨t, last, hnoted, hlast, ?_⟩
  simp only [Grammar.unmarkedType, Grammar.tupleOrFunctionType, meets_bind, meets_here, hhere]
  refine hmeets.imp (fun way b s' hb => ?_) fun _ _ _ => id
  obtain ⟨rfl, rfl⟩ := hb
  simp only [meets_isWordNext, hfollowing, hthrows, Bool.false_eq_true, if_false, meets_pure,
    meets_bind, meets_isNext, harrow, decide_false, and_self]

/-- What stands behind the parameters of a function. -/
def arrowSpelling (throws : Bool) (result : TypeExpr) : List TokenKind :=
  (if throws then [.whitespace, .keyword "throws" .expression] else []) ++
    .whitespace :: .punctuator .arrow :: .whitespace :: result.spelling

/-- A function. -/
lemma function_endsFrom {parameters : List TypeExpr} {throws : Bool} {result : TypeExpr}
    (hnamed : result.Named)
    (helements : Grammar.tupleTypeElements.EndsFrom inside (TypeExpr.tuple parameters).spelling
      (arrowSpelling throws result ++ later) parameters)
    (hresult : type.ReadsFrom inside result.spelling later result) :
    Grammar.unmarkedType.EndsFrom inside (TypeExpr.function parameters throws result).spelling later
      (.function parameters throws result) := by
  -- the parameters are read as the elements of a tuple, which the arrow makes a function
  intro way s hsees
  obtain ⟨kind, rest, hspelling, hkind⟩ := result.exists_spelling_cons hnamed
  obtain ⟨t, last, hnoted, hlast, hmeets⟩ := helements way s
    (by simpa [TypeExpr.spelling, arrowSpelling] using hsees)
  have hhere : s.cursor.here? = some (.punctuator .leftParen) := hsees.here?_eq
  rw [arrowSpelling, hspelling] at hlast
  cases throws with
  | false =>
    have harrow := hlast.advance_blank rfl .sameLine
    obtain ⟨u, last', hreads, hnoted', hlast'⟩ := hresult
      (t.moveTo ((t.cursor.advance .sameLine).advance .anyLine))
      (by rw [hspelling]; exact harrow.advance_blank hkind.isBlank .anyLine)
    refine ⟨u, last', hnoted'.trans hnoted, hlast', ?_⟩
    simp only [Grammar.unmarkedType, Grammar.tupleOrFunctionType, meets_bind, meets_here, hhere]
    refine hmeets.imp (fun way b s' hb => ?_) fun _ _ _ => id
    obtain ⟨rfl, rfl⟩ := hb
    simp only [meets_isWordNext, hlast.following?_blank rfl, Option.any_some, TokenKind.isKeyword,
      Bool.false_eq_true, if_false, meets_pure, meets_bind, meets_isNext, decide_true, if_true, meets_advance,
      State.cursor_moveTo, State.moveTo_moveTo, meets_read_of_reads hreads, and_self]
  | true =>
    have hword := hlast.advance_blank rfl .sameLine
    have harrow := hword.advance_blank rfl .sameLine
    obtain ⟨u, last', hreads, hnoted', hlast'⟩ := hresult
      (t.moveTo (((t.cursor.advance .sameLine).advance .sameLine).advance .anyLine))
      (by rw [hspelling]; exact harrow.advance_blank hkind.isBlank .anyLine)
    refine ⟨u, last', hnoted'.trans hnoted, hlast', ?_⟩
    simp only [Grammar.unmarkedType, Grammar.tupleOrFunctionType, meets_bind, meets_here, hhere]
    refine hmeets.imp (fun way b s' hb => ?_) fun _ _ _ => id
    obtain ⟨rfl, rfl⟩ := hb
    simp only [meets_isWordNext, hlast.following?_blank rfl, Option.any_some, TokenKind.isKeyword,
      decide_true, if_true, meets_advance, meets_bind, State.cursor_moveTo, meets_isNext, hword.following?_blank rfl, decide_true, State.moveTo_moveTo,
      meets_read_of_reads hreads, meets_pure, and_self]

/-- A path. -/
lemma named_endsFrom {path : List TypeSegment} (hnamed : TypeSegment.Named path)
    (h : typePath.ReadsFrom inside (TypeSegment.spelling path) later path) :
    Grammar.unmarkedType.EndsFrom inside (TypeExpr.named path).spelling later (.named path) := by
  intro way s hsees
  obtain ⟨t, last, hreads, hnoted, hlast⟩ := h s hsees
  refine ⟨t, last, hnoted, hlast, ?_⟩
  rcases path with _ | ⟨⟨name, arguments⟩, rest⟩
  · exact hnamed.elim
  have hhere : s.cursor.here? = some (.ofWord name) := hsees.here?_eq
  have hname : ((TokenKind.ofWord name).name? true).isSome = true ∨
      (TokenKind.ofWord name).isKeyword "self" = true := by
    rcases hnamed.1 with hname | rfl
    · exact .inl hname.2
    · exact .inr rfl
  simp only [Grammar.unmarkedType, meets_bind, meets_here, hhere]
  rcases TokenKind.ofWord_cases name with hword | ⟨role, hword⟩ <;>
    · rw [hword] at hname ⊢
      simp only [hname, Bool.or_eq_true, if_true, meets_bind,
        meets_read_of_reads hreads, meets_pure, and_self]

/-- The last one of several types. -/
lemma types_readsFrom_single {T : TypeExpr} (hcomma : later.head? ≠ some (.punctuator .comma))
    (hlater : TypeExpr.Followed later) (h : type.ReadsFrom inside T.spelling later T) :
    types.ReadsFrom inside (TypeExpr.spellings [T]) later [T] := by
  intro s hsees
  rw [TypeExpr.spellings, TypeExpr.laterSpellings, List.append_nil] at hsees
  obtain ⟨t, last, hreads, hnoted, hlast⟩ := h s hsees
  have hnext : t.cursor.following? .anyLine ≠ some (.punctuator .comma) := by
    rcases later with _ | ⟨kind, later⟩
    · rw [hlast.following?_eq]
      exact nofun
    · have hsolid : ∀ kind ∈ TypeExpr.followers, kind.isBlank = false := by decide
      rwa [hlast.following?_next (hsolid kind (hlater kind rfl))]
  refine ⟨t, last, Reads.of_meets (roomInside?_of_not_isLevel rfl) ?_, hnoted, hlast⟩
  simp only [procedure, Grammar.types, meets_bind, meets_read_of_reads hreads, meets_isNext, hnext,
    decide_false, Bool.false_eq_true, if_false, meets_pure, and_self]

/-- A type with further ones behind it. -/
lemma types_readsFrom_cons {T second : TypeExpr} {rest : List TypeExpr} (hnamed : second.Named)
    (h : type.ReadsFrom inside T.spelling
      (TypeExpr.laterSpellings (second :: rest) ++ later) T)
    (hrest : types.ReadsFrom inside (TypeExpr.spellings (second :: rest)) later (second :: rest)) :
    types.ReadsFrom inside (TypeExpr.spellings (T :: second :: rest)) later (T :: second :: rest) := by
  intro s hsees
  obtain ⟨kind, others, hspelling, hkind⟩ := second.exists_spelling_cons hnamed
  rw [TypeExpr.spellings, List.append_assoc] at hsees
  obtain ⟨t, last, hreads, hnoted, hlast⟩ := h s hsees
  rw [TypeExpr.laterSpellings, hspelling] at hlast
  have hcomma := hlast.advance_next rfl .anyLine
  have hsecond := hcomma.advance_blank hkind.isBlank .anyLine
  obtain ⟨u, last', hreads', hnoted', hlast'⟩ := hrest
    (t.moveTo ((t.cursor.advance .anyLine).advance .anyLine))
    (by rw [TypeExpr.spellings, hspelling]; exact hsecond)
  refine ⟨u, last', Reads.of_meets (roomInside?_of_not_isLevel rfl) ?_, hnoted'.trans hnoted, hlast'⟩
  simp only [procedure, Grammar.types, meets_bind, meets_read_of_reads hreads, meets_isNext,
    hlast.following?_next rfl, decide_true, if_true, meets_advanceTwice,
    meets_read_of_reads hreads', meets_pure, and_self]

/-- The generic arguments behind a name. -/
lemma genericArguments_endsFrom {arguments : List TypeExpr} (name : String)
    (hangle : later.head? ≠ some (.operator "<"))
    (hnamed : ∀ first rest, arguments = first :: rest → first.Named)
    (h : ∀ first rest, arguments = first :: rest →
      types.ReadsFrom inside (TypeExpr.spellings arguments) (.operator ">" :: later) arguments) :
    Grammar.genericArguments.EndsFrom inside (.ofWord name :: TypeExpr.angled arguments) later
      arguments := by
  intro way s hsees
  rcases arguments with _ | ⟨first, rest⟩
  · have hglued : s.cursor.glued? 0 ≠ some (.operator "<") := by
      rw [hsees.glued?_eq]
      intro hsome
      rw [Option.filter_eq_some_iff, ← List.head?_eq_getElem?] at hsome
      exact hangle hsome.1
    refine ⟨s, _, rfl, hsees, ?_⟩
    simp only [Grammar.genericArguments, meets_bind, meets_glued, hglued, if_false, meets_pure,
      and_self]
  · obtain ⟨kind, others, hspelling, hkind⟩ := first.exists_spelling_cons (hnamed first rest rfl)
    -- the angle is glued to the name, with no blank to pass over
    have hopen : s.cursor.Sees (.ofWord name :: .operator "<" :: kind ::
        (others ++ TypeExpr.laterSpellings rest ++ .operator ">" :: later)) := by
      simpa [TypeExpr.angled, hspelling] using hsees
    have hglued : s.cursor.glued? 0 = some (.operator "<") := by
      rw [hopen.glued?_eq]
      rfl
    have hshift := hopen.shift
    rw [List.tail_cons] at hshift
    obtain ⟨t, last, hreads, hnoted, hlast⟩ := h first rest rfl
      (s.moveTo (s.cursor.shift.advance .anyLine))
      (by
        rw [TypeExpr.spellings, hspelling]
        exact hshift.advance_next hkind.isBlank .anyLine)
    have hclose := hlast.advance_next rfl .anyLine
    have hhere : (t.cursor.advance .anyLine).here? = some (.operator ">") := hclose.here?_eq
    refine ⟨t.moveTo (t.cursor.advance .anyLine), _, hnoted, hclose, ?_⟩
    simp only [Grammar.genericArguments, meets_bind, meets_glued, hglued, if_true, meets_shift,
      meets_advance, State.cursor_moveTo, State.moveTo_moveTo, meets_read_of_reads hreads,
      meets_here, hhere, meets_pure, and_self]

/-- What stands behind a path does not go on with it. -/
def EndsPath (later : List TokenKind) : Prop :=
  later.head? ≠ some (.operator "<") ∧ later.head? ≠ some (.punctuator .period)

lemma anyName?_ofWord (name : String) : (TokenKind.ofWord name).anyName? = some name := by
  rcases TokenKind.ofWord_cases name with h | ⟨role, h⟩ <;> rw [h] <;> rfl

/-- The last name of a path. -/
lemma typePath_readsFrom_single {name : String} {arguments : List TypeExpr}
    (hperiod : later.head? ≠ some (.punctuator .period))
    (h : Grammar.genericArguments.EndsFrom inside (.ofWord name :: TypeExpr.angled arguments) later
      arguments) :
    typePath.ReadsFrom inside (TypeSegment.spelling [⟨name, arguments⟩]) later
      [⟨name, arguments⟩] := by
  intro s hsees
  have hhere : s.cursor.here? = some (.ofWord name) := hsees.here?_eq
  rw [TypeSegment.spelling, TypeSegment.laterSpelling, List.append_nil] at hsees
  obtain ⟨t, last, hnoted, hlast, hmeets⟩ := h [] s hsees
  have hglued : t.cursor.glued? 0 ≠ some (.punctuator .period) := by
    rw [hlast.glued?_eq]
    intro hsome
    rw [Option.filter_eq_some_iff, ← List.head?_eq_getElem?] at hsome
    exact hperiod hsome.1
  refine ⟨t, last, Reads.of_meets (roomInside?_of_not_isLevel rfl) ?_, hnoted, hlast⟩
  simp only [procedure, Grammar.typePath, meets_bind, meets_here, hhere, Option.bind_some,
    anyName?_ofWord]
  refine hmeets.imp (fun way b s' hb => ?_) fun _ _ _ => id
  obtain ⟨rfl, rfl⟩ := hb
  simp only [Grammar.pathContinues, meets_bind, meets_isGlued, hglued, decide_false,
    Bool.false_eq_true, if_false, meets_pure, and_self]

/-- A name with further ones behind it. -/
lemma typePath_readsFrom_cons {name other : String} {arguments others : List TypeExpr}
    {rest : List TypeSegment} (hother : IsPathName other)
    (h : Grammar.genericArguments.EndsFrom inside (.ofWord name :: TypeExpr.angled arguments)
      (TypeSegment.laterSpelling (⟨other, others⟩ :: rest) ++ later) arguments)
    (hrest : typePath.ReadsFrom inside (TypeSegment.spelling (⟨other, others⟩ :: rest)) later
      (⟨other, others⟩ :: rest)) :
    typePath.ReadsFrom inside (TypeSegment.spelling (⟨name, arguments⟩ :: ⟨other, others⟩ :: rest))
      later (⟨name, arguments⟩ :: ⟨other, others⟩ :: rest) := by
  intro s hsees
  have hhere : s.cursor.here? = some (.ofWord name) := hsees.here?_eq
  rw [TypeSegment.spelling, ← List.cons_append, List.append_assoc] at hsees
  obtain ⟨t, last, hnoted, hlast, hmeets⟩ := h [] s hsees
  have hzero : t.cursor.glued? 0 = some (.punctuator .period) := by
    rw [hlast.glued?_eq]
    rfl
  have hone : t.cursor.glued? 1 = some (.ofWord other) := by
    rw [hlast.glued?_eq]
    change (some (TokenKind.ofWord other)).filter _ = _
    rw [Option.filter_some, TokenKind.isBlank_ofWord]
    rfl
  obtain ⟨u, last', hreads, hnoted', hlast'⟩ := hrest (t.moveTo t.cursor.shift.shift)
    hlast.shift.shift
  refine ⟨u, last', Reads.of_meets (roomInside?_of_not_isLevel rfl) ?_, hnoted'.trans hnoted, hlast'⟩
  simp only [procedure, Grammar.typePath, meets_bind, meets_here, hhere, Option.bind_some,
    anyName?_ofWord]
  refine hmeets.imp (fun way b s' hb => ?_) fun _ _ _ => id
  obtain ⟨rfl, rfl⟩ := hb
  simp only [Grammar.pathContinues, meets_bind, meets_isGlued, hzero, decide_true, if_true,
    meets_glued, hone, Option.bind_some, hother.2, meets_pure, meets_shift, State.cursor_moveTo,
    State.moveTo_moveTo, meets_read_of_reads hreads, and_self]

end Goal

/-! ### All types -/

/-- Types that are read from their spelling, given with the types in them: all paths are named,
and no mark stands directly behind a function. -/
structure TypeExpr.Legible (all : List TypeExpr) : Prop where
  named : ∀ path, .named path ∈ all → TypeSegment.Named path
  marked : ∀ parameters throws result mark, (function parameters throws result).mark mark ∉ all

lemma TypeExpr.Legible.of_subset {all some : List TypeExpr} (h : Legible all) (hsub : some ⊆ all) :
    Legible some :=
  ⟨fun path hpath => h.named path (hsub hpath), fun p t r m hmem => h.marked p t r m (hsub hmem)⟩

lemma TypeExpr.followed_cons {kind : TokenKind} (h : kind ∈ followers) (later : List TokenKind) :
    Followed (kind :: later) := by
  rintro _ ⟨⟩
  exact h

lemma endsPath_marks (marks : List TypeMark) {later : List TokenKind}
    (hlater : TypeExpr.Followed later) : Goal.EndsPath (marks.map TypeMark.kind ++ later) := by
  cases marks with
  | nil =>
    have hall : ∀ kind ∈ TypeExpr.followers,
        kind ≠ .operator "<" ∧ kind ≠ .punctuator .period := by decide
    exact ⟨fun h => (hall _ (hlater _ h)).1 rfl, fun h => (hall _ (hlater _ h)).2 rfl⟩
  | cons mark marks => cases mark <;> exact ⟨nofun, nofun⟩

mutual

/-- A type is read from its spelling and the marks behind it. -/
theorem TypeExpr.reads_spelling : (T : TypeExpr) → ∀ (room : Nat) (marks : List TypeMark)
    (later : List TokenKind), TypeExpr.Legible T.parts →
    (marks ≠ [] → ∀ parameters throws result, T ≠ .function parameters throws result) →
    T.spelling.length ≤ room → TypeExpr.Followed later →
    Goal.type.ReadsFrom room (T.spelling ++ marks.map TypeMark.kind) later
      (marks.foldl TypeExpr.mark T)
  -- what stands inside a type is read with one level of room less
  | .named path, room, marks, later, h, _, hroom, hlater => by
    have hpath := h.named path (by simp [TypeExpr.parts])
    rcases path with _ | ⟨⟨name, inner⟩, rest⟩
    · exact hpath.elim
    obtain ⟨inside, rfl⟩ : ∃ inside, room = inside + 1 :=
      Nat.exists_eq_succ_of_ne_zero (by rintro rfl; simp [TypeExpr.spelling, TypeSegment.spelling] at hroom)
    refine Goal.type_readsFrom marks hlater (Goal.named_endsFrom hpath ?_)
    exact TypeSegment.reads_spelling (⟨name, inner⟩ :: rest) inside _ (List.cons_ne_nil _ _) hpath.2
      (h.of_subset fun _ => List.mem_cons_of_mem _) hroom (endsPath_marks marks hlater)
  | .array element, room, marks, later, h, _, hroom, hlater => by
    have helement : TypeExpr.Legible element.parts := h.of_subset fun _ => List.mem_cons_of_mem _
    simp only [TypeExpr.spelling, List.length_cons, List.length_append, List.length_nil] at hroom
    obtain ⟨inside, rfl⟩ : ∃ inside, room = inside + 1 :=
      Nat.exists_eq_succ_of_ne_zero (by omega)
    have hread := element.reads_spelling inside []
      (.punctuator .rightSquare :: (marks.map TypeMark.kind ++ later)) helement
      (fun hne => absurd rfl hne) (by omega) (TypeExpr.followed_cons (by decide) _)
    rw [List.map_nil, List.append_nil] at hread
    exact Goal.type_readsFrom marks hlater (Goal.array_endsFrom helement.named hread)
  | .dictionary key value, room, marks, later, h, _, hroom, hlater => by
    have hkey : TypeExpr.Legible key.parts := h.of_subset fun _ hmem =>
      List.mem_cons_of_mem _ (List.mem_append_left _ hmem)
    have hvalue : TypeExpr.Legible value.parts := h.of_subset fun _ hmem =>
      List.mem_cons_of_mem _ (List.mem_append_right _ hmem)
    simp only [TypeExpr.spelling, List.length_cons, List.length_append, List.length_nil] at hroom
    obtain ⟨inside, rfl⟩ : ∃ inside, room = inside + 1 :=
      Nat.exists_eq_succ_of_ne_zero (by omega)
    have hread := key.reads_spelling inside []
      (.punctuator .colon :: .whitespace :: (value.spelling ++
        .punctuator .rightSquare :: (marks.map TypeMark.kind ++ later))) hkey
      (fun hne => absurd rfl hne) (by omega) (TypeExpr.followed_cons (by decide) _)
    have hread' := value.reads_spelling inside []
      (.punctuator .rightSquare :: (marks.map TypeMark.kind ++ later)) hvalue
      (fun hne => absurd rfl hne) (by omega) (TypeExpr.followed_cons (by decide) _)
    rw [List.map_nil, List.append_nil] at hread hread'
    exact Goal.type_readsFrom marks hlater
      (Goal.dictionary_endsFrom hkey.named hvalue.named hread hread')
  -- the mark of the type joins the marks behind it, so no room is taken
  | .optional wrapped, room, marks, later, h, _, hroom, hlater => by
    simp only [TypeExpr.spelling, List.length_append] at hroom
    have hread := wrapped.reads_spelling room (.question :: marks) later
      (h.of_subset fun _ => List.mem_cons_of_mem _)
      (fun _ p t r heq => h.marked p t r .question (by simp [TypeExpr.parts, TypeExpr.mark, heq]))
      (by omega) hlater
    simpa [TypeExpr.spelling, TypeMark.kind, TypeExpr.mark] using hread
  | .unwrapped wrapped, room, marks, later, h, _, hroom, hlater => by
    simp only [TypeExpr.spelling, List.length_append] at hroom
    have hread := wrapped.reads_spelling room (.exclamation :: marks) later
      (h.of_subset fun _ => List.mem_cons_of_mem _)
      (fun _ p t r heq => h.marked p t r .exclamation (by simp [TypeExpr.parts, TypeExpr.mark, heq]))
      (by omega) hlater
    simpa [TypeExpr.spelling, TypeMark.kind, TypeExpr.mark] using hread
  | .tuple elements, room, marks, later, h, _, hroom, hlater => by
    have helements : TypeExpr.Legible (TypeExpr.partsAll elements) :=
      h.of_subset fun _ => List.mem_cons_of_mem _
    simp only [TypeExpr.spelling, List.length_cons, List.length_append, List.length_nil] at hroom
    obtain ⟨inside, rfl⟩ : ∃ inside, room = inside + 1 :=
      Nat.exists_eq_succ_of_ne_zero (by omega)
    refine Goal.type_readsFrom marks hlater (Goal.tuple_endsFrom (Goal.endsTuple_marks marks hlater)
      (Goal.tupleTypeElements_endsFrom ?_ ?_))
    · rintro first rest rfl path hpath
      exact helements.named path (List.mem_append_left _ hpath)
    · rintro first rest rfl
      exact TypeExpr.reads_spellings (first :: rest) inside _ (List.cons_ne_nil _ _) helements
        (by omega) (TypeExpr.followed_cons (by decide) _) nofun
  | .function parameters throws result, room, marks, later, h, hfunction, hroom, hlater => by
    have hparameters : TypeExpr.Legible (TypeExpr.partsAll parameters) := h.of_subset fun _ hmem =>
      List.mem_cons_of_mem _ (List.mem_append_left _ hmem)
    have hresult : TypeExpr.Legible result.parts := h.of_subset fun _ hmem =>
      List.mem_cons_of_mem _ (List.mem_append_right _ hmem)
    -- marks behind a function would be those of its result
    obtain rfl : marks = [] := by
      by_contra hne
      exact hfunction hne parameters throws result rfl
    simp only [TypeExpr.spelling, List.length_cons, List.length_append] at hroom
    obtain ⟨inside, rfl⟩ : ∃ inside, room = inside + 1 :=
      Nat.exists_eq_succ_of_ne_zero (by omega)
    have hread := result.reads_spelling inside [] later hresult (fun hne => absurd rfl hne)
      (by omega) hlater
    rw [List.map_nil, List.append_nil] at hread
    refine Goal.type_readsFrom [] hlater (Goal.function_endsFrom hresult.named
      (Goal.tupleTypeElements_endsFrom ?_ ?_) hread)
    · rintro first rest rfl path hpath
      exact hparameters.named path (List.mem_append_left _ hpath)
    · rintro first rest rfl
      exact TypeExpr.reads_spellings (first :: rest) inside _ (List.cons_ne_nil _ _) hparameters
        (by omega) (TypeExpr.followed_cons (by decide) _) nofun

/-- Types with commas between them are read from their spellings. -/
theorem TypeExpr.reads_spellings : (elements : List TypeExpr) → ∀ (room : Nat)
    (later : List TokenKind), elements ≠ [] → TypeExpr.Legible (TypeExpr.partsAll elements) →
    (TypeExpr.spellings elements).length ≤ room → TypeExpr.Followed later →
    later.head? ≠ some (.punctuator .comma) →
    Goal.types.ReadsFrom room (TypeExpr.spellings elements) later elements
  | [], _, _, hne, _, _, _, _ => absurd rfl hne
  | [T], room, later, _, h, hroom, hlater, hcomma => by
    simp only [TypeExpr.spellings, List.length_append] at hroom
    have hread := T.reads_spelling room [] later
      (h.of_subset fun _ hmem => List.mem_append_left _ hmem) (fun hne => absurd rfl hne)
      (by omega) hlater
    rw [List.map_nil, List.append_nil] at hread
    exact Goal.types_readsFrom_single hcomma hlater hread
  | T :: second :: rest, room, later, _, h, hroom, hlater, hcomma => by
    have hrest : TypeExpr.Legible (TypeExpr.partsAll (second :: rest)) :=
      h.of_subset fun _ hmem => List.mem_append_right _ hmem
    simp only [TypeExpr.spellings, TypeExpr.laterSpellings, List.length_append, List.length_cons]
      at hroom
    have hread := T.reads_spelling room [] (TypeExpr.laterSpellings (second :: rest) ++ later)
      (h.of_subset fun _ hmem => List.mem_append_left _ hmem) (fun hne => absurd rfl hne)
      (by omega) (TypeExpr.followed_cons (by decide) _)
    rw [List.map_nil, List.append_nil] at hread
    refine Goal.types_readsFrom_cons
      (fun path hpath => hrest.named path (List.mem_append_left _ hpath)) hread ?_
    refine TypeExpr.reads_spellings (second :: rest) room later (List.cons_ne_nil _ _) hrest ?_
      hlater hcomma
    simp only [TypeExpr.spellings, List.length_append]
    omega

/-- A path is read from its spelling. -/
theorem TypeSegment.reads_spelling : (path : List TypeSegment) → ∀ (room : Nat)
    (later : List TokenKind), path ≠ [] →
    (∀ other inner, ⟨other, inner⟩ ∈ path.tail → IsPathName other) →
    TypeExpr.Legible (TypeSegment.partsAll path) →
    (TypeSegment.spelling path).length ≤ room + 1 → Goal.EndsPath later →
    Goal.typePath.ReadsFrom room (TypeSegment.spelling path) later path
  | [], _, _, hne, _, _, _, _ => absurd rfl hne
  | [⟨name, inner⟩], room, later, _, _, h, hroom, hlater => by
    have hinner : TypeExpr.Legible (TypeExpr.partsAll inner) :=
      h.of_subset fun _ hmem => List.mem_append_left _ hmem
    refine Goal.typePath_readsFrom_single hlater.2
      (Goal.genericArguments_endsFrom name hlater.1 ?_ ?_)
    · rintro first rest rfl path hpath
      exact hinner.named path (List.mem_append_left _ hpath)
    · rintro first rest rfl
      simp only [TypeSegment.spelling, TypeExpr.angled, List.length_cons, List.length_append] at hroom
      refine TypeExpr.reads_spellings (first :: rest) room _ (List.cons_ne_nil _ _) hinner ?_
        (TypeExpr.followed_cons (by decide) _) nofun
      simp only [TypeExpr.spellings, List.length_append]
      omega
  -- the arguments and the later segments are each shorter than the path, and so fit into the room
  | ⟨name, inner⟩ :: ⟨other, others⟩ :: rest, room, later, _, hnames, h, hroom, hlater => by
    have hinner : TypeExpr.Legible (TypeExpr.partsAll inner) :=
      h.of_subset fun _ hmem => List.mem_append_left _ hmem
    have hrest : TypeExpr.Legible (TypeSegment.partsAll (⟨other, others⟩ :: rest)) :=
      h.of_subset fun _ hmem => List.mem_append_right _ hmem
    refine Goal.typePath_readsFrom_cons (hnames other others List.mem_cons_self)
      (Goal.genericArguments_endsFrom name nofun ?_ ?_) ?_
    · rintro first rest rfl path hpath
      exact hinner.named path (List.mem_append_left _ hpath)
    · rintro first rest rfl
      simp only [TypeSegment.spelling, TypeExpr.angled, List.length_cons, List.length_append] at hroom
      refine TypeExpr.reads_spellings (first :: _) room _ (List.cons_ne_nil _ _) hinner ?_
        (TypeExpr.followed_cons (by decide) _) nofun
      simp only [TypeExpr.spellings, List.length_append]
      omega
    · refine TypeSegment.reads_spelling (⟨other, others⟩ :: rest) room later (List.cons_ne_nil _ _)
        (fun o i hmem => hnames o i (List.mem_cons_of_mem _ hmem)) hrest ?_ hlater
      simp only [TypeSegment.spelling, TypeSegment.laterSpelling, List.length_cons,
        List.length_append] at hroom ⊢
      omega

end

end FrontEnd
