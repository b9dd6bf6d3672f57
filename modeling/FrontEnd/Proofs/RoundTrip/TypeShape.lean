/-
What types are read from.

A type is read from tokens among which the only operators are angle brackets.  As long as a
mark is glued to a type it is read with it, so no mark stands directly behind the result of a
function: `Goal.Reads.shapesType`.
-/
import FrontEnd.Proofs.Cursor.Behind
import FrontEnd.Proofs.Nodes.Reading
import FrontEnd.Proofs.RoundTrip.TypeText

namespace FrontEnd

/-! ### Operators that types are not made of -/

/-- An operator that does not occur in types. -/
def TokenKind.isForeign : TokenKind → Bool
  | .operator symbol => symbol ≠ "<" && symbol ≠ ">"
  | _ => false

lemma TokenKind.isForeign_of_isBlank {kind : TokenKind} (h : kind.isBlank = true) :
    kind.isForeign = false := by
  cases kind <;> first | rfl | cases h

lemma TokenKind.isForeign_plain (kind : TokenKind) : kind.plain.isForeign = kind.isForeign := by
  cases kind <;> rfl

namespace Cursor

/-- How many foreign operators there are from the current token on. -/
def foreignAhead (c : Cursor) : Nat :=
  c.ahead.countP (·.kind.isForeign)

/-- How many foreign operators there are behind the current token. -/
def foreignLater (c : Cursor) : Nat :=
  c.remaining.countP (·.kind.isForeign)

variable {c : Cursor}

@[simp] lemma foreignAhead_shift (c : Cursor) : c.shift.foreignAhead = c.foreignLater := by
  rw [foreignAhead, shift_eq_land, ahead_land, foreignLater]

/-- The way to the next token of interest only passes blanks. -/
@[simp] lemma foreignAhead_advance (reach : Reach) (c : Cursor) :
    (c.advance reach).foreignAhead = c.foreignLater := by
  have hzero : (c.remaining.takeWhile fun t => reach.passes t.kind).countP (·.kind.isForeign) = 0 := by
    refine List.countP_eq_zero.mpr fun t ht => ?_
    have hpasses := List.mem_takeWhile_imp ht
    simp [TokenKind.isForeign_of_isBlank (isBlank_of_passes hpasses)]
  rw [foreignAhead, advance_eq_land, ahead_land, foreignLater]
  conv_rhs => rw [← List.takeWhile_append_dropWhile (p := fun t => reach.passes t.kind)
    (l := c.remaining)]
  rw [List.countP_append, hzero, Nat.zero_add]

/-- A current token that is not foreign. -/
lemma foreignAhead_of_here? {kind : TokenKind} (h : c.here? = some kind)
    (hkind : kind.isForeign = false) : c.foreignAhead = c.foreignLater := by
  rw [foreignAhead, ahead, foreignLater]
  rcases hcurrent : c.current? with _ | t
  · rfl
  · have ht : t.kind.isForeign = false := by
      rw [← TokenKind.isForeign_plain]
      have hplain : t.kind.plain = kind := by simpa [here?, kind?, hcurrent] using h
      rwa [hplain]
    simp [ht]

end Cursor

namespace Cursor

variable {c : Cursor} {kind : TokenKind}

/-- A token that is glued to the current one is not foreign. -/
lemma foreignLater_shift (h : c.glued? 0 = some kind) (hkind : kind.isForeign = false) :
    c.shift.foreignLater = c.foreignLater := by
  rw [← foreignAhead_of_here? (here?_shift_of_glued? h) hkind, foreignAhead_shift]

/-- The next token of interest is not foreign. -/
lemma foreignLater_advance {reach : Reach} (h : (c.advance reach).here? = some kind)
    (hkind : kind.isForeign = false) : (c.advance reach).foreignLater = c.foreignLater := by
  rw [← foreignAhead_of_here? h hkind, foreignAhead_advance]

lemma foreignLater_advance_of_following? {reach : Reach} (h : c.following? reach = some kind)
    (hkind : kind.isForeign = false) : (c.advance reach).foreignLater = c.foreignLater :=
  foreignLater_advance (by rw [here?_advance, h]) hkind

end Cursor

/-! ### Marks -/

/-- A mark stands directly behind the current token. -/
def Cursor.MarkedNext (c : Cursor) : Prop :=
  c.glued? 0 = some (.punctuator .question) ∨ c.glued? 0 = some (.punctuator .exclamation)

namespace TypeExpr

/-- Among types, given with the types in them, no mark stands directly behind a function. -/
def MarkedWell (all : List TypeExpr) : Prop :=
  ∀ parameters throws result mark, (function parameters throws result).mark mark ∉ all

/-- A type that is no function. -/
def IsData (T : TypeExpr) : Prop :=
  ∀ parameters throws result, T ≠ function parameters throws result

@[simp] lemma markedWell_nil : MarkedWell [] :=
  fun _ _ _ _ h => nomatch h

@[simp] lemma markedWell_append {all others : List TypeExpr} :
    MarkedWell (all ++ others) ↔ MarkedWell all ∧ MarkedWell others := by
  simp only [MarkedWell, List.mem_append, not_or, forall_and]

/-- A type without a mark of its own, in front of the types in it. -/
lemma markedWell_cons {T : TypeExpr} {all : List TypeExpr}
    (h : ∀ wrapped mark, T ≠ TypeExpr.mark wrapped mark) : MarkedWell (T :: all) ↔ MarkedWell all := by
  simp only [MarkedWell, List.mem_cons, not_or]
  exact ⟨fun hall p t r m => (hall p t r m).2, fun hall p t r m => ⟨fun heq => h _ m heq.symm, hall p t r m⟩⟩

/-- Marks behind a type that is no function. -/
lemma markedWell_foldl {T : TypeExpr} (h : MarkedWell T.parts) (marks : List TypeMark)
    (hdata : marks ≠ [] → T.IsData) : MarkedWell (marks.foldl TypeExpr.mark T).parts := by
  induction marks generalizing T with
  | nil => exact h
  | cons mark marks ih =>
    have hT := hdata (List.cons_ne_nil _ _)
    refine ih ?_ fun _ => ?_
    · have hmark : (T.mark mark).parts = T.mark mark :: T.parts := by cases mark <;> rfl
      rw [hmark]
      intro p t r m hmem
      rcases List.mem_cons.mp hmem with heq | hmem
      · have hinner : function p t r = T := by cases mark <;> cases m <;> cases heq <;> rfl
        exact hT p t r hinner.symm
      · exact h p t r m hmem
    · cases mark <;> exact nofun

end TypeExpr

/-! ### The contract -/

/-- What goals for types read, and from what. -/
@[simp] def Goal.ShapesType (s s' : State) : (g : Goal) → g.Result → Prop
  | type, T =>
    TypeExpr.MarkedWell T.parts ∧ ¬ s'.cursor.MarkedNext ∧
      s.cursor.foreignAhead = s'.cursor.foreignLater
  | typeMarks, marks =>
    (¬ s.cursor.MarkedNext → marks = []) ∧ ¬ s'.cursor.MarkedNext ∧
      s.cursor.foreignLater = s'.cursor.foreignLater
  | types, several =>
    TypeExpr.MarkedWell (TypeExpr.partsAll several) ∧
      s.cursor.foreignAhead = s'.cursor.foreignLater
  | typePath, path =>
    TypeExpr.MarkedWell (TypeSegment.partsAll path) ∧
      s.cursor.foreignAhead = s'.cursor.foreignLater
  | _, _ => True

/-- What is read of types has this shape. -/
def shaping : Contract where
  enter _ _ := True
  value g s a s' := g.ShapesType s s' a
  error _ _ _ _ := True

/-- What the goals that are called promise. -/
abbrev shapedIn : Contract :=
  shaping.given fun _ _ _ => True

section

variable (g : Goal) (s : State)

@[simp] lemma shaping_enter : shaping.enter g s ↔ True := Iff.rfl

@[simp] lemma shaping_value (a : g.Result) (s' : State) :
    shaping.value g s a s' ↔ g.ShapesType s s' a := Iff.rfl

@[simp] lemma shaping_error (e : ParseError) (s' : State) :
    shaping.error g s e s' ↔ True := Iff.rfl

end

namespace Grammar

open Procedure

variable (way : List Event) (s : State)

lemma typeMarks_shapes : typeMarks.Meets shapedIn way s
    (fun _ marks s' => Goal.typeMarks.ShapesType s s' marks) fun _ _ _ => True := by
  simp only [typeMarks, meets_bind, meets_glued]
  split
  next hquestion =>
    simp
    intro later t _ hends hcount
    exact ⟨.inl hquestion, hends, (Cursor.foreignLater_shift hquestion rfl).symm.trans hcount⟩
  next hexclamation =>
    simp
    intro later t _ hends hcount
    exact ⟨.inr hexclamation, hends, (Cursor.foreignLater_shift hexclamation rfl).symm.trans hcount⟩
  next hquestion hexclamation =>
    simp
    rintro (h | h)
    · exact hquestion h
    · exact hexclamation h

lemma types_shapes : types.Meets shapedIn way s
    (fun _ several s' => Goal.types.ShapesType s s' several) fun _ _ _ => True := by
  simp [types, TypeExpr.partsAll]
  intro T t hT _ hcount
  refine ⟨fun hcomma later u hlater hcount' => ⟨⟨hT, hlater⟩, ?_⟩, fun _ => ⟨hT, hcount⟩⟩
  rw [hcount, ← Cursor.foreignLater_advance_of_following? hcomma rfl, hcount']

/-- A type from its first token to its last one, without the marks behind it. -/
def ShapesBase (s : State) (T : TypeExpr) (s' : State) : Prop :=
  TypeExpr.MarkedWell T.parts ∧ s.cursor.foreignAhead = s'.cursor.foreignLater ∧
    (¬ s'.cursor.MarkedNext ∨ T.IsData)

/-- A type without a mark of its own, in front of the types in it. -/
lemma markedWell_parts {T : TypeExpr} {inner : List TypeExpr} (hparts : T.parts = T :: inner)
    (hmark : ∀ wrapped mark, T ≠ TypeExpr.mark wrapped mark) (h : TypeExpr.MarkedWell inner) :
    TypeExpr.MarkedWell T.parts := by
  rw [hparts, TypeExpr.markedWell_cons hmark]
  exact h

lemma collectionType_shapes (hhere : s.cursor.here? = some (.punctuator .leftSquare)) :
    collectionType.Meets shapedIn way s (fun _ T s' => ShapesBase s T s') fun _ _ _ => True := by
  have hopen := Cursor.foreignAhead_of_here? hhere rfl
  simp [collectionType, ShapesBase]
  intro first t hfirst _ hcount
  refine ⟨fun hcolon value u hvalue _ hcount' hclose => ⟨?_, ?_, .inr (by simp [TypeExpr.IsData])⟩,
    fun _ hclose => ⟨?_, ?_, .inr (by simp [TypeExpr.IsData])⟩⟩
  · exact markedWell_parts rfl (by rintro _ (_ | _) <;> simp [TypeExpr.mark])
      (TypeExpr.markedWell_append.mpr ⟨hfirst, hvalue⟩)
  · rw [Cursor.foreignLater_advance hclose rfl, ← hcount',
      Cursor.foreignLater_advance_of_following? hcolon rfl, ← hcount, hopen]
  · exact markedWell_parts rfl (by rintro _ (_ | _) <;> simp [TypeExpr.mark]) hfirst
  · rw [Cursor.foreignLater_advance hclose rfl, ← hcount, hopen]

lemma tupleTypeElements_shapes (hhere : s.cursor.here? = some (.punctuator .leftParen)) :
    tupleTypeElements.Meets shapedIn way s
      (fun _ several s' => TypeExpr.MarkedWell (TypeExpr.partsAll several) ∧
        s.cursor.foreignAhead = s'.cursor.foreignLater) fun _ _ _ => True := by
  have hopen := Cursor.foreignAhead_of_here? hhere rfl
  simp [tupleTypeElements, TypeExpr.partsAll]
  refine ⟨fun hclose => ?_, fun _ several t hseveral hcount hclose => ⟨hseveral, ?_⟩⟩
  · rw [hopen, Cursor.foreignLater_advance hclose rfl]
  · rw [hopen, hcount, Cursor.foreignLater_advance hclose rfl]

lemma tupleOrFunctionType_shapes (hhere : s.cursor.here? = some (.punctuator .leftParen)) :
    tupleOrFunctionType.Meets shapedIn way s (fun _ T s' => ShapesBase s T s') fun _ _ _ => True := by
  simp only [tupleOrFunctionType, meets_bind]
  refine (tupleTypeElements_shapes way s hhere).imp (fun way several t ht => ?_) (by simp)
  obtain ⟨hseveral, hcount⟩ := ht
  have hfunction (throws : Bool) (result : TypeExpr) (h : TypeExpr.MarkedWell result.parts) :
      TypeExpr.MarkedWell (TypeExpr.function several throws result).parts :=
    markedWell_parts rfl (by rintro _ (_ | _) <;> simp [TypeExpr.mark])
      (TypeExpr.markedWell_append.mpr ⟨hseveral, h⟩)
  have hthrows : (t.cursor.following? .sameLine).any (·.isKeyword "throws") = true →
      (t.cursor.advance .sameLine).foreignLater = t.cursor.foreignLater := by
    intro h
    rcases hkind : t.cursor.following? .sameLine with _ | kind
    · simp [hkind] at h
    · refine Cursor.foreignLater_advance_of_following? hkind ?_
      rw [hkind, Option.any_some] at h
      cases kind <;> first | rfl | cases h
  have htuple : TypeExpr.MarkedWell (TypeExpr.tuple several).parts :=
    markedWell_parts rfl (by rintro _ (_ | _) <;> simp [TypeExpr.mark]) hseveral
  simp [ShapesBase]
  refine ⟨fun hword => ⟨fun harrow T u hT hends hcount' => ⟨hfunction _ T hT, ?_, .inl hends⟩,
      fun _ hnot => ?_⟩,
    fun _ => ⟨fun harrow T u hT hends hcount' => ⟨hfunction _ T hT, ?_, .inl hends⟩,
      fun _ _ => ⟨htuple, hcount, .inr (by simp [TypeExpr.IsData])⟩⟩⟩
  · rw [hcount, ← hthrows hword, ← hcount',
      Cursor.foreignLater_advance_of_following? harrow rfl]
  · rw [hword] at hnot
    cases hnot
  · rw [hcount, ← hcount', Cursor.foreignLater_advance_of_following? harrow rfl]

lemma unmarkedType_shapes : unmarkedType.Meets shapedIn way s
    (fun _ T s' => ShapesBase s T s') fun _ _ _ => True := by
  simp only [unmarkedType, meets_bind, meets_here]
  split
  next hhere => exact collectionType_shapes way s hhere
  next hhere => exact tupleOrFunctionType_shapes way s hhere
  next kind _ _ hhere =>
    simp [ShapesBase]
    refine fun _ path t hpath hcount => ⟨?_, hcount, .inr (by simp [TypeExpr.IsData])⟩
    exact markedWell_parts rfl (by rintro _ (_ | _) <;> simp [TypeExpr.mark]) hpath
  next => trivial

lemma type_shapes : type.Meets shapedIn way s
    (fun _ T s' => Goal.type.ShapesType s s' T) fun _ _ _ => True := by
  simp only [type, meets_bind]
  refine (unmarkedType_shapes way s).imp (fun way T t hT => ?_) (by simp)
  obtain ⟨hmarked, hcount, hdata⟩ := hT
  simp
  intro marks u hmarks hends hcount'
  refine ⟨TypeExpr.markedWell_foldl hmarked marks fun hne => ?_, hends, hcount.trans hcount'⟩
  -- behind a function there are no marks left to read
  rcases hdata with hnot | hdata
  · exact absurd (hmarks hnot) hne
  · exact hdata

lemma genericArguments_shapes : genericArguments.Meets shapedIn way s
    (fun _ several s' => TypeExpr.MarkedWell (TypeExpr.partsAll several) ∧
      s.cursor.foreignLater = s'.cursor.foreignLater) fun _ _ _ => True := by
  simp [genericArguments, TypeExpr.partsAll]
  intro hangle several t hseveral hcount hclose
  refine ⟨hseveral, ?_⟩
  rw [Cursor.foreignLater_advance hclose rfl, ← hcount, Cursor.foreignLater_shift hangle rfl]

lemma typePath_shapes : typePath.Meets shapedIn way s
    (fun _ path s' => Goal.typePath.ShapesType s s' path) fun _ _ _ => True := by
  simp only [typePath, meets_bind, meets_here]
  split
  next => trivial
  next name hname =>
    obtain ⟨kind, hhere, hkind⟩ := Option.bind_eq_some_iff.mp hname
    have hforeign : kind.isForeign = false := by cases kind <;> first | rfl | cases hkind
    have hcount := Cursor.foreignAhead_of_here? hhere hforeign
    simp only [meets_bind]
    refine (genericArguments_shapes way s).imp (fun way several t ht => ?_) (by simp)
    obtain ⟨hseveral, hcount'⟩ := ht
    have hend : TypeExpr.MarkedWell (TypeExpr.partsAll several) ∧
        s.cursor.foreignAhead = t.cursor.foreignLater := ⟨hseveral, hcount.trans hcount'⟩
    simp [pathContinues, TypeSegment.partsAll]
    refine ⟨fun hperiod => ⟨fun _ path u hpath hcount'' => ⟨⟨hseveral, hpath⟩, ?_⟩, fun _ => hend⟩,
      fun _ => hend⟩
    rw [hend.2, ← hcount'', Cursor.foreignLater_shift hperiod rfl]

end Grammar

/-! ### Readings -/

open Grammar in
lemma Goal.procedure_shapesType (g : Goal) (way : List Event) (s : State) :
    g.procedure.Meets shapedIn way s (fun _ a s' => g.ShapesType s s' a) fun _ _ _ => True := by
  cases g with
  | type => exact type_shapes way s
  | types => exact types_shapes way s
  | typePath => exact typePath_shapes way s
  | typeMarks => exact typeMarks_shapes way s
  | _ => exact Procedure.meets_of_forall (fun _ _ => trivial) _ _ _ (by simp) (by simp)

lemma shaping_kept :
    Contract.Family.Kept (fun _ _ _ => True) fun _ _ => shaping where
  procedure _ _ _ g s _ _ :=
    (g.procedure_shapesType [] s).imp (fun _ _ _ ha _ _ => ha) fun _ _ _ _ _ _ => trivial
  noRoom _ _ _ _ _ _ := trivial

/-- The shape of what goals for types read. -/
theorem Goal.Reads.shapesType {room : Nat} {g : Goal} {s s' : State} {a : g.Result}
    (h : g.Reads room s (.ok a) s') : g.ShapesType s s' a := by
  obtain ⟨bound, hr⟩ := h
  exact (shaping_kept.finished known_true bound room g s trivial).1 a s' hr

end FrontEnd
