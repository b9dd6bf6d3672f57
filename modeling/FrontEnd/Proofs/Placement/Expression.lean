/-
Types, expressions and patterns place what they read.
-/
import FrontEnd.Proofs.Placement.Basic

namespace FrontEnd

open RangeTree

namespace Grammar

open Procedure

variable {s : State}

/-! ### Types -/

lemma collectionType_places (hs : s.cursor.Placed) : collectionType.Places s fun _ _ => True := by
  intro way
  simp [collectionType]
  grind -ring -linarith

lemma tupleTypeElements_places (hs : s.cursor.Placed) :
    tupleTypeElements.Places s fun _ _ => True := by
  intro way
  simp [tupleTypeElements]
  grind -ring -linarith

lemma tupleOrFunctionType_places (hs : s.cursor.Placed) :
    tupleOrFunctionType.Places s fun _ _ => True := by
  intro way
  simp [tupleOrFunctionType]
  refine (tupleTypeElements_places hs).imp fun way elements t ht _ => ?_
  refine ⟨fun _ => ?_, fun _ => ?_⟩ <;> grind -ring -linarith

lemma unmarkedType_places (hs : s.cursor.Placed) : unmarkedType.Places s fun _ _ => True := by
  intro way
  simp [unmarkedType]
  split
  · exact (collectionType_places hs).imp fun _ _ _ ht _ => ht
  · exact (tupleOrFunctionType_places hs).imp fun _ _ _ ht _ => ht
  · simp
    grind -ring -linarith
  · simp

lemma type_places (hs : s.cursor.Placed) : type.Places s fun _ _ => True := by
  intro way
  simp [type]
  refine (unmarkedType_places hs).imp ?_
  grind -ring -linarith

lemma typeMarks_places (hs : s.cursor.Placed) : typeMarks.Places s fun _ _ => True := by
  intro way
  simp [typeMarks]
  split <;> simp <;> grind -ring -linarith

lemma types_places (hs : s.cursor.Placed) : types.Places s fun _ _ => True := by
  intro way
  simp [types]
  grind -ring -linarith

lemma genericArguments_places (hs : s.cursor.Placed) :
    genericArguments.Places s fun _ _ => True := by
  intro way
  simp [genericArguments]
  grind -ring -linarith

lemma typePath_places (hs : s.cursor.Placed) : typePath.Places s fun _ _ => True := by
  intro way
  simp [typePath, pathContinues]
  split
  · simp
  · simp
    refine (genericArguments_places hs).imp ?_
    grind -ring -linarith

/-! ### Expressions -/

lemma collectionLiteral_places (hs : s.cursor.Placed) (hleft : 0 < s.cursor.left) :
    collectionLiteral.Places s fun build s' =>
      (build ⟨s.cursor.startLocation, s'.cursor.stopLocation⟩).Spans s.cursor.startLocation
        s'.cursor.stopLocation := by
  intro way
  simp [collectionLiteral]
  refine ⟨fun _ => ⟨?_, ?_⟩, fun _ => ⟨fun _ _ => ⟨?_, ?_⟩, fun _ => ⟨?_, ?_⟩⟩⟩
  · grind -ring -linarith
  · refine spans_of_laid rfl ?_ ?_
    · grind -ring -linarith
    · simp [Expression.trees]
      grind -ring -linarith
  · grind -ring -linarith
  · refine spans_of_laid rfl ?_ ?_
    · grind -ring -linarith
    · simp [Entry.trees]
      grind -ring -linarith
  · grind -ring -linarith
  · intro first t ht hfirst
    refine ⟨fun _ => ⟨?_, ?_⟩, fun _ => ⟨?_, ?_⟩⟩
    · grind -ring -linarith
    · intro value later u hu hstart hvalue hlater
      refine ⟨?_, spans_of_laid rfl ?_ ?_⟩
      · grind -ring -linarith
      · grind -ring -linarith
      · simp [Entry.trees]
        grind -ring -linarith
    · grind -ring -linarith
    · intro later u hu hlater
      refine ⟨?_, spans_of_laid rfl ?_ ?_⟩
      · grind -ring -linarith
      · grind -ring -linarith
      · simp [Expression.trees]
        grind -ring -linarith

lemma elements_places (hs : s.cursor.Placed) :
    elements.Places s fun later s' => Goal.elements.Places s s' later := by
  intro way
  simp [elements, Expression.trees]
  refine ⟨fun _ => ?_, fun _ => ?_⟩
  · grind -ring -linarith
  · grind -ring -linarith

lemma entries_places (hs : s.cursor.Placed) :
    entries.Places s fun found s' => Goal.entries.Places s s' found := by
  intro way
  simp [entries, Entry.trees]
  refine ⟨?_, fun a t ht ha => ⟨fun _ => ⟨fun _ => ?_, fun _ => ⟨?_, ?_⟩⟩, fun _ => ?_⟩⟩
  · grind -ring -linarith
  · grind -ring -linarith
  · grind -ring -linarith
  · intro key u hu hkey _
    refine ⟨?_, fun next later v hv hstart hnext hlater => ?_⟩
    · grind -ring -linarith
    · grind -ring -linarith
  · grind -ring -linarith

/-- What stands in parentheses is a group or a tuple. -/
lemma parenthesized_spans {inner : List Argument} {start stop : Location} (hlt : start < stop)
    (hinner : Laid start (Argument.trees inner) stop) :
    (parenthesized inner ⟨start, stop⟩).Spans start stop := by
  unfold parenthesized
  split <;> exact spans_of_laid rfl hlt hinner

lemma keywordOperand_places (word : String) (hs : s.cursor.Placed) (hleft : 0 < s.cursor.left) :
    (keywordOperand word).Places s fun build s' =>
      (build ⟨s.cursor.startLocation, s'.cursor.stopLocation⟩).Spans s.cursor.startLocation
        s'.cursor.stopLocation := by
  intro way
  have hrefl : s.cursor.Onward 0 s.cursor := by grind -ring -linarith
  unfold keywordOperand
  split <;> simp <;> exact ⟨hrefl, spans_leaf hs hleft hrefl rfl⟩

lemma primary_places (hs : s.cursor.Placed) :
    primary.Places s fun e s' => e.Spans s.cursor.startLocation s'.cursor.stopLocation := by
  intro way
  simp [primary]
  have hrefl : s.cursor.Onward 0 s.cursor := by grind -ring -linarith
  rcases hhere : s.cursor.here? with _ | kind
  · simp
  have hleft := Cursor.left_pos_of_here? hhere
  cases kind with
  | identifier | quotedIdentifier | integer | floating | string =>
    simp
    exact ⟨hrefl, spans_leaf hs hleft hrefl rfl⟩
  | keyword word role =>
    cases role with
    | contextual =>
      simp
      exact ⟨hrefl, spans_leaf hs hleft hrefl rfl⟩
    | _ => exact (keywordOperand_places _ hs hleft).imp fun _ _ _ ht he => ⟨ht, he⟩
  | punctuator mark =>
    cases mark with
    | period =>
      simp
      intro name _
      have hname : s.cursor.Onward 0 s.cursor.shift := by grind -ring -linarith
      exact ⟨hname, spans_leaf hs hleft hname rfl⟩
    | leftParen =>
      simp
      refine ⟨?_, fun inner t ht hinner => ⟨?_, ?_⟩⟩
      · grind -ring -linarith
      · grind -ring -linarith
      · exact parenthesized_spans (by grind -ring -linarith)
          (hinner.widen (by grind -ring -linarith) (le_refl _))
    | leftSquare => exact (collectionLiteral_places hs hleft).imp fun _ _ _ ht he => ⟨ht, he⟩
    | _ => simp
  | _ => simp

lemma arguments_places (closer : Punctuator) (hs : s.cursor.Placed) :
    (arguments closer).Places s fun inner s' => (Goal.arguments closer).Places s s' inner := by
  intro way
  simp [arguments, argumentLabel]
  refine ⟨?_, fun _ => ?_⟩
  · simp [Argument.trees]
    grind -ring -linarith
  · split
    · simp [Argument.trees]
      grind -ring -linarith
    · simp [Argument.trees]
      refine ⟨fun _ => ⟨?_, fun a t ht ha => ⟨fun _ => ?_, fun _ => ?_⟩⟩,
        fun _ => ⟨?_, fun a t ht ha => ⟨fun _ => ?_, fun _ => ?_⟩⟩⟩
      all_goals grind -ring -linarith

/-! ### Suffixes and operators -/

lemma suffixThen_places (suffix : Suffix) (lo : Location) (hs : s.cursor.Placed)
    (hsuffix : Laid lo suffix.trees s.cursor.stopLocation) :
    (suffixThen suffix).Places s fun glued s' =>
      PlacedSuffix.Laid lo glued s'.cursor.stopLocation := by
  intro way
  simp [suffixThen]
  grind -ring -linarith

lemma suffixes_places (hs : s.cursor.Placed) :
    suffixes.Places s fun glued s' => Goal.suffixes.Places s s' glued := by
  intro way
  simp [suffixes]
  split
  · simp
    refine ⟨?_, fun inner t ht hinner => ?_⟩
    · grind -ring -linarith
    · refine (suffixThen_places (.call inner) s.cursor.stopLocation ?_ ?_).imp ?_ <;> grind -ring -linarith
  · simp
    refine ⟨?_, fun inner t ht hinner => ?_⟩
    · grind -ring -linarith
    · refine (suffixThen_places (.subscript inner) s.cursor.stopLocation ?_ ?_).imp ?_ <;> grind -ring -linarith
  · simp
    split
    · refine (suffixThen_places (.member _) s.cursor.stopLocation ?_ ?_).imp ?_ <;> grind -ring -linarith
    · simp
  · simp
    refine (suffixThen_places .forced s.cursor.stopLocation ?_ ?_).imp ?_ <;> grind -ring -linarith
  · simp [PlacedSuffix.Laid]
    grind -ring -linarith

/-- An operand with suffixes ranges from where it starts to where the last one ends. -/
lemma foldl_suffix_spans {start lo hi : Location} {glued : List PlacedSuffix} {base : Expression}
    (hbase : base.Spans start lo) (hglued : PlacedSuffix.Laid lo glued hi) :
    (glued.foldl PlacedSuffix.apply base).Spans start hi := by
  induction glued generalizing lo base with
  | nil =>
    obtain rfl := hglued
    exact hbase
  | cons p later ih =>
    obtain ⟨hp, hlater⟩ := hglued
    refine ih ?_ hlater
    obtain ⟨hrange, hordered⟩ := hbase
    have hlt := hordered.start_lt_stop
    have hle := hp.le
    rw [base.range_tree, hrange] at hlt
    have hlaid : Laid start (base.tree :: p.suffix.trees) p.stop := by
      rw [laid_cons, base.range_tree, hrange]
      exact ⟨le_refl _, hordered, hp⟩
    rcases p with ⟨_ | _ | _ | _, stop⟩ <;>
      exact spans_of_laid
        (by simp [PlacedSuffix.apply, Expression.tree, Suffix.trees, hrange])
        (hlt.trans_le hle) hlaid

lemma operations_places (floor : Nat) (hs : s.cursor.Placed) :
    (operations floor).Places s fun ops s' => (Goal.operations floor).Places s s' ops := by
  intro way
  simp [operations]
  split
  · simp [Operation.Laid]
    grind -ring -linarith
  · simp
    refine ⟨fun _ => ?_, fun _ => ⟨?_, fun right t ht hright => ⟨?_, fun later u hu hlater => ?_⟩⟩⟩
    · simp [Operation.Laid]
      grind -ring -linarith
    · grind -ring -linarith
    · grind -ring -linarith
    · simp [Operation.Laid]
      grind -ring -linarith

/-- Operations on an operand range from where it starts to where the last one ends. -/
lemma foldl_operation_spans {start lo hi : Location} {ops : List Operation} {left : Expression}
    (hleft : left.Spans start lo) (hops : Operation.Laid lo ops hi) :
    (ops.foldl (Operation.apply start) left).Spans start hi := by
  induction ops generalizing lo left with
  | nil =>
    obtain rfl := hops
    exact hleft
  | cons op later ih =>
    obtain ⟨hop, hlater⟩ := hops
    refine ih ?_ hlater
    obtain ⟨hrange, hordered⟩ := hleft
    have hlt := hordered.start_lt_stop
    have hle := hop.le
    rw [left.range_tree, hrange] at hlt
    have hlaid : Laid start [left.tree, op.operand.tree] op.stop := by
      rw [laid_cons, left.range_tree, hrange]
      exact ⟨le_refl _, hordered, hop⟩
    unfold Operation.apply
    split <;> exact spans_of_laid rfl (hlt.trans_le hle) hlaid

lemma attemptKind_places : attemptKind.Places s fun _ _ => True := by
  intro way
  simp [attemptKind]
  grind -ring -linarith

lemma operand_places (hs : s.cursor.Placed) :
    operand.Places s fun e s' => Goal.operand.Places s s' e := by
  intro way
  simp [operand]
  refine ⟨fun _ => attemptKind_places.imp fun way kind t ht _ => ?_, fun _ => ?_⟩
  · refine ⟨?_, fun body u hu hbody => ⟨?_, spans_of_laid rfl ?_ ?_⟩⟩
    · grind -ring -linarith
    · grind -ring -linarith
    · grind -ring -linarith
    · simp
      grind -ring -linarith
  · split
    · simp
      intro _
      refine ⟨?_, fun inner t ht hinner => ⟨?_, spans_of_laid rfl ?_ ?_⟩⟩
      · grind -ring -linarith
      · grind -ring -linarith
      · grind -ring -linarith
      · simp
        grind -ring -linarith
    · simp
      refine (primary_places hs).imp fun way base t ht hbase => ⟨?_, fun glued u hu hglued => ?_⟩
      · grind -ring -linarith
      · exact ⟨by grind -ring -linarith, foldl_suffix_spans hbase hglued⟩

lemma expression_places (floor : Nat) (hs : s.cursor.Placed) :
    (expression floor).Places s fun e s' => (Goal.expression floor).Places s s' e := by
  intro way
  simp [expression]
  refine (operand_places hs).imp fun way first t ht hfirst => ⟨?_, fun later u hu hlater => ?_⟩
  · grind -ring -linarith
  · exact ⟨by grind -ring -linarith, foldl_operation_spans hfirst hlater⟩

/-! ### Patterns -/

lemma patterns_places (mode : PatternMode) (hs : s.cursor.Placed) :
    (patterns mode).Places s fun ps s' => (Goal.patterns mode).Places s s' ps := by
  intro way
  simp [patterns, Pattern.trees]
  refine ⟨hs, fun first t ht hstart hfirst hstop => ⟨fun _ => ?_, fun _ => ?_⟩⟩ <;> grind -ring -linarith

/-- The pattern that is built with the range from the current token to where the reading
ends is placed there. -/
def PatternPlaced (s : State) (build : Range → Pattern) (s' : State) : Prop :=
  Laid s.cursor.startLocation
    [(build ⟨s.cursor.startLocation, s'.cursor.stopLocation⟩).tree] s'.cursor.stopLocation

lemma patternPlaced_leaf {s' : State} {build : Range → Pattern} (hs : s.cursor.Placed)
    (hleft : 0 < s.cursor.left) (hs' : s.cursor.Onward 0 s'.cursor)
    (htree : ∀ r, (build r).tree = .node r []) : PatternPlaced s build s' :=
  laid_leaf hs hleft hs' (htree _)

lemma tuplePattern_places (mode : PatternMode) (hs : s.cursor.Placed)
    (hleft : 0 < s.cursor.left) : (tuplePattern mode).Places s (PatternPlaced s) := by
  intro way
  simp only [tuplePattern, tupleElements, meets_bind, meets_advance, meets_isHere, meets_ite,
    meets_pure, meets_read, meets_expectNext]
  simp
  refine ⟨fun _ => ⟨?_, laid_node rfl ?_ ?_⟩, fun _ => ⟨?_, fun ps t ht hps _ => ⟨?_, laid_node rfl ?_ ?_⟩⟩⟩
  all_goals grind -ring -linarith [Pattern.trees]

lemma untypedPattern_places (hs : s.cursor.Placed) :
    untypedPattern.Places s (PatternPlaced s) := by
  intro way
  have hrefl : s.cursor.Onward 0 s.cursor := by grind -ring -linarith
  simp [untypedPattern]
  split
  · exact ⟨hrefl, patternPlaced_leaf hs (by grind -ring -linarith) hrefl fun _ => rfl⟩
  · exact tuplePattern_places .declared hs (by grind -ring -linarith) way
  · split
    · exact ⟨hrefl, patternPlaced_leaf hs (by grind -ring -linarith) hrefl fun _ => rfl⟩
    · simp

lemma PatternPlaced.stop_le {t u : State} {build : Range → Pattern}
    (h : PatternPlaced s build t)
    (hle : t.cursor.stopLocation ≤ u.cursor.stopLocation) :
    Laid s.cursor.startLocation
      [(build ⟨s.cursor.startLocation, t.cursor.stopLocation⟩).tree] u.cursor.stopLocation :=
  RangeTree.Laid.widen h (le_refl _) hle

lemma declaredPattern_places (hs : s.cursor.Placed) :
    declaredPattern.Places s fun p s' =>
      Laid s.cursor.startLocation [p.tree] s'.cursor.stopLocation := by
  intro way
  simp [declaredPattern, -laid_cons]
  refine (untypedPattern_places hs).imp fun way build t ht hbuild => ⟨fun _ => ⟨?_, ?_⟩, fun _ => ?_⟩
  · grind -ring -linarith
  · intro type u hu
    have hinner := hbuild.stop_le (u := u) (by grind -ring -linarith)
    exact ⟨by grind -ring -linarith, laid_node rfl hinner.lt hinner⟩
  · exact ⟨ht, hbuild⟩

lemma enumCase_places (mode : PatternMode) (type : Option String) (name : String) {c : Cursor}
    (hc : c.Placed) (hleft : 0 < c.left) (hs : c.Onward 0 s.cursor) :
    (enumCase mode type name).Places s fun build s' =>
      Laid c.startLocation [(build ⟨c.startLocation, s'.cursor.stopLocation⟩).tree]
        s'.cursor.stopLocation := by
  intro way
  simp [enumCase, -laid_cons]
  refine ⟨fun _ => ?_, fun _ => ⟨?_, laid_leaf hc hleft hs rfl⟩⟩
  · refine (tuplePattern_places mode ?_ ?_).imp fun way payload t ht hpayload =>
      ⟨?_, laid_node rfl ?_ (hpayload.widen ?_ (le_refl _))⟩
    all_goals grind -ring -linarith
  · grind -ring -linarith

lemma caseFollows_places : caseFollows.Places s fun _ s' => s' = s := by
  intro way
  simp [caseFollows]
  split <;> simp <;> grind -ring -linarith

/-- A value to compare with is a pattern of the same range. -/
lemma patternPlaced_expression {e : Expression} {s' : State}
    (he : e.Spans s.cursor.startLocation s'.cursor.stopLocation) :
    PatternPlaced s (fun range => .expression range e) s' := by
  have hlt := he.ordered.start_lt_stop
  refine laid_node rfl ?_ ?_
  · grind -ring -linarith
  · simp
    grind -ring -linarith

lemma comparedValueOrError_places (hs : s.cursor.Placed) :
    comparedValueOrError.Places s (PatternPlaced s) := by
  intro way
  simp [comparedValueOrError]
  exact ⟨hs, fun e t ht he => ⟨ht, patternPlaced_expression he⟩⟩

lemma unmarkedPattern_places (mode : PatternMode) (hs : s.cursor.Placed) :
    (unmarkedPattern mode).Places s (PatternPlaced s) := by
  intro way
  have hrefl : s.cursor.Onward 0 s.cursor := by grind -ring -linarith
  simp [unmarkedPattern, comparedValue]
  split
  · simp
  next kind hkind =>
  simp [-laid_cons]
  refine ⟨fun _ => ⟨?_, fun inner t ht hinner => ?_⟩, fun _ _ => ?_⟩
  · grind -ring -linarith
  · have hinner' : Laid s.cursor.startLocation [inner.tree] t.cursor.stopLocation :=
      hinner.widen (by grind -ring -linarith) (le_refl _)
    exact ⟨by grind -ring -linarith, laid_node rfl hinner'.lt hinner'⟩
  -- by the first token: a name, a wildcard, a tuple, a dot, or the start of a value
  cases kind with
  | identifier name | quotedIdentifier name =>
    simp
    refine caseFollows_places.imp fun way follows t _ ht => ?_
    subst ht
    refine ⟨fun _ case _ => ?_, fun _ => ⟨fun _ => ?_, fun _ => ⟨hs, fun e u hu he => ?_⟩⟩⟩
    · refine (enumCase_places mode _ case hs (by grind -ring -linarith) (by grind -ring -linarith)).imp ?_
      grind -ring -linarith [PatternPlaced]
    · exact ⟨hrefl, patternPlaced_leaf hs (by grind -ring -linarith) hrefl fun _ => rfl⟩
    · exact ⟨hu, patternPlaced_expression he⟩
  | keyword word role =>
    by_cases hwildcard : word = "_" ∧ role = .pattern
    · obtain ⟨rfl, rfl⟩ := hwildcard
      exact ⟨hrefl, patternPlaced_leaf hs (by grind -ring -linarith) hrefl fun _ => rfl⟩
    · simp [hwildcard]
      split
      · split
        · exact ⟨hrefl, patternPlaced_leaf hs (by grind -ring -linarith) hrefl fun _ => rfl⟩
        · exact comparedValueOrError_places hs way
      · exact comparedValueOrError_places hs way
  | punctuator mark =>
    cases mark with
    | leftParen => exact tuplePattern_places mode hs (by grind -ring -linarith) way
    | period =>
      simp
      intro name _
      refine (enumCase_places mode none name hs (by grind -ring -linarith)
        (by grind -ring -linarith)).imp ?_
      grind -ring -linarith [PatternPlaced]
    | _ => exact comparedValueOrError_places hs way
  | _ => exact comparedValueOrError_places hs way

lemma patternMarks_places (hs : s.cursor.Placed) :
    patternMarks.Places s fun stops s' => Goal.patternMarks.Places s s' stops := by
  intro way
  simp [patternMarks, Location.Ascend]
  grind -ring -linarith

/-- Marks on a pattern reach from where it starts to where the last one ends. -/
lemma laid_foldl_marks {start lo hi : Location} {stops : List Location} {p : Pattern}
    (hp : Laid start [p.tree] lo) (hstops : Location.Ascend lo stops hi) :
    Laid start [(stops.foldl (fun inner stop => .optional ⟨start, stop⟩ inner) p).tree] hi := by
  induction stops generalizing lo p with
  | nil =>
    obtain rfl := hstops
    exact hp
  | cons stop later ih =>
    obtain ⟨hle, hlater⟩ := hstops
    have hp' := hp.widen (le_refl _) hle
    exact ih (laid_node rfl hp'.lt hp') hlater

lemma testedPattern_places (mode : PatternMode) (hs : s.cursor.Placed) :
    (testedPattern mode).Places s fun p s' =>
      Laid s.cursor.startLocation [p.tree] s'.cursor.stopLocation := by
  intro way
  simp [testedPattern, -laid_cons]
  refine (unmarkedPattern_places mode hs).imp fun way build t ht hbuild => ⟨?_, fun stops u hu hstops => ?_⟩
  · grind -ring -linarith
  · exact ⟨by grind -ring -linarith, laid_foldl_marks hbuild hstops⟩

lemma pattern_places (mode : PatternMode) (hs : s.cursor.Placed) :
    (pattern mode).Places s fun p s' => (Goal.pattern mode).Places s s' p := by
  cases mode with
  | declared => exact declaredPattern_places hs
  | matching => exact testedPattern_places .matching hs
  | binding => exact testedPattern_places .binding hs

end Grammar

end FrontEnd
