/-
Statements place what they read.

The step of a list of statements is `itemThen_places`: what follows an item is laid
behind it, also where an error on a closing brace leads back to this brace, since the
list then ends at once.
-/
import FrontEnd.Proofs.Keyword
import FrontEnd.Proofs.Placement.Expression

namespace FrontEnd

open RangeTree

lemma Statement.trees_eq_map (items : List Statement) :
    Statement.trees items = items.map Statement.tree := by
  induction items with
  | nil => rfl
  | cons item later ih => rw [Statement.trees, ih, List.map_cons]

lemma Declaration.trees_eq_map (items : List Declaration) :
    Declaration.trees items = items.map Declaration.tree := by
  induction items with
  | nil => rfl
  | cons item later ih => rw [Declaration.trees, ih, List.map_cons]

namespace Grammar

open Procedure

variable {s : State}

/-! ### Separators and lists -/

lemma separator_places (context : Context) : (separator context).Places s fun _ _ => True := by
  intro way
  simp [separator]
  split <;> simp <;> grind -ring -linarith

/-- What is read in a list behind an item, from a state on. -/
def LaterPlaced {α : Type} (tree : α → RangeTree) (hi : Cursor → Location) (u : State)
    (later : List α) (s' : State) : Prop :=
  Laid u.cursor.stopLocation (later.map tree) (hi s'.cursor) ∧
    ((u.cursor.advance .anyLine).here? = some (.punctuator .rightBrace) →
      later = [] ∧ s'.cursor = u.cursor.advance .anyLine)

/-- Behind an error, the rest of a list is laid behind the place of the error. -/
lemma LaterPlaced.of_resynchronize {α : Type} {tree : α → RangeTree} {hi : Cursor → Location}
    (hhi : ∀ d : Cursor, d.here? = some (.punctuator .rightBrace) → hi d = d.stopLocation)
    {t u s' : State} {later : List α} (ht : t.cursor.Placed)
    (hu : u.cursor = t.cursor.resynchronize) (h : LaterPlaced tree hi u later s') :
    Laid t.cursor.stopLocation (later.map tree) (hi s'.cursor) := by
  obtain ⟨hlater, hbrace⟩ := h
  by_cases hclose : t.cursor.here? = some (.punctuator .rightBrace)
  · -- the list ends on the brace where the error was found
    rw [hu, Cursor.resynchronize_of_rightBrace hclose,
      Cursor.advance_unshift_of_rightBrace hclose] at hbrace
    obtain ⟨rfl, hend⟩ := hbrace hclose
    rw [hend, List.map_nil, laid_nil, hhi _ hclose]
  · have hle := Cursor.left_resynchronize_le t.cursor
    rw [if_neg hclose, ← hu] at hle
    refine hlater.widen (ht.stop_le_stop ?_ hle) (le_refl _)
    rw [hu, Cursor.toList_resynchronize]

/-- The step of a list: what follows an item is laid behind it. -/
lemma itemThen_places {α : Type} (tree : α → RangeTree) (hi : Cursor → Location)
    (hhi : ∀ d : Cursor, d.here? = some (.punctuator .rightBrace) → hi d = d.stopLocation)
    {c : Cursor} {t : State} {way : List Event} (hc : c.Placed) (hct : c.Onward 0 t.cursor)
    (hbrace : c.here? ≠ some (.punctuator .rightBrace))
    {tried : Except ParseError (Kept α)}
    (hitem : ∀ kept, tried = .ok kept →
      Laid c.startLocation [tree kept.value] t.cursor.stopLocation)
    {next : Procedure (List α)}
    (hnext : ∀ way u, u.cursor.toList = c.toList → u.cursor.left ≤ c.left →
      next.Meets placing way u
        (fun _ later s' => u.cursor.Onward 0 s'.cursor ∧ LaterPlaced tree hi u later s')
        fun _ _ _ => True) :
    (itemThen tried next).Meets placing way t
      (fun _ items s' => c.Onward 0 s'.cursor ∧
        Laid c.startLocation (items.map tree) (hi s'.cursor)) fun _ _ _ => True := by
  -- behind an error the reading goes on at a boundary, which is not before the item
  have hleft := Cursor.left_resynchronize_le_of_onward hct hbrace
  have hlist : t.cursor.resynchronize.toList = c.toList := by
    rw [Cursor.toList_resynchronize, hct.toList_eq]
  have ht : t.cursor.Placed := hc.of_left_le hct.toList_eq hct.left_le
  have hstop : c.startLocation ≤ t.cursor.stopLocation :=
    (hc.start_le_stop).trans (hc.stop_le_stop hct.toList_eq hct.left_le)
  rcases tried with e | ⟨value, _ | e⟩
  · simp [itemThen, recoverThen]
    refine (hnext _ ((t.note e).moveTo t.cursor.resynchronize) hlist hleft).imp
      (fun way later s' h => ?_) fun _ _ _ _ => trivial
    obtain ⟨hon, hlater⟩ := h
    exact ⟨by grind -ring -linarith, (hlater.of_resynchronize hhi ht rfl).widen hstop (le_refl _)⟩
  · have hvalue := hitem _ rfl
    simp [itemThen]
    refine (hnext _ t hct.toList_eq hct.left_le).imp (fun way later s' h => ?_)
      fun _ _ _ _ => trivial
    obtain ⟨hon, hlater, -⟩ := h
    exact ⟨by grind -ring -linarith, by grind -ring -linarith⟩
  · have hvalue := hitem _ rfl
    simp [itemThen, recoverThen]
    refine (hnext _ ((t.note e).moveTo t.cursor.resynchronize) hlist hleft).imp
      (fun way later s' h => ?_) fun _ _ _ _ => trivial
    obtain ⟨hon, hlater⟩ := h
    have hlaid := hlater.of_resynchronize hhi ht rfl
    exact ⟨by grind -ring -linarith, by grind -ring -linarith⟩

lemma item_places (hs : s.cursor.Placed) :
    item.Places s fun kept s' => Goal.item.Places s s' kept := by
  intro way
  simp [item, -laid_cons]
  refine ⟨fun _ => ⟨hs, fun kept t ht hkept => ⟨ht, ?_⟩⟩,
    fun _ => ⟨hs, fun a t ht ha => ?_⟩⟩
  · have hwrap := Laid.wrap hkept
    rwa [Declaration.range_tree] at hwrap
  · refine (separator_places .block).imp fun way complaint u hu _ => ⟨by grind -ring -linarith, ?_⟩
    exact ha.widen (le_refl _) (by grind -ring -linarith)

lemma statements_places (stop : BlockEnd) (hs : s.cursor.Placed) :
    (statements stop).Places s fun items s' => (Goal.statements stop).Places s s' items := by
  intro way
  simp [statements, -laid_cons, -laid_nil]
  split
  · simp
  next kind hkind =>
    simp [-laid_cons, -laid_nil]
    refine ⟨fun hstop => ?_, fun hstop => ⟨fun hsemicolon => ?_, fun _ => ?_⟩⟩
    · -- the list ends here
      simp [Statement.trees]
      grind -ring -linarith
    · refine ⟨?_, fun later t ht hlater _ => ⟨?_, hlater.widen ?_ (le_refl _), ?_⟩⟩
      · grind -ring -linarith
      · grind -ring -linarith
      · grind -ring -linarith
      · rw [hkind, hsemicolon]
        simp
    · have hbrace : (s.cursor.advance .anyLine).here? ≠ some (.punctuator .rightBrace) := by
        rw [hkind]
        rintro ⟨⟩
        simp [BlockEnd.holds] at hstop
      have hhere : (s.cursor.advance .anyLine).Placed := by grind -ring -linarith
      refine ⟨hhere, fun kept t ht hkept => ?_, fun e t ht => ?_⟩
      all_goals
        refine (itemThen_places Statement.tree Cursor.listEnd ?_ hhere ht hbrace
          ?_ ?_).imp (fun way items s' h => ?_) fun _ _ _ _ => trivial
        · intro d hd
          rw [Cursor.listEnd, if_pos hd]
        · grind -ring -linarith
        · intro way u hlist hleft
          simp [Statement.trees_eq_map, -laid_cons, -laid_nil]
          grind -ring -linarith [LaterPlaced]
        · grind -ring -linarith [Statement.trees_eq_map]

lemma block_places (hs : s.cursor.Placed) (hleft : 0 < s.cursor.left) :
    block.Places s fun b s' => Goal.block.Places s s' b := by
  intro way
  simp [block, -laid_cons]
  refine ⟨hs, fun items t ht hitems _ => ⟨ht, laid_node rfl ?_ ?_⟩⟩
  · grind -ring -linarith
  · refine hitems.widen ?_ ?_ <;> grind -ring -linarith

lemma blockHere_places (hs : s.cursor.Placed) :
    blockHere.Places s fun b s' => Laid s.cursor.startLocation [b.tree] s'.cursor.stopLocation := by
  intro way
  simp [blockHere, -laid_cons]
  intro _
  exact ⟨⟨hs, by grind -ring -linarith⟩, fun b t ht hb => ⟨ht, hb⟩⟩

lemma blockNext_places (hs : s.cursor.Placed) :
    blockNext.Places s fun b s' => Laid s.cursor.stopLocation [b.tree] s'.cursor.stopLocation := by
  intro way
  simp [blockNext, -laid_cons]
  intro hhere
  refine ⟨⟨?_, ?_⟩, fun b t ht hb => ⟨?_, hb.widen ?_ (le_refl _)⟩⟩ <;> grind -ring -linarith

/-! ### Conditions -/

lemma conditionValue_places (hs : s.cursor.Placed) :
    conditionValue.Places s fun e s' =>
      Laid s.cursor.stopLocation [e.tree] s'.cursor.stopLocation := by
  intro way
  simp [conditionValue]
  intro hhere
  refine ⟨?_, fun e t ht he => ?_⟩ <;> grind -ring -linarith

lemma condition_places (hs : s.cursor.Placed) :
    condition.Places s fun c s' =>
      Laid s.cursor.startLocation c.trees s'.cursor.stopLocation := by
  intro way
  simp [condition, Condition.trees, -laid_cons]
  refine ⟨fun _ => ⟨?_, fun pattern t ht hpattern => ?_⟩,
    fun _ => ⟨fun _ => ⟨?_, fun pattern t ht hpattern => ?_⟩, fun _ _ => ⟨?_, ?_⟩⟩⟩
  · grind -ring -linarith
  · refine (conditionValue_places ?_).imp fun way value u hu hvalue => ?_
    · grind -ring -linarith
    · exact ⟨by grind -ring -linarith, hpattern.widen (by grind -ring -linarith) (le_refl _) |>.append hvalue⟩
  · grind -ring -linarith
  · refine (conditionValue_places ?_).imp fun way value u hu hvalue => ?_
    · grind -ring -linarith
    · exact ⟨by grind -ring -linarith, hpattern.widen (by grind -ring -linarith) (le_refl _) |>.append hvalue⟩
  · exact hs
  · intro value t ht hvalue
    exact ⟨by grind -ring -linarith, hvalue.laid⟩

lemma conditions_places (hs : s.cursor.Placed) :
    conditions.Places s fun cs s' => Goal.conditions.Places s s' cs := by
  intro way
  simp [conditions, -laid_cons]
  refine (condition_places hs).imp fun way first t ht hfirst => ⟨fun _ => ⟨?_, ?_⟩, fun _ => ?_⟩
  · grind -ring -linarith
  · intro later u hu hlater
    exact ⟨by grind -ring -linarith, hfirst.append (hlater.widen (by grind -ring -linarith) (le_refl _))⟩
  · exact ⟨ht, hfirst⟩

lemma guardingCondition_places (hs : s.cursor.Placed) :
    guardingCondition.Places s fun guarding s' =>
      Laid s.cursor.stopLocation (Expression.optionalTrees guarding) s'.cursor.stopLocation := by
  intro way
  simp [guardingCondition, Expression.optionalTrees]
  refine ⟨fun _ => ⟨?_, ?_⟩, fun _ => ?_⟩ <;> grind -ring -linarith

/-! ### Statements with blocks -/

lemma alternative_places (hs : s.cursor.Placed) :
    alternative.Places s fun other s' =>
      Laid s.cursor.stopLocation (other.elim [] fun a => [a.tree]) s'.cursor.stopLocation := by
  intro way
  simp [alternative, Alternative.tree, -laid_cons]
  refine ⟨fun _ => ⟨fun _ => ?_, fun _ => ?_⟩, fun _ => ?_⟩
  · refine ⟨by grind -ring -linarith, fun a t ht ha => ⟨by grind -ring -linarith, ha.widen (by grind -ring -linarith) (le_refl _)⟩⟩
  · intro hhere
    refine ⟨by grind -ring -linarith, fun b t ht hb => ⟨by grind -ring -linarith, hb.widen (by grind -ring -linarith) (le_refl _)⟩⟩
  · grind -ring -linarith

/-- The ranges of a choice. -/
lemma Statement.tree_choice (range : Range) (conditions : List Condition) (body : Block)
    (other : Option Alternative) :
    (Statement.choice range conditions body other).tree =
      .node range (conditions.flatMap Condition.trees ++
        ([body.tree] ++ other.elim [] fun a => [a.tree])) := by
  cases other <;> simp [Statement.tree]

/-- What stands behind a keyword makes a node that starts on the keyword or before it. -/
lemma laid_behind_of_le {c d : Cursor} {start : Location} {tree : RangeTree}
    {children : List RangeTree} (hc : c.Placed) (hleft : 0 < c.left)
    (hstart : start ≤ c.startLocation) (htree : tree = .node ⟨start, d.stopLocation⟩ children)
    (hlaid : Laid c.stopLocation children d.stopLocation) :
    Laid start [tree] d.stopLocation := by
  have hlt := hstart.trans_lt (hc.start_lt_stop hleft)
  exact laid_node htree (hlt.trans_le hlaid.le) (hlaid.widen hlt.le (le_refl _))

lemma laid_behind {c d : Cursor} {tree : RangeTree} {children : List RangeTree} (hc : c.Placed)
    (hleft : 0 < c.left) (htree : tree = .node ⟨c.startLocation, d.stopLocation⟩ children)
    (hlaid : Laid c.stopLocation children d.stopLocation) :
    Laid c.startLocation [tree] d.stopLocation :=
  laid_behind_of_le hc hleft (le_refl _) htree hlaid

lemma choice_places (hs : s.cursor.Placed) (hleft : 0 < s.cursor.left) :
    choice.Places s fun build s' =>
      Laid s.cursor.startLocation
        [(build ⟨s.cursor.startLocation, s'.cursor.stopLocation⟩).tree] s'.cursor.stopLocation := by
  intro way
  simp [choice, -laid_cons]
  refine ⟨by grind -ring -linarith, fun conditions t ht hconditions => ?_⟩
  refine (blockNext_places ?_).imp fun way body u hu hbody => ?_
  · grind -ring -linarith
  refine (alternative_places ?_).imp fun way other v hv hother => ?_
  · grind -ring -linarith
  have hsv : s.cursor.Onward 0 v.cursor := by grind -ring -linarith
  refine ⟨hsv, laid_behind hs hleft (Statement.tree_choice ..) ?_⟩
  exact (hconditions.widen (by grind -ring -linarith) (le_refl _)).append (hbody.append hother)

lemma elseIf_places (hs : s.cursor.Placed) (hleft : 0 < s.cursor.left) :
    elseIf.Places s fun a s' => Goal.elseIf.Places s s' a := by
  intro way
  simp [elseIf, -laid_cons]
  exact choice_places hs hleft way

lemma guarding_places (hs : s.cursor.Placed) (hleft : 0 < s.cursor.left) :
    guarding.Places s fun build s' =>
      Laid s.cursor.startLocation
        [(build ⟨s.cursor.startLocation, s'.cursor.stopLocation⟩).tree] s'.cursor.stopLocation := by
  intro way
  simp [guarding, -laid_cons]
  refine ⟨by grind -ring -linarith, fun conditions t ht hconditions hword => ?_⟩
  refine (blockNext_places ?_).imp fun way body u hu hbody => ?_
  · grind -ring -linarith
  have hsu : s.cursor.Onward 0 u.cursor := by grind -ring -linarith
  refine ⟨hsu, laid_behind hs hleft rfl ?_⟩
  exact (hconditions.widen (by grind -ring -linarith) (le_refl _)).append (hbody.widen (by grind -ring -linarith) (le_refl _))

lemma looping_places (hs : s.cursor.Placed) (hleft : 0 < s.cursor.left) :
    looping.Places s fun build s' =>
      Laid s.cursor.startLocation
        [(build ⟨s.cursor.startLocation, s'.cursor.stopLocation⟩).tree] s'.cursor.stopLocation := by
  intro way
  simp [looping, -laid_cons]
  refine ⟨by grind -ring -linarith, fun conditions t ht hconditions => ?_⟩
  refine (blockNext_places ?_).imp fun way body u hu hbody => ?_
  · grind -ring -linarith
  have hsu : s.cursor.Onward 0 u.cursor := by grind -ring -linarith
  refine ⟨hsu, laid_behind hs hleft rfl ?_⟩
  exact (hconditions.widen (by grind -ring -linarith) (le_refl _)).append hbody

lemma repeating_places (hs : s.cursor.Placed) (hleft : 0 < s.cursor.left) :
    repeating.Places s fun build s' =>
      Laid s.cursor.startLocation
        [(build ⟨s.cursor.startLocation, s'.cursor.stopLocation⟩).tree] s'.cursor.stopLocation := by
  intro way
  simp [repeating, -laid_cons]
  refine (blockHere_places ?_).imp fun way body t ht hbody => ?_
  · grind -ring -linarith
  simp only [State.cursor_moveTo] at ht hbody
  refine fun hword => ⟨by grind -ring -linarith, fun condition u hu hcondition => ?_⟩
  have hsu : s.cursor.Onward 0 u.cursor := by grind -ring -linarith
  refine ⟨hsu, laid_behind hs hleft rfl ?_⟩
  have hlater : Laid t.cursor.stopLocation [condition.tree] u.cursor.stopLocation :=
    hcondition.laid.widen (by grind -ring -linarith) (le_refl _)
  exact (hbody.widen (by grind -ring -linarith) (le_refl _)).append hlater

lemma loopPattern_places (isMatching : Bool) (hs : s.cursor.Placed) :
    (loopPattern isMatching).Places s fun p s' =>
      Laid s.cursor.startLocation [p.tree] s'.cursor.stopLocation := by
  intro way
  simp [loopPattern, -laid_cons]
  refine ⟨fun _ => ⟨by grind -ring -linarith, fun pattern t ht hpattern => ⟨by grind -ring -linarith, ?_⟩⟩,
    fun _ => ⟨hs, fun pattern t ht hpattern => ⟨ht, hpattern⟩⟩⟩
  exact hpattern.widen (by grind -ring -linarith) (le_refl _)

/-- A block with a condition in front of it. -/
lemma guardedBlock_places {way : List Event}
    {ok : List Event → Option Expression → Block → State → Prop} (hs : s.cursor.Placed)
    (hok : ∀ way guarding body t, s.cursor.Onward 0 t.cursor →
      Laid s.cursor.stopLocation (Expression.optionalTrees guarding ++ [body.tree])
        t.cursor.stopLocation → ok way guarding body t) :
    guardingCondition.Meets placing way s
      (fun way guarding t => blockNext.Meets placing way t
        (fun way body u => ok way guarding body u) fun _ _ _ => True) fun _ _ _ => True := by
  refine (guardingCondition_places hs).imp fun way guarding t ht hguarding => ?_
  refine (blockNext_places ?_).imp fun way body u hu hbody => hok way guarding body u ?_ ?_
  · grind -ring -linarith
  · grind -ring -linarith
  · exact hguarding.append hbody

lemma forIn_places (hs : s.cursor.Placed) (hleft : 0 < s.cursor.left) :
    forIn.Places s fun build s' =>
      Laid s.cursor.startLocation
        [(build ⟨s.cursor.startLocation, s'.cursor.stopLocation⟩).tree] s'.cursor.stopLocation := by
  intro way
  simp [forIn, -laid_cons]
  refine (loopPattern_places _ ?_).imp fun way pattern t ht hpattern => ?_
  · grind -ring -linarith
  simp only [State.cursor_moveTo] at ht hpattern
  refine fun hword => ⟨by grind -ring -linarith, fun collection u hu hcollection => ?_⟩
  refine guardedBlock_places (by grind -ring -linarith) fun way guarding body v hv hbody => ?_
  have hsv : s.cursor.Onward 0 v.cursor := by grind -ring -linarith
  refine ⟨hsv, laid_behind hs hleft rfl ?_⟩
  have hlater : Laid t.cursor.stopLocation [collection.tree] u.cursor.stopLocation :=
    hcollection.laid.widen (by grind -ring -linarith) (le_refl _)
  exact (hpattern.widen (by grind -ring -linarith) (le_refl _)).append (hlater.append hbody)

lemma handlerPattern_places (hs : s.cursor.Placed) :
    handlerPattern.Places s fun p s' =>
      Laid s.cursor.stopLocation (Pattern.optionalTrees p) s'.cursor.stopLocation := by
  intro way
  simp [handlerPattern, Pattern.optionalTrees]
  split
  · simp
    grind -ring -linarith
  · simp [-laid_cons]
    refine ⟨fun _ => by grind -ring -linarith, fun _ _ => ⟨by grind -ring -linarith, fun pattern t ht hpattern => ⟨by grind -ring -linarith, ?_⟩⟩⟩
    exact hpattern.widen (by grind -ring -linarith) (le_refl _)

lemma handlers_places (hs : s.cursor.Placed) :
    handlers.Places s fun hs s' => Goal.handlers.Places s s' hs := by
  intro way
  simp [handlers, Handler.trees, -laid_cons]
  refine ⟨fun _ => ?_, fun _ => by grind -ring -linarith⟩
  refine (handlerPattern_places ?_).imp fun way pattern t ht hpattern => ?_
  · grind -ring -linarith
  simp only [State.cursor_moveTo] at ht hpattern
  refine guardedBlock_places (by grind -ring -linarith) fun way guarding body u hu hbody => ?_
  refine ⟨by grind -ring -linarith, fun later v hv hlater => ⟨by grind -ring -linarith, ?_⟩⟩
  have hfirst : Laid s.cursor.stopLocation (Pattern.optionalTrees pattern) t.cursor.stopLocation :=
    hpattern.widen (by grind -ring -linarith) (le_refl _)
  have hhandler := hfirst.append (hbody.append hlater)
  rwa [List.append_assoc] at hhandler

lemma doing_places (hs : s.cursor.Placed) (hleft : 0 < s.cursor.left) :
    doing.Places s fun build s' =>
      Laid s.cursor.startLocation
        [(build ⟨s.cursor.startLocation, s'.cursor.stopLocation⟩).tree] s'.cursor.stopLocation := by
  intro way
  simp [doing, -laid_cons]
  refine (blockHere_places ?_).imp fun way body t ht hbody => ?_
  · grind -ring -linarith
  simp only [State.cursor_moveTo] at ht hbody
  refine ⟨by grind -ring -linarith, fun found u hu hfound => ?_⟩
  have hsu : s.cursor.Onward 0 u.cursor := by grind -ring -linarith
  refine ⟨hsu, laid_behind hs hleft rfl ?_⟩
  exact (hbody.widen (by grind -ring -linarith) (le_refl _)).append hfound

lemma caseItems_places (hs : s.cursor.Placed) :
    caseItems.Places s fun items s' => Goal.caseItems.Places s s' items := by
  intro way
  simp [caseItems, CaseItem.trees, -laid_cons]
  refine ⟨by grind -ring -linarith, fun pattern t ht hpattern => ?_⟩
  refine (guardingCondition_places ?_).imp fun way guarding u hu hguarding => ?_
  · grind -ring -linarith
  have hitem := (hpattern.widen hs.stop_le_start_advance (le_refl _)).append hguarding
  refine ⟨fun _ => ⟨by grind -ring -linarith, fun later v hv hlater => ⟨by grind -ring -linarith, ?_⟩⟩, fun _ => ⟨by grind -ring -linarith, ?_⟩⟩
  · exact hitem.append (hlater.widen (by grind -ring -linarith) (le_refl _))
  · exact hitem

lemma arms_places (hs : s.cursor.Placed) :
    arms.Places s fun found s' => Goal.arms.Places s s' found := by
  intro way
  simp [arms, -laid_cons]
  split
  · simp
  next kind hkind =>
    simp [Arm.trees, -laid_cons]
    have hend : s.cursor.listEnd ≤ s.cursor.stopLocation := hs.listEnd_le_stop
    refine ⟨fun _ => ⟨by grind -ring -linarith, hend⟩, fun _ => ⟨fun _ => ⟨hs, fun items t ht hitems _ => ?_⟩,
      fun _ _ _ => ?_⟩⟩
    · refine ⟨by grind -ring -linarith, fun inner u hu hinner _ => ⟨by grind -ring -linarith, fun later v hv hlater => ?_⟩⟩
      refine ⟨by grind -ring -linarith, ?_⟩
      have hfirst : Laid t.cursor.stopLocation (Statement.trees inner) u.cursor.listEnd :=
        hinner.widen (by grind -ring -linarith) (le_refl _)
      have hstatements := hfirst.append hlater
      exact (hitems.widen hend (le_refl _)).append hstatements
    · refine ⟨by grind -ring -linarith, fun inner u hu hinner _ => ⟨by grind -ring -linarith, fun later v hv hlater => ?_⟩⟩
      refine ⟨by grind -ring -linarith, ?_⟩
      exact (hinner.widen (by grind -ring -linarith) (le_refl _)).append hlater

lemma switchBody_places (hs : s.cursor.Placed) :
    switchBody.Places s fun found s' => Goal.switchBody.Places s s' found := by
  intro way
  simp [switchBody, -laid_cons]
  refine ⟨by grind -ring -linarith, fun found t ht hfound => ⟨by grind -ring -linarith, hfound.widen ?_ (le_refl _)⟩⟩
  exact hs.stop_le_start_advance.trans (hs.advance.start_le_listEnd)

lemma switch_places (hs : s.cursor.Placed) (hleft : 0 < s.cursor.left) :
    switch.Places s fun build s' =>
      Laid s.cursor.startLocation
        [(build ⟨s.cursor.startLocation, s'.cursor.stopLocation⟩).tree] s'.cursor.stopLocation := by
  intro way
  simp [switch, -laid_cons]
  refine ⟨by grind -ring -linarith, fun subject t ht hsubject hbrace => ?_⟩
  refine ⟨by grind -ring -linarith, fun found u hu hfound => ?_⟩
  have hsu : s.cursor.Onward 0 u.cursor := by grind -ring -linarith
  refine ⟨hsu, laid_behind hs hleft rfl ?_⟩
  have hlater : Laid s.cursor.stopLocation [subject.tree] t.cursor.stopLocation :=
    hsubject.laid.widen (by grind -ring -linarith) (le_refl _)
  exact hlater.append (hfound.widen (by grind -ring -linarith) (le_refl _))

/-! ### Statements without blocks -/

lemma jumpLabel_places : jumpLabel.Places s fun _ _ => True := by
  intro way
  simp [jumpLabel]
  split <;> simp <;> grind -ring -linarith

lemma returnValue_places (hs : s.cursor.Placed) :
    returnValue.Places s fun value s' =>
      Laid s.cursor.stopLocation (Expression.optionalTrees value) s'.cursor.stopLocation := by
  intro way
  simp [returnValue, Expression.optionalTrees]
  split
  · simp
    grind -ring -linarith
  · simp [-laid_cons]
    refine ⟨fun _ => by grind -ring -linarith, fun _ => ⟨by grind -ring -linarith, fun value t ht hvalue => ⟨by grind -ring -linarith, ?_⟩⟩⟩
    exact hvalue.laid.widen (by grind -ring -linarith) (le_refl _)

lemma expectLabel_places (label : String) : (expectLabel label).Places s fun _ _ => True := by
  intro way
  simp [expectLabel]
  grind -ring -linarith

lemma locationFile_places : locationFile.Places s fun _ _ => True := by
  intro way
  simp [locationFile]
  refine (expectLabel_places "file").imp fun way _ t ht _ => ?_
  split
  · simpa using ht
  · simp

lemma locationLine_places : locationLine.Places s fun _ _ => True := by
  intro way
  simp [locationLine]
  refine (expectLabel_places "line").imp fun way _ t ht _ => ?_
  split
  · simpa using ht
  · simp

lemma sourceLocation_places : sourceLocation.Places s fun _ _ => True := by
  intro way
  simp [sourceLocation]
  refine fun _ => ⟨fun _ => by grind -ring -linarith, fun _ => ?_⟩
  refine locationFile_places.imp fun way file t ht _ _ => ?_
  refine locationLine_places.imp fun way line u hu _ _ => ?_
  grind -ring -linarith

lemma directiveNamed_places (name : String) : (directiveNamed name).Places s fun _ _ => True := by
  intro way
  cases DirectiveWord.of name with
  | sourceLocation => exact sourceLocation_places way
  | ifTrue | elseIfTrue | otherwise | endIf =>
    simp [directiveNamed]
    grind -ring -linarith
  | other h => simp [directiveNamed_of_other h]

lemma directive_places : directive.Places s fun _ _ => True := by
  intro way
  simp [directive]
  split
  · refine (directiveNamed_places _).imp fun way _ t ht _ => ?_
    grind -ring -linarith
  · simp

/-! ### All statements -/

lemma unlabeled_places (word : Option String) (hs : s.cursor.Placed)
    (hword : word ≠ none → 0 < s.cursor.left) :
    (unlabeled word).Places s fun build s' =>
      Laid s.cursor.startLocation
        [(build ⟨s.cursor.startLocation, s'.cursor.stopLocation⟩).tree] s'.cursor.stopLocation := by
  intro way
  have hrefl : s.cursor.Onward 0 s.cursor := by grind -ring -linarith
  cases StatementWord.of word with
  | other h =>
    simp [unlabeled_of_other h, Statement.tree, -laid_cons]
    refine ⟨hs, fun value t ht hvalue => ⟨ht, ?_⟩⟩
    have hwrap := Laid.wrap hvalue.laid
    rwa [Expression.range_tree] at hwrap
  -- the other statements start on their keyword
  | breaking | continuing =>
    simp [unlabeled, -laid_cons]
    have hleft := hword (by simp)
    refine jumpLabel_places.imp fun way label t ht _ => ⟨ht, laid_leaf hs hleft ht rfl⟩
  | fallthrough => exact ⟨hrefl, laid_leaf hs (hword (by simp)) hrefl rfl⟩
  | returning =>
    simp [unlabeled, -laid_cons]
    have hleft := hword (by simp)
    refine (returnValue_places hs).imp fun way value t ht hvalue => ⟨ht, ?_⟩
    refine laid_behind hs hleft ?_ hvalue
    cases value <;> simp [Statement.tree, Expression.optionalTrees]
  | throwing =>
    simp [unlabeled, -laid_cons]
    have hleft := hword (by simp)
    refine ⟨by grind -ring -linarith, fun value t ht hvalue => ⟨by grind -ring -linarith, laid_behind hs hleft rfl ?_⟩⟩
    exact hvalue.laid.widen hs.stop_le_start_advance (le_refl _)
  | deferring =>
    simp [unlabeled, -laid_cons]
    have hleft := hword (by simp)
    refine (blockHere_places ?_).imp fun way body t ht hbody => ⟨by grind -ring -linarith, ?_⟩
    · grind -ring -linarith
    · exact laid_behind hs hleft rfl (hbody.widen hs.stop_le_start_advance (le_refl _))
  | doing => exact doing_places hs (hword (by simp)) way
  | choice => exact choice_places hs (hword (by simp)) way
  | guarding => exact guarding_places hs (hword (by simp)) way
  | looping => exact looping_places hs (hword (by simp)) way
  | repeating => exact repeating_places hs (hword (by simp)) way
  | forIn => exact forIn_places hs (hword (by simp)) way
  | switch => exact switch_places hs (hword (by simp)) way

lemma statement_places (hs : s.cursor.Placed) :
    statement.Places s fun a s' => Goal.statement.Places s s' a := by
  intro way
  simp [statement, statementLabel, -laid_cons]
  refine ⟨fun hhash => ?_, fun _ => ?_⟩
  · refine directive_places.imp fun way directive t ht _ => ⟨ht, ?_⟩
    exact laid_leaf hs (by grind -ring -linarith) ht rfl
  · have hword : s.cursor.here?.bind TokenKind.word? ≠ none → 0 < s.cursor.left := by
      intro hne
      obtain ⟨word, hsome⟩ := Option.ne_none_iff_exists'.mp hne
      exact Cursor.left_pos_of_bind_here? hsome
    split
    · exact unlabeled_places _ hs hword way
    next label hlabel =>
      simp [-laid_cons]
      refine ⟨fun _ => ⟨by grind -ring -linarith, fun inner t ht hinner => ?_⟩, fun _ => ?_⟩
      · refine ⟨by grind -ring -linarith, laid_behind hs (by grind -ring -linarith) rfl (hinner.widen ?_ (le_refl _))⟩
        grind -ring -linarith
      · exact unlabeled_places _ hs hword way

end Grammar

end FrontEnd
