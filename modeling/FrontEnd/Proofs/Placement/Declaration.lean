/-
Declarations place what they read.

A declaration starts where its attributes and modifiers do, so its range begins on its
keyword or before it.
-/
import FrontEnd.Grammar.Declaration
import FrontEnd.Proofs.Keyword
import FrontEnd.Proofs.Placement.Statement

namespace FrontEnd

open RangeTree

namespace Grammar

open Procedure

variable {s : State}

/-! ### What stands in front -/

lemma attributes_places (hs : s.cursor.Placed) : attributes.Places s fun _ _ => True := by
  intro way
  simp [attributes]
  refine ⟨fun _ => ?_, fun _ => by grind -ring -linarith⟩
  split <;> simp <;> grind -ring -linarith

lemma modifiers_places (hs : s.cursor.Placed) : modifiers.Places s fun _ _ => True := by
  intro way
  simp [modifiers]
  split <;> simp <;> grind -ring -linarith

/-! ### Imports -/

lemma importKind_places : importKind.Places s fun _ _ => True := by
  intro way
  simp [importKind]
  split
  · split <;> simp <;> grind -ring -linarith
  · simp
    grind -ring -linarith

/-- The names behind a module may end on the token before them. -/
lemma submodules_places {way : List Event} (hs : s.cursor.Placed) :
    submodules.Meets placing way s (fun _ _ _ => True) fun _ _ _ => True := by
  simp [submodules]
  split
  · simp
  · simp
    split <;> simp <;> grind -ring -linarith
  · simp

lemma importEnd_places (context : Context) (kind : ImportKind) (names : List String) :
    (importEnd context kind names).Places s fun _ _ => True := by
  intro way
  simp [importEnd]
  refine ⟨fun _ _ => by grind -ring -linarith, fun _ => ?_⟩
  exact (separator_places context).imp fun _ _ _ ht _ => ht

lemma importing_places (context : Context) (start : Location) (header : Header)
    (hs : s.cursor.Placed) (hleft : 0 < s.cursor.left) (hstart : start ≤ s.cursor.startLocation) :
    (importing context start header).Places s fun kept s' =>
      Laid start [kept.value.tree] s'.cursor.stopLocation := by
  intro way
  simp [importing, -laid_cons]
  refine importKind_places.imp fun way kind t ht _ name hname => ⟨by grind -ring -linarith, fun names u hu => ?_⟩
  refine (importEnd_places context kind names).imp fun way complaint v hv _ => ⟨by grind -ring -linarith, ?_⟩
  -- the name of the module is not given back
  have hsu : s.cursor.Onward 0 u.cursor := by grind -ring -linarith
  have hlaid : Laid s.cursor.stopLocation [] u.cursor.stopLocation := by
    rw [laid_nil]
    grind -ring -linarith
  refine (laid_behind_of_le hs hleft hstart rfl hlaid).widen (le_refl _) ?_
  grind -ring -linarith

/-! ### Bindings, aliases and functions -/

lemma initializer_places (hs : s.cursor.Placed) :
    initializer.Places s fun value s' =>
      Laid s.cursor.stopLocation (Expression.optionalTrees value) s'.cursor.stopLocation := by
  intro way
  simp [initializer, Expression.optionalTrees, -laid_cons]
  refine ⟨fun _ => ⟨by grind -ring -linarith, fun value t ht hvalue => ⟨by grind -ring -linarith, ?_⟩⟩, fun _ => by grind -ring -linarith⟩
  exact hvalue.laid.widen (by grind -ring -linarith) (le_refl _)

lemma bindings_places (hs : s.cursor.Placed) :
    bindings.Places s fun items s' => Goal.bindings.Places s s' items := by
  intro way
  simp [bindings, Binding.trees, -laid_cons]
  refine ⟨by grind -ring -linarith, fun pattern t ht hpattern => ?_⟩
  refine (initializer_places ?_).imp fun way value u hu hvalue => ?_
  · grind -ring -linarith
  have hitem := (hpattern.widen hs.stop_le_start_advance (le_refl _)).append hvalue
  refine ⟨fun _ => ⟨by grind -ring -linarith, fun later v hv hlater => ⟨by grind -ring -linarith, ?_⟩⟩, fun _ => ⟨by grind -ring -linarith, ?_⟩⟩
  · exact hitem.append (hlater.widen (by grind -ring -linarith) (le_refl _))
  · exact hitem

lemma typeAlias_places (header : Header) (start : Location) (hs : s.cursor.Placed)
    (hleft : 0 < s.cursor.left) (hstart : start ≤ s.cursor.startLocation) :
    (typeAlias header).Places s fun build s' =>
      Laid start [(build ⟨start, s'.cursor.stopLocation⟩).tree] s'.cursor.stopLocation := by
  intro way
  simp [typeAlias, -laid_cons]
  refine fun name _ _ => ⟨by grind -ring -linarith, fun type t ht => ⟨by grind -ring -linarith, ?_⟩⟩
  refine laid_behind_of_le hs hleft hstart rfl ?_
  rw [laid_nil]
  grind -ring -linarith

lemma parameterName_places : parameterName.Places s fun _ _ => True := by
  intro way
  simp [parameterName]
  split
  · simp
    grind -ring -linarith
  · simp

lemma parameterNames_places : parameterNames.Places s fun _ _ => True := by
  intro way
  simp [parameterNames]
  refine parameterName_places.imp fun way first t ht _ => ⟨fun _ => ht, fun _ => ?_⟩
  refine parameterName_places.imp fun way second u hu _ => ?_
  grind -ring -linarith

lemma parameterDefault_places (hs : s.cursor.Placed) :
    parameterDefault.Places s fun value s' =>
      Laid s.cursor.stopLocation (Expression.optionalTrees value) s'.cursor.stopLocation := by
  intro way
  simp [parameterDefault, Expression.optionalTrees, -laid_cons]
  refine ⟨fun _ => ⟨by grind -ring -linarith, fun value t ht hvalue => ⟨by grind -ring -linarith, ?_⟩⟩, fun _ => by grind -ring -linarith⟩
  exact hvalue.laid.widen (by grind -ring -linarith) (le_refl _)

lemma parameter_places (hs : s.cursor.Placed) :
    parameter.Places s fun p s' =>
      Laid s.cursor.startLocation (Expression.optionalTrees p.default) s'.cursor.stopLocation := by
  intro way
  simp [parameter]
  refine parameterNames_places.imp fun way names t ht _ _ => ⟨by grind -ring -linarith, fun u hu => ?_⟩
  refine (parameterDefault_places ?_).imp fun way value v hv hvalue => ⟨by grind -ring -linarith, ?_⟩
  · grind -ring -linarith
  · exact hvalue.widen (by grind -ring -linarith) (le_refl _)

lemma parameters_places (hs : s.cursor.Placed) :
    parameters.Places s fun ps s' => Goal.parameters.Places s s' ps := by
  intro way
  simp [parameters]
  refine (parameter_places hs).imp fun way first t ht hfirst => ⟨fun _ => ⟨by grind -ring -linarith, ?_⟩, ?_⟩
  · intro later u hu hlater
    exact ⟨by grind -ring -linarith, hfirst.append (hlater.widen (by grind -ring -linarith) (le_refl _))⟩
  · intro _ _
    exact ⟨by grind -ring -linarith, hfirst.widen (le_refl _) (by grind -ring -linarith)⟩

lemma parameterClause_places (hs : s.cursor.Placed) :
    parameterClause.Places s fun ps s' =>
      Laid s.cursor.stopLocation (ps.flatMap fun p => Expression.optionalTrees p.default)
        s'.cursor.stopLocation := by
  intro way
  simp [parameterClause]
  refine fun _ => ⟨fun _ => by grind -ring -linarith, fun _ => ⟨by grind -ring -linarith, fun ps t ht hps => ⟨by grind -ring -linarith, ?_⟩⟩⟩
  exact hps.widen (by grind -ring -linarith) (le_refl _)

lemma throwsClause_places : throwsClause.Places s fun _ _ => True := by
  intro way
  simp [throwsClause]
  grind -ring -linarith

lemma resultClause_places (hs : s.cursor.Placed) : resultClause.Places s fun _ _ => True := by
  intro way
  simp [resultClause]
  grind -ring -linarith

lemma signature_places (hs : s.cursor.Placed) :
    signature.Places s fun found s' =>
      Laid s.cursor.stopLocation found.trees s'.cursor.stopLocation := by
  intro way
  simp [signature, Signature.trees]
  intro name _
  refine (parameterClause_places ?_).imp fun way ps t ht hps => ?_
  · grind -ring -linarith
  refine throwsClause_places.imp fun way throws u hu _ => ?_
  refine (resultClause_places ?_).imp fun way result v hv _ => ⟨by grind -ring -linarith, ?_⟩
  · grind -ring -linarith
  · exact hps.widen (by grind -ring -linarith) (by grind -ring -linarith)

lemma function_places (header : Header) (start : Location) (hs : s.cursor.Placed)
    (hleft : 0 < s.cursor.left) (hstart : start ≤ s.cursor.startLocation) :
    (function header).Places s fun build s' =>
      Laid start [(build ⟨start, s'.cursor.stopLocation⟩).tree] s'.cursor.stopLocation := by
  intro way
  simp [function, -laid_cons]
  refine (signature_places hs).imp fun way found t ht hfound => ⟨fun hbrace => ?_, fun _ => ?_⟩
  · rw [← Cursor.here?_advance] at hbrace
    refine ⟨by grind -ring -linarith, fun body u hu hbody => ⟨by grind -ring -linarith, ?_⟩⟩
    refine laid_behind_of_le hs hleft hstart rfl ?_
    exact hfound.append (hbody.widen (by grind -ring -linarith) (le_refl _))
  · exact ⟨ht, laid_behind_of_le hs hleft hstart rfl hfound⟩

/-! ### Types -/

lemma typeName_places (hs : s.cursor.Placed) : typeName.Places s fun _ _ => True := by
  intro way
  simp [typeName]
  split <;> simp <;> grind -ring -linarith

lemma inheritanceClause_places (hs : s.cursor.Placed) :
    inheritanceClause.Places s fun _ _ => True := by
  intro way
  simp [inheritanceClause]
  grind -ring -linarith

lemma typeDeclaration_places (header : Header) (family : TypeFamily) (start : Location)
    (hs : s.cursor.Placed) (hleft : 0 < s.cursor.left) (hstart : start ≤ s.cursor.startLocation) :
    (typeDeclaration header family).Places s fun build s' =>
      Laid start [(build ⟨start, s'.cursor.stopLocation⟩).tree] s'.cursor.stopLocation := by
  intro way
  simp [typeDeclaration, -laid_cons]
  refine (typeName_places ?_).imp fun way name t ht _ => ?_
  · grind -ring -linarith
  refine (inheritanceClause_places ?_).imp fun way inherits u hu _ hbrace => ?_
  · grind -ring -linarith
  refine ⟨by grind -ring -linarith, fun found v hv hfound => ⟨by grind -ring -linarith, ?_⟩⟩
  refine laid_behind_of_le hs hleft hstart rfl (hfound.widen ?_ (le_refl _))
  grind -ring -linarith

lemma members_places (context : Context) (hs : s.cursor.Placed) :
    (members context).Places s fun found s' => (Goal.members context).Places s s' found := by
  intro way
  simp [members, -laid_cons, -laid_nil]
  split
  · simp
  next kind hkind =>
    simp [-laid_cons, -laid_nil]
    refine ⟨fun hclose => ?_, fun hopen => ⟨fun hsemicolon => ?_, fun _ => ?_⟩⟩
    · -- the list ends here
      simp [Declaration.trees]
      grind -ring -linarith
    · refine ⟨?_, fun later t ht hlater _ => ⟨?_, hlater.widen ?_ (le_refl _), ?_⟩⟩
      · grind -ring -linarith
      · grind -ring -linarith
      · grind -ring -linarith
      · rw [hkind, hsemicolon]
        simp
    have hbrace : (s.cursor.advance .anyLine).here? ≠ some (.punctuator .rightBrace) := by
      rw [hkind]
      rintro ⟨⟩
      exact hopen rfl
    have hhere : (s.cursor.advance .anyLine).Placed := hs.advance
    -- the members behind, wherever the reading goes on behind this one
    have hnext : ∀ (way : List Event) (u : State),
        u.cursor.toList = (s.cursor.advance .anyLine).toList →
        u.cursor.left ≤ (s.cursor.advance .anyLine).left →
        (read (.members context)).Meets placing way u
          (fun _ later s' => u.cursor.Onward 0 s'.cursor ∧
            LaterPlaced Declaration.tree Cursor.stopLocation u later s') fun _ _ _ => True := by
      intro way u hlist hleft
      simp [Declaration.trees_eq_map, -laid_cons, -laid_nil]
      grind -ring -linarith [LaterPlaced]
    -- one member, whatever came of it
    have hitem : ∀ way t (tried : Except ParseError (Kept Declaration)),
        (s.cursor.advance .anyLine).Onward 0 t.cursor →
        (∀ kept, tried = .ok kept → Laid (s.cursor.advance .anyLine).startLocation
          [kept.value.tree] t.cursor.stopLocation) →
        (itemThen tried (read (.members context))).Meets placing way t
          (fun _ found s' => s.cursor.Onward 0 s'.cursor ∧
            (Laid s.cursor.stopLocation (Declaration.trees found) s'.cursor.stopLocation ∧
              ((s.cursor.advance .anyLine).here? = some (.punctuator .rightBrace) →
                found = [] ∧ s'.cursor = s.cursor.advance .anyLine))) fun _ _ _ => True := by
      intro way t tried ht htried
      refine (itemThen_places Declaration.tree Cursor.stopLocation (fun _ _ => rfl) hhere ht
        hbrace htried hnext).imp (fun way items s' h => ?_) fun _ _ _ _ => trivial
      obtain ⟨hon, hlaid⟩ := h
      rw [← Declaration.trees_eq_map] at hlaid
      refine ⟨by grind -ring -linarith, hlaid.widen hs.stop_le_start_advance (le_refl _), fun hclose => ?_⟩
      exact absurd hclose hbrace
    refine ⟨fun _ => ⟨hhere, fun kept t ht hkept => ?_, fun e t ht => ?_⟩, fun _ => ?_⟩
    · refine hitem _ t (.ok kept) ht ?_
      rintro kept ⟨⟩
      exact hkept
    · exact hitem _ t (.error e) ht (by simp)
    · exact fun _ => hitem _ (s.moveTo (s.cursor.advance .anyLine)) (.error _)
        ⟨rfl, Nat.le_refl _⟩ (by simp)

lemma typeBody_places (context : Context) (hs : s.cursor.Placed) :
    (typeBody context).Places s fun found s' => (Goal.typeBody context).Places s s' found := by
  intro way
  simp [typeBody, -laid_cons]
  exact ⟨hs, fun found t ht hfound _ => ⟨ht, hfound⟩⟩

lemma caseNames_places (hs : s.cursor.Placed) : caseNames.Places s fun _ _ => True := by
  intro way
  simp [caseNames]
  grind -ring -linarith

/-! ### All declarations -/

lemma declarationNamed_places (header : Header) (word : String) (start : Location)
    (hs : s.cursor.Placed) (hleft : 0 < s.cursor.left) (hstart : start ≤ s.cursor.startLocation) :
    (declarationNamed header word).Places s fun build s' =>
      Laid start [(build ⟨start, s'.cursor.stopLocation⟩).tree] s'.cursor.stopLocation := by
  intro way
  cases DeclarationWord.of word with
  | letBinding | varBinding =>
    simp [declarationNamed, -laid_cons]
    refine ⟨hs, fun items t ht hitems => ⟨ht, ?_⟩⟩
    exact laid_behind_of_le hs hleft hstart rfl hitems
  | typeAlias => exact typeAlias_places header start hs hleft hstart way
  | function => exact function_places header start hs hleft hstart way
  | structType | classType | enumType | protocol | extension =>
    exact typeDeclaration_places header _ start hs hleft hstart way
  | enumCases =>
    simp [declarationNamed, -laid_cons]
    refine ⟨hs, fun names t ht => ⟨ht, laid_behind_of_le hs hleft hstart rfl ?_⟩⟩
    rw [laid_nil]
    grind -ring -linarith
  | other h => simp [declarationNamed_of_other header h]

lemma declarationFrom_places (context : Context) (start : Location) (header : Header)
    (word : String) (hs : s.cursor.Placed) (hleft : 0 < s.cursor.left)
    (hstart : start ≤ s.cursor.startLocation) :
    (declarationFrom context start header word).Places s fun kept s' =>
      Laid start [kept.value.tree] s'.cursor.stopLocation := by
  intro way
  simp [declarationFrom, -laid_cons]
  refine ⟨fun _ => importing_places context start header hs hleft hstart way, fun _ => ?_⟩
  refine (declarationNamed_places header word start hs hleft hstart).imp fun way node t ht hnode => ?_
  refine (separator_places context).imp fun way complaint u hu _ => ⟨by grind -ring -linarith, ?_⟩
  refine hnode.widen (le_refl _) ?_
  grind -ring -linarith

lemma declaration_places (context : Context) (hs : s.cursor.Placed) :
    (declaration context).Places s fun kept s' => (Goal.declaration context).Places s s' kept := by
  intro way
  simp [declaration, -laid_cons]
  refine ⟨hs, fun attributes t ht => ⟨by grind -ring -linarith, fun modifiers u hu => ?_⟩⟩
  split
  · refine (declarationFrom_places context _ _ _ ?_ ?_ ?_).imp fun way kept v hv hkept => ?_
    · grind -ring -linarith
    · grind -ring -linarith
    · grind -ring -linarith
    · exact ⟨by grind -ring -linarith, hkept⟩
  · simp

end Grammar

end FrontEnd
