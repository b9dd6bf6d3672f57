/-
What a procedure returns.

Some facts about the value of a procedure hold whatever it is answered and whatever the goals it calls
come to: they are seen at the ends of its text alone.  Such a fact may be added to any condition on the
ways through the procedure.
-/
import FrontEnd.Proofs.Contract.Quiet
import FrontEnd.Proofs.Keyword

namespace FrontEnd

namespace Procedure

variable {α β : Type} {P : α → Prop} {Q : β → Prop}

/-- Every value that a procedure may end in has a property. -/
def Returns (P : α → Prop) : Procedure α → Prop
  | done a => P a
  | fail _ => True
  | ask _ next => ∀ answer, (next answer).Returns P
  | call _ next => ∀ result, (next result).Returns P
  | note _ next => next.Returns P

@[simp] lemma returns_pure (a : α) : (pure a : Procedure α).Returns P ↔ P a := Iff.rfl

@[simp] lemma returns_raise (kind : ErrorKind) : (raise kind : Procedure α).Returns P ↔ True :=
  iff_true_intro fun _ => trivial

@[simp] lemma returns_ite (c : Prop) [Decidable c] (p p' : Procedure α) :
    (if c then p else p').Returns P ↔ (c → p.Returns P) ∧ (¬ c → p'.Returns P) := by
  by_cases hc : c <;> simp [hc]

/-- Of two procedures in a row the second one returns. -/
lemma returns_bind {p : Procedure α} {f : α → Procedure β} (h : ∀ a, (f a).Returns Q) :
    (p >>= f).Returns Q := by
  change (p.bind f).Returns Q
  induction p with
  | done a => exact h a
  | fail e => trivial
  | ask i next ih => exact ih
  | call g next ih => exact ih
  | note e next ih => exact ih

/-! ### Beside a condition on the ways -/

variable {K : Contract} {s : State}

lemma Meets.and_returns {way : List Event} {ok : List Event → α → State → Prop}
    {err : List Event → ParseError → State → Prop} {p : Procedure α} (h : p.Meets K way s ok err)
    (hreturns : p.Returns P) : p.Meets K way s (fun way a s' => ok way a s' ∧ P a) err := by
  induction p generalizing way s with
  | done a => exact ⟨h, hreturns⟩
  | fail e => exact h
  | ask i next ih => exact ih _ h (hreturns _)
  | call g next ih =>
    obtain ⟨henter, hvalue, herror⟩ := h
    exact ⟨henter, fun a s' ha => ih _ (hvalue a s' ha) (hreturns _),
      fun e s' he => ih _ (herror e s' he) (hreturns _)⟩
  | note e next ih => exact ih h hreturns

lemma Yields.and_returns {ok : α → State → Prop} {p : Procedure α} (h : p.Yields K s ok)
    (hreturns : p.Returns P) : p.Yields K s fun a s' => ok a s' ∧ P a := by
  induction p generalizing s with
  | done a => exact ⟨h, hreturns⟩
  | fail e => trivial
  | ask i next ih => exact ih _ h (hreturns _)
  | call g next ih =>
    obtain ⟨henter, hvalue, herror⟩ := h
    exact ⟨henter, fun a s' ha => ih _ (hvalue a s' ha) (hreturns _),
      fun e s' => ih _ (herror e s') (hreturns _)⟩
  | note e next ih => trivial

end Procedure

namespace Grammar

open Procedure

/-- What is read from a keyword other than `import` is no import, and takes the range it is given. -/
lemma declarationNamed_returns (header : Header) (word : String) :
    (declarationNamed header word).Returns fun node => ∀ r, (node r).range = r ∧
      ∀ r' header' kind module names, node r ≠ .importing r' header' kind module names := by
  cases DeclarationWord.of word with
  | typeAlias =>
    simp only [declarationNamed, Grammar.typeAlias]
    iterate 5 refine returns_bind fun _ => ?_
    simp [Declaration.range]
  | function =>
    simp only [declarationNamed, Grammar.function]
    iterate 2 refine returns_bind fun _ => ?_
    rw [returns_ite]
    refine ⟨fun _ => ?_, fun _ => by simp [Declaration.range]⟩
    iterate 2 refine returns_bind fun _ => ?_
    simp [Declaration.range]
  | structType | classType | enumType | protocol | extension =>
    simp only [declarationNamed, typeDeclaration]
    iterate 5 refine returns_bind fun _ => ?_
    simp [Declaration.range]
  | letBinding | varBinding | enumCases =>
    simp only [declarationNamed]
    refine returns_bind fun _ => ?_
    simp [Declaration.range]
  | other h => simp [declarationNamed_of_other header h]

end Grammar

end FrontEnd
