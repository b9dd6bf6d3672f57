/-
The header of a declaration.

What stands in front of the keyword of a declaration has no part in how it is read on: under another
header, and from another start, the same declaration is read (`Grammar.declarationFrom_rehead`).  So a
reading behind one header gives the reading behind every other one
(`Goal.Reads.rehead`).
-/
import FrontEnd.Proofs.Keyword
import FrontEnd.Proofs.RoundTrip.Declaration
import FrontEnd.Proofs.View.Syntax

namespace FrontEnd

/-- A declaration under another header, which starts elsewhere. -/
def Declaration.rehead (start : Location) (header : Header) : Declaration → Declaration
  | .importing r _ kind module submodules => .importing ⟨start, r.stop⟩ header kind module submodules
  | .bindings r _ isMutable items => .bindings ⟨start, r.stop⟩ header isMutable items
  | .typeAlias r _ name aliased => .typeAlias ⟨start, r.stop⟩ header name aliased
  | .function r _ signature body => .function ⟨start, r.stop⟩ header signature body
  | .type r _ family name inherits members =>
    .type ⟨start, r.stop⟩ header family name inherits members
  | .cases r _ names => .cases ⟨start, r.stop⟩ header names

lemma Declaration.view_rehead (v : View) (start : Location) (header : Header) (d : Declaration) :
    (d.rehead start header).view v = (d.view v).rehead (v.place start) header := by
  cases d with
  | function r h signature body => cases body <;> rfl
  | _ => rfl

namespace Grammar

open Procedure

/-- The one procedure reads what the other one reads from `start`, under another header. -/
def Reheads (start : Location) (header : Header) (p p' : Procedure (Range → Declaration)) : Prop :=
  p' = p >>= fun node => pure fun range => (node ⟨start, range.stop⟩).rehead range.start header

variable (start start' : Location) (header header' : Header)

lemma typeAlias_reheads : Reheads start header' (typeAlias header) (typeAlias header') := by
  simp only [Reheads, typeAlias, bind_bind]
  rfl

lemma function_reheads : Reheads start header' (function header) (function header') := by
  simp only [Reheads, function, bind_bind, ite_bind]
  rfl

lemma typeDeclaration_reheads (family : TypeFamily) :
    Reheads start header' (typeDeclaration header family) (typeDeclaration header' family) := by
  simp only [Reheads, typeDeclaration, bind_bind]
  rfl

lemma declarationNamed_reheads (word : String) :
    Reheads start header' (declarationNamed header word) (declarationNamed header' word) := by
  cases DeclarationWord.of word with
  | typeAlias => exact typeAlias_reheads start header header'
  | function => exact function_reheads start header header'
  | structType | classType | enumType | protocol | extension =>
    exact typeDeclaration_reheads start header header' _
  | letBinding | varBinding | enumCases =>
    simp only [Reheads, declarationNamed, bind_bind]
    rfl
  | other h =>
    rw [declarationNamed_of_other header h, declarationNamed_of_other header' h]
    rfl

lemma importing_rehead (context : Context) :
    importing context start' header' = importing context start header >>= fun kept =>
      pure ⟨kept.value.rehead start' header', kept.complaint⟩ := by
  simp only [importing, bind_bind]
  rfl

/-- Under another header, and from another start, the same declaration is read. -/
lemma declarationFrom_rehead (context : Context) (word : String) :
    declarationFrom context start' header' word =
      declarationFrom context start header word >>= fun kept =>
        pure ⟨kept.value.rehead start' header', kept.complaint⟩ := by
  unfold declarationFrom
  split
  · exact importing_rehead start start' header header' context
  · have hnamed : declarationNamed header' word = _ := declarationNamed_reheads start header header' word
    simp only [hnamed, bind_bind]
    rfl

end Grammar

/-! ### Readings -/

namespace Procedure

variable {α : Type} {K : Contract} {way : List Event} {s : State}

/-- Where the ends do not ask for the events on the way, it does not matter what happened before. -/
lemma Meets.elsewhere {p : Procedure α} {ok : α → State → Prop} {err : ParseError → State → Prop}
    (h : p.Meets K way s (fun _ => ok) fun _ => err) (way' : List Event) :
    p.Meets K way' s (fun _ => ok) fun _ => err := by
  induction p generalizing way way' s with
  | done a => exact h
  | fail e => exact h
  | ask i next ih => exact ih _ h _
  | call g next ih =>
    obtain ⟨henter, hvalue, herror⟩ := h
    exact ⟨henter, fun a s' ha => ih _ (hvalue a s' ha) _, fun e s' he => ih _ (herror e s' he) _⟩
  | note e next ih => exact ih h _

/-- On its one way a procedure ends in what it is performed to. -/
lemma meets_of_perform {below inside : Nat} {p : Procedure α} {r : Except ParseError α} {t : State}
    (h : p.perform (Goal.run below inside) s = .finished r t) (way : List Event) :
    p.Meets (.reading inside) way s (fun _ a u => r = .ok a ∧ u = t)
      fun _ e u => r = .error e ∧ u = t := by
  induction p generalizing way s with
  | done a =>
    cases h
    exact ⟨rfl, rfl⟩
  | fail e =>
    cases h
    exact ⟨rfl, rfl⟩
  | ask i next ih => exact ih _ h _
  | call g next ih =>
    simp only [Procedure.perform] at h
    rcases hc : Goal.run below inside g s with ⟨result, u⟩ | _
    · rw [hc] at h
      have hreads : g.Reads inside s result u := ⟨below, hc⟩
      refine ⟨trivial, fun a s' ha => ?_, fun e s' he => ?_⟩
      · obtain ⟨rfl, rfl⟩ := hreads.unique ha
        exact ih _ h _
      · obtain ⟨rfl, rfl⟩ := hreads.unique he
        exact ih _ h _
    · simp [hc] at h
  | note e next ih => exact ih h _

end Procedure

namespace Goal

open Procedure

variable {room : Nat} {s t : State} {c : Cursor} {words : List String} {word : String}

/-- A declaration that is read from its keyword on is read behind modifiers, too, to the same but for
its header and start. -/
theorem Reads.rehead {d : Declaration} {complaint : Option ParseError}
    (h : (declaration .topLevel).Reads room (s.moveTo c) (.ok ⟨d, complaint⟩) t)
    (hword : c.here? = some (.keyword word .declaration))
    (hmodifier : KeywordRole.modifiers.contains word = false)
    (hsign : s.cursor.here? ≠ some (.punctuator .atSign))
    (hmodifiers : modifiers.Reads room s (.ok words) (s.moveTo c)) :
    (declaration .topLevel).Reads room s
      (.ok ⟨d.rehead s.cursor.startLocation ⟨[], words⟩, complaint⟩) t := by
  have hroom : (declaration .topLevel).roomInside? room = some room :=
    roomInside?_of_not_isLevel rfl
  obtain ⟨bound, hr⟩ := h
  rcases bound with _ | below
  · cases hr
  rw [run, hroom] at hr
  have hmeets := meets_of_perform hr []
  refine Reads.of_meets hroom ?_
  rw [procedure, meets_declarationFrom_nil hword hmodifier] at hmeets
  rw [procedure, meets_declarationFrom hsign hmodifiers hword,
    Grammar.declarationFrom_rehead c.startLocation _ ⟨[], []⟩, meets_bind]
  refine (hmeets.elsewhere _).imp (fun way kept u hu => ?_) fun way e u hu => ?_
  · obtain ⟨hkept, rfl⟩ := hu
    cases hkept
    exact ⟨rfl, rfl⟩
  · cases hu.1

end Goal

end FrontEnd
