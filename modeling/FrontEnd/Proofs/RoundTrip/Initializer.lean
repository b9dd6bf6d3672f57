/-
The values of declarations are read back from their texts.

Every value that a declaration at the top level of a text binds was read as an expression among
the tokens of the text.  If these are legible the value is printed, and what is printed is read
again as the value of a constant: `Parser.readText_initializer`.
-/
import FrontEnd.Proofs.Keyword
import FrontEnd.Proofs.RoundTrip.Declaration
import FrontEnd.Proofs.RoundTrip.Operators

namespace FrontEnd

/-- The values that a declaration binds. -/
def Declaration.values : Declaration → List Expression
  | .bindings _ _ _ items => items.filterMap (·.value)
  | _ => []

/-! ### Where values are read -/

namespace Procedure

variable {room : Nat} {s : State} {way : List Event}

/-- What is read stands in the same list. -/
lemma meets_read_list {g : Goal} {ok : List Event → g.Result → State → Prop}
    (h : ∀ a t, t.cursor.toList = s.cursor.toList → g.Reads room s (.ok a) t →
      ok (.called g s :: way) a t) :
    @Meets (no_index g.Result) (.reading room) (read g) way s ok fun _ _ _ => True :=
  (meets_read ..).mpr
    ⟨trivial, fun a t hreads => h a t hreads.onward_back.toList_eq hreads, fun _ _ _ => trivial⟩

/-- Whatever a procedure reads, another one goes on from there. -/
lemma meets_bind_of_forall {α β : Type} {p : Procedure α} {f : α → Procedure β}
    {ok : List Event → β → State → Prop}
    (h : ∀ way a t, (f a).Meets (.reading room) way t ok fun _ _ _ => True) :
    (p >>= f).Meets (.reading room) way s ok fun _ _ _ => True := by
  rw [meets_bind]
  induction p generalizing way s with
  | done a => exact h _ _ _
  | fail e => trivial
  | ask i next ih => exact ih _
  | call g next ih => exact ⟨trivial, fun _ _ _ => ih _, fun _ _ _ => ih _⟩
  | note e next ih => exact ih

end Procedure

namespace Goal

open Procedure

variable {room : Nat} {s t : State} {e : Expression}

/-- An expression was read somewhere in the list of a state. -/
def ReadsIn (room : Nat) (s : State) (e : Expression) : Prop :=
  ∃ u v, u.cursor.toList = s.cursor.toList ∧ (expression 0).Reads room u (.ok e) v

lemma ReadsIn.of_list (h : ReadsIn room t e) (hlist : t.cursor.toList = s.cursor.toList) :
    ReadsIn room s e := by
  obtain ⟨u, v, hu, hreads⟩ := h
  exact ⟨u, v, hu.trans hlist, hreads⟩

/-- The value of a binding is read as an expression. -/
lemma meets_initializer {ok : List Event → Option Expression → State → Prop} (way : List Event)
    (h : ∀ way value t, t.cursor.toList = s.cursor.toList → (∀ e ∈ value, ReadsIn room s e) →
      ok way value t) :
    Grammar.initializer.Meets (.reading room) way s ok fun _ _ _ => True := by
  simp only [Grammar.initializer, meets_bind, meets_isNext, meets_ite, decide_eq_true_eq, meets_advance,
    meets_pure]
  refine ⟨fun _ => meets_read_list fun e t hlist hreads => h _ _ t (by simpa using hlist) ?_,
    fun _ => h _ _ s rfl (by simp)⟩
  rintro _ ⟨⟩
  exact ⟨_, t, by simp, hreads⟩

/-- The values of bindings were read as expressions. -/
lemma Reads.bindings_readsIn {items : List Binding} (h : bindings.Reads room s (.ok items) t) :
    ∀ b ∈ items, ∀ e ∈ b.value, ReadsIn room s e := by
  induction items generalizing s t with
  | nil => exact nofun
  | cons first later ih =>
    have hmeets : Grammar.bindings.Meets (.reading room) [] s (fun _ found _ => found = first :: later →
        ∀ b ∈ found, ∀ e ∈ b.value, ReadsIn room s e) fun _ _ _ => True := by
      simp only [Grammar.bindings, meets_bind, meets_advance, meets_isNext, meets_ite, decide_eq_true_eq,
        meets_pure]
      refine meets_read_list fun pattern u hu _ => meets_initializer _ fun way value v hv hvalue => ?_
      have hlist : u.cursor.toList = s.cursor.toList := by simpa using hu
      have hfirst : ∀ e ∈ value, ReadsIn room s e := fun e he => (hvalue e he).of_list hlist
      refine ⟨fun _ => meets_read_list fun found w hw hreads => ?_, fun _ _ =>
        List.forall_mem_singleton.mpr hfirst⟩
      rintro ⟨⟩
      refine List.forall_mem_cons.mpr ⟨hfirst, fun b hb e he => (ih hreads b hb e he).of_list ?_⟩
      rw [State.cursor_moveTo, Cursor.toList_advance, hv, hlist]
    exact h.value_of_meets (roomInside?_of_not_isLevel rfl) hmeets rfl

/-- From its keyword on, a declaration binds only what is read. -/
lemma meets_declarationNamed (header : Header) (word : String) (way : List Event) :
    (Grammar.declarationNamed header word).Meets (.reading room) way s
      (fun _ build _ => ∀ r, ∀ e ∈ (build r).values, ReadsIn room s e) fun _ _ _ => True := by
  have hitems (isMutable : Bool) : (do
      let items ← read .bindings
      return (.bindings · header isMutable items) : Procedure (Range → Declaration)).Meets
        (.reading room) way s (fun _ build _ => ∀ r, ∀ e ∈ (build r).values, ReadsIn room s e)
        fun _ _ _ => True := by
    simp only [meets_bind, meets_pure]
    refine meets_read_list fun items t _ hreads r e he => ?_
    obtain ⟨b, hb, hvalue⟩ := List.mem_filterMap.mp he
    exact hreads.bindings_readsIn b hb e hvalue
  cases Grammar.DeclarationWord.of word with
  | letBinding => exact hitems false
  | varBinding => exact hitems true
  | typeAlias =>
    exact meets_bind_of_forall fun _ _ _ => meets_bind_of_forall fun _ _ _ =>
      meets_bind_of_forall fun _ _ _ => meets_bind_of_forall fun _ _ _ =>
        meets_bind_of_forall fun _ _ _ _ => List.forall_mem_nil _
  | function =>
    refine meets_bind_of_forall fun _ _ _ => meets_bind_of_forall fun _ _ _ => ?_
    split
    · exact meets_bind_of_forall fun _ _ _ => meets_bind_of_forall fun _ _ _ _ => List.forall_mem_nil _
    · exact fun _ => List.forall_mem_nil _
  | enumCases => exact meets_bind_of_forall fun _ _ _ _ => List.forall_mem_nil _
  | other h =>
    rw [Grammar.declarationNamed_of_other header h]
    trivial
  | structType | classType | enumType | protocol | extension =>
    exact meets_bind_of_forall fun _ _ _ => meets_bind_of_forall fun _ _ _ =>
      meets_bind_of_forall fun _ _ _ => meets_bind_of_forall fun _ _ _ =>
        meets_bind_of_forall fun _ _ _ _ => List.forall_mem_nil _

/-- A declaration at the top level binds only what is read. -/
lemma Reads.values_readsIn {d : Declaration} {complaint : Option ParseError}
    (h : (declaration .topLevel).Reads room s (.ok ⟨d, complaint⟩) t) :
    ∀ e ∈ d.values, ReadsIn room s e := by
  have hmeets : (Grammar.declaration .topLevel).Meets (.reading room) [] s
      (fun _ kept _ => ∀ e ∈ kept.value.values, ReadsIn room s e) fun _ _ _ => True := by
    simp only [Grammar.declaration, meets_bind, meets_startLocation, meets_here]
    refine meets_read_list fun attributes u hu _ => meets_read_list fun modifiers v hv _ => ?_
    split
    swap
    · trivial
    next word _ =>
      unfold Grammar.declarationFrom
      split
      · exact meets_bind_of_forall fun _ _ _ => meets_bind_of_forall fun _ _ _ =>
          meets_bind_of_forall fun _ _ _ => meets_bind_of_forall fun _ _ _ =>
            meets_bind_of_forall fun _ _ _ => meets_bind_of_forall fun _ _ _ =>
              meets_bind_of_forall fun _ _ _ => List.forall_mem_nil _
      · rw [meets_bind]
        refine (meets_declarationNamed _ word _).imp (fun _ build t hbuild => ?_) fun _ _ _ => id
        refine meets_bind_of_forall fun _ range _ => meets_bind_of_forall fun _ _ _ e he => ?_
        exact (hbuild range e he).of_list (hv.trans hu)
  exact h.value_of_meets (roomInside?_of_not_isLevel rfl) hmeets

/-- Where an expression was read there was room for one. -/
lemma Reads.room_pos {floor : Nat} (h : (expression floor).Reads room s (.ok e) t) : 0 < room := by
  obtain ⟨bound, hrun⟩ := h
  rcases room with _ | room
  · rcases bound with _ | below
    · cases hrun
    · simp [run, roomInside?, isLevel] at hrun
  · exact Nat.succ_pos room

end Goal

/-! ### The top level -/

namespace TopLevel

variable {room : Nat} {start : State} {p q : List Declaration × State}

/-- What is found binds only what was read in the list of the start. -/
def Sourced (room : Nat) (start : State) (p : List Declaration × State) : Prop :=
  p.2.cursor.toList = start.cursor.toList ∧
    ∀ d ∈ p.1, ∀ e ∈ d.values, Goal.ReadsIn room start e

lemma Step.sourced (h : Step room p q) (hp : Sourced room start p) : Sourced room start q := by
  obtain ⟨found, s⟩ := p
  obtain ⟨found', s'⟩ := q
  obtain ⟨hlist, hfound⟩ := hp
  refine ⟨h.left_lt.1.trans hlist, ?_⟩
  cases h with
  | pass _ _ => exact hfound
  | @declaration _ _ t r _ _ hreads =>
    rcases r with _ | ⟨d, _ | _⟩
    · exact hfound
    all_goals
      exact List.forall_mem_cons.mpr
        ⟨fun e he => (hreads.values_readsIn e he).of_list hlist, hfound⟩

lemma run_sourced (h : Relation.ReflTransGen (Step room) ([], start) q) : Sourced room start q := by
  induction h with
  | refl => exact ⟨rfl, nofun⟩
  | tail _ hstep ih => exact hstep.sourced ih

end TopLevel

/-- What a declaration at the top level binds was read among the tokens. -/
lemma Parser.values_readsIn (p : Parser) {tokens : List Token} {d : Declaration}
    (hd : d ∈ (p.readTokens tokens).root.declarations) :
    ∀ e ∈ d.values, Goal.ReadsIn p.maxDepth ⟨(Cursor.start tokens).shift, []⟩ e := by
  obtain ⟨found, s, hrun, -, heq⟩ := p.exists_steps tokens
  rw [heq] at hd
  exact (TopLevel.run_sourced hrun).2 d (by simpa using hd)

/-! ### Printed values -/

/-- A constant is lexed to its first tokens and those of its value. -/
lemma Cursor.Spelled.kinds_constant {c : Cursor} {kind : TokenKind} {kinds : List TokenKind}
    (h : c.Spelled (kind :: kinds)) (hkind : kind.IsSolid) {text : String}
    (htext : TokenKind.texts (kind :: kinds) = text.toList) :
    (Token.ofText ("let x = " ++ text)).map (·.kind.plain) =
      Parser.constantHead "x" ++ kind :: kinds := by
  have hend (kind : TokenKind) (htakes : Rule.Takes kind.text.toList kind) (hkind : kind.IsSolid)
      (hstring : ∀ content, kind ≠ .string content) (hquoted : ∀ name, kind ≠ .quotedIdentifier name)
      {kinds : List TokenKind} (h : c.Spelled (.whitespace :: kinds)) :
      c.Spelled (kind :: .whitespace :: kinds) :=
    h.cons htakes hkind.plain_eq fun later =>
      htakes.halts_ender hkind hstring hquoted (show ' ' ∈ Rule.enders by decide)
  have hvalue := hend (.punctuator .equal) (Lexeme.takes_mark .equal) ⟨rfl, rfl⟩ (fun _ => nofun)
    (fun _ => nofun) (h.blank hkind)
  have hname := hend (.identifier "x") ⟨rfl, by decide⟩ ⟨rfl, rfl⟩ (fun _ => nofun)
    (fun _ => nofun) (hvalue.blank ⟨rfl, rfl⟩)
  have hall := hend (.keyword "let" .declaration) ⟨rfl, by decide⟩ ⟨rfl, rfl⟩ (fun _ => nofun)
    (fun _ => nofun) (hname.blank ⟨rfl, rfl⟩)
  obtain ⟨last, -, -, hapart⟩ := hall
  have hlexed := (hapart [] Rule.halts_nil).kinds_eq
  have hplain := congrArg (List.map TokenKind.plain) (Token.kinds_ofText ("let x = " ++ text))
  rw [List.map_map] at hplain
  refine hplain.trans (Eq.trans ?_ (hlexed.trans (List.append_nil _)))
  congr 2
  rw [TokenKind.texts_cons] at htext
  simp [TokenKind.text, Punctuator.symbol, ← htext]

namespace Parser

/-- Every value that is bound at the top level of a text is read back from its own text, as the
value of a constant, if the text has no backtick, no token of two periods, and no string with a
character that is written by its code point. -/
theorem readText_initializer (p : Parser) {text : String} {d : Declaration} {e : Expression}
    (hbacktick : '\x60' ∉ text.toList)
    (hperiods : ∀ t ∈ Token.ofText text, ¬ (t.kind = .punctuator .period ∧ t.span.length = 2))
    (hstrings : ∀ t ∈ Token.ofText text, ∀ content, t.kind = .string content →
      Text.Uncoded content.toList)
    (hd : d ∈ (p.readText text).root.declarations) (he : e ∈ d.values) :
    ∃ range place e', e'.view .placeless = e.view .placeless ∧
      p.readText ("let x = " ++ e.text) =
        ⟨⟨rootRange (Token.ofText ("let x = " ++ e.text)),
          [.bindings range ⟨[], []⟩ false [⟨.identifier place "x", some e'⟩]]⟩, []⟩ := by
  obtain ⟨s, t, hlist, hreads⟩ := p.values_readsIn hd e he
  have hlegible : Legible s.cursor.plainKinds := by
    rw [Cursor.plainKinds, hlist, Cursor.toList_shift, Cursor.toList_start]
    exact Token.legible_ofText hbacktick hperiods hstrings
  obtain ⟨kinds, hwritten⟩ := hreads.printed hlegible
  obtain ⟨kind, later, rfl, -, hstarts, -⟩ := hwritten.begins
  have htokens := hwritten.spelled.kinds_constant hstarts.isSolid hwritten.texts_eq
  have hvalue (u : State) (hu : u.cursor.Sees (kind :: later)) :
      ∃ e' v last, (Goal.expression 0).Reads p.maxDepth u (.ok e') v ∧ v.noted = u.noted ∧
        v.cursor.Sees [last] ∧ e'.view .placeless = e.view .placeless := by
    obtain ⟨e', v, last, hreads', hview, hnoted, hlast⟩ :=
      hwritten.echoes [] (Cursor.admits_nil _) u (by simpa using hu)
    exact ⟨e', v, last, hreads', hnoted, hlast, hview⟩
  exact p.exists_readTokens_constant htokens hstarts.isSolid.1 hreads.room_pos hvalue

/-- A comment and blanks are not printed, and a comma before a closing mark is not either. -/
theorem readText_initializer_call :
    let text := "let a = -f( b:[1,], .c)!.d+\"e\" // sum"
    '\x60' ∉ text.toList ∧
      (∀ t ∈ Token.ofText text, ¬ (t.kind = .punctuator .period ∧ t.span.length = 2)) ∧
      (∀ t ∈ Token.ofText text, ∀ content, t.kind = .string content → Text.Uncoded content.toList) ∧
      ∃ d ∈ ((Parser.mk 9).readText text).root.declarations, ∃ e ∈ d.values,
        e.text = "-f(b: [1], .c)!.d + \"e\"" ∧
        ∃ range place e', e'.view .placeless = e.view .placeless ∧
          (Parser.mk 9).readText ("let x = " ++ e.text) =
            ⟨⟨rootRange (Token.ofText ("let x = " ++ e.text)),
              [.bindings range ⟨[], []⟩ false [⟨.identifier place "x", some e'⟩]]⟩, []⟩ := by
  intro text
  have hbacktick : '\x60' ∉ text.toList := by decide
  obtain ⟨hperiods, hcontents, hread⟩ :
      (∀ t ∈ Token.ofText text, ¬ (t.kind = .punctuator .period ∧ t.span.length = 2)) ∧
      (∀ t ∈ Token.ofText text, t.kind.description = "string literal" → t.kind = .string "e") ∧
      ((Parser.mk 9).readText text).root.declarations.flatMap (·.values.map (·.text)) =
        ["-f(b: [1], .c)!.d + \"e\""] := by
    decide +kernel
  have hstrings : ∀ t ∈ Token.ofText text, ∀ content, t.kind = .string content →
      Text.Uncoded content.toList := by
    intro t ht content hkind
    obtain rfl : content = "e" :=
      TokenKind.string.inj (hkind.symm.trans (hcontents t ht (by rw [hkind]; rfl)))
    exact forall_mem_of_all (by decide)
  obtain ⟨d, hd, htext⟩ := List.mem_flatMap.mp (hread.symm ▸ List.mem_singleton_self _)
  obtain ⟨e, he, htext⟩ := List.mem_map.mp htext
  exact ⟨hbacktick, hperiods, hstrings, d, hd, e, he, htext,
    readText_initializer ⟨9⟩ hbacktick hperiods hstrings hd he⟩

end Parser

end FrontEnd
