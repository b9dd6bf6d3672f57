/-
The table of operators decides the grouping.

Wherever an operation stands in a tree that was read, the table admits its operands, and a
chain of any length is read as a whole.  As the table leaves one grouping of a chain, that is
the one that is read (`Parser.readTokens_prescribed`).
-/
import FrontEnd.Proofs.Grouping.Climb
import FrontEnd.Proofs.RoundTrip.Declaration

namespace FrontEnd

/-- How a chain is written behind the head of a constant. -/
lemma Linked.map_plain {links : List (String × String)} {kinds : List TokenKind}
    (h : Linked links kinds) : kinds.map TokenKind.plain = kinds := by
  induction h with
  | nil => rfl
  | @cons _ _ _ sign _ hsign _ ih =>
    have hplain : sign.plain = sign := by
      cases sign <;> simp [TokenKind.binary?] at hsign <;> rfl
    rw [List.map_cons, List.map_cons, List.map_cons, List.map_cons, hplain, ih]
    rfl

namespace Parser

/-- A constant whose value is written as a chain: the value shows that chain. -/
lemma exists_readTokens_chain (p : Parser) {tokens : List Token} {name : String} {c : Chain}
    {kinds : List TokenKind} (hlinked : Linked c.links kinds)
    (htokens : tokens.map (·.kind) = constantHead name ++ .identifier c.first :: kinds)
    (hroom : c.links.length < p.maxDepth) :
    ∃ range place e, e.chain? = some c ∧ p.readTokens tokens =
      ⟨⟨rootRange tokens, [.bindings range ⟨[], []⟩ false [⟨.identifier place name, some e⟩]]⟩,
        []⟩ := by
  have hplain : tokens.map (·.kind.plain) = constantHead name ++ .identifier c.first :: kinds := by
    have hmap := congrArg (List.map TokenKind.plain) htokens
    rw [List.map_map, List.map_append, List.map_cons, hlinked.map_plain] at hmap
    exact hmap
  refine p.exists_readTokens_constant hplain rfl (Nat.zero_lt_of_lt hroom) fun s hsees => ?_
  obtain ⟨e, t, last, hreads, hnoted, ⟨_, hnil, hlast⟩, hshown⟩ :=
    Goal.exists_reads_wholeChain (s := s) ⟨kinds, hlinked, hsees⟩ hroom
  cases hnil
  exact ⟨e, t, _, hreads, hnoted, hlast, hshown⟩

/-- Reading groups operators as the table prescribes.  In every tree that is read, the operands
of each operation that are operations themselves bind more tightly, or equally tightly on the
side to which the level associates.  A constant whose value is written as a chain of names and
operators is read without errors, its value shows exactly this chain, and any grouping of the
chain that the table admits is, up to places, the one that was read. -/
theorem readTokens_prescribed (p : Parser) :
    (∀ tokens e, .expression e ∈ (p.readTokens tokens).root.visit (fun _ => true) → e.Grouped) ∧
    ∀ (tokens : List Token) (c : Chain) (kinds : List TokenKind), Linked c.links kinds →
      tokens.map (·.kind) = constantHead "x" ++ .identifier c.first :: kinds →
      c.links.length + 2 < p.maxDepth →
      ∃ range place e, p.readTokens tokens =
          ⟨⟨rootRange tokens, [.bindings range ⟨[], []⟩ false [⟨.identifier place "x", some e⟩]]⟩,
            []⟩ ∧
        e.chain? = some c ∧ e.WellGrouped ∧
        ∀ e' : Expression, e'.chain? = some c → e'.WellGrouped →
          e'.view .placeless = e.view .placeless := by
  refine ⟨fun tokens e hmem => p.readTokens_grouped tokens e hmem, ?_⟩
  intro tokens c kinds hlinked htokens hroom
  obtain ⟨range, place, e, hshown, hread⟩ := p.exists_readTokens_chain hlinked htokens (by omega)
  have hgrouped : e.WellGrouped := by
    have hhold := p.readTokens_grouped tokens
    rw [hread] at hhold
    simp only [Root.visit, Declaration.inside, Binding.visit, List.flatMap_cons, List.flatMap_nil,
      hold_append, hold_declarationVisit] at hhold
    exact hhold.1.1.2
  exact ⟨range, place, e, hread, hshown, hgrouped, fun e' hshown' hgrouped' =>
    Expression.view_eq_of_chain?_eq hgrouped' hgrouped hshown' hshown⟩

/-- The chain `a + b * c`. -/
theorem readTokens_prescribed_sum :
    let kinds : List TokenKind := [.whitespace, .operator "+", .whitespace, .identifier "b",
      .whitespace, .operator "*", .whitespace, .identifier "c"]
    let tokens := (constantHead "x" ++ .identifier "a" :: kinds).map fun kind : TokenKind =>
      (⟨kind, ⟨0, 0⟩, .point .origin⟩ : Token)
    Linked [("+", "b"), ("*", "c")] kinds ∧
      tokens.map (·.kind) = constantHead "x" ++ .identifier "a" :: kinds ∧
      2 + 2 < (Parser.mk 5).maxDepth ∧
      ∃ range place e, (Parser.mk 5).readTokens tokens =
          ⟨⟨rootRange tokens, [.bindings range ⟨[], []⟩ false [⟨.identifier place "x", some e⟩]]⟩,
            []⟩ ∧
        e.chain? = some ⟨"a", [("+", "b"), ("*", "c")]⟩ ∧ e.WellGrouped ∧
        ∀ e' : Expression, e'.chain? = some ⟨"a", [("+", "b"), ("*", "c")]⟩ → e'.WellGrouped →
          e'.view .placeless = e.view .placeless := by
  intro kinds tokens
  have hlinked : Linked [("+", "b"), ("*", "c")] kinds := .cons rfl (.cons rfl .nil)
  have htokens : tokens.map (·.kind) = constantHead "x" ++ .identifier "a" :: kinds := rfl
  exact ⟨hlinked, htokens, by decide, (readTokens_prescribed ⟨5⟩).2 tokens
    ⟨"a", [("+", "b"), ("*", "c")]⟩ kinds hlinked htokens (by decide)⟩

end Parser

end FrontEnd
