/-
Texts whose tokens can be put together anew.

In an ordinary text the kind of a solid token tells what was written, or what may be written
instead.  So the tokens can be written one after the other in another way, as long as what is
put together stood together before, or does not go on into one another anyway.  `Legible` says
so of the kinds of tokens, and `Token.legible_ofText` proves it of an ordinary text.
-/
import FrontEnd.Grammar.Expression
import FrontEnd.Lexical.Tokens
import FrontEnd.Proofs.Lexical.Quoted

namespace FrontEnd

/-- A kind that an operand may end with. -/
def TokenKind.EndsOperand : TokenKind → Prop
  | identifier _ | keyword _ _ | integer _ | floating _ | string _ => True
  | punctuator mark => mark ∈ [.rightParen, .rightSquare, .exclamation]
  | _ => False

/-- Among these kinds every solid one is read from its own text, and those that stand together
stand apart when their texts are put together. -/
structure Legible (kinds : List TokenKind) : Prop where
  takes : ∀ kind ∈ kinds, kind.IsSolid → Rule.Takes kind.text.toList kind
  unquoted : ∀ name, .quotedIdentifier name ∉ kinds
  ender : ∀ kind ∈ kinds, kind.IsSolid → ∀ d ∈ Rule.enders, ∀ later,
    Rule.Halts kind.text.toList (d :: later)
  sign : ∀ sign next rest, sign :: next :: rest <:+ kinds →
    (Grammar.unaryOperator? sign).isSome → next.IsSolid → ∀ later,
    Rule.Halts sign.text.toList (next.text.toList ++ later)
  member : ∀ kind name rest, kind :: .punctuator .period :: name :: rest <:+ kinds →
    kind.EndsOperand → (Grammar.memberName? name).isSome → ∀ later,
    Rule.Halts kind.text.toList ('.' :: (name.text.toList ++ later))

/-! ### Kinds -/

namespace TokenKind

variable {kind : TokenKind}

/-- The grammar sees a solid kind as it is. -/
lemma plain_of_isSolid (h : kind.plain.IsSolid) : kind.plain = kind := by
  cases kind with
  | comment text => cases h.1
  | carriageReturn => cases h.1
  | invalid text => cases h.2
  | _ => rfl

lemma IsSolid.plain_eq (h : kind.IsSolid) : kind.plain = kind := by
  cases kind with
  | comment text => cases h.1
  | carriageReturn => cases h.1
  | invalid text => cases h.2
  | _ => rfl

lemma EndsOperand.isSolid (h : kind.EndsOperand) : kind.IsSolid := by
  cases kind <;> first | exact ⟨rfl, rfl⟩ | cases h

lemma isSolid_of_unaryOperator? (h : (Grammar.unaryOperator? kind).isSome) : kind.IsSolid := by
  cases kind <;> first | exact ⟨rfl, rfl⟩ | cases h

lemma isSolid_of_memberName? (h : (Grammar.memberName? kind).isSome) : kind.IsSolid := by
  cases kind <;> first | exact ⟨rfl, rfl⟩ | cases h

end TokenKind

namespace Lexeme

/-- A text without names in backticks, without periods that count as one, and without strings
that are quoted with characters written by their code point. -/
structure Ordinary (text : List Char) : Prop where
  unquoted : ∀ lexeme ∈ ofChars text, ∀ name, lexeme.kind ≠ .quotedIdentifier name
  single : ∀ lexeme ∈ ofChars text,
    ¬ (lexeme.kind = .punctuator .period ∧ Text.byteSize lexeme.text = 2)
  uncoded : ∀ lexeme ∈ ofChars text, ∀ content, lexeme.kind = .string content →
    Text.Uncoded content.toList

namespace Ordinary

variable {text : List Char} {lexeme : Lexeme}

/-- The kind tells what was written. -/
lemma text_eq (h : Ordinary text) (hmem : lexeme ∈ ofChars text) (hsolid : lexeme.kind.IsSolid)
    (hstring : ∀ content, lexeme.kind ≠ .string content) :
    lexeme.kind.text.toList = lexeme.text := by
  have hblank : lexeme.kind ≠ .whitespace := by
    intro heq
    rw [heq] at hsolid
    cases hsolid.1
  rw [keeps_of_mem hmem hblank hstring (h.single lexeme hmem), String.toList_ofList]

/-- The quoted form of a string. -/
lemma text_eq_quote {content : String} (hkind : lexeme.kind = .string content) :
    lexeme.kind.text.toList = Text.quoteChars content.toList := by
  rw [hkind, TokenKind.text, Text.quote, String.toList_ofList]

lemma takes (h : Ordinary text) (hmem : lexeme ∈ ofChars text) (hsolid : lexeme.kind.IsSolid) :
    Rule.Takes lexeme.kind.text.toList lexeme.kind := by
  by_cases hstring : ∃ content, lexeme.kind = .string content
  · obtain ⟨content, hkind⟩ := hstring
    have huncoded := h.uncoded lexeme hmem content hkind
    have htakes := Rule.takes_quote content.toList
    rwa [Text.flatMap_reread_eq_iff.mpr huncoded, String.ofList_toList, ← hkind,
      ← text_eq_quote hkind] at htakes
  · obtain ⟨before, later, hsplit⟩ := List.append_of_mem hmem
    rw [h.text_eq hmem hsolid fun content heq => hstring ⟨content, heq⟩]
    exact (halts_of_suffix ⟨before, hsplit.symm⟩ hsolid).1

lemma halts_ender (h : Ordinary text) (hmem : lexeme ∈ ofChars text) (hsolid : lexeme.kind.IsSolid)
    {d : Char} (hd : d ∈ Rule.enders) (later : List Char) :
    Rule.Halts lexeme.kind.text.toList (d :: later) := by
  by_cases hstring : ∃ content, lexeme.kind = .string content
  · obtain ⟨content, hkind⟩ := hstring
    rw [text_eq_quote hkind]
    exact Rule.halts_quote content.toList
  · exact (h.takes hmem hsolid).halts_ender hsolid (fun content heq => hstring ⟨content, heq⟩)
      (h.unquoted lexeme hmem) hd

/-- What may be written for a lexeme starts like what was written. -/
lemma exists_first (h : Ordinary text) (hmem : lexeme ∈ ofChars text) (hsolid : lexeme.kind.IsSolid) :
    ∃ c, (∃ rest, lexeme.text = c :: rest) ∧ ∃ rest, lexeme.kind.text.toList = c :: rest := by
  obtain ⟨before, later, hsplit⟩ := List.append_of_mem hmem
  have htakes := (halts_of_suffix ⟨before, hsplit.symm⟩ hsolid).1
  obtain ⟨c, rest, htext⟩ := List.exists_cons_of_ne_nil htakes.ne_nil
  refine ⟨c, ⟨rest, htext⟩, ?_⟩
  by_cases hstring : ∃ content, lexeme.kind = .string content
  · obtain ⟨content, hkind⟩ := hstring
    rw [htext] at htakes
    have hopens := htakes.finds.opens
    rw [hkind] at hopens
    obtain rfl : c = '"' := hopens
    rw [text_eq_quote hkind]
    exact ⟨_, rfl⟩
  · exact ⟨rest, by rw [h.text_eq hmem hsolid fun content heq => hstring ⟨content, heq⟩, htext]⟩

/-- A sign stays apart from what stands behind it. -/
lemma halts_sign (h : Ordinary text) {next : Lexeme} {later : List Lexeme}
    (hsuffix : lexeme :: next :: later <:+ ofChars text)
    (hsign : (Grammar.unaryOperator? lexeme.kind).isSome) (hsolid : next.kind.IsSolid)
    (after : List Char) :
    Rule.Halts lexeme.kind.text.toList (next.kind.text.toList ++ after) := by
  have hlexeme := hsuffix.subset List.mem_cons_self
  have hnext := hsuffix.subset (List.mem_cons_of_mem _ List.mem_cons_self)
  have hsignSolid := TokenKind.isSolid_of_unaryOperator? hsign
  have hstring : ∀ content, lexeme.kind ≠ .string content := by
    intro content heq
    rw [heq] at hsign
    cases hsign
  obtain ⟨c, ⟨rest, hrest⟩, written, hwritten⟩ := h.exists_first hnext hsolid
  obtain ⟨htakes, hhalts⟩ := halts_of_suffix hsuffix hsignSolid
  rw [List.map_cons, List.flatten_cons, hrest] at hhalts
  rw [h.text_eq hlexeme hsignSolid hstring, hwritten]
  refine Rule.Halts.sign (hhalts.mono ⟨_, rfl⟩) ?_
  have htext := h.text_eq hlexeme hsignSolid hstring
  obtain ⟨d, more, hmore⟩ := List.exists_cons_of_ne_nil htakes.ne_nil
  rw [hmore] at htakes htext ⊢
  refine ⟨d, ?_, rfl⟩
  -- only an operator or a mark is a sign, and both open a rule of their own
  have hopens := htakes.finds.opens
  cases hkind : lexeme.kind with
  | operator symbol =>
    rw [hkind] at hopens
    exact hopens
  | punctuator mark =>
    rw [hkind] at hsign htext
    cases mark <;> try cases hsign
    cases htext
    decide
  | _ =>
    rw [hkind] at hsign
    cases hsign

/-- An operand stays apart from a period with the name of a member behind it. -/
lemma halts_member (h : Ordinary text) {period name : Lexeme} {later : List Lexeme}
    (hsuffix : lexeme :: period :: name :: later <:+ ofChars text)
    (hends : lexeme.kind.EndsOperand) (hperiod : period.kind = .punctuator .period)
    (hname : (Grammar.memberName? name.kind).isSome) (after : List Char) :
    Rule.Halts lexeme.kind.text.toList ('.' :: (name.kind.text.toList ++ after)) := by
  have hlexeme := hsuffix.subset List.mem_cons_self
  have hsolid := hends.isSolid
  have htakes := h.takes hlexeme hsolid
  obtain ⟨c, rest, htext⟩ := List.exists_cons_of_ne_nil htakes.ne_nil
  rw [htext] at htakes ⊢
  have hopens := htakes.finds.opens
  -- a number has to be kept apart from the digits that may come
  have hnumber (hdigit : c.isDigit = true) (hstring : ∀ content, lexeme.kind ≠ .string content) :
      Rule.Halts (c :: rest) ('.' :: (name.kind.text.toList ++ after)) := by
    have hmem : ∀ next ∈ [period, name], next ∈ ofChars text := by
      intro next hnext
      exact hsuffix.subset (List.mem_cons_of_mem _ (List.mem_append_left later hnext))
    have hpoint := h.text_eq (hmem period (by simp)) (by rw [hperiod]; exact ⟨rfl, rfl⟩)
      (by rw [hperiod]; exact nofun)
    obtain ⟨d, ⟨digits, hdigits⟩, written, hwritten⟩ :=
      h.exists_first (hmem name (by simp)) (TokenKind.isSolid_of_memberName? hname)
    obtain ⟨-, hhalts⟩ := halts_of_suffix hsuffix hsolid
    rw [hperiod] at hpoint
    rw [← h.text_eq hlexeme hsolid hstring, htext, List.map_cons, List.map_cons, List.flatten_cons,
      List.flatten_cons, hdigits, ← hpoint] at hhalts
    rw [hwritten]
    exact Rule.Halts.point (hhalts.mono ⟨_, rfl⟩) hdigit
  cases hkind : lexeme.kind with
  | identifier _ | keyword _ _ =>
    rw [hkind] at hopens
    exact Rule.halts_of_startsWord hopens rfl
  | integer _ | floating _ =>
    rw [hkind] at hopens
    exact hnumber hopens (by simp [hkind])
  | string content =>
    rw [← htext, text_eq_quote hkind]
    exact Rule.halts_quote content.toList
  | punctuator mark =>
    rw [hkind] at hends htext
    obtain rfl | rfl | rfl : mark = .rightParen ∨ mark = .rightSquare ∨ mark = .exclamation := by
      simpa [TokenKind.EndsOperand] using hends
    all_goals
      cases htext
      exact Rule.halts_of_not_joins (by decide) (by decide)
  | _ =>
    rw [hkind] at hends
    cases hends

end Ordinary

/-- Lexemes stand in a list of their plain kinds as they stand in their own. -/
lemma exists_suffix_of_plain {lexemes : List Lexeme} {kind : TokenKind} {kinds : List TokenKind}
    (h : kind :: kinds <:+ lexemes.map (·.kind.plain)) :
    ∃ lexeme later, lexeme :: later <:+ lexemes ∧ lexeme.kind.plain = kind ∧
      later.map (·.kind.plain) = kinds := by
  obtain ⟨before, hbefore⟩ := h
  obtain ⟨front, back, rfl, -, hback⟩ := List.append_eq_map_iff.mp hbefore
  obtain ⟨lexeme, later, rfl, hkind, hlater⟩ := List.map_eq_cons_iff.mp hback
  exact ⟨lexeme, later, ⟨front, rfl⟩, hkind, hlater⟩

/-- The kinds of an ordinary text are legible. -/
theorem Ordinary.legible {text : List Char} (h : Ordinary text) :
    Legible ((ofChars text).map (·.kind.plain)) := by
  have hsolid {lexeme : Lexeme} {kind : TokenKind} (hplain : lexeme.kind.plain = kind)
      (hkind : kind.IsSolid) : lexeme.kind = kind := by
    rw [← hplain] at hkind ⊢
    exact (TokenKind.plain_of_isSolid hkind).symm
  have hmem {kind : TokenKind} (hkind : kind ∈ (ofChars text).map (·.kind.plain))
      (hkindSolid : kind.IsSolid) : ∃ lexeme ∈ ofChars text, lexeme.kind = kind := by
    obtain ⟨lexeme, hlexeme, hplain⟩ := List.mem_map.mp hkind
    exact ⟨lexeme, hlexeme, hsolid hplain hkindSolid⟩
  -- a solid kind is plain, so it is the kind of a lexeme of the text, of which each law holds
  constructor
  case takes =>
    intro kind hkind hkindSolid
    obtain ⟨lexeme, hlexeme, rfl⟩ := hmem hkind hkindSolid
    exact h.takes hlexeme hkindSolid
  case unquoted =>
    intro name hname
    obtain ⟨lexeme, hlexeme, hkind⟩ := hmem hname ⟨rfl, rfl⟩
    exact h.unquoted lexeme hlexeme name hkind
  case ender =>
    intro kind hkind hkindSolid d hd later
    obtain ⟨lexeme, hlexeme, rfl⟩ := hmem hkind hkindSolid
    exact h.halts_ender hlexeme hkindSolid hd later
  case sign =>
    intro sign next rest hsuffix hsign hnext later
    obtain ⟨first, more, hfirst, hplain, hmore⟩ := exists_suffix_of_plain hsuffix
    obtain ⟨second, others, rfl, hplain', -⟩ := List.map_eq_cons_iff.mp hmore
    obtain rfl := hsolid hplain (TokenKind.isSolid_of_unaryOperator? hsign)
    obtain rfl := hsolid hplain' hnext
    exact h.halts_sign hfirst hsign hnext later
  case member =>
    intro kind name rest hsuffix hends hname later
    obtain ⟨first, more, hfirst, hplain, hmore⟩ := exists_suffix_of_plain hsuffix
    obtain ⟨second, others, rfl, hplain', hothers⟩ := List.map_eq_cons_iff.mp hmore
    obtain ⟨third, behind, rfl, hplain'', -⟩ := List.map_eq_cons_iff.mp hothers
    obtain rfl := hsolid hplain hends.isSolid
    obtain rfl := hsolid hplain'' (TokenKind.isSolid_of_memberName? hname)
    exact h.halts_member hfirst hends (hsolid hplain' ⟨rfl, rfl⟩) hname later

end Lexeme

/-- Every lexeme has its token. -/
lemma Token.exists_of_covers {table : LineTable} {text : String} {lexemes : List Lexeme}
    {tokens : List Token} (h : List.Forall₂ (Covers table text) lexemes tokens) {lexeme : Lexeme}
    (hlexeme : lexeme ∈ lexemes) : ∃ t ∈ tokens, Covers table text lexeme t := by
  induction h with
  | nil => cases hlexeme
  | cons hcovers _ ih =>
    rcases List.mem_cons.mp hlexeme with rfl | hlexeme
    · exact ⟨_, List.mem_cons_self, hcovers⟩
    · obtain ⟨t, ht, hcovers⟩ := ih hlexeme
      exact ⟨t, List.mem_cons_of_mem _ ht, hcovers⟩

/-- The kinds of the tokens of a text are legible, if it has no backtick, no token of two
periods, and no string with a character that is written by its code point. -/
theorem Token.legible_ofText {text : String} (hbacktick : '\x60' ∉ text.toList)
    (hperiods : ∀ t ∈ ofText text, ¬ (t.kind = .punctuator .period ∧ t.span.length = 2))
    (hstrings : ∀ t ∈ ofText text, ∀ content, t.kind = .string content →
      Text.Uncoded content.toList) :
    Legible ((ofText text).map (·.kind.plain)) := by
  have htoken : ∀ lexeme ∈ Lexeme.ofChars text.toList, _ :=
    fun lexeme => exists_of_covers (covers_ofText text)
  have hordinary : Lexeme.Ordinary text.toList := by
    constructor
    case unquoted =>
      intro lexeme hlexeme name hkind
      have hkeeps := Lexeme.keeps_of_mem hlexeme
      rw [hkind] at hkeeps
      have hwritten := hkeeps nofun nofun nofun
      refine hbacktick ?_
      rw [← Lexeme.flatten_ofChars text.toList]
      refine List.mem_flatten.mpr ⟨lexeme.text, List.mem_map_of_mem hlexeme, ?_⟩
      rw [← String.toList_ofList (l := lexeme.text), ← hwritten]
      simp [TokenKind.text, toString]
    case single =>
      rintro lexeme hlexeme ⟨hkind, hsize⟩
      obtain ⟨t, ht, hcovers⟩ := htoken lexeme hlexeme
      exact hperiods t ht ⟨hcovers.kind_eq.trans hkind, hcovers.length_eq.trans hsize⟩
    case uncoded =>
      intro lexeme hlexeme content hkind
      obtain ⟨t, ht, hcovers⟩ := htoken lexeme hlexeme
      exact hstrings t ht content (hcovers.kind_eq.trans hkind)
  have hplain := congrArg (List.map TokenKind.plain) (kinds_ofText text)
  rw [Lexeme.kinds, List.map_map, List.map_map] at hplain
  have hkinds : (ofText text).map (·.kind.plain) =
      (Lexeme.ofChars text.toList).map (·.kind.plain) := hplain
  rw [hkinds]
  exact hordinary.legible

end FrontEnd
