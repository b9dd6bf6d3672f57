/-
Tokens that are written anew.

`TokenKind.texts` puts the texts of tokens together, and `Apart` says that they are lexed to these
tokens again.  While a text is read, the tokens of what will be written for it are collected:
`Cursor.Spelled` says of those up to the current token that they stay apart if this one stands
apart from what is written next, and `Cursor.Begins` and `Cursor.Admits` say how they start and
what may stand behind them.
-/
import FrontEnd.Proofs.Cursor.Sees
import FrontEnd.Proofs.RoundTrip.Legible

namespace FrontEnd

open Rule

/-! ### Texts of tokens -/

/-- The texts of tokens, one behind the other. -/
def TokenKind.texts (kinds : List TokenKind) : List Char :=
  kinds.flatMap (·.text.toList)

namespace TokenKind

variable (kind : TokenKind) (kinds later : List TokenKind)

@[simp] lemma texts_nil : texts [] = [] := rfl

@[simp] lemma texts_cons : texts (kind :: kinds) = kind.text.toList ++ texts kinds := rfl

@[simp] lemma texts_append : texts (kinds ++ later) = texts kinds ++ texts later :=
  List.flatMap_append

end TokenKind

/-- The texts of these tokens, with something behind them, are lexed to the tokens, and the
grammar sees them as they are. -/
def Apart : List TokenKind → List Char → Prop
  | [], _ => True
  | kind :: kinds, later =>
    Takes kind.text.toList kind ∧ kind.plain = kind ∧
      Halts kind.text.toList (TokenKind.texts kinds ++ later) ∧ Apart kinds later

section

variable {kind : TokenKind} {kinds others : List TokenKind} {later : List Char}

lemma apart_append : Apart (kinds ++ others) later ↔
    Apart kinds (TokenKind.texts others ++ later) ∧ Apart others later := by
  induction kinds with
  | nil => simp [Apart]
  | cons kind kinds ih => simp [Apart, ih, and_assoc]

/-- What stands apart is lexed again. -/
theorem Apart.kinds_eq (h : Apart kinds later) :
    (Lexeme.kinds (TokenKind.texts kinds ++ later)).map TokenKind.plain =
      kinds ++ (Lexeme.kinds later).map TokenKind.plain := by
  induction kinds with
  | nil => rfl
  | cons kind kinds ih =>
    obtain ⟨htakes, hplain, hhalts, hkinds⟩ := h
    rw [TokenKind.texts_cons, List.append_assoc, Lexeme.kinds_append htakes hhalts, List.map_cons,
      hplain, ih hkinds, List.cons_append]

end

namespace Rule

variable {text later : List Char} {kind : TokenKind}

/-- Nothing behind it halts every text. -/
lemma halts_nil : Halts text [] := by
  intro t ht hne
  exact absurd (List.prefix_nil.mp ht) hne

/-- A mark that stands together with nothing halts in front of everything. -/
lemma halts_of_mem_solitary {mark : Punctuator} (h : mark ∈ Lexeme.solitary) :
    Halts mark.symbol.toList later := by
  cases later with
  | nil => exact halts_nil
  | cons d later =>
    have hall : ∀ mark ∈ Lexeme.solitary, mark.symbol.toList.length = 1 ∧
        mark.symbol.toList.head? ≠ some '/' := forall_mem_of_all (by decide)
    obtain ⟨hlength, hslash⟩ := hall mark h
    obtain ⟨c, hc⟩ := List.length_eq_one_iff.mp hlength
    rw [hc] at hslash ⊢
    refine halts_of_not_joins (Lexeme.not_joins_of_mem_solitary h hc d) ?_
    rintro rfl
    exact hslash rfl

end Rule

/-! ### Legible tokens around a cursor -/

namespace Cursor

variable {c d : Cursor} {kind next : TokenKind} {kinds others : List TokenKind}

/-- What the grammar sees of all the tokens of a cursor. -/
def plainKinds (c : Cursor) : List TokenKind :=
  c.toList.map (·.kind.plain)

@[simp] lemma plainKinds_shift (c : Cursor) : c.shift.plainKinds = c.plainKinds := by
  simp [plainKinds]

@[simp] lemma plainKinds_advance (reach : Reach) (c : Cursor) : (c.advance reach).plainKinds = c.plainKinds := by
  simp [plainKinds]

/-- The current token and those behind it. -/
lemma map_plain_ahead (h : c.here? = some kind) :
    c.ahead.map (·.kind.plain) = kind :: c.shift.ahead.map (·.kind.plain) := by
  rw [shift_eq_land, ahead_land, ahead, List.map_append]
  rcases hcurrent : c.current? with _ | t
  · simp [here?, kind?, hcurrent] at h
  · have hkind : t.kind.plain = kind := by simpa [here?, kind?, hcurrent] using h
    simp [hkind]

lemma ahead_suffix (c : Cursor) : c.ahead.map (·.kind.plain) <:+ c.plainKinds := by
  refine List.IsSuffix.map _ ⟨c.consumed, ?_⟩
  rw [toList, ahead, List.append_assoc]

lemma mem_plainKinds (h : c.here? = some kind) : kind ∈ c.plainKinds := by
  have hahead := c.ahead_suffix
  rw [map_plain_ahead h] at hahead
  exact hahead.subset List.mem_cons_self

/-- A solid current token is read from its text. -/
lemma takes_of_here? (hc : Legible c.plainKinds) (h : c.here? = some kind) (hkind : kind.IsSolid) :
    Takes kind.text.toList kind :=
  hc.takes kind (mem_plainKinds h) hkind

lemma halts_ender (hc : Legible c.plainKinds) (h : c.here? = some kind) (hkind : kind.IsSolid) {e : Char}
    (he : e ∈ enders) (later : List Char) : Halts kind.text.toList (e :: later) :=
  hc.ender kind (mem_plainKinds h) hkind e he later

/-- A sign stands apart from the operand that is glued to it. -/
lemma halts_sign (hc : Legible c.plainKinds) (h : c.here? = some kind) (hnext : c.shift.here? = some next)
    (hkind : (Grammar.unaryOperator? kind).isSome) (hsolid : next.IsSolid) (later : List Char) :
    Halts kind.text.toList (next.text.toList ++ later) := by
  have hahead := c.ahead_suffix
  rw [map_plain_ahead h, map_plain_ahead hnext] at hahead
  exact hc.sign kind next _ hahead hkind hsolid later

/-- An operand stands apart from the member that is glued to it. -/
lemma halts_member (hc : Legible c.plainKinds) (h : c.here? = some kind)
    (hperiod : c.shift.here? = some (.punctuator .period)) (hname : c.shift.shift.here? = some next)
    (hkind : kind.EndsOperand) (hsome : (Grammar.memberName? next).isSome) (later : List Char) :
    Halts kind.text.toList (TokenKind.texts [.punctuator .period, next] ++ later) := by
  have hahead := c.ahead_suffix
  rw [map_plain_ahead h, map_plain_ahead hperiod, map_plain_ahead hname] at hahead
  rw [TokenKind.texts_cons, TokenKind.texts_cons, TokenKind.texts_nil, List.append_nil, List.append_assoc]
  exact hc.member kind next _ hahead hkind hsome later

/-! ### Tokens up to the current one -/

/-- Tokens that end with the current one stand apart, as long as this one stands apart from
what is behind it. -/
def Spelled (c : Cursor) (kinds : List TokenKind) : Prop :=
  ∃ last, c.here? = some last ∧ last.EndsOperand ∧
    ∀ later, Halts last.text.toList later → Apart kinds later

namespace Spelled

/-- The current token alone. -/
lemma single (hc : Legible c.plainKinds) (h : c.here? = some kind) (hkind : kind.EndsOperand) :
    c.Spelled [kind] := by
  have hsolid := hkind.isSolid
  exact ⟨kind, h, hkind, fun later hlater =>
    ⟨takes_of_here? hc h hsolid, hsolid.plain_eq, hlater, trivial⟩⟩

/-- One more token in front. -/
lemma cons (h : c.Spelled kinds) (hkind : Takes kind.text.toList kind) (hplain : kind.plain = kind)
    (hhalts : ∀ later, Halts kind.text.toList (TokenKind.texts kinds ++ later)) :
    c.Spelled (kind :: kinds) := by
  obtain ⟨last, hlast, hends, hapart⟩ := h
  exact ⟨last, hlast, hends, fun later hlater => ⟨hkind, hplain, hhalts later, hapart later hlater⟩⟩

/-- A token in front that has been the current one. -/
lemma solid (h : c.Spelled kinds) (hd : Legible d.plainKinds) (hhere : d.here? = some kind)
    (hkind : kind.IsSolid) (hhalts : ∀ later, Halts kind.text.toList (TokenKind.texts kinds ++ later)) :
    c.Spelled (kind :: kinds) := by
  exact h.cons (takes_of_here? hd hhere hkind) hkind.plain_eq hhalts

/-- A mark in front that stands together with nothing. -/
lemma mark (h : c.Spelled kinds) (mark : Punctuator) (hmark : mark ∈ Lexeme.solitary) :
    c.Spelled (.punctuator mark :: kinds) :=
  h.cons (Lexeme.takes_mark mark) rfl fun _ => halts_of_mem_solitary hmark

/-- The first token is lexed for itself. -/
lemma takes (h : c.Spelled (kind :: kinds)) : Takes kind.text.toList kind := by
  obtain ⟨last, -, -, hapart⟩ := h
  exact (hapart [] halts_nil).1

/-- A blank in front. -/
lemma blank (h : c.Spelled (kind :: kinds)) (hkind : kind.IsSolid) :
    c.Spelled (.whitespace :: kind :: kinds) := by
  refine h.cons ⟨rfl, by decide⟩ rfl fun later => ?_
  rw [TokenKind.texts_cons, List.append_assoc]
  exact h.takes.halts_space hkind

/-- Some tokens, and more behind them. -/
lemma append (h : c.Spelled kinds) (hothers : d.Spelled others)
    (hseam : ∀ last, c.here? = some last → last.EndsOperand → ∀ later,
      Halts last.text.toList (TokenKind.texts others ++ later)) : d.Spelled (kinds ++ others) := by
  obtain ⟨last, hlast, hends, hapart⟩ := h
  obtain ⟨last', hlast', hends', hapart'⟩ := hothers
  exact ⟨last', hlast', hends', fun later hlater =>
    apart_append.mpr ⟨hapart _ (hseam last hlast hends later), hapart' later hlater⟩⟩

/-- Some tokens, and more behind them that start with a character that ends everything. -/
lemma append_ender (h : c.Spelled kinds) (hc : Legible c.plainKinds)
    (hothers : d.Spelled (next :: others)) {e : Char} (he : e ∈ enders)
    (hnext : next.text.toList = [e]) : d.Spelled (kinds ++ next :: others) := by
  refine h.append hothers fun last hlast hends later => ?_
  rw [TokenKind.texts_cons, hnext, List.append_assoc]
  exact halts_ender hc hlast hends.isSolid he _

end Spelled

end Cursor

/-! ### How operands start and what follows them -/

/-- The next token of interest among some tokens. -/
def interest? (kinds : List TokenKind) : Option TokenKind :=
  kinds.find? (!·.isBlank)

lemma interest?_append (kinds others : List TokenKind) :
    interest? (kinds ++ others) = (interest? kinds).or (interest? others) :=
  List.find?_append

/-- A kind that an operand may start with; it is no mark that may stand in the place of one. -/
structure TokenKind.StartsOperand (kind : TokenKind) : Prop where
  isSolid : kind.IsSolid
  ne (mark : Punctuator) (h : mark ∈ [.rightParen, .rightSquare, .colon]) : kind ≠ .punctuator mark

namespace Cursor

variable {c d : Cursor} {kind : TokenKind} {kinds others : List TokenKind}

/-- Tokens start with the current one, as those of an operand do; it is not the label of
something behind it. -/
def Begins (c : Cursor) (kinds : List TokenKind) : Prop :=
  ∃ first rest, kinds = first :: rest ∧ c.here? = some first ∧ first.StartsOperand ∧
    (first.anyName?.isSome → interest? rest ≠ some (.punctuator .colon))

lemma Begins.append (h : c.Begins kinds) (hothers : interest? others ≠ some (.punctuator .colon)) :
    c.Begins (kinds ++ others) := by
  obtain ⟨first, rest, rfl, hfirst, hstarts, hlabel⟩ := h
  refine ⟨first, rest ++ others, rfl, hfirst, hstarts, fun hname => ?_⟩
  rw [interest?_append]
  rcases hrest : interest? rest with _ | found
  · exact hothers
  · rw [← hrest]
    simpa [hrest] using hlabel hname

/-- The marks that go on with an operand when they are glued to it. -/
def suffixMarks : List TokenKind :=
  [.punctuator .leftParen, .punctuator .leftSquare, .punctuator .period, .punctuator .exclamation]

/-- What may stand behind an operand without going on with it. -/
def Unglued (later : List TokenKind) : Prop :=
  ∀ kind, later.head? = some kind → kind ∉ suffixMarks

/-- What may stand behind an expression that was read up to a cursor: nothing that goes on with
its last operand, and no other operator than the one that came there. -/
structure Admits (c : Cursor) (later : List TokenKind) : Prop where
  unglued : Unglued later
  operator : binaryAmong? later = none ∨ binaryAmong? later = c.binaryAhead?

lemma admits_nil (c : Cursor) : c.Admits [] :=
  ⟨by rintro _ ⟨⟩, .inl rfl⟩

/-- The marks that end expressions in brackets. -/
def closers : List Punctuator :=
  [.comma, .colon, .rightParen, .rightSquare]

lemma admits_closer (c : Cursor) {mark : Punctuator} (h : mark ∈ closers) (later : List TokenKind) :
    c.Admits (.punctuator mark :: later) := by
  have hall : ∀ mark ∈ closers, .punctuator mark ∉ suffixMarks ∧
      (TokenKind.punctuator mark).isInlineBlank = false ∧
      (TokenKind.punctuator mark).binary? = none := forall_mem_of_all (by decide)
  obtain ⟨hmark, hblank, hbinary⟩ := hall mark h
  constructor
  · rintro _ ⟨⟩
    exact hmark
  · refine .inl ?_
    rw [binaryAmong?, List.dropWhile_cons_of_neg (by simp [hblank])]
    simp [hbinary]

lemma admits_operator (hkind : kind.isBlank = false) (h : c.binaryAhead? = kind.binary?)
    (later : List TokenKind) : c.Admits (.whitespace :: kind :: .whitespace :: later) := by
  constructor
  · rintro _ ⟨⟩
    decide
  · exact .inr ((binaryAmong?_spaced hkind rfl).trans h.symm)

end Cursor

end FrontEnd
