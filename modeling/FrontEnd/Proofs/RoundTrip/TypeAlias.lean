/-
The text of a type, read as an alias.

An alias for the text of a type is read back as an alias for this type, just where the lexer
leaves the text in pieces and the marks in it stand behind what they mark:
`Parser.readText_typeAlias`.
-/
import FrontEnd.Proofs.Cursor.Segment
import FrontEnd.Proofs.Lexical.Lossless
import FrontEnd.Proofs.RoundTrip.Declaration
import FrontEnd.Proofs.RoundTrip.Doubled
import FrontEnd.Proofs.RoundTrip.TypeReading

namespace FrontEnd

/-! ### The characters in the text of a type -/

/-- A character that occurs in texts of types. -/
def isTypeChar (c : Char) : Bool :=
  Rule.continuesWord c ||
    ['[', ']', '(', ')', '<', '>', ':', ',', '.', '?', '!', '-', ' '].contains c

lemma Rule.IsWord.all_isTypeChar {text : List Char} (h : IsWord text) :
    text.all isTypeChar = true := by
  obtain ⟨c, rest, rfl, hc, hrest⟩ := h
  have hfirst : continuesWord c = true := by
    simp only [startsWord, continuesWord, Char.isAlphanum, Bool.or_eq_true] at hc ⊢
    exact hc.imp .inl id
  refine List.all_eq_true.mpr fun d hd => ?_
  rcases List.mem_cons.mp hd with rfl | hd
  · simp [isTypeChar, hfirst]
  · simp [isTypeChar, hrest d hd]

mutual

lemma TypeExpr.all_text : (T : TypeExpr) → T.Named → T.text.toList.all isTypeChar = true
  | .named path, h => by
    have hpath := h path (by simp [TypeExpr.parts])
    exact TypeSegment.all_text path hpath.worded fun inner hinner =>
      h inner (by simp [TypeExpr.parts, hinner])
  | .array element, h => by
    have helement := element.all_text fun path hpath => h path (by simp [TypeExpr.parts, hpath])
    rw [TypeExpr.toList_text_array]
    simp only [List.all_cons, List.all_append, helement]
    rfl
  | .dictionary key value, h => by
    have hkey := key.all_text fun path hpath => h path (by simp [TypeExpr.parts, hpath])
    have hvalue := value.all_text fun path hpath => h path (by simp [TypeExpr.parts, hpath])
    rw [TypeExpr.toList_text_dictionary]
    simp only [List.all_cons, List.all_append, hkey, hvalue]
    rfl
  | .optional wrapped, h => by
    have hwrapped := wrapped.all_text fun path hpath => h path (by simp [TypeExpr.parts, hpath])
    rw [TypeExpr.toList_text_optional, List.all_append, hwrapped]
    rfl
  | .unwrapped wrapped, h => by
    have hwrapped := wrapped.all_text fun path hpath => h path (by simp [TypeExpr.parts, hpath])
    rw [TypeExpr.toList_text_unwrapped, List.all_append, hwrapped]
    rfl
  | .tuple elements, h => by
    have helements := TypeExpr.all_texts elements fun path hpath =>
      h path (by simp [TypeExpr.parts, hpath])
    rw [TypeExpr.toList_text_tuple]
    simp only [List.all_cons, List.all_append, helements]
    rfl
  | .function parameters throws result, h => by
    have hparameters := TypeExpr.all_texts parameters fun path hpath =>
      h path (by simp [TypeExpr.parts, hpath])
    have hresult := result.all_text fun path hpath => h path (by simp [TypeExpr.parts, hpath])
    rw [TypeExpr.toList_text_function]
    simp only [List.all_cons, List.all_append, hparameters, hresult]
    cases throws <;> rfl

lemma TypeExpr.all_texts : (types : List TypeExpr) →
    (∀ path, .named path ∈ TypeExpr.partsAll types → TypeSegment.Named path) →
    (Text.commas (TypeExpr.texts types)).toList.all isTypeChar = true
  | [], _ => rfl
  | [type], h => by
    rw [TypeExpr.commas_single]
    exact type.all_text fun path hpath => h path (by simp [TypeExpr.partsAll, hpath])
  | type :: second :: rest, h => by
    have htype := type.all_text fun path hpath => h path (List.mem_append_left _ hpath)
    have hrest := TypeExpr.all_texts (second :: rest) fun path hpath =>
      h path (List.mem_append_right type.parts hpath)
    rw [TypeExpr.toList_commas_pair]
    simp only [List.all_cons, List.all_append, htype, hrest]
    rfl

lemma TypeSegment.all_text : (path : List TypeSegment) → TypeSegment.Worded path →
    (∀ inner, .named inner ∈ TypeSegment.partsAll path → TypeSegment.Named inner) →
    (String.intercalate "." (TypeSegment.texts path)).toList.all isTypeChar = true
  | [], _, _ => rfl
  | ⟨name, arguments⟩ :: rest, hworded, h => by
    have hname := (hworded name arguments List.mem_cons_self).all_isTypeChar
    have hangled : (TypeSegment.angledText arguments).all isTypeChar = true := by
      have harguments := TypeExpr.all_texts arguments fun path hpath =>
        h path (List.mem_append_left _ hpath)
      rcases arguments with _ | ⟨first, others⟩
      · rfl
      · rw [TypeSegment.angledText, List.all_cons, List.all_append, harguments]
        rfl
    have hlater : (TypeSegment.laterText rest).all isTypeChar = true := by
      have hrest := TypeSegment.all_text rest
        (fun other others hmem => hworded other others (List.mem_cons_of_mem _ hmem))
        fun inner hinner => h inner (List.mem_append_right _ hinner)
      rcases rest with _ | ⟨segment, rest⟩
      · rfl
      · rw [TypeSegment.laterText, List.all_cons, hrest]
        rfl
    rw [TypeSegment.toList_text_cons, List.all_append, List.all_append, hname, hangled, hlater]
    rfl

end

/-! ### The kinds in a spelling -/

lemma TokenKind.plain_ofWord (word : String) : (ofWord word).plain = ofWord word := by
  rcases ofWord_cases word with h | ⟨role, h⟩ <;> rw [h] <;> rfl

mutual

/-- The grammar tells all kinds in a spelling apart. -/
lemma TypeExpr.map_plain_spelling : (T : TypeExpr) → T.spelling.map TokenKind.plain = T.spelling
  | .named path => by
    rw [TypeExpr.spelling, TypeSegment.map_plain_spelling path]
  | .array element => by
    simp [TypeExpr.spelling, element.map_plain_spelling, TokenKind.plain]
  | .dictionary key value => by
    simp [TypeExpr.spelling, key.map_plain_spelling, value.map_plain_spelling, TokenKind.plain]
  | .optional wrapped => by
    simp [TypeExpr.spelling, wrapped.map_plain_spelling, TokenKind.plain]
  | .unwrapped wrapped => by
    simp [TypeExpr.spelling, wrapped.map_plain_spelling, TokenKind.plain]
  | .tuple elements => by
    simp [TypeExpr.spelling, TypeExpr.map_plain_spellings elements, TokenKind.plain]
  | .function parameters throws result => by
    cases throws <;> simp [TypeExpr.spelling, TypeExpr.map_plain_spellings parameters,
      result.map_plain_spelling, TokenKind.plain]

lemma TypeExpr.map_plain_spellings : (types : List TypeExpr) →
    (TypeExpr.spellings types).map TokenKind.plain = TypeExpr.spellings types
  | [] => rfl
  | type :: rest => by
    simp [TypeExpr.spellings, type.map_plain_spelling, TypeExpr.map_plain_laterSpellings rest]

lemma TypeExpr.map_plain_laterSpellings : (types : List TypeExpr) →
    (TypeExpr.laterSpellings types).map TokenKind.plain = TypeExpr.laterSpellings types
  | [] => rfl
  | type :: rest => by
    simp [TypeExpr.laterSpellings, type.map_plain_spelling,
      TypeExpr.map_plain_laterSpellings rest, TokenKind.plain]

lemma TypeSegment.map_plain_spelling : (path : List TypeSegment) →
    (TypeSegment.spelling path).map TokenKind.plain = TypeSegment.spelling path
  | [] => rfl
  | ⟨name, arguments⟩ :: rest => by
    simp [TypeSegment.spelling, TokenKind.plain_ofWord, TypeExpr.map_plain_angled arguments,
      TypeSegment.map_plain_laterSpelling rest]

lemma TypeSegment.map_plain_laterSpelling : (path : List TypeSegment) →
    (TypeSegment.laterSpelling path).map TokenKind.plain = TypeSegment.laterSpelling path
  | [] => rfl
  | ⟨name, arguments⟩ :: rest => by
    have hperiod : (TokenKind.punctuator .period).plain = .punctuator .period := rfl
    simp [TypeSegment.laterSpelling, TokenKind.plain_ofWord, TypeExpr.map_plain_angled arguments,
      TypeSegment.map_plain_laterSpelling rest, hperiod]

lemma TypeExpr.map_plain_angled : (types : List TypeExpr) →
    (TypeExpr.angled types).map TokenKind.plain = TypeExpr.angled types
  | [] => rfl
  | type :: rest => by
    simp [TypeExpr.angled, type.map_plain_spelling, TypeExpr.map_plain_laterSpellings rest,
      TokenKind.plain]

end

/-! ### The tokens of an alias -/

namespace Lexeme

open Rule

variable {text : List Char} {kind : TokenKind}

/-- What a kind tells of its text stands in the text that is lexed. -/
lemma subset_of_mem_kinds (h : kind ∈ kinds text) :
    kind = .whitespace ∨ (∃ content, kind = .string content) ∨ kind = .punctuator .period ∨
      kind.text.toList ⊆ text := by
  obtain ⟨lexeme, hlexeme, rfl⟩ := List.mem_map.mp h
  have hkeeps := forall_mem_ofChars (P := fun lexeme => lexeme.kind.Keeps lexeme.text) keeps_first
    text lexeme hlexeme
  by_cases hblank : lexeme.kind = .whitespace
  · exact .inl hblank
  by_cases hstring : ∃ content, lexeme.kind = .string content
  · exact .inr (.inl hstring)
  by_cases hperiod : lexeme.kind = .punctuator .period
  · exact .inr (.inr (.inl hperiod))
  refine .inr (.inr (.inr ?_))
  rw [hkeeps hblank (fun content heq => hstring ⟨content, heq⟩) fun hdouble => hperiod hdouble.1,
    String.toList_ofList]
  intro c hc
  rw [← flatten_ofChars text]
  exact List.mem_flatten.mpr ⟨lexeme.text, List.mem_map_of_mem hlexeme, hc⟩

/-- No token in a text of characters of types separates declarations. -/
lemma not_separator_of_mem_kinds (htext : text.all isTypeChar = true) (h : kind ∈ kinds text) :
    kind.plain ≠ .punctuator .semicolon ∧ kind.plain ≠ .lineFeed := by
  have hnot : ∀ c ∈ [';', '\n', '\r'], c ∉ text := by
    intro c hc hmem
    have hall : ∀ c ∈ [';', '\n', '\r'], isTypeChar c = false := forall_mem_of_all (by decide)
    have hin := List.all_eq_true.mp htext c hmem
    rw [hall c hc] at hin
    cases hin
  rcases subset_of_mem_kinds h with rfl | ⟨content, rfl⟩ | rfl | hsubset
  · decide
  · exact ⟨nofun, nofun⟩
  · decide
  · cases kind with
    | punctuator mark =>
      refine ⟨?_, nofun⟩
      rintro ⟨⟩
      exact hnot ';' (by decide) (hsubset (by decide))
    | lineFeed => exact absurd (hsubset (by decide)) (hnot '\n' (by decide))
    | carriageReturn => exact absurd (hsubset (by decide)) (hnot '\r' (by decide))
    | _ => exact ⟨nofun, nofun⟩

end Lexeme

namespace TypeExpr

variable {T : TypeExpr}

/-- The tokens of an alias for a type, up to its text. -/
lemma kinds_alias (hnamed : T.Named) :
    Lexeme.kinds ("typealias X = " ++ T.text).toList =
      Goal.head "typealias" "X" ++ Lexeme.kinds T.text.toList := by
  have hstarts := T.startsType_text hnamed
  have hword : Rule.IsWord "typealias".toList :=
    ⟨'t', ['y', 'p', 'e', 'a', 'l', 'i', 'a', 's'], rfl, rfl, forall_mem_of_all (by decide)⟩
  have hname : Rule.IsWord ['X'] := ⟨'X', [], rfl, rfl, nofun⟩
  have hequal : Rule.Takes ['='] (.punctuator .equal) := Lexeme.takes_mark .equal
  rw [String.toList_append, show "typealias X = ".toList ++ T.text.toList = "typealias".toList ++
      ' ' :: (['X'] ++ ' ' :: (['='] ++ ' ' :: T.text.toList)) from rfl,
    Lexeme.kinds_word hword (by rintro _ ⟨⟩; decide),
    Lexeme.kinds_space (by rintro _ ⟨⟩; decide),
    Lexeme.kinds_word hname (by rintro _ ⟨⟩; decide),
    Lexeme.kinds_space (by rintro _ ⟨⟩; decide),
    Lexeme.kinds_operator _ hequal (forall_mem_of_all (by decide)) (by rintro _ ⟨⟩; decide),
    kinds_space_startsType hstarts]
  rfl

lemma sees_alias (hnamed : T.Named) :
    (Cursor.start (Token.ofText ("typealias X = " ++ T.text))).shift.Sees
      (Goal.head "typealias" "X" ++ (Lexeme.kinds T.text.toList).map TokenKind.plain) := by
  have htokens := congrArg (List.map TokenKind.plain)
    ((Token.kinds_ofText ("typealias X = " ++ T.text)).trans (kinds_alias hnamed))
  rw [List.map_map, List.map_append] at htokens
  have hsees := Cursor.sees_land [] (Token.ofText ("typealias X = " ++ T.text))
  rw [Cursor.shift_eq_land]
  exact htokens ▸ hsees

/-- The text of a type whose pieces stand apart, read as an alias. -/
lemma exists_readText_alias (p : Parser) (hnamed : T.Named) (hroom : T.text.length < p.maxDepth)
    (hundoubled : Undoubled T.text.toList) (hmarks : ¬ T.MarksFunction) :
    ∃ range, p.readText ("typealias X = " ++ T.text) =
      ⟨⟨Parser.rootRange (Token.ofText ("typealias X = " ++ T.text)),
        [.typeAlias range ⟨[], []⟩ "X" T]⟩, []⟩ := by
  have hkinds : Lexeme.kinds T.text.toList = T.spelling := by
    have hkinds := T.kinds_text [] hnamed followsType_nil (by rwa [List.append_nil])
    rwa [List.append_nil, Lexeme.kinds_nil, List.append_nil] at hkinds
  obtain ⟨kind, kinds, hspelling, hkind⟩ := T.exists_spelling_cons hnamed
  have hlength : T.spelling.length ≤ p.maxDepth := by
    have hle := Lexeme.length_kinds_le T.text.toList
    rw [hkinds, String.length_toList] at hle
    omega
  have hreads := T.reads_spelling p.maxDepth [] []
    ⟨hnamed, fun parameters throws result mark hmem => hmarks ⟨_, _, _, _, hmem⟩⟩
    (fun hne => absurd rfl hne) hlength nofun
  have htokens := congrArg (List.map TokenKind.plain)
    ((Token.kinds_ofText ("typealias X = " ++ T.text)).trans (kinds_alias hnamed))
  rw [List.map_map, List.map_append, hkinds, T.map_plain_spelling, hspelling] at htokens
  refine p.exists_readTokens_typeAlias htokens hkind.isBlank fun s hs => hreads s ?_
  rwa [List.map_nil, List.append_nil, List.append_nil, hspelling]

end TypeExpr

/-! ### Where an alias ends -/

namespace Cursor

variable {c : Cursor} {kinds : List TokenKind}

lemma Sees.foreignLater_eq (h : c.Sees kinds) :
    c.foreignLater = kinds.tail.countP TokenKind.isForeign := by
  rw [← h.remaining_eq, List.countP_map, foreignLater]
  congr 1
  funext t
  exact (TokenKind.isForeign_plain t.kind).symm

/-- Where the search for the next token of interest finds none, nothing foreign is left. -/
lemma foreignLater_of_advance_end {reach : Reach} (h : (c.advance reach).here? = none) :
    c.foreignLater = 0 := by
  rw [← foreignAhead_advance reach, foreignAhead]
  rw [advance_eq_land] at h ⊢
  rw [ahead_land]
  cases hrest : c.remaining.dropWhile fun t => reach.passes t.kind with
  | nil => rfl
  | cons t rest =>
    rw [hrest] at h
    cases h

/-- What a cursor has found is one of its tokens. -/
lemma exists_mem_of_here? {kind : TokenKind} (h : c.here? = some kind) :
    ∃ t ∈ c.toList, t.kind.plain = kind := by
  rcases c with a | ⟨b, t, a⟩ | b
  · cases h
  · refine ⟨t, ?_, Option.some.inj h⟩
    rw [toList_eq_append]
    exact List.mem_append_right _ List.mem_cons_self
  · cases h

end Cursor

/-! ### The round trip -/

/-- A type that is read from the text of an alias for it up to where the alias ends stands in
pieces in the text. -/
lemma TypeExpr.undoubled_of_reads {T : TypeExpr} {room : Nat} {s u : State} {a : TypeExpr}
    (hnamed : T.Named) (hsees : s.cursor.Sees
      (Goal.head "typealias" "X" ++ (Lexeme.kinds T.text.toList).map TokenKind.plain))
    (hlist : ∀ t ∈ s.cursor.toList, t.kind ∈ Goal.head "typealias" "X" ++ Lexeme.kinds T.text.toList)
    (hreads : Goal.type.Reads room
      (s.moveTo (((s.cursor.advance .anyLine).advance .anyLine).advance .anyLine)) (.ok a) u)
    (hend : ∀ next, (u.cursor.advance .sameLine).here? = some next →
      next = .punctuator .semicolon ∨ next = .lineFeed) :
    Undoubled T.text.toList := by
  have htext := T.all_text hnamed
  -- nothing in the text separates declarations, so the type goes up to the end
  have hnone : (u.cursor.advance .sameLine).here? = none := by
    by_contra hsome
    obtain ⟨next, hnext⟩ := Option.ne_none_iff_exists'.mp hsome
    obtain ⟨t, ht, hkind⟩ := Cursor.exists_mem_of_here? hnext
    have hsame : (u.cursor.advance .sameLine).toList = s.cursor.toList := by
      rw [Cursor.toList_advance, (hreads.onward (by simp)).1]
      simp
    have hmem := hlist t (hsame ▸ ht)
    have hnot : t.kind.plain ≠ .punctuator .semicolon ∧ t.kind.plain ≠ .lineFeed := by
      rcases List.mem_append.mp hmem with hmem | hmem
      · have hall : ∀ kind ∈ Goal.head "typealias" "X",
            kind.plain ≠ .punctuator .semicolon ∧ kind.plain ≠ .lineFeed :=
              forall_mem_of_all (by decide)
        exact hall _ hmem
      · exact Lexeme.not_separator_of_mem_kinds htext hmem
    rw [hkind] at hnot
    exact (hend next hnext).elim hnot.1 hnot.2
  -- so nothing foreign was passed, and there was none
  have hcount : (Lexeme.kinds T.text.toList).countP TokenKind.isForeign = 0 := by
    have hequal := (hsees.advance_blank rfl .anyLine).advance_blank rfl .anyLine
    obtain ⟨-, -, hforeign⟩ := hreads.shapesType
    rw [Cursor.foreignLater_of_advance_end hnone, State.cursor_moveTo, Cursor.foreignAhead_advance,
      hequal.foreignLater_eq] at hforeign
    have hplain : TokenKind.isForeign ∘ TokenKind.plain = TokenKind.isForeign :=
      funext TokenKind.isForeign_plain
    simpa [List.countP_map, hplain, TokenKind.isForeign] using hforeign
  have hopen : ∀ c ∈ T.text.toList, c ∉ Rule.openers := by
    intro c hc hopener
    have hall : ∀ c ∈ Rule.openers, isTypeChar c = false := forall_mem_of_all (by decide)
    have htypeChar := List.all_eq_true.mp htext c hc
    rw [hall c hopener] at htypeChar
    cases htypeChar
  have hpair : ∀ d ∈ Rule.doubling, ¬ [d, d] <:+: T.text.toList := by
    rintro d hd ⟨before, later, heq⟩
    rw [List.append_assoc, List.cons_append, List.singleton_append] at heq
    obtain ⟨kind, hkind, hforeign⟩ := Lexeme.exists_foreign hd before later fun c hc =>
      hopen c (heq ▸ List.mem_append_left _ hc)
    rw [heq] at hkind
    exact absurd hforeign (List.countP_eq_zero.mp hcount kind hkind)
  exact ⟨hpair '>' (by decide), hpair '?' (by decide)⟩

/-- The text of a type is read back as this type just where no two closing angle brackets and
no two question marks stand together in it, and no mark directly behind a function. -/
theorem Parser.readText_typeAlias (p : Parser) {T : TypeExpr} (hnamed : T.Named)
    (hroom : T.text.length < p.maxDepth) :
    ((p.readText ("typealias X = " ++ T.text)).errors = [] ∧ ∃ range header name,
      (p.readText ("typealias X = " ++ T.text)).root.declarations =
        [.typeAlias range header name T]) ↔
      Undoubled T.text.toList ∧ ¬ T.MarksFunction := by
  constructor
  · rintro ⟨herrors, range, header, name, hdeclarations⟩
    have hsees := TypeExpr.sees_alias hnamed
    obtain ⟨d, t, rest, hreads, heq⟩ := p.exists_reads_of_errors_nil (hsees.startsDeclaration rfl)
      herrors
    obtain ⟨T', u, range', hd, htype, hend⟩ := hreads.exists_of_typeAlias hsees
    have hsame : d = .typeAlias range header name T :=
      (List.cons.inj (heq.symm.trans hdeclarations)).1
    rw [hsame] at hd
    cases hd
    refine ⟨TypeExpr.undoubled_of_reads hnamed hsees (fun t ht => ?_) htype hend, ?_⟩
    · rw [← TypeExpr.kinds_alias hnamed, ← Token.kinds_ofText]
      exact List.mem_map_of_mem (by simpa using ht)
    · rintro ⟨parameters, throws, result, mark, hmem⟩
      exact htype.shapesType.1 parameters throws result mark hmem
  · rintro ⟨hundoubled, hmarks⟩
    obtain ⟨range, heq⟩ := TypeExpr.exists_readText_alias p hnamed hroom hundoubled hmarks
    rw [heq]
    exact ⟨rfl, range, ⟨[], []⟩, "X", rfl⟩

/-- A dictionary with optional values is read back. -/
theorem Parser.readText_typeAlias_dictionary :
    let T := TypeExpr.dictionary (.simple "A") (.optional (.simple "B"))
    T.Named ∧ T.text.length < (⟨9⟩ : Parser).maxDepth ∧
      ((⟨9⟩ : Parser).readText ("typealias X = " ++ T.text)).errors = [] ∧ ∃ range header name,
        ((⟨9⟩ : Parser).readText ("typealias X = " ++ T.text)).root.declarations =
          [.typeAlias range header name T] := by
  intro T
  have hnamed : T.Named := by
    have hword (c : Char) (hc : Rule.startsWord c = true) : Rule.IsWord [c] :=
      ⟨c, [], rfl, hc, by simp⟩
    intro path hpath
    simp only [T, TypeExpr.simple, TypeExpr.parts, TypeSegment.partsAll, TypeExpr.partsAll,
      List.mem_cons, List.mem_append, List.not_mem_nil, reduceCtorEq, TypeExpr.named.injEq,
      or_false, false_or] at hpath
    rcases hpath with rfl | rfl
    · exact ⟨.inl ⟨hword 'A' rfl, rfl⟩, by simp⟩
    · exact ⟨.inl ⟨hword 'B' rfl, rfl⟩, by simp⟩
  have hroom : T.text.length < (⟨9⟩ : Parser).maxDepth := by decide
  have hundoubled : Undoubled T.text.toList := by
    rw [TypeExpr.toList_text_dictionary, TypeExpr.toList_text_optional]
    simp only [TypeExpr.simple, TypeExpr.text, TypeSegment.texts]
    decide
  refine ⟨hnamed, hroom, (Parser.readText_typeAlias ⟨9⟩ hnamed hroom).mpr ⟨hundoubled, ?_⟩⟩
  rintro ⟨parameters, throws, result, _ | _, hmem⟩ <;>
    simp [T, TypeExpr.simple, TypeExpr.parts, TypeSegment.partsAll, TypeExpr.partsAll,
      TypeExpr.mark] at hmem

end FrontEnd
