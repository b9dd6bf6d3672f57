/-
Each lexeme stands alone.

What follows a lexeme decides how far it reaches, but once cut out it is a text of one lexeme,
the same again: neither a rule nor the rules for unfinished input nor the end of a comment
looks beyond it.  The main result is `Token.ofText_slice`.
-/
import FrontEnd.Proofs.Lexical.Break

namespace FrontEnd

namespace Lexeme

/-- A comment ends where it ends also without what follows it. -/
lemma commentEnd?_take {body : List Char} {n : Nat} (h : commentEnd? body = some n) :
    commentEnd? (body.take n) = some n := by
  fun_induction commentEnd? body generalizing n with
  | case1 => cases h
  | case2 later =>
    cases h
    rfl
  | case3 c later hend ih =>
    obtain ⟨m, hm, rfl⟩ := Option.map_eq_some_iff.mp h
    rw [List.take_succ_cons, commentEnd?, ih hm, Option.map_some]
    -- the first two characters do not end the comment, with or without the rest
    rintro rest rfl hrest
    have hlater := List.take_append_drop m later
    rw [hrest] at hlater
    exact hend _ rfl hlater.symm

/-- The block comment of a text is that of its own piece. -/
lemma blockComment_alone {body rest : List Char}
    (h : (blockComment body).text = '/' :: '*' :: rest) :
    blockComment rest = blockComment body := by
  unfold blockComment at h ⊢
  rcases hend : commentEnd? body with _ | n
  · simp only [hend, List.cons.injEq, true_and] at h
    rw [← h, hend]
  · simp only [hend, List.cons.injEq, true_and] at h
    rw [← h, commentEnd?_take hend]
    simp only [List.take_take, Nat.min_self]

/-- What the rules find where no comment starts is found in its own piece, too. -/
lemma getD_ofRules?_alone {c d : Char} {rest later : List Char} {lexeme : Lexeme}
    (hlexeme : (ofRules? Rule.language (c :: rest)).getD
      ((ofRules? Rule.unfinished (c :: rest)).getD ⟨.invalid (String.singleton c), [c]⟩) = lexeme)
    (htext : lexeme.text = d :: later) (hbegins : d :: later <+: c :: rest) :
    (ofRules? Rule.language (d :: later)).getD
      ((ofRules? Rule.unfinished (d :: later)).getD ⟨.invalid (String.singleton d), [d]⟩) =
        lexeme := by
  have hnothing {rules : List Rule} (h : ofRules? rules (c :: rest) = none) :
      ofRules? rules (d :: later) = none := by
    rw [List.prefix_iff_eq_take.mp hbegins]
    exact ofRules?_take_eq_none h _
  rcases hlanguage : ofRules? Rule.language (c :: rest) with _ | found
  · rcases hunfinished : ofRules? Rule.unfinished (c :: rest) with _ | found
    · simp only [hlanguage, hunfinished, Option.getD_none] at hlexeme
      rw [hnothing hlanguage, hnothing hunfinished]
      subst hlexeme
      cases htext
      rfl
    · simp only [hlanguage, hunfinished, Option.getD_none, Option.getD_some] at hlexeme
      subst hlexeme
      rw [hnothing hlanguage, ← htext, ofRules?_text hunfinished]
      rfl
  · simp only [hlanguage, Option.getD_some] at hlexeme
    subst hlexeme
    rw [← htext, ofRules?_text hlanguage]
    rfl

/-- The first lexeme of a text is the first lexeme of its own piece. -/
lemma first_alone {c d : Char} {rest later : List Char}
    (h : (first c rest).text = d :: later) : first d later = first c rest := by
  have hbegins := (first_spec c rest).1
  rw [h] at hbegins
  by_cases hcomment : ['/', '*'] <+: c :: rest
  · obtain ⟨body, hbody⟩ := hcomment
    cases hbody
    change (blockComment body).text = d :: later at h
    obtain ⟨written, hwritten⟩ : ['/', '*'] <+: d :: later := by
      rw [← h]
      unfold blockComment
      split <;> exact ⟨_, rfl⟩
    cases hwritten
    exact blockComment_alone h
  · have hcomment' : ¬ ['/', '*'] <+: d :: later := fun h => hcomment (h.trans hbegins)
    rw [first_of_not_comment hcomment']
    rw [first_of_not_comment hcomment] at h ⊢
    exact getD_ofRules?_alone rfl h hbegins

/-- A lexeme of a text is the only one of its own piece. -/
lemma ofChars_alone {text : List Char} {lexeme : Lexeme} (h : lexeme ∈ ofChars text) :
    ofChars lexeme.text = [lexeme] := by
  refine forall_mem_ofChars (P := fun lexeme => ofChars lexeme.text = [lexeme])
    (fun c rest => ?_) text lexeme h
  obtain ⟨d, later, hpiece⟩ := List.exists_cons_of_ne_nil (first_spec c rest).2
  have halone := first_alone hpiece
  rw [hpiece, ofChars_cons, halone, hpiece, List.drop_length]
  rfl

end Lexeme

namespace Token

/-- Every token is the only one of the piece of text that it covers, where it has the same
kind and covers the whole. -/
theorem ofText_slice (text : String) (t : Token) (ht : t ∈ ofText text) :
    (ofText (t.slice text)).map (fun u => (u.kind, u.span)) =
      [(t.kind, ⟨0, (t.slice text).utf8ByteSize⟩)] := by
  obtain ⟨-, hcovers⟩ := covers_place (LineTable.ofChars text.toList) []
    (Lexeme.ofChars text.toList) fun _ => Lexeme.text_ne_nil_of_mem
  rw [List.nil_append, Lexeme.flatten_ofChars, String.ofList_toList] at hcovers
  obtain ⟨lexeme, hlexeme, h⟩ := exists_covers hcovers ht
  rw [h.slice_eq, h.kind_eq, ofText, String.toList_ofList, ofChars, Lexeme.ofChars_alone hlexeme,
    String.utf8ByteSize_ofList, utf8Len_eq_byteSize]
  simp [place, Span.covering]

/-- A string without its end is cut off in front of a backslash. -/
theorem ofText_slice_unfinished :
    let t : Token := ⟨.invalid "\"a", ⟨0, 2⟩, ⟨⟨1, 1⟩, ⟨1, 3⟩⟩⟩
    t ∈ ofText "\"a\\" ∧ (ofText (t.slice "\"a\\")).map (fun u => (u.kind, u.span)) =
      [(t.kind, ⟨0, (t.slice "\"a\\").utf8ByteSize⟩)] := by
  intro t
  have hmem : t ∈ ofText "\"a\\" := by decide +kernel
  exact ⟨hmem, ofText_slice _ t hmem⟩

end Token

end FrontEnd
