/-
Places along a text.

The place of an offset between two characters hangs on the text before it: each character
leads on along its line, or to the start of the next line if the line ends behind it.  So the
table of lines may be forgotten where a text is followed character by character
(`LineTable.locate_byteSize`).
-/
import FrontEnd.Proofs.Lexical.Lossless

namespace FrontEnd

namespace Location

/-- The place behind a character, when `rest` is what follows it. -/
def behind (l : Location) (c : Char) (rest : List Char) : Location :=
  if LineTable.breaksAfter c rest then ⟨l.line + 1, 1⟩ else ⟨l.line, l.column + c.utf8Size⟩

/-- The place behind a text, when `rest` is what follows it. -/
def along (l : Location) : List Char → List Char → Location
  | [], _ => l
  | c :: text, rest => (l.behind c (text ++ rest)).along text rest

lemma along_append (l : Location) (text later rest : List Char) :
    l.along (text ++ later) rest = (l.along text (later ++ rest)).along later rest := by
  induction text generalizing l with
  | nil => rfl
  | cons c text ih => rw [List.cons_append, along, ih, along, List.append_assoc]

end Location

namespace LineTable

/-- The lines that start within a beginning of a text, and those that start behind it. -/
lemma exists_laterStarts_append (offset : Nat) (text later : List Char) :
    ∃ starts, laterStarts offset (text ++ later) =
        starts ++ laterStarts (offset + Text.byteSize text) later ∧
      ∀ start ∈ starts, start ≤ offset + Text.byteSize text := by
  induction text generalizing offset with
  | nil => exact ⟨[], rfl, by simp⟩
  | cons c text ih =>
    obtain ⟨starts, hstarts, hle⟩ := ih (offset + c.utf8Size)
    rw [List.cons_append, laterStarts, Text.byteSize, ← Nat.add_assoc, hstarts]
    split
    · refine ⟨(offset + c.utf8Size) :: starts, rfl, List.forall_mem_cons.mpr ⟨?_, hle⟩⟩
      exact Nat.le_add_right _ _
    · exact ⟨starts, rfl, hle⟩

lemma lt_of_mem_laterStarts {offset start : Nat} {text : List Char}
    (h : start ∈ laterStarts offset text) : offset < start :=
  (List.pairwise_cons.mp (pairwise_laterStarts offset text)).1 start h

/-- The line of an offset, where the starts of the lines are known up to it. -/
lemma lineAt_of_starts {table : LineTable} (htable : table.Ascends) {offset : Nat}
    {starts later : List Nat} (hstarts : table.starts = (0 :: starts ++ later).toArray)
    (hle : ∀ start ∈ starts, start ≤ offset) (hlater : ∀ start ∈ later, offset < start) :
    table.lineAt offset = starts.length := by
  have hcount : table.starts.size = starts.length + later.length + 1 := by
    rw [hstarts, List.size_toArray, List.length_append, List.length_cons]
    omega
  refine lineAt_eq htable ?_ (by omega) fun line hline hsize => ?_
  · rcases starts.eq_nil_or_concat with rfl | ⟨before, last, rfl⟩
    · rw [List.length_nil, htable.start_zero]
      exact Nat.zero_le _
    · have hlast : table.start (before.concat last).length = last := by
        simp [start, hstarts, Array.getD_eq_getD_getElem?]
      rw [hlast]
      exact hle last (by simp)
  · obtain ⟨line, rfl⟩ := Nat.exists_eq_add_of_lt hline
    simp only [hstarts, List.size_toArray, List.cons_append, List.length_cons,
      List.length_append] at hsize
    have hget : table.start (starts.length + line + 1) = later.get ⟨line, by omega⟩ := by
      simp [start, hstarts, Array.getD_eq_getD_getElem?, show line < later.length by omega]
    rw [hget]
    exact hlater _ (List.get_mem _ _)

/-- The place behind a character. -/
lemma locate_behind (text : List Char) (c : Char) (rest : List Char) :
    (ofChars (text ++ c :: rest)).locate (Text.byteSize text + c.utf8Size) =
      ((ofChars (text ++ c :: rest)).locate (Text.byteSize text)).behind c rest := by
  obtain ⟨starts, hstarts, hle⟩ := exists_laterStarts_append 0 text (c :: rest)
  rw [Nat.zero_add] at hstarts hle
  set table := ofChars (text ++ c :: rest)
  have htable : table.Ascends := ascends_ofChars _
  have hsize : 0 < c.utf8Size := Char.utf8Size_pos c
  have hlines : table.starts =
      (0 :: starts ++ laterStarts (Text.byteSize text) (c :: rest)).toArray := by
    simp [table, ofChars, hstarts]
  have hline := lineAt_of_starts htable hlines hle fun _ => lt_of_mem_laterStarts
  -- the line is known before the character, and behind it if it ends the line
  unfold laterStarts at hlines
  simp only [locate, hline, Location.behind]
  by_cases hbreak : breaksAfter c rest = true
  · simp only [hbreak, if_true] at hlines ⊢
    have hlines' : table.starts = (0 :: (starts ++ [Text.byteSize text + c.utf8Size]) ++
        laterStarts (Text.byteSize text + c.utf8Size) rest).toArray := by
      simp [hlines]
    rw [lineAt_of_starts htable hlines' (fun start hstart => ?_) fun _ => lt_of_mem_laterStarts]
    · simp [start, hlines', Array.getD_eq_getD_getElem?]
    · rw [List.mem_append, List.mem_singleton] at hstart
      rcases hstart with hstart | rfl
      · exact (hle start hstart).trans (Nat.le_add_right _ _)
      · exact Nat.le_refl _
  · simp only [hbreak, if_false, Bool.false_eq_true] at hlines ⊢
    rw [lineAt_of_starts htable hlines (fun start hstart => ?_) fun _ => lt_of_mem_laterStarts]
    · have hstart : table.start starts.length ≤ Text.byteSize text := by
        rw [← hline]
        exact (lineAt_spec htable _).1
      rw [Location.mk.injEq]
      exact ⟨rfl, by omega⟩
    · exact (hle start hstart).trans (Nat.le_add_right _ _)

/-- From one place in a text to a later one. -/
lemma locate_along (before text rest : List Char) :
    (ofChars (before ++ (text ++ rest))).locate (Text.byteSize before + Text.byteSize text) =
      ((ofChars (before ++ (text ++ rest))).locate (Text.byteSize before)).along text rest := by
  induction text generalizing before with
  | nil => rfl
  | cons c text ih =>
    have hnext := ih (before ++ [c])
    have hsize : Text.byteSize [c] = c.utf8Size := Nat.add_zero _
    rw [Token.byteSize_append, hsize, List.append_assoc, List.singleton_append] at hnext
    rw [Text.byteSize, ← Nat.add_assoc, List.cons_append, hnext, locate_behind, Location.along]

/-- A text starts at the first place. -/
lemma locate_zero (text : List Char) : (ofChars text).locate 0 = .origin := by
  have hlines : (ofChars text).starts = (0 :: [] ++ laterStarts 0 text).toArray := rfl
  have hline := lineAt_of_starts (ascends_ofChars _) hlines (by simp) fun _ =>
    lt_of_mem_laterStarts
  simp only [locate, hline, List.length_nil, (ascends_ofChars text).start_zero]
  rfl

/-- The place between two parts of a text. -/
theorem locate_byteSize (text rest : List Char) :
    (ofChars (text ++ rest)).locate (Text.byteSize text) = Location.origin.along text rest := by
  have hall := locate_along [] text rest
  rwa [List.nil_append, Text.byteSize, Nat.zero_add, locate_zero] at hall

end LineTable

end FrontEnd
