/-
The line table keeps the order of offsets.

The starts of the lines ascend, so that halving the table finds the line that starts at an
offset, or the first one behind it, and either gives the last line that starts at or before the
offset.  Later offsets lie on the same line, further to the right, or on a later line.
-/
import Mathlib.Data.List.Chain
import FrontEnd.Proofs.Source.Location
import FrontEnd.Source.LineTable

namespace FrontEnd

namespace LineTable

/-- The starts of the lines of a table ascend, from zero on. -/
structure Ascends (table : LineTable) : Prop where
  pos : 0 < table.starts.size
  start_zero : table.start 0 = 0
  start_lt : ∀ line later, line < later → later < table.starts.size →
    table.start line < table.start later

/-- All starts of lines behind an offset ascend. -/
lemma pairwise_laterStarts (offset : Nat) (text : List Char) :
    (offset :: laterStarts offset text).Pairwise (· < ·) := by
  induction text generalizing offset with
  | nil => simp [laterStarts]
  | cons c rest ih =>
    have hsize : 0 < c.utf8Size := Char.utf8Size_pos c
    have hrest := ih (offset + c.utf8Size)
    rw [List.pairwise_cons] at hrest ⊢
    unfold laterStarts
    split
    · refine ⟨fun next hnext => ?_, List.pairwise_cons.mpr hrest⟩
      rcases List.mem_cons.mp hnext with rfl | hnext
      · omega
      · have := hrest.1 next hnext
        omega
    · refine ⟨fun next hnext => ?_, hrest.2⟩
      have := hrest.1 next hnext
      omega

lemma ascends_ofChars (text : List Char) : (ofChars text).Ascends where
  pos := by simp [ofChars]
  start_zero := by simp [ofChars, start]
  start_lt line later hlt hlater := by
    have hsorted := pairwise_laterStarts 0 text
    simp only [ofChars, List.size_toArray] at hlater
    simp only [start, ofChars, Array.getD_eq_getD_getElem?, List.getElem?_toArray,
      List.getElem?_eq_getElem hlater, List.getElem?_eq_getElem (hlt.trans hlater),
      Option.getD_some]
    exact List.pairwise_iff_getElem.mp hsorted line later _ _ hlt

variable {table : LineTable}

/-- What a search among ascending starts may end in. -/
inductive Finds (table : LineTable) (offset : Nat) : Search → Prop
  | found {line : Nat} (hsize : line < table.starts.size) (hstart : table.start line = offset) :
    Finds table offset (.found line)
  | missing {next : Nat} (hsize : next ≤ table.starts.size)
    (hbefore : ∀ line < next, table.start line < offset)
    (hbehind : ∀ line, next ≤ line → line < table.starts.size → offset < table.start line) :
    Finds table offset (.missing next)

/-- Halving finds an offset, or the place where its line would stand, between two bounds that are
not beyond it. -/
lemma finds_searchBetween (htable : table.Ascends) (offset low high : Nat)
    (hlow : low ≤ table.starts.size) (hhigh : high ≤ table.starts.size)
    (hbefore : ∀ line < low, table.start line < offset)
    (hbehind : ∀ line, high ≤ line → line < table.starts.size → offset < table.start line) :
    table.Finds offset (table.searchBetween offset low high) := by
  induction low, high using searchBetween.induct table offset with
  | case1 low high hle =>
    rw [searchBetween, if_pos hle]
    exact .missing hlow hbefore fun line hline => hbehind line (hle.trans hline)
  | case2 low high hlt middle heq =>
    rw [searchBetween, if_neg hlt, if_pos heq]
    exact .found (by omega) heq
  | case3 low high hlt middle hne hmiddle ih =>
    rw [searchBetween, if_neg hlt, if_neg hne, if_pos hmiddle]
    refine ih (by omega) hhigh (fun line hline => ?_) hbehind
    rcases Nat.lt_succ_iff_lt_or_eq.mp hline with hline | rfl
    · exact (htable.start_lt line middle hline (by omega)).trans hmiddle
    · exact hmiddle
  | case4 low high hlt middle hne hmiddle ih =>
    rw [searchBetween, if_neg hlt, if_neg hne, if_neg hmiddle]
    have hoffset : offset < table.start middle :=
      lt_of_le_of_ne (Nat.not_lt.mp hmiddle) (Ne.symm hne)
    refine ih hlow (by omega) hbefore fun line hline hlast => ?_
    rcases hline.eq_or_lt with rfl | hline
    · exact hoffset
    · exact hoffset.trans (htable.start_lt middle line hline hlast)

lemma finds_search (htable : table.Ascends) (offset : Nat) :
    table.Finds offset (table.search offset) :=
  finds_searchBetween htable offset 0 _ (Nat.zero_le _) (le_refl _)
    (fun _ hline => absurd hline (Nat.not_lt_zero _))
    fun _ hle hlt => absurd hlt (Nat.not_lt.mpr hle)

/-- Some line starts at or before every offset, so a line where none starts has one before it. -/
lemma search_next_pos (htable : table.Ascends) {offset next : Nat}
    (h : table.search offset = .missing next) : 0 < next := by
  have hfinds := finds_search htable offset
  rw [h] at hfinds
  cases hfinds with
  | missing _ _ hbehind =>
    rw [Nat.pos_iff_ne_zero]
    rintro rfl
    have hzero := hbehind 0 (le_refl _) htable.pos
    rw [htable.start_zero] at hzero
    exact absurd hzero (Nat.not_lt_zero _)

/-- The line of an offset starts at or before it, and all later ones start behind it. -/
lemma lineAt_spec (htable : table.Ascends) (offset : Nat) :
    table.start (table.lineAt offset) ≤ offset ∧ table.lineAt offset < table.starts.size ∧
      ∀ line, table.lineAt offset < line → line < table.starts.size →
        offset < table.start line := by
  have hfinds := finds_search htable offset
  rw [lineAt]
  rcases hsearch : table.search offset with line | next
  · rw [hsearch] at hfinds
    cases hfinds with
    | found hsize hstart =>
      exact ⟨hstart.le, hsize, fun later hlater hlast =>
        hstart ▸ htable.start_lt line later hlater hlast⟩
  · have hbeforeNext : next - 1 < next := Nat.sub_one_lt (search_next_pos htable hsearch).ne'
    rw [hsearch] at hfinds
    cases hfinds with
    | missing hsize hbefore hbehind =>
      exact ⟨(hbefore _ hbeforeNext).le, hbeforeNext.trans_le hsize,
        fun line hline => hbehind line (Nat.le_of_pred_lt hline)⟩

/-- The line of an offset is the one that starts at or before it while all later ones start
behind it. -/
lemma lineAt_eq (htable : table.Ascends) {offset line : Nat}
    (hstart : table.start line ≤ offset) (hsize : line < table.starts.size)
    (hlater : ∀ later, line < later → later < table.starts.size → offset < table.start later) :
    table.lineAt offset = line := by
  obtain ⟨hfound, hlt, hbehind⟩ := lineAt_spec htable offset
  rcases Nat.lt_trichotomy (table.lineAt offset) line with h | h | h
  · have := hbehind line h hsize
    omega
  · exact h
  · have := hlater _ h hlt
    omega

/-- Of two offsets the earlier one is the earlier place. -/
theorem locate_lt (htable : table.Ascends) {offset later : Nat} (h : offset < later) :
    table.locate offset < table.locate later := by
  obtain ⟨hstart, hsize, -⟩ := lineAt_spec htable offset
  obtain ⟨hstart', -, hbehind⟩ := lineAt_spec htable later
  rw [Location.lt_iff]
  simp only [locate]
  rcases Nat.lt_trichotomy (table.lineAt offset) (table.lineAt later) with hlines | hlines | hlines
  · exact Or.inl (by omega)
  · rw [← hlines] at hstart' ⊢
    exact Or.inr ⟨rfl, by omega⟩
  · have := hbehind _ hlines hsize
    omega

/-- Different bytes are at different places. -/
lemma locate_injective (htable : table.Ascends) {offset later : Nat}
    (h : table.locate offset = table.locate later) : offset = later := by
  rcases Nat.lt_trichotomy offset later with hlt | rfl | hlt
  · exact absurd h (locate_lt htable hlt).ne
  · rfl
  · exact absurd h (locate_lt htable hlt).ne'

lemma locate_le (htable : table.Ascends) {offset later : Nat} (h : offset ≤ later) :
    table.locate offset ≤ table.locate later := by
  rcases h.eq_or_lt with rfl | h
  · exact le_refl _
  · exact (locate_lt htable h).le

end LineTable

end FrontEnd
