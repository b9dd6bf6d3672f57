/-
The places of offsets that are machine words.

Columns are computed in words, so that one column is lost: that of the greatest word, where no line
ends before it, would be the first number that is no word, and comes out as zero.  All other offsets
are at the place that the line breaks before them give, and later ones at later places.  The search
always ends at or behind the first line, and the line that it leads to is in the table.

* `locateWord_eq_locate`: as long as the column is a word, the place is the one without wrapping.
* `locateWord_ofChars`: the place of an offset in a text, and the order of these places.
* `locateWord_greatest`: the offset whose place is lost.
-/
import FrontEnd.Proofs.Source.Counting

namespace FrontEnd

namespace LineTable

variable {table : LineTable} {offset : UInt64}

/-- Some word is the column of an offset: the offset is not the greatest one, or a line ends before
it. -/
def HasColumn (bytes : List UInt8) (offset : UInt64) : Prop :=
  offset.toNat + 1 < UInt64.size ∨ ∃ i < offset.toNat, breaksAt bytes i = true

/-- In words a column is computed as in numbers if it is a word. -/
lemma toNat_column {start : Nat} (hle : start ≤ offset.toNat)
    (hlt : offset.toNat - start + 1 < UInt64.size) :
    (offset - .ofNat start + 1).toNat = offset.toNat - start + 1 := by
  have hstart : (UInt64.ofNat start).toNat = start :=
    UInt64.toNat_ofNat_of_lt (hle.trans_lt offset.toNat_lt)
  have hsub : (offset - .ofNat start).toNat = offset.toNat - start := by
    rw [UInt64.toNat_sub_of_le _ _ (UInt64.le_iff_toNat_le.mpr (hstart.le.trans hle)), hstart]
  rw [UInt64.toNat_add, hsub]
  exact Nat.mod_eq_of_lt hlt

/-- As long as the column is a word, nothing wraps around. -/
theorem locateWord_eq_locate (htable : table.Ascends)
    (h : offset.toNat - table.start (table.lineAt offset.toNat) + 1 < UInt64.size) :
    table.locateWord offset = table.locate offset.toNat := by
  rw [locateWord, toNat_column (lineAt_spec htable offset.toNat).1 h]
  rfl

lemma behindLast_pos {breaks : List Nat} (h : breaks ≠ []) : 0 < behindLast breaks := by
  rw [behindLast, List.getLast?_eq_getLast_of_ne_nil h]
  exact Nat.succ_pos _

/-- Of an offset that has a column, the column is less than the size of words. -/
lemma HasColumn.lt {bytes : List UInt8} (h : HasColumn bytes offset) :
    offset.toNat - behindLast (breaksBefore bytes offset.toNat) + 1 < UInt64.size := by
  rcases h with hlt | ⟨i, hi, hbreak⟩
  · omega
  · have hmem : i ∈ breaksBefore bytes offset.toNat :=
      List.mem_filter.mpr ⟨List.mem_range.mpr hi, hbreak⟩
    have hpos := behindLast_pos (List.ne_nil_of_mem hmem)
    have hword := offset.toNat_lt_size
    omega

/-- Before an offset that is less than another one, none is the greatest. -/
lemma hasColumn_of_lt (bytes : List UInt8) {later : UInt64} (h : offset < later) :
    HasColumn bytes offset :=
  .inl (Nat.lt_of_le_of_lt (UInt64.lt_iff_toNat_lt.mp h) later.toNat_lt_size)

lemma length_breaksBefore_le (bytes : List UInt8) (offset : Nat) :
    (breaksBefore bytes offset).length ≤ bytes.length := by
  obtain ⟨later, hall, -⟩ := exists_breaksBefore_length bytes offset
  calc (breaksBefore bytes offset).length
      ≤ (breaksBefore bytes bytes.length).length := by rw [hall, List.length_append]; omega
    _ ≤ (List.range bytes.length).length := List.length_filter_le _ _
    _ = bytes.length := List.length_range

variable (text : String)

lemma locateWord_eq_of_hasColumn (h : HasColumn text.toUTF8.data.toList offset) :
    (ofChars text.toList).locateWord offset = (ofChars text.toList).locate offset.toNat := by
  refine locateWord_eq_locate (ascends_ofChars _) ?_
  obtain ⟨hline, hfound⟩ := lineAt_ofChars text.toList offset.toNat
  rw [hline, start, Array.getD_eq_getD_getElem?, hfound, ← toList_data_toUTF8]
  exact h.lt

/-- The place of every offset that has a column, also behind the text: the line is one more than the
number of breaks before it, and the column is counted from behind the last of them.  On the way to
it nothing is taken from less, and no line is looked up that is not in the table.  Of two offsets
the later one is at a later place, so that different ones are at different places. -/
theorem locateWord_ofChars :
    let table := ofChars text.toList
    let bytes := text.toUTF8.data.toList
    (∀ offset : UInt64,
      let breaks := breaksBefore bytes offset.toNat
      (∀ next, table.search offset.toNat = .missing next → 0 < next) ∧
      table.starts[table.lineAt offset.toNat]? = some (behindLast breaks) ∧
      behindLast breaks ≤ offset.toNat ∧ breaks.length ≤ bytes.length ∧
      (HasColumn bytes offset →
        table.locateWord offset = ⟨1 + breaks.length, offset.toNat - behindLast breaks + 1⟩)) ∧
    (∀ offset later, HasColumn bytes later → offset < later →
      table.locateWord offset < table.locateWord later) ∧
    ∀ offset later, HasColumn bytes offset → HasColumn bytes later →
      table.locateWord offset = table.locateWord later → offset = later := by
  intro table bytes
  have hplace (offset : UInt64) (h : HasColumn bytes offset) :
      table.locateWord offset = table.locate offset.toNat := locateWord_eq_of_hasColumn text h
  refine ⟨fun offset => ?_, fun offset later hlater hlt => ?_,
    fun offset later hoffset hlater heq => ?_⟩
  · intro breaks
    obtain ⟨hline, hfound⟩ := lineAt_ofChars text.toList offset.toNat
    rw [← toList_data_toUTF8] at hline hfound
    refine ⟨fun next => search_next_pos (ascends_ofChars _), hline ▸ hfound,
      behindLast_breaksBefore_le _ _, length_breaksBefore_le _ _, fun h => ?_⟩
    rw [hplace offset h]
    exact locate_ofChars text offset.toNat
  · rw [hplace offset (hasColumn_of_lt _ hlt), hplace later hlater]
    exact locate_lt (ascends_ofChars _) (UInt64.lt_iff_toNat_lt.mp hlt)
  · rw [hplace offset hoffset, hplace later hlater] at heq
    exact UInt64.toNat_inj.mp (locate_injective (ascends_ofChars _) heq)

/-- Behind a line break the greatest word is an offset like all others. -/
theorem locateWord_ofChars_lineFeed :
    HasColumn "\n".toUTF8.data.toList 0xFFFFFFFFFFFFFFFF ∧
      (ofChars "\n".toList).locateWord 0xFFFFFFFFFFFFFFFF = ⟨2, 0xFFFFFFFFFFFFFFFF⟩ ∧
      (ofChars "\n".toList).locateWord 0 < (ofChars "\n".toList).locateWord 0xFFFFFFFFFFFFFFFF := by
  have hcolumn : HasColumn "\n".toUTF8.data.toList 0xFFFFFFFFFFFFFFFF :=
    .inr ⟨0, by decide, by decide⟩
  have hbreaks :
      breaksBefore "\n".toUTF8.data.toList (0xFFFFFFFFFFFFFFFF : UInt64).toNat = [0] := by
    rw [breaksBefore_of_length_le (by decide)]
    decide
  obtain ⟨hplaces, hless, -⟩ := locateWord_ofChars "\n"
  obtain ⟨-, -, -, -, hplace⟩ := hplaces 0xFFFFFFFFFFFFFFFF
  refine ⟨hcolumn, ?_, hless 0 _ hcolumn (by decide)⟩
  rw [hplace hcolumn, hbreaks]
  decide

/-- In a text without line breaks the greatest word has no column: its place is before that of all
other offsets, and not the one that the line breaks give. -/
theorem locateWord_greatest :
    let table := ofChars "".toList
    let breaks := breaksBefore "".toUTF8.data.toList (0xFFFFFFFFFFFFFFFF : UInt64).toNat
    table.locateWord 0xFFFFFFFFFFFFFFFF ≠
        ⟨1 + breaks.length, (0xFFFFFFFFFFFFFFFF : UInt64).toNat - behindLast breaks + 1⟩ ∧
      ¬ table.locateWord 0 < table.locateWord 0xFFFFFFFFFFFFFFFF := by
  intro table breaks
  have hbreaks : breaks = [] := breaksBefore_of_length_le (Nat.zero_le _)
  have hgreatest : table.locateWord 0xFFFFFFFFFFFFFFFF = ⟨1, 0⟩ := by decide +kernel
  have hzero : table.locateWord 0 = ⟨1, 1⟩ := by decide +kernel
  rw [hgreatest, hzero, hbreaks]
  exact ⟨by decide, by decide⟩

end LineTable

end FrontEnd
