/-
The line table counts line breaks.

A line ends behind a byte that is a line feed, or a carriage return without a line feed behind
it.  The line of an offset is one more than the number of such bytes before it, and its column
counts the bytes from the last of them on.  The bytes are those of the UTF-8 form: the bytes of a
longer character are never taken for a line break.
-/
import Mathlib.Order.Lattice
import FrontEnd.Proofs.Source.LineTable

namespace FrontEnd

namespace LineTable

/-- Whether a line ends behind the byte with a given offset. -/
def breaksAt (bytes : List UInt8) (i : Nat) : Bool :=
  bytes[i]? = some 10 || bytes[i]? = some 13 && bytes[i + 1]? ≠ some 10

/-- The bytes before an offset behind which a line ends, in ascending order. -/
def breaksBefore (bytes : List UInt8) (offset : Nat) : List Nat :=
  (List.range offset).filter (breaksAt bytes)

/-- The offset just behind the last of several breaks, or that of the first byte. -/
def behindLast (breaks : List Nat) : Nat :=
  breaks.getLast?.elim 0 (· + 1)

/-! ### The bytes of characters -/

/-- The bytes of a character of several bytes are no ASCII characters. -/
lemma le_of_mem_utf8EncodeChar {c : Char} (hc : 127 < c.toNat) {b : UInt8}
    (hb : b ∈ String.utf8EncodeChar c) : 128 ≤ b.toNat := by
  have hval : ¬ c.val.toNat ≤ 127 := by
    change ¬ c.toNat ≤ 127
    omega
  simp only [String.utf8EncodeChar, if_neg hval] at hb
  split at hb
  · simp only [List.mem_cons, List.not_mem_nil, or_false] at hb
    rcases hb with rfl | rfl <;> rw [UInt8.toNat_ofNat'] <;> omega
  · split at hb
    · simp only [List.mem_cons, List.not_mem_nil, or_false] at hb
      rcases hb with rfl | rfl | rfl <;> rw [UInt8.toNat_ofNat'] <;> omega
    · simp only [List.mem_cons, List.not_mem_nil, or_false] at hb
      rcases hb with rfl | rfl | rfl | rfl <;> rw [UInt8.toNat_ofNat'] <;> omega

/-- An ASCII character is its own byte. -/
lemma utf8EncodeChar_of_le {c : Char} (hc : c.toNat ≤ 127) :
    String.utf8EncodeChar c = [UInt8.ofNat c.toNat] :=
  if_pos hc

/-- The bytes of a text start with an ASCII character if the text does. -/
lemma getElem?_zero_eq_some_iff (text : List Char) {d : Char} (hd : d.toNat ≤ 127) :
    (text.flatMap String.utf8EncodeChar)[0]? = some (UInt8.ofNat d.toNat) ↔
      text.head? = some d := by
  cases text with
  | nil => simp
  | cons c rest =>
    have hpos : 0 < (String.utf8EncodeChar c).length := by
      rw [String.length_utf8EncodeChar]
      exact c.utf8Size_pos
    rw [List.flatMap_cons, List.getElem?_append_left hpos, List.head?_cons, Option.some.injEq]
    by_cases hc : c.toNat ≤ 127
    · rw [utf8EncodeChar_of_le hc, List.getElem?_cons_zero, Option.some.injEq, ← UInt8.toNat_inj,
        UInt8.toNat_ofNat', UInt8.toNat_ofNat', ← Char.toNat_inj]
      omega
    · refine ⟨fun h => ?_, fun h => absurd (h ▸ hd) hc⟩
      have hle := le_of_mem_utf8EncodeChar (by omega) (List.mem_of_getElem? h)
      rw [UInt8.toNat_ofNat'] at hle
      omega

/-- The first byte of a text is one behind which a line ends if the first character is. -/
lemma breaksAt_zero_of_le {c : Char} (hc : c.toNat ≤ 127) (rest : List Char) :
    breaksAt ((c :: rest).flatMap String.utf8EncodeChar) 0 = breaksAfter c rest := by
  have hfeed : (rest.flatMap String.utf8EncodeChar)[0]? = some 10 ↔ rest.head? = some '\n' :=
    getElem?_zero_eq_some_iff rest (d := '\n') (by decide)
  have hbyte (d : Char) (hd : d.toNat ≤ 127) : UInt8.ofNat c.toNat = UInt8.ofNat d.toNat ↔ c = d := by
    rw [← UInt8.toNat_inj, UInt8.toNat_ofNat', UInt8.toNat_ofNat', ← Char.toNat_inj]
    omega
  have hline : UInt8.ofNat c.toNat = 10 ↔ c = '\n' := hbyte '\n' (by decide)
  have hreturn : UInt8.ofNat c.toNat = 13 ↔ c = '\r' := hbyte '\r' (by decide)
  rw [List.flatMap_cons, utf8EncodeChar_of_le hc, breaksAt, breaksAfter]
  simp [hline, hreturn, hfeed]

/-- No line ends inside or behind a character of several bytes. -/
lemma breaksAt_of_lt {c : Char} (hc : 127 < c.toNat) (rest : List Char) {i : Nat}
    (hi : i < c.utf8Size) :
    breaksAt ((c :: rest).flatMap String.utf8EncodeChar) i = false := by
  have hlt : i < (String.utf8EncodeChar c).length := by rwa [String.length_utf8EncodeChar]
  have hle := le_of_mem_utf8EncodeChar hc (List.getElem_mem hlt)
  have hne (n : UInt8) (hn : n.toNat < 128) : (String.utf8EncodeChar c)[i] ≠ n := by
    rintro rfl
    omega
  rw [breaksAt, List.flatMap_cons, List.getElem?_append_left hlt, List.getElem?_eq_getElem hlt]
  simp [hne 10 (by decide), hne 13 (by decide)]

/-- The breaks behind the first character are those of the rest. -/
lemma breaksAt_add (c : Char) (rest : List Char) (i : Nat) :
    breaksAt ((c :: rest).flatMap String.utf8EncodeChar) (c.utf8Size + i) =
      breaksAt (rest.flatMap String.utf8EncodeChar) i := by
  have hget (j : Nat) : ((c :: rest).flatMap String.utf8EncodeChar)[c.utf8Size + j]? =
      (rest.flatMap String.utf8EncodeChar)[j]? := by
    rw [List.flatMap_cons, List.getElem?_append_right (by simp), String.length_utf8EncodeChar,
      Nat.add_sub_cancel_left]
  rw [breaksAt, breaksAt, hget, Nat.add_assoc, hget]

/-! ### All breaks of a text -/

lemma breaksBefore_cons (c : Char) (rest : List Char) (n : Nat) :
    breaksBefore ((c :: rest).flatMap String.utf8EncodeChar) (c.utf8Size + n) =
      (if breaksAfter c rest then [c.utf8Size - 1] else []) ++
        (breaksBefore (rest.flatMap String.utf8EncodeChar) n).map (c.utf8Size + ·) := by
  rw [breaksBefore, List.range_add, List.filter_append, List.filter_map]
  congr 1
  · by_cases hc : c.toNat ≤ 127
    · have hsize : c.utf8Size = 1 := by
        rw [← String.length_utf8EncodeChar, utf8EncodeChar_of_le hc, List.length_singleton]
      rw [hsize, List.range_one, List.filter_singleton, breaksAt_zero_of_le hc]
      split <;> simp_all
    · have hno : breaksAfter c rest = false := by
        have hne (d : Char) (hd : d.toNat ≤ 127) : c ≠ d := fun h => hc (h ▸ hd)
        simp [breaksAfter, hne '\n' (by decide), hne '\r' (by decide)]
      rw [hno, if_neg (by simp), List.filter_eq_nil_iff]
      intro i hi
      rw [breaksAt_of_lt (by omega) rest (List.mem_range.mp hi)]
      simp
  · rw [breaksBefore]
    congr 1
    exact List.filter_congr fun i _ => breaksAt_add c rest i

/-- The table holds the offsets behind all breaks of the text. -/
lemma laterStarts_eq (offset : Nat) (text : List Char) :
    laterStarts offset text =
      (breaksBefore (text.flatMap String.utf8EncodeChar) (Text.byteSize text)).map
        (offset + · + 1) := by
  induction text generalizing offset with
  | nil => rfl
  | cons c rest ih =>
    have hsize : 0 < c.utf8Size := c.utf8Size_pos
    rw [laterStarts, Text.byteSize, breaksBefore_cons, List.map_append, List.map_map, ih]
    have hshift : (breaksBefore (rest.flatMap String.utf8EncodeChar) (Text.byteSize rest)).map
        (offset + c.utf8Size + · + 1) =
        (breaksBefore (rest.flatMap String.utf8EncodeChar) (Text.byteSize rest)).map
          ((offset + · + 1) ∘ (c.utf8Size + ·)) :=
      List.map_congr_left fun i _ => by simp [Nat.add_assoc]
    rw [hshift]
    split
    · rw [List.map_singleton, List.singleton_append]
      congr 1
      omega
    · rfl

lemma length_flatMap_utf8EncodeChar (text : List Char) :
    (text.flatMap String.utf8EncodeChar).length = Text.byteSize text := by
  induction text with
  | nil => rfl
  | cons c rest ih => rw [List.flatMap_cons, List.length_append, ih, String.length_utf8EncodeChar,
      Text.byteSize]

/-- No line ends behind the text. -/
lemma breaksAt_of_length_le {bytes : List UInt8} {i : Nat} (h : bytes.length ≤ i) :
    breaksAt bytes i = false := by
  rw [breaksAt, List.getElem?_eq_none h]
  simp

/-- Up to a later offset there are the same breaks and some behind the earlier one. -/
lemma exists_breaksBefore_append (bytes : List UInt8) {offset later : Nat} (h : offset ≤ later) :
    ∃ between, breaksBefore bytes later = breaksBefore bytes offset ++ between ∧
      ∀ i ∈ between, offset ≤ i := by
  obtain ⟨n, rfl⟩ := Nat.exists_eq_add_of_le h
  rw [breaksBefore, List.range_add, List.filter_append]
  refine ⟨_, rfl, fun i hi => ?_⟩
  obtain ⟨j, -, rfl⟩ := List.mem_map.mp (List.mem_filter.mp hi).1
  exact Nat.le_add_right offset j

/-- Behind the text there are no more breaks. -/
lemma breaksBefore_of_length_le {bytes : List UInt8} {offset : Nat} (h : bytes.length ≤ offset) :
    breaksBefore bytes offset = breaksBefore bytes bytes.length := by
  obtain ⟨between, hbetween, hle⟩ := exists_breaksBefore_append bytes h
  have hnil : between = [] := by
    refine List.eq_nil_iff_forall_not_mem.mpr fun i hi => ?_
    have hmem : i ∈ breaksBefore bytes offset := hbetween ▸ List.mem_append_right _ hi
    have hbreak := (List.mem_filter.mp hmem).2
    rw [breaksAt_of_length_le (hle i hi)] at hbreak
    cases hbreak
  rw [hbetween, hnil, List.append_nil]

/-- All breaks of a text are those before an offset and those from there on, wherever the offset
is. -/
lemma exists_breaksBefore_length (bytes : List UInt8) (offset : Nat) :
    ∃ later, breaksBefore bytes bytes.length = breaksBefore bytes offset ++ later ∧
      ∀ i ∈ later, offset ≤ i := by
  rcases Nat.le_total offset bytes.length with h | h
  · exact exists_breaksBefore_append bytes h
  · exact ⟨[], by rw [breaksBefore_of_length_le h, List.append_nil], by simp⟩

/-- Behind the last break before an offset is not behind the offset. -/
lemma behindLast_breaksBefore_le (bytes : List UInt8) (offset : Nat) :
    behindLast (breaksBefore bytes offset) ≤ offset := by
  rw [behindLast]
  rcases hlast : (breaksBefore bytes offset).getLast? with _ | i
  · exact Nat.zero_le _
  · have hmem := List.mem_filter.mp (List.mem_of_getLast? hlast)
    exact List.mem_range.mp hmem.1

/-- The start of a line is behind the last of the breaks before it. -/
lemma getElem?_starts_append (breaks later : List Nat) :
    (0 :: (breaks ++ later).map (· + 1))[breaks.length]? = some (behindLast breaks) := by
  rcases List.eq_nil_or_concat breaks with rfl | ⟨front, last, rfl⟩
  · rfl
  · simp [behindLast]

/-- The starts of a table are zero and the offsets behind the breaks. -/
lemma toList_starts_ofChars (text : List Char) :
    (ofChars text).starts.toList = 0 ::
      (breaksBefore (text.flatMap String.utf8EncodeChar)
        (text.flatMap String.utf8EncodeChar).length).map (· + 1) := by
  rw [ofChars, laterStarts_eq, length_flatMap_utf8EncodeChar]
  simp

/-- The line found for an offset starts behind the last break before it, and as many breaks are
before it. -/
lemma lineAt_ofChars (text : List Char) (offset : Nat) :
    let table := ofChars text
    let breaks := breaksBefore (text.flatMap String.utf8EncodeChar) offset
    table.lineAt offset = breaks.length ∧
      table.starts[breaks.length]? = some (behindLast breaks) := by
  intro table breaks
  obtain ⟨later, hall, hlater⟩ :=
    exists_breaksBefore_length (text.flatMap String.utf8EncodeChar) offset
  have hstarts : table.starts.toList = 0 :: (breaks ++ later).map (· + 1) := by
    rw [toList_starts_ofChars, hall]
  have hget (i : Nat) : table.starts[i]? = (0 :: (breaks ++ later).map (· + 1))[i]? := by
    rw [← hstarts, Array.getElem?_toList]
  have hfound : table.starts[breaks.length]? = some (behindLast breaks) := by
    rw [hget, getElem?_starts_append]
  refine ⟨lineAt_eq (ascends_ofChars text) ?_ ?_ fun line hline hsize => ?_, hfound⟩
  · rw [start, Array.getD_eq_getD_getElem?, hfound]
    exact behindLast_breaksBefore_le _ offset
  · exact (Array.getElem?_eq_some_iff.mp hfound).1
  · -- a later start is behind a break that is not before the offset
    obtain ⟨k, rfl⟩ := Nat.exists_eq_add_of_lt hline
    have hk : table.starts[breaks.length + k + 1]? = later[k]?.map (· + 1) := by
      rw [hget, List.getElem?_cons_succ, List.getElem?_map,
        List.getElem?_append_right (Nat.le_add_right _ _), Nat.add_sub_cancel_left]
    rcases hi : later[k]? with _ | i
    · rw [hi, Option.map_none, Array.getElem?_eq_none_iff] at hk
      exact absurd hsize (Nat.not_lt.mpr hk)
    · rw [start, Array.getD_eq_getD_getElem?, hk, hi]
      exact Nat.lt_succ_of_le (hlater i (List.mem_of_getElem? hi))

/-- The bytes of a string are those of its characters. -/
lemma toList_data_toUTF8 (text : String) :
    text.toUTF8.data.toList = text.toList.flatMap String.utf8EncodeChar := by
  rw [String.toUTF8_eq_toByteArray, ← String.utf8Encode_toList, List.utf8Encode,
    List.data_toByteArray]

/-- The place of every offset, also behind the text: its line is one more than the number of breaks
before it, and its column is counted from behind the last of them. -/
lemma locate_ofChars (text : String) (offset : Nat) :
    let breaks := breaksBefore text.toUTF8.data.toList offset
    (ofChars text.toList).locate offset = ⟨1 + breaks.length, offset - behindLast breaks + 1⟩ := by
  intro breaks
  obtain ⟨hline, hfound⟩ := lineAt_ofChars text.toList offset
  rw [← toList_data_toUTF8] at hline hfound
  rw [locate, hline, start, Array.getD_eq_getD_getElem?, hfound, Nat.add_comm]
  rfl

example : (ofChars "a\r\nb\rc".toList).locate 5 = ⟨3, 1⟩ := by decide +kernel

end LineTable

end FrontEnd
