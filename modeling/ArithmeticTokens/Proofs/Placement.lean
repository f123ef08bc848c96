import ArithmeticTokens.Proofs.Encoding
import ArithmeticTokens.Proofs.Lines

/-!
# The line of a byte

Which line a place lies in is a matter of the newlines around it: those in front of it are counted
for the number, the last of them is right in front of the line, and the first one behind ends it.
`LiesAt` says so of the bytes of a text, for a place on the border of two characters and inside one
alike, and determines the line (`LiesAt.unique`). This is the line that is found
(`locate_eq_some_iff`).
-/

namespace ArithmeticTokens.Text

/-! ### Newlines by their offsets -/

/-- Byte `i` of the text is a newline. -/
def NewlineAt (source : String) (i : Nat) : Prop := (bytes source)[i]? = some newline

theorem NewlineAt.lt {source : String} {i : Nat} (h : NewlineAt source i) :
    i < source.utf8ByteSize := by
  obtain ⟨hlt, -⟩ := List.getElem?_eq_some_iff.mp h
  rwa [length_bytes] at hlt

theorem newlineAt_of_append {source : String} {front back : List Char}
    (h : source.toList = front ++ '\n' :: back) : NewlineAt source (byteLength front) := by
  rw [NewlineAt, bytes_eq_encode, h, encode_append, ← length_encode front,
    List.getElem?_append_right (Nat.le_refl _), Nat.sub_self]
  rfl

/-- The bytes of a line are no newlines. -/
theorem not_newlineAt_of_append {source : String} {before as rest : List Char} {i : Nat}
    (h : source.toList = before ++ (as ++ rest)) (has : '\n' ∉ as) (hle : byteLength before ≤ i)
    (hlt : i < byteLength before + byteLength as) : ¬ NewlineAt source i := by
  intro hnewline
  rw [NewlineAt, bytes_eq_encode, h, encode_append, encode_append,
    List.getElem?_append_right (by simpa using hle), length_encode,
    List.getElem?_append_left (by rw [length_encode]; omega)] at hnewline
  exact has (newline_mem_encode_iff.mp (List.mem_of_getElem? hnewline))

/-! ### The line of a place -/

/-- Byte `position` of the text, or its end, lies in the line from byte `start` up to byte `stop`. -/
structure LiesAt (source : String) (position start stop : Nat) (line : Line) : Prop where
  position_le : position ≤ source.utf8ByteSize
  number_eq : line.number = 1 + ((bytes source).take position).count newline
  offset_eq : start + line.offset = position
  /-- The line starts where the text does or directly behind a newline, -/
  start_eq : start = 0 ∨ NewlineAt source (start - 1)
  /-- which is the last one in front of the place. -/
  front : ∀ i, start ≤ i → i < position → ¬ NewlineAt source i
  /-- The line ends with the first newline from the place on, or where the text does. -/
  stop_eq : (position < stop ∧ NewlineAt source (stop - 1) ∧
      ∀ i, position ≤ i → i + 1 < stop → ¬ NewlineAt source i) ∨
    (stop = source.utf8ByteSize ∧ ∀ i, position ≤ i → ¬ NewlineAt source i)
  bytes_eq : bytes line.text = ((bytes source).take stop).drop start

namespace LiesAt

variable {source : String} {position position' start stop start' stop' : Nat} {line line' : Line}

/-- The line of a place further on does not start earlier. -/
theorem start_le (h : LiesAt source position start stop line)
    (h' : LiesAt source position' start' stop' line') (hle : position ≤ position') :
    start ≤ start' := by
  refine Nat.le_of_not_lt fun hlt => ?_
  have hplace := h.offset_eq
  rcases h.start_eq with rfl | hnewline
  · exact Nat.not_lt_zero _ hlt
  · exact h'.front (start - 1) (by omega) (by omega) hnewline

theorem stop_le (h : LiesAt source position start stop line)
    (h' : LiesAt source position start' stop' line') : stop ≤ stop' := by
  rcases h'.stop_eq with ⟨hlt', hnewline', -⟩ | ⟨rfl, hnone'⟩
  · refine Nat.le_of_not_lt fun hlt => ?_
    rcases h.stop_eq with ⟨-, -, hfirst⟩ | ⟨-, hnone⟩
    · exact hfirst (stop' - 1) (by omega) (by omega) hnewline'
    · exact hnone (stop' - 1) (by omega) hnewline'
  · rcases h.stop_eq with ⟨hlt, hnewline, -⟩ | ⟨rfl, -⟩
    · exact absurd hnewline (hnone' (stop - 1) (by omega))
    · exact Nat.le_refl _

/-- A place lies in one line only. -/
theorem unique (h : LiesAt source position start stop line)
    (h' : LiesAt source position start' stop' line') : line = line' := by
  obtain rfl := Nat.le_antisymm (h.start_le h' (Nat.le_refl _)) (h'.start_le h (Nat.le_refl _))
  obtain rfl := Nat.le_antisymm (h.stop_le h') (h'.stop_le h)
  have htext : line.text = line'.text := bytes_inj.mp (h.bytes_eq.trans h'.bytes_eq.symm)
  have hnumber : line.number = line'.number := h.number_eq.trans h'.number_eq.symm
  have hoffset : line.offset = line'.offset :=
    Nat.add_left_cancel (h.offset_eq.trans h'.offset_eq.symm)
  cases line
  cases line'
  simp only [Line.mk.injEq]
  exact ⟨hnumber, htext, hoffset⟩

theorem position_le_stop (h : LiesAt source position start stop line) : position ≤ stop := by
  rcases h.stop_eq with ⟨hlt, -⟩ | ⟨rfl, -⟩
  · exact Nat.le_of_lt hlt
  · exact h.position_le

theorem stop_le_size (h : LiesAt source position start stop line) :
    stop ≤ source.utf8ByteSize := by
  rcases h.stop_eq with ⟨hlt, hnewline, -⟩ | ⟨rfl, -⟩
  · have := hnewline.lt
    omega
  · exact Nat.le_refl _

theorem start_add_size (h : LiesAt source position start stop line) :
    start + line.text.utf8ByteSize = stop := by
  have hplace := h.offset_eq
  have hposition := h.position_le_stop
  have hsize := h.stop_le_size
  rw [← length_bytes, h.bytes_eq, List.length_drop, List.length_take, length_bytes]
  omega

theorem offset_le (h : LiesAt source position start stop line) :
    line.offset ≤ line.text.utf8ByteSize := by
  have hplace := h.offset_eq
  have hsize := h.start_add_size
  have hposition := h.position_le_stop
  omega

/-- Only the end of the text has no byte of its line behind it. -/
theorem eq_size (h : LiesAt source position start stop line)
    (hoffset : line.offset = line.text.utf8ByteSize) : position = source.utf8ByteSize := by
  have hstop : position = stop := by rw [← h.offset_eq, hoffset, h.start_add_size]
  rcases h.stop_eq with ⟨hlt, -⟩ | ⟨rfl, -⟩
  · omega
  · exact hstop

/-- A newline in the line is its last byte. -/
theorem newline_last (h : LiesAt source position start stop line) {i : Nat}
    (hnewline : NewlineAt line.text i) : i + 1 = line.text.utf8ByteSize := by
  have hlt : start + i < stop := by
    rw [← h.start_add_size]
    exact Nat.add_lt_add_left hnewline.lt start
  have hat : NewlineAt source (start + i) := by
    rwa [NewlineAt, h.bytes_eq, List.getElem?_drop, List.getElem?_take_of_lt hlt] at hnewline
  have hposition : position ≤ start + i :=
    Nat.le_of_not_lt fun hfront => h.front _ (Nat.le_add_right start i) hfront hat
  have hsize := h.start_add_size
  rcases h.stop_eq with ⟨-, -, hfirst⟩ | ⟨-, hnone⟩
  · have hlast : ¬ start + i + 1 < stop := fun hmore => hfirst _ hposition hmore hat
    omega
  · exact absurd hat (hnone _ hposition)

end LiesAt

/-- The line that a text has around a place is the line of the place by its bytes. -/
theorem IsLine.liesAt {source : String} {before as rest : List Char} {offset : Nat}
    (h : IsLine before as rest) (hsource : source.toList = before ++ (as ++ rest))
    (hoffset : offset ≤ byteLength as) :
    LiesAt source (byteLength before + offset) (byteLength before)
      (byteLength (before ++ (as ++ rest.take 1)))
      ⟨before.count '\n' + 1, String.ofList (as ++ rest.take 1), offset⟩ where
  position_le := by
    rw [utf8ByteSize_eq_byteLength, hsource]
    simp
    omega
  number_eq := by
    have hnone : newline ∉ (encode as).take offset := fun hmem =>
      h.not_mem (newline_mem_encode_iff.mp (List.mem_of_mem_take hmem))
    rw [bytes_eq_encode, hsource, encode_append, ← length_encode before, List.take_length_add_append,
      encode_append, List.take_append_of_le_length (by simpa using hoffset), List.count_append,
      count_newline_encode, List.count_eq_zero_of_not_mem hnone, Nat.add_comm 1]
  offset_eq := rfl
  start_eq := by
    obtain rfl | ⟨front, rfl⟩ := h.before.eq_nil_or_concat
    · exact Or.inl rfl
    · right
      rw [List.append_assoc, List.singleton_append] at hsource
      simpa using newlineAt_of_append hsource
  front i hstart hlt := not_newlineAt_of_append hsource h.not_mem hstart (by omega)
  stop_eq := by
    rcases h.rest with rfl | ⟨back, rfl⟩
    · right
      rw [utf8ByteSize_eq_byteLength, hsource]
      refine ⟨by simp, fun i hle hnewline => ?_⟩
      have hlt := hnewline.lt
      rw [utf8ByteSize_eq_byteLength, hsource] at hlt
      simp at hlt
      exact not_newlineAt_of_append hsource h.not_mem (by omega) hlt hnewline
    · left
      have hfirst : NewlineAt source (byteLength (before ++ as)) :=
        newlineAt_of_append (by rw [hsource, List.append_assoc])
      refine ⟨by simp; omega, by simpa [← Nat.add_assoc] using hfirst, fun i hle hlt => ?_⟩
      simp at hlt
      exact not_newlineAt_of_append hsource h.not_mem (by omega) (by omega)
  bytes_eq := by
    have hbytes : encode (before ++ (as ++ rest)) =
        encode (before ++ (as ++ rest.take 1)) ++ encode (rest.drop 1) := by
      rw [← encode_append, List.append_assoc, List.append_assoc, List.take_append_drop]
    rw [bytes_eq_encode, bytes_eq_encode, String.toList_ofList, hsource, hbytes,
      List.take_left' (length_encode _), encode_append before, List.drop_left' (length_encode _)]

theorem exists_liesAt_of_le {source : String} {position : Nat}
    (h : position ≤ source.utf8ByteSize) :
    ∃ line start stop, Line.locate source position = some line ∧
      LiesAt source position start stop line := by
  rw [utf8ByteSize_eq_byteLength] at h
  obtain ⟨before, as, rest, offset, hsource, hisLine, rfl, hoffset⟩ := exists_isLine _ h
  exact ⟨_, _, _, hisLine.locate hsource hoffset, hisLine.liesAt hsource hoffset⟩

theorem locate_eq_none_iff {source : String} {position : Nat} :
    Line.locate source position = none ↔ source.utf8ByteSize < position := by
  simp [Line.locate]

theorem locate_eq_some_iff {source : String} {position : Nat} {line : Line} :
    Line.locate source position = some line ↔
      ∃ start stop, LiesAt source position start stop line := by
  constructor
  · intro h
    have hle : position ≤ source.utf8ByteSize := by
      refine Nat.le_of_not_lt fun hlt => ?_
      rw [locate_eq_none_iff.mpr hlt] at h
      cases h
    obtain ⟨line', start, stop, h', hlies⟩ := exists_liesAt_of_le hle
    obtain rfl := Option.some.inj (h.symm.trans h')
    exact ⟨start, stop, hlies⟩
  · rintro ⟨start, stop, hlies⟩
    obtain ⟨line', start', stop', h', hlies'⟩ := exists_liesAt_of_le hlies.position_le
    rw [h', hlies.unique hlies']

/-- A place past the end of a text has no line, and for every other place the line that is found is
the one that its bytes determine. Only the last byte of this line can be a newline, and the place is
in front of one of its bytes unless it is the end of the text. -/
theorem locate_by_newlines (source : String) (position : Nat) :
    (Line.locate source position = none ↔ source.utf8ByteSize < position) ∧
      (∀ line, Line.locate source position = some line ↔
        ∃ start stop, LiesAt source position start stop line) ∧
      ∀ line, Line.locate source position = some line →
        (∀ i, NewlineAt line.text i → i + 1 = line.text.utf8ByteSize) ∧
        line.offset ≤ line.text.utf8ByteSize ∧
        (line.offset = line.text.utf8ByteSize → position = source.utf8ByteSize) := by
  refine ⟨locate_eq_none_iff, fun line => locate_eq_some_iff, fun line h => ?_⟩
  obtain ⟨start, stop, hlies⟩ := locate_eq_some_iff.mp h
  exact ⟨fun i => hlies.newline_last, hlies.offset_le, hlies.eq_size⟩

/-- A place inside the character of two bytes in the second line. -/
theorem locate_by_newlines_inside :
    Line.locate "1\né×\n" 3 = some ⟨2, "é×\n", 1⟩ ∧
      (∃ start stop, LiesAt "1\né×\n" 3 start stop ⟨2, "é×\n", 1⟩) ∧
      (∀ i, NewlineAt "é×\n" i → i + 1 = 5) ∧ 1 ≤ "é×\n".utf8ByteSize ∧
      (1 = "é×\n".utf8ByteSize → 3 = "1\né×\n".utf8ByteSize) := by
  have hlocate : Line.locate "1\né×\n" 3 = some ⟨2, "é×\n", 1⟩ := by decide +kernel
  exact ⟨hlocate, ((locate_by_newlines _ _).2.1 _).mp hlocate,
    (locate_by_newlines _ _).2.2 _ hlocate⟩

/-- Behind the newline at the end of a text is the start of an empty line. -/
example : Line.locate "1\n" 2 = some ⟨2, "", 0⟩ := by decide

end ArithmeticTokens.Text
