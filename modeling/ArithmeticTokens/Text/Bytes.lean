/-!
# Byte offsets into text

Positions and lengths are counted in the bytes of the UTF-8 form of a text. A text is a list of
characters, so an offset is either on the border of two characters or inside one, and only the
first kind cuts the text in two. `dropBytes?_eq_some_iff` says that a cut exists exactly where
some initial part of the text has that many bytes.
-/

namespace ArithmeticTokens.Text

/-- The number of bytes of a text in UTF-8. -/
def byteLength : List Char → Nat
  | [] => 0
  | c :: cs => c.utf8Size + byteLength cs

@[simp] theorem byteLength_nil : byteLength [] = 0 := rfl

@[simp] theorem byteLength_cons (c : Char) (cs : List Char) :
    byteLength (c :: cs) = c.utf8Size + byteLength cs := rfl

@[simp] theorem byteLength_append (as bs : List Char) :
    byteLength (as ++ bs) = byteLength as + byteLength bs := by
  induction as with
  | nil => simp
  | cons c as ih => simp [ih, Nat.add_assoc]

theorem byteLength_eq_zero_iff {cs : List Char} : byteLength cs = 0 ↔ cs = [] := by
  cases cs with
  | nil => exact iff_of_true rfl rfl
  | cons c cs =>
      have hpos : byteLength (c :: cs) ≠ 0 :=
        Nat.ne_of_gt (Nat.add_pos_left c.utf8Size_pos (byteLength cs))
      exact iff_of_false hpos (List.cons_ne_nil c cs)

theorem size_utf8Encode (cs : List Char) : cs.utf8Encode.size = byteLength cs := by
  induction cs with
  | nil => rfl
  | cons c cs ih =>
      rw [List.utf8Encode_cons, ByteArray.size_append, ih, List.utf8Encode_singleton,
        List.size_toByteArray, String.length_utf8EncodeChar, byteLength_cons]

/-- The byte length of its characters is the size of a string. -/
theorem utf8ByteSize_eq_byteLength (s : String) : s.utf8ByteSize = byteLength s.toList := by
  rw [← size_utf8Encode, ← String.toByteArray_ofList, String.ofList_toList]
  rfl

/-- What follows the first `n` bytes of a text, or `none` when the text is shorter than `n` bytes
or byte `n` lies inside a character. -/
def dropBytes? : Nat → List Char → Option (List Char)
  | 0, cs => some cs
  | _ + 1, [] => none
  | n + 1, c :: cs => if c.utf8Size ≤ n + 1 then dropBytes? (n + 1 - c.utf8Size) cs else none

/-- The first `n` bytes of a text, where `dropBytes?` can cut it. -/
def takeBytes? (n : Nat) (cs : List Char) : Option (List Char) :=
  (dropBytes? n cs).map fun rest => cs.take (cs.length - rest.length)

/-- A front part that has bytes starts with the first character. -/
theorem exists_cons_of_byteLength {n : Nat} {c : Char} {cs front rest : List Char}
    (h : c :: cs = front ++ rest) (hn : byteLength front = n + 1) :
    ∃ tail, cs = tail ++ rest ∧ c.utf8Size + byteLength tail = n + 1 := by
  cases front with
  | nil => cases hn
  | cons d tail =>
      obtain ⟨rfl, hcs⟩ := List.cons.inj h
      exact ⟨tail, hcs, hn⟩

theorem dropBytes?_eq_some_iff {n : Nat} {cs rest : List Char} :
    dropBytes? n cs = some rest ↔ ∃ front, cs = front ++ rest ∧ byteLength front = n := by
  fun_induction dropBytes? n cs with
  | case1 cs =>
      rw [Option.some.injEq]
      constructor
      · rintro rfl
        exact ⟨[], rfl, rfl⟩
      · rintro ⟨front, rfl, hfront⟩
        rw [byteLength_eq_zero_iff.mp hfront, List.nil_append]
  | case2 n =>
      constructor
      · intro h
        cases h
      · rintro ⟨front, h, hfront⟩
        rw [(List.append_eq_nil_iff.mp h.symm).1] at hfront
        cases hfront
  | case3 n c cs hsize ih =>
      rw [ih]
      constructor
      · rintro ⟨front, rfl, hfront⟩
        refine ⟨c :: front, rfl, ?_⟩
        rw [byteLength_cons, hfront, Nat.add_sub_cancel' hsize]
      · rintro ⟨front, h, hfront⟩
        obtain ⟨tail, rfl, htail⟩ := exists_cons_of_byteLength h hfront
        exact ⟨tail, rfl, Nat.eq_sub_of_add_eq' htail⟩
  | case4 n c cs hsize =>
      -- The first character goes on behind byte `n + 1`, so no front part ends there.
      constructor
      · intro h
        cases h
      · rintro ⟨front, h, hfront⟩
        obtain ⟨tail, -, htail⟩ := exists_cons_of_byteLength h hfront
        exact absurd (htail ▸ Nat.le_add_right c.utf8Size _) hsize

/-- A text that can be cut in two places can be cut in the later one at once. -/
theorem dropBytes?_add {n : Nat} {cs v rest : List Char} (h : dropBytes? n cs = some (v ++ rest)) :
    dropBytes? (n + byteLength v) cs = some rest := by
  obtain ⟨front, rfl, rfl⟩ := dropBytes?_eq_some_iff.mp h
  exact dropBytes?_eq_some_iff.mpr ⟨front ++ v, by simp, byteLength_append front v⟩

theorem le_byteLength_of_dropBytes? {n : Nat} {cs rest : List Char}
    (h : dropBytes? n cs = some rest) : n ≤ byteLength cs := by
  obtain ⟨front, rfl, rfl⟩ := dropBytes?_eq_some_iff.mp h
  rw [byteLength_append]
  exact Nat.le_add_right _ _

theorem takeBytes?_eq_some_iff {n : Nat} {cs front : List Char} :
    takeBytes? n cs = some front ↔ ∃ rest, cs = front ++ rest ∧ byteLength front = n := by
  simp only [takeBytes?, Option.map_eq_some_iff, dropBytes?_eq_some_iff]
  constructor
  · rintro ⟨rest, ⟨front', rfl, hn⟩, rfl⟩
    exact ⟨rest, by simp, by simpa using hn⟩
  · rintro ⟨rest, rfl, hn⟩
    exact ⟨rest, ⟨front, rfl, hn⟩, by simp⟩

end ArithmeticTokens.Text
