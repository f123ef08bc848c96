import ArithmeticTokens.Text.Bytes

/-!
# Texts as bytes

The rest of the theory counts bytes without looking at them. Here they are the bytes of the UTF-8
form: a cut of a text is a cut of its bytes (`encode_of_dropBytes?`), an offset that is no cut lies
past the end or inside a character (`dropBytes?_eq_none_iff`), and the byte of a newline stands for
nothing else (`count_newline_encode`).
-/

namespace ArithmeticTokens.Text

/-- The bytes of a text in UTF-8. -/
def bytes (s : String) : List UInt8 := s.toByteArray.data.toList

/-- The bytes of characters, one character after the other. -/
def encode (cs : List Char) : List UInt8 := cs.flatMap String.utf8EncodeChar

theorem bytes_eq_encode (s : String) : bytes s = encode s.toList := by
  rw [bytes, ← String.utf8Encode_toList, List.utf8Encode, List.data_toByteArray, encode]

@[simp] theorem encode_cons (c : Char) (cs : List Char) :
    encode (c :: cs) = String.utf8EncodeChar c ++ encode cs := rfl

@[simp] theorem encode_append (as bs : List Char) : encode (as ++ bs) = encode as ++ encode bs :=
  List.flatMap_append

@[simp] theorem length_encode (cs : List Char) : (encode cs).length = byteLength cs := by
  induction cs with
  | nil => rfl
  | cons c cs ih => simp [ih]

theorem length_bytes (s : String) : (bytes s).length = s.utf8ByteSize := by
  rw [bytes_eq_encode, length_encode, utf8ByteSize_eq_byteLength]

theorem bytes_inj {s t : String} : bytes s = bytes t ↔ s = t := by
  rw [bytes, bytes, Array.toList_inj, ByteArray.ext_iff.symm, String.toByteArray_inj]

/-! ### Cuts -/

/-- Behind a cut the bytes are those behind the offset. -/
theorem encode_of_dropBytes? {n : Nat} {cs rest : List Char} (h : dropBytes? n cs = some rest) :
    encode rest = (encode cs).drop n := by
  obtain ⟨front, rfl, rfl⟩ := dropBytes?_eq_some_iff.mp h
  rw [encode_append, List.drop_left' (length_encode front)]

/-- Byte `n` belongs to a character of the text, but is not its first byte. -/
def InsideCharacter (cs : List Char) (n : Nat) : Prop :=
  ∃ front c back, cs = front ++ c :: back ∧ byteLength front < n ∧ n < byteLength front + c.utf8Size

theorem insideCharacter_cons_iff {c : Char} {cs : List Char} {n : Nat} :
    InsideCharacter (c :: cs) n ↔
      (0 < n ∧ n < c.utf8Size) ∨ (c.utf8Size ≤ n ∧ InsideCharacter cs (n - c.utf8Size)) := by
  constructor
  · rintro ⟨front, d, back, hcs, hlt, hlt'⟩
    cases front with
    | nil =>
        obtain ⟨rfl, rfl⟩ := List.cons.inj hcs
        simp at hlt hlt'
        exact Or.inl ⟨hlt, hlt'⟩
    | cons e front =>
        obtain ⟨rfl, rfl⟩ := List.cons.inj hcs
        simp at hlt hlt'
        exact Or.inr ⟨by omega, front, d, back, rfl, by omega, by omega⟩
  · rintro (⟨hlt, hlt'⟩ | ⟨hle, front, d, back, rfl, hlt, hlt'⟩)
    · exact ⟨[], c, cs, rfl, by simpa using hlt, by simpa using hlt'⟩
    · exact ⟨c :: front, d, back, rfl, by simp; omega, by simp; omega⟩

/-- A text cannot be cut past its end and inside its characters, and nowhere else. -/
theorem dropBytes?_eq_none_iff {n : Nat} {cs : List Char} :
    dropBytes? n cs = none ↔ byteLength cs < n ∨ InsideCharacter cs n := by
  induction cs generalizing n with
  | nil =>
      have hnil : ¬ InsideCharacter [] n := by
        rintro ⟨front, c, back, h, -⟩
        simp at h
      cases n <;> simp [dropBytes?, hnil]
  | cons c cs ih =>
      have hc := c.utf8Size_pos
      rw [insideCharacter_cons_iff]
      cases n with
      | zero => simp [dropBytes?]; omega
      | succ n =>
          rw [dropBytes?, byteLength_cons]
          split
          · rename_i hle
            have hnot : ¬ (0 < n + 1 ∧ n + 1 < c.utf8Size) := by omega
            rw [ih, Nat.lt_sub_iff_add_lt']
            simp only [hnot, hle, false_or, true_and]
          · rename_i hlt
            have hinside : 0 < n + 1 ∧ n + 1 < c.utf8Size := by omega
            simp only [hinside, true_and, true_or, or_true]

/-! ### Newlines -/

/-- The byte of a newline. -/
def newline : UInt8 := 0x0A

/-- The bytes of a longer form are those that stand for nothing alone. -/
theorem le_toNat_of_mem_utf8EncodeChar {c : Char} {b : UInt8} (hc : 128 ≤ c.val.toNat)
    (hb : b ∈ String.utf8EncodeChar c) : 128 ≤ b.toNat := by
  have hbyte : ∀ n, 128 ≤ n → n < 256 → 128 ≤ (UInt8.ofNat n).toNat := by
    intro n hle hlt
    rwa [UInt8.toNat_ofNat_of_lt' hlt]
  have hrange := c.valid
  rw [String.utf8EncodeChar, if_neg (by omega)] at hb
  split at hb
  · simp only [List.mem_cons, List.not_mem_nil, or_false] at hb
    rcases hb with rfl | rfl <;> exact hbyte _ (by omega) (by omega)
  split at hb
  · simp only [List.mem_cons, List.not_mem_nil, or_false] at hb
    rcases hb with rfl | rfl | rfl <;> exact hbyte _ (by omega) (by omega)
  · simp only [List.mem_cons, List.not_mem_nil, or_false] at hb
    rcases hb with rfl | rfl | rfl | rfl <;> exact hbyte _ (by omega) (by omega)

theorem count_newline_utf8EncodeChar (c : Char) :
    (String.utf8EncodeChar c).count newline = [c].count '\n' := by
  by_cases hc : c = '\n'
  · rw [hc]
    rfl
  · have hval : c.val.toNat ≠ 10 := fun h => hc (Char.ext (UInt32.toNat_inj.mp h))
    have hnot : newline ∉ String.utf8EncodeChar c := by
      intro hmem
      by_cases hshort : c.val.toNat ≤ 127
      · rw [String.utf8EncodeChar, if_pos hshort, List.mem_singleton] at hmem
        have hbyte := congrArg UInt8.toNat hmem
        rw [UInt8.toNat_ofNat_of_lt' (Nat.lt_of_le_of_lt hshort (by decide))] at hbyte
        exact hval hbyte.symm
      · have hbyte := le_toNat_of_mem_utf8EncodeChar (by omega) hmem
        revert hbyte
        decide
    rw [List.count_eq_zero_of_not_mem hnot, List.count_eq_zero_of_not_mem (by simpa using Ne.symm hc)]

/-- There are as many newlines among the bytes as among the characters. -/
theorem count_newline_encode (cs : List Char) : (encode cs).count newline = cs.count '\n' := by
  induction cs with
  | nil => rfl
  | cons c cs ih =>
      rw [encode_cons, List.count_append, count_newline_utf8EncodeChar, ih, ← List.count_append,
        List.singleton_append]

theorem newline_mem_encode_iff {cs : List Char} : newline ∈ encode cs ↔ '\n' ∈ cs := by
  rw [← List.count_pos_iff, count_newline_encode, List.count_pos_iff]

end ArithmeticTokens.Text
