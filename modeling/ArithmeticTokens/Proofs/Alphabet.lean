import ArithmeticTokens.Rule
import ArithmeticTokens.Text.Bytes

/-!
# The characters of a text

Twenty characters may stand in a text: ten digits, five operators and five blanks. The three
classes are apart, and each of the twenty is one byte long, so a text over this alphabet has as
many bytes as characters.
-/

namespace ArithmeticTokens

/-- Every character that may stand in a text. -/
def alphabet : List Char := "0123456789*|/+- \t\x0c\r\n".toList

theorem mem_alphabet_of_isDigit {c : Char} (h : c.isDigit = true) : c ∈ alphabet := by
  have hdigits : ∀ n < 10, Char.ofNat (48 + n) ∈ alphabet := by decide
  have hc : 48 ≤ c.toNat ∧ c.toNat ≤ 57 := by
    simp only [Char.isDigit, ge_iff_le, Bool.and_eq_true, decide_eq_true_eq,
      UInt32.le_iff_toNat_le] at h
    exact h
  have hmem := hdigits (c.toNat - 48) (by omega)
  rwa [show 48 + (c.toNat - 48) = c.toNat by omega, Char.ofNat_toNat] at hmem

theorem mem_alphabet_iff {c : Char} :
    c ∈ alphabet ↔ c.isDigit = true ∨ c ∈ operators ∨ c ∈ blanks := by
  constructor
  · intro h
    have hall : alphabet.all (fun c => c.isDigit || c ∈ operators || c ∈ blanks) = true := by
      decide
    simpa [or_assoc] using List.all_eq_true.mp hall c h
  · rintro (h | h | h)
    · exact mem_alphabet_of_isDigit h
    · exact (by decide : operators ⊆ alphabet) h
    · exact (by decide : blanks ⊆ alphabet) h

theorem mem_alphabet_of_mem_operators {c : Char} (h : c ∈ operators) : c ∈ alphabet :=
  mem_alphabet_iff.mpr (Or.inr (Or.inl h))

theorem mem_alphabet_of_mem_blanks {c : Char} (h : c ∈ blanks) : c ∈ alphabet :=
  mem_alphabet_iff.mpr (Or.inr (Or.inr h))

theorem ne_of_not_mem_alphabet {c d : Char} (hc : c ∉ alphabet) (hd : d ∈ alphabet) : c ≠ d :=
  fun h => hc (h ▸ hd)

/-! ### The three classes are apart -/

theorem isDigit_of_mem_operators {c : Char} (h : c ∈ operators) : c.isDigit = false := by
  have hall : operators.all (fun c => !c.isDigit) = true := by decide
  simpa using List.all_eq_true.mp hall c h

theorem isDigit_of_mem_blanks {c : Char} (h : c ∈ blanks) : c.isDigit = false := by
  have hall : blanks.all (fun c => !c.isDigit) = true := by decide
  simpa using List.all_eq_true.mp hall c h

theorem not_mem_blanks_of_mem_operators {c : Char} (h : c ∈ operators) : c ∉ blanks := by
  have hall : operators.all (fun c => c ∉ blanks) = true := by decide
  simpa using List.all_eq_true.mp hall c h

@[simp] theorem isDigit_minus : Char.isDigit '-' = false := by decide

theorem ne_minus_of_isDigit {c : Char} (h : c.isDigit = true) : c ≠ '-' := by
  intro hc
  simp [hc] at h

theorem ne_minus_of_mem_blanks {c : Char} (h : c ∈ blanks) : c ≠ '-' := by
  intro hc
  rw [hc] at h
  exact absurd h (by decide)

theorem not_mem_operators_of_isDigit {c : Char} (h : c.isDigit = true) : c ∉ operators := by
  intro hc
  simp [isDigit_of_mem_operators hc] at h

theorem not_mem_blanks_of_isDigit {c : Char} (h : c.isDigit = true) : c ∉ blanks := by
  intro hc
  simp [isDigit_of_mem_blanks hc] at h

/-! ### One byte for each character -/

theorem utf8Size_of_mem_alphabet {c : Char} (h : c ∈ alphabet) : c.utf8Size = 1 := by
  have hall : alphabet.all (fun c => c.utf8Size = 1) = true := by decide
  simpa using List.all_eq_true.mp hall c h

theorem Text.byteLength_eq_length {cs : List Char} (h : ∀ c ∈ cs, c ∈ alphabet) :
    byteLength cs = cs.length := by
  induction cs with
  | nil => rfl
  | cons c cs ih =>
      have hc := utf8Size_of_mem_alphabet (h c (by simp))
      have hcs := ih fun d hd => h d (by simp [hd])
      calc
        byteLength (c :: cs) = c.utf8Size + byteLength cs := byteLength_cons c cs
        _ = 1 + cs.length := by rw [hc, hcs]
        _ = (c :: cs).length := by rw [List.length_cons, Nat.add_comm]

/-- A string over the alphabet has as many bytes as characters. -/
theorem Text.utf8ByteSize_ofList {cs : List Char} (h : ∀ c ∈ cs, c ∈ alphabet) :
    (String.ofList cs).utf8ByteSize = cs.length := by
  rw [utf8ByteSize_eq_byteLength, String.toList_ofList, byteLength_eq_length h]

namespace Text

/-! ### The characters at both ends

How a text is cut depends on no more than the characters on both sides of the cut. -/

/-- Does the text start with a character that has the property? -/
def headIs (p : Char → Bool) (cs : List Char) : Bool := cs.head?.any p

/-- Does the text end in a character that has the property? -/
def lastIs (p : Char → Bool) (cs : List Char) : Bool := cs.getLast?.any p

@[simp] theorem headIs_nil (p : Char → Bool) : headIs p [] = false := rfl

@[simp] theorem headIs_cons (p : Char → Bool) (c : Char) (cs : List Char) :
    headIs p (c :: cs) = p c := rfl

theorem headIs_append {p : Char → Bool} {as bs : List Char} (h : as ≠ []) :
    headIs p (as ++ bs) = headIs p as := by
  cases as with
  | nil => exact absurd rfl h
  | cons a as => rfl

theorem headIs_eq_true_iff {p : Char → Bool} {cs : List Char} :
    headIs p cs = true ↔ ∃ c rest, cs = c :: rest ∧ p c = true := by
  cases cs with
  | nil => simp
  | cons c cs => simp

theorem exists_eq_cons_of_headIs {a : Char} {cs : List Char} (h : headIs (· = a) cs = true) :
    ∃ rest, cs = a :: rest := by
  obtain ⟨c, rest, rfl, hc⟩ := headIs_eq_true_iff.mp h
  exact ⟨rest, by rw [of_decide_eq_true hc]⟩

@[simp] theorem lastIs_concat (p : Char → Bool) (cs : List Char) (c : Char) :
    lastIs p (cs ++ [c]) = p c := by
  simp [lastIs]

theorem lastIs_append {p : Char → Bool} {as bs : List Char} (h : bs ≠ []) :
    lastIs p (as ++ bs) = lastIs p bs := by
  obtain ⟨bs, b, rfl⟩ := List.eq_nil_or_concat bs |>.resolve_left h
  rw [List.concat_eq_append, ← List.append_assoc, lastIs_concat, lastIs_concat]

theorem lastIs_of_forall {p : Char → Bool} {cs : List Char} (hcs : cs ≠ [])
    (h : ∀ c ∈ cs, p c = true) : lastIs p cs = true := by
  simp [lastIs, List.getLast?_eq_some_getLast hcs, h _ (List.getLast_mem hcs)]

end Text

end ArithmeticTokens
