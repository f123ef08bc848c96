import ArithmeticTokens.Report
import Mathlib.Tactic.SplitIfs

/-!
# Messages are printable

Whatever stands in escaped text can be shown: what is not printable itself is written with a
backslash, letters, digits and braces. In particular no escaped text has a newline in it, so that a
heading is one line whatever character it is about.
-/

namespace ArithmeticTokens

namespace Text

/-- From the space to the tilde every character is printable. -/
theorem isUnprintable_of_ascii {c : Char} (hlo : 0x20 ≤ c.toNat) (hhi : c.toNat < 0x7F) :
    isUnprintable c = false := by
  have hall : unprintableRanges.all (fun r => r.2 < 0x20 || 0x7F ≤ r.1) = true := by
    decide +kernel
  rw [isUnprintable, inRanges, List.any_eq_false]
  intro r hr
  have hapart := List.all_eq_true.mp hall r hr
  simp only [Bool.or_eq_true, decide_eq_true_eq] at hapart
  simp only [Bool.and_eq_true, decide_eq_true_eq]
  omega

/-- Plain text is printable. -/
theorem isUnprintable_of_mem_ascii {cs : List Char}
    (hall : cs.all (fun c => 0x20 ≤ c.toNat ∧ c.toNat < 0x7F) = true) {c : Char} (h : c ∈ cs) :
    isUnprintable c = false := by
  have hascii := of_decide_eq_true (List.all_eq_true.mp hall c h)
  exact isUnprintable_of_ascii hascii.1 hascii.2

theorem exists_digitChar_of_mem_toDigits {base n : Nat} (hbase : 1 < base) {d : Char}
    (h : d ∈ Nat.toDigits base n) : ∃ k < base, d = Nat.digitChar k := by
  induction n using Nat.strongRecOn with
  | ind n ih =>
      rw [Nat.toDigits_eq_if hbase] at h
      split at h
      · exact ⟨n, by assumption, by simpa using h⟩
      · rcases List.mem_append.mp h with h | h
        · exact ih (n / base) (Nat.div_lt_self (by omega) hbase) h
        · exact ⟨n % base, Nat.mod_lt n (by omega), by simpa using h⟩

/-- What is no digit of the base does not stand in a number. -/
theorem not_mem_toDigits_of_ne {base : Nat} (hbase : 1 < base) {c : Char}
    (h : ∀ k < base, c ≠ Nat.digitChar k) (n : Nat) : c ∉ Nat.toDigits base n := by
  intro hmem
  obtain ⟨k, hk, hdigit⟩ := exists_digitChar_of_mem_toDigits hbase hmem
  exact h k hk hdigit

/-- Hexadecimal digits are printable. -/
theorem isUnprintable_digitChar {k : Nat} (h : k < 16) : isUnprintable (Nat.digitChar k) = false := by
  have hall : ∀ k < 16, 0x20 ≤ (Nat.digitChar k).toNat ∧ (Nat.digitChar k).toNat < 0x7F := by decide
  exact isUnprintable_of_ascii (hall k h).1 (hall k h).2

theorem isUnprintable_of_mem_escapeCodePoint {c d : Char} (h : d ∈ escapeCodePoint c) :
    isUnprintable d = false := by
  simp only [escapeCodePoint, List.mem_append, List.mem_cons, List.not_mem_nil, or_false] at h
  rcases h with ((rfl | rfl | rfl) | h) | rfl
  · exact isUnprintable_of_ascii (by decide) (by decide)
  · exact isUnprintable_of_ascii (by decide) (by decide)
  · exact isUnprintable_of_ascii (by decide) (by decide)
  · obtain ⟨k, hk, rfl⟩ := exists_digitChar_of_mem_toDigits (by decide) h
    exact isUnprintable_digitChar hk
  · exact isUnprintable_of_ascii (by decide) (by decide)

/-- The characters that stand behind the backslash in an escape of two characters. -/
def escapeLetters : List Char := ['0', 't', 'n', 'r', '\\', singleQuote, doubleQuote]

theorem isUnprintable_of_mem_escapeLetters {c : Char} (h : c ∈ escapeLetters) :
    isUnprintable c = false :=
  isUnprintable_of_mem_ascii (by decide) h

/-- The character that such an escape stands for. -/
def unescapeLetter (d : Char) : Char :=
  if d = '0' then '\x00' else if d = 't' then '\t' else if d = 'n' then '\n'
  else if d = 'r' then '\r' else d

/-- A character stands for itself, or has an escape of two characters, or is written by its code
point. -/
theorem escapeChar_cases (quotes : Quotes) (c : Char) :
    escapeChar quotes c = [c] ∧ isUnprintable c = false ∧ c ≠ '\\' ∨
      (∃ d ∈ escapeLetters, escapeChar quotes c = ['\\', d] ∧ unescapeLetter d = c) ∨
      escapeChar quotes c = escapeCodePoint c := by
  have hsingle : isUnprintable singleQuote = false :=
    isUnprintable_of_mem_escapeLetters (by decide)
  have hdouble : isUnprintable doubleQuote = false :=
    isUnprintable_of_mem_escapeLetters (by decide)
  generalize hout : escapeChar quotes c = out
  simp only [escapeChar] at hout
  split_ifs at hout with h0 ht hn hr hb hs hqs hd hqd hu
  · exact Or.inr (Or.inl ⟨'0', by decide, hout.symm, h0.symm⟩)
  · exact Or.inr (Or.inl ⟨'t', by decide, hout.symm, ht.symm⟩)
  · exact Or.inr (Or.inl ⟨'n', by decide, hout.symm, hn.symm⟩)
  · exact Or.inr (Or.inl ⟨'r', by decide, hout.symm, hr.symm⟩)
  · exact Or.inr (Or.inl ⟨'\\', by decide, hout.symm, hb.symm⟩)
  · exact Or.inr (Or.inl ⟨c, by rw [hs]; decide, hout.symm, by rw [hs]; decide⟩)
  · exact Or.inl ⟨hout.symm, hs ▸ hsingle, hb⟩
  · exact Or.inr (Or.inl ⟨c, by rw [hd]; decide, hout.symm, by rw [hd]; decide⟩)
  · exact Or.inl ⟨hout.symm, hd ▸ hdouble, hb⟩
  · exact Or.inr (Or.inr hout.symm)
  · exact Or.inl ⟨hout.symm, by simpa using hu, hb⟩

/-- Escaped text is printable. -/
theorem isUnprintable_of_mem_escapeChar {quotes : Quotes} {c d : Char}
    (h : d ∈ escapeChar quotes c) : isUnprintable d = false := by
  rcases escapeChar_cases quotes c with ⟨hself, hc, -⟩ | ⟨letter, hletter, hpair, -⟩ | hcode
  · rw [hself, List.mem_singleton] at h
    rwa [h]
  · rw [hpair] at h
    rcases List.mem_cons.mp h with rfl | h
    · exact isUnprintable_of_mem_escapeLetters (by decide)
    · exact List.mem_singleton.mp h ▸ isUnprintable_of_mem_escapeLetters hletter
  · rw [hcode] at h
    exact isUnprintable_of_mem_escapeCodePoint h

theorem newline_not_mem_escapeChar (quotes : Quotes) (c : Char) : '\n' ∉ escapeChar quotes c := by
  intro h
  have hprintable := isUnprintable_of_mem_escapeChar h
  rw [isUnprintable_of_lt_space (by decide)] at hprintable
  cases hprintable

end Text

end ArithmeticTokens
