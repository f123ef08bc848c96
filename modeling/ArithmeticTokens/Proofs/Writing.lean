import ArithmeticTokens.Proofs.Concatenation
import Mathlib.Data.List.Chain

/-!
# Written texts

A text can be written word by word: some blanks, then the value of each token with some blanks
behind it. Reading such a text never fails, but it need not give the words back. Where no blanks
stand between two words and the second goes on the number or the minus sign in front of it, the
two are read as one, and each such place costs one token. Without such a place every word is read
as it was written.
-/

namespace ArithmeticTokens

open Text

/-- The value of a token, and the blanks that are written behind it. -/
structure Word where
  kind : Kind
  value : List Char
  gap : List Char
  spells : kind.rule.Spells value
  gap_blank : ∀ c ∈ gap, c ∈ blanks

namespace Word

def text (w : Word) : List Char := w.value ++ w.gap

/-- The words in a row. -/
def texts (words : List Word) : List Char := words.flatMap text

/-- The tokens that the words stand for where the first of them starts at byte `n`. -/
def tokens : Nat → List Word → List Token
  | _, [] => []
  | n, w :: words =>
      ⟨w.kind, String.ofList w.value, ⟨n, n + byteLength w.value⟩⟩ ::
        tokens (n + byteLength w.text) words

theorem length_tokens (n : Nat) (words : List Word) : (tokens n words).length = words.length := by
  induction words generalizing n with
  | nil => rfl
  | cons w words ih => rw [tokens, List.length_cons, ih, List.length_cons]

/-- Nothing stands between the two words, and the second goes on a number or a minus sign. -/
def Fuses (w w' : Word) : Prop :=
  w.gap = [] ∧ headIs Char.isDigit w'.value = true ∧ (w.kind = .number ∨ w.value = ['-'])

instance (w w' : Word) : Decidable (w.Fuses w') := inferInstanceAs (Decidable (_ ∧ _ ∧ _))

/-- The number of places where a word goes on the word in front of it. -/
def fusions : List Word → Nat
  | w :: w' :: words => (if w.Fuses w' then 1 else 0) + fusions (w' :: words)
  | _ => 0

theorem fusions_eq_zero_iff {words : List Word} :
    fusions words = 0 ↔ words.IsChain fun w w' => ¬ w.Fuses w' := by
  induction words with
  | nil => simp [fusions]
  | cons w words ih =>
      cases words with
      | nil => simp [fusions]
      | cons w' words => simp [fusions, ih]

/-! ### Where a word goes on -/

theorem text_ne_nil (w : Word) : w.text ≠ [] :=
  List.append_ne_nil_of_left_ne_nil w.spells.ne_nil _

theorem text_mem_alphabet (w : Word) : ∀ c ∈ w.text, c ∈ alphabet := by
  intro c hc
  rcases List.mem_append.mp hc with hc | hc
  · exact w.spells.mem_alphabet c hc
  · exact mem_alphabet_of_mem_blanks (w.gap_blank c hc)

theorem lastIs_value_iff (w : Word) :
    lastIs (fun c => c.isDigit || c = '-') w.value = true ↔ w.kind = .number ∨ w.value = ['-'] := by
  obtain ⟨kind, value, gap, spells, -⟩ := w
  cases kind with
  | number => simpa using spells.lastIs_number
  | operator =>
      cases spells with
      | operator hc => simp [lastIs, isDigit_of_mem_operators hc]

theorem seam_text_iff (w w' : Word) (words : List Word) :
    seam w.text (texts (w' :: words)) = true ↔ w.Fuses w' := by
  rw [texts, List.flatMap_cons, seam_append_right w'.text_ne_nil, Fuses]
  rw [text.eq_def w', seam_append_right w'.spells.ne_nil, text]
  rcases List.eq_nil_or_concat w.gap with hgap | ⟨init, c, hgap⟩
  · rw [hgap, List.append_nil, seam, Bool.and_eq_true, lastIs_value_iff]
    simp [and_comm]
  · have hc : c ∈ blanks := w.gap_blank c (by simp [hgap])
    rw [hgap, List.concat_eq_append, ← List.append_assoc, seam_blank hc]
    simp

theorem fusions_cons (w : Word) (words : List Word) :
    fusions (w :: words) = (if seam w.text (texts words) then 1 else 0) + fusions words := by
  cases words with
  | nil => simp [fusions, texts]
  | cons w' words => simp only [fusions, seam_text_iff]

/-! ### What is read -/

theorem layout_text (w : Word) (n : Nat) :
    Layout [] n w.text [Token.ofChars w.kind n w.value] := by
  have hgap : headIs Char.isDigit w.gap = false := by
    cases h : w.gap with
    | nil => rfl
    | cons c gap => exact isDigit_of_mem_blanks (w.gap_blank c (by simp [h]))
  have hblanks : Layout [] (n + w.value.length) w.gap [] := by
    have hend : Layout [] (n + w.value.length) (w.gap ++ []) [] :=
      Layout.blanks_append w.gap_blank (.done _)
    simpa using hend
  exact .token w.spells (by simp [seam, hgap]) hblanks

/-- Each word becomes a token, less one at every place where two of them fuse. -/
theorem exists_layout (n : Nat) (words : List Word) :
    ∃ ts, Layout [] n (texts words) ts ∧ ts.length + fusions words = words.length ∧
      (fusions words = 0 → ts = tokens n words) := by
  induction words generalizing n with
  | nil => exact ⟨[], .done n, rfl, fun _ => rfl⟩
  | cons w words ih =>
      obtain ⟨ts, hlayout, hlength, htokens⟩ := ih (n + w.text.length)
      have hw := w.layout_text n
      rw [fusions_cons]
      cases hs : seam w.text (texts words) with
      | true =>
          obtain ⟨init, last, first, rest, hinit, rfl, hjoined⟩ := hw.exists_join hlayout hs
          -- The word alone has one token, so this is the one that is joined.
          have hnil : init.length = 0 := by
            have hone := congrArg List.length hinit
            simp only [List.length_append, List.length_singleton] at hone
            omega
          refine ⟨_, hjoined, ?_, by simp⟩
          simp only [List.length_append, List.length_cons, hnil, if_true] at hlength ⊢
          omega
      | false =>
          have hahead : Layout (texts words ++ []) n w.text [Token.ofChars w.kind n w.value] :=
            hw.congr_ahead (by simpa using hs)
          refine ⟨_, hahead.append hlayout, ?_, ?_⟩
          · simp only [List.length_append, List.length_cons, List.length_nil,
              Bool.false_eq_true, if_false]
            omega
          · intro hnone
            have hrest : ts = tokens (n + w.text.length) words := htokens (by simpa using hnone)
            rw [tokens, byteLength_eq_length w.spells.mem_alphabet,
              byteLength_eq_length w.text_mem_alphabet, hrest]
            rfl

/-- Some blanks and then the words. -/
def written (lead : List Char) (words : List Word) : String := String.ofList (lead ++ texts words)

end Word

/-- A written text is always read. It has one token for each word, less the places where two words
fuse, and its tokens are the words as they were written exactly where no two neighbours fuse. -/
theorem lex_written {lead : List Char} (hlead : ∀ c ∈ lead, c ∈ blanks) (words : List Word) :
    ∃ ts, lex (Word.written lead words) = .ok ts ∧
      ts.length + Word.fusions words = words.length ∧
      (ts = Word.tokens (byteLength lead) words ↔ words.IsChain fun w w' => ¬ w.Fuses w') := by
  obtain ⟨ts, hlayout, hlength, htokens⟩ := Word.exists_layout lead.length words
  have hsize : byteLength lead = lead.length :=
    byteLength_eq_length fun c hc => mem_alphabet_of_mem_blanks (hlead c hc)
  refine ⟨ts, ?_, hlength, ?_⟩
  · rw [lex_eq_ok_iff, Word.written, String.toList_ofList]
    exact Layout.blanks_append hlead (by rwa [Nat.zero_add])
  · rw [← Word.fusions_eq_zero_iff, hsize]
    constructor
    · intro h
      rw [h, Word.length_tokens] at hlength
      omega
    · exact htokens

/-- Of three words two are left where the minus sign stands right in front of the digit. -/
theorem lex_written_sign :
    ∃ words : List Word, words.map Word.value = [['5'], ['-'], ['2']] ∧
      Word.written [' '] words = " 5 -2" ∧ (∀ c ∈ [' '], c ∈ blanks) ∧
      ∃ ts, lex " 5 -2" = .ok ts ∧ ts.length + 1 = 3 ∧ ts ≠ Word.tokens 1 words := by
  have hlead : ∀ c ∈ [' '], c ∈ blanks := by simp [blanks]
  let words : List Word :=
    [⟨.number, ['5'], [' '], .digits (by simp) (by simp), hlead⟩,
      ⟨.operator, ['-'], [], .operator (by decide), by simp⟩,
      ⟨.number, ['2'], [], .digits (by simp) (by simp), by simp⟩]
  obtain ⟨ts, hlex, hlength, htokens⟩ := lex_written hlead words
  refine ⟨words, rfl, rfl, hlead, ts, hlex, hlength, fun h => ?_⟩
  have hone : Word.fusions words = 1 := rfl
  rw [Word.fusions_eq_zero_iff.mpr (htokens.mp h)] at hone
  cases hone

end ArithmeticTokens
