import ArithmeticTokens.Proofs.Acceptance

/-!
# Blanks only separate

The words of a text are its longest runs without a blank. A token lies inside one word, and no
number runs over the blanks between two, so each word is read on its own (`lex_map_reading`). A
character that is not accepted stands in a word too, and what is in front of it there does not
depend on the blanks. So two texts with the same words are read alike, accepted or not.
-/

namespace ArithmeticTokens

open Text

/-! ### Words -/

/-- The longest runs of characters that are not blanks. -/
def words (cs : List Char) : List (List Char) :=
  (cs.splitOnP (· ∈ blanks)).filter (· ≠ [])

@[simp] theorem words_nil : words [] = [] := by
  simp [words]

theorem words_append_blank {c : Char} (hc : c ∈ blanks) (as bs : List Char) :
    words (as ++ c :: bs) = words as ++ words bs := by
  rw [words, List.splitOnP_append_cons as bs (by simpa using hc), List.filter_append]
  rfl

theorem words_of_solid {w : List Char} (hne : w ≠ []) (hw : ∀ c ∈ w, c ∉ blanks) :
    words w = [w] := by
  rw [words, List.splitOnP_eq_singleton (by simpa using hw)]
  simp [hne]

theorem words_blanks_append {w : List Char} (hw : ∀ c ∈ w, c ∈ blanks) (bs : List Char) :
    words (w ++ bs) = words bs := by
  induction w with
  | nil => rfl
  | cons c w ih =>
      calc
        words (c :: w ++ bs) = words ([] ++ c :: (w ++ bs)) := rfl
        _ = words [] ++ words (w ++ bs) := words_append_blank (hw c (by simp)) [] _
        _ = words bs := by rw [words_nil, List.nil_append, ih fun d hd => hw d (by simp [hd])]

theorem words_append_blanks {w : List Char} (hw : ∀ c ∈ w, c ∈ blanks) (as : List Char) :
    words (as ++ w) = words as := by
  cases w with
  | nil => rw [List.append_nil]
  | cons c w =>
      have hrest : words w = [] := by
        simpa using words_blanks_append (fun d hd => hw d (by simp [hd])) []
      rw [words_append_blank (hw c (by simp)), hrest, List.append_nil]

/-- A run of blanks between two texts separates their words. -/
theorem words_append_blanks_append {w : List Char} (hne : w ≠ []) (hw : ∀ c ∈ w, c ∈ blanks)
    (as bs : List Char) : words (as ++ w ++ bs) = words as ++ words bs := by
  obtain ⟨c, w, rfl⟩ := List.exists_cons_of_ne_nil hne
  rw [List.append_assoc, List.cons_append, words_append_blank (hw c (by simp)),
    words_blanks_append fun d hd => hw d (by simp [hd])]

/-- The words are all of the text but the blanks. -/
theorem flatten_words (cs : List Char) : (words cs).flatten = cs.filter (· ∉ blanks) := by
  rw [words, List.flatten_filter_ne_nil]
  induction cs with
  | nil => rfl
  | cons c cs ih =>
      rw [List.splitOnP_cons_eq_if_modifyHead]
      by_cases hc : c ∈ blanks
      · simp [hc, ih]
      · obtain ⟨w, ws, h⟩ := List.exists_cons_of_ne_nil (List.splitOnP_ne_nil (· ∈ blanks) cs)
        rw [h] at ih ⊢
        simpa [hc] using ih

/-! ### What words are read as -/

/-- What a token says, wherever it stands. -/
def Token.reading (t : Token) : Kind × String := (t.kind, t.value)

theorem map_reading_shift (k : Nat) (ts : List Token) :
    (ts.map (Token.shift k)).map Token.reading = ts.map Token.reading := by
  rw [List.map_map]
  rfl

/-- What a word is read as on its own. -/
def readWord (w : List Char) : List (Kind × String) :=
  match lex (String.ofList w) with
  | .ok ts => ts.map Token.reading
  | .error _ => []

theorem exists_layout_word {w : List Char} (hsolid : ∀ c ∈ w, c ∉ blanks)
    (hw : ∀ c ∈ w, c ∈ alphabet) (n : Nat) :
    ∃ ts, Layout [] n w ts ∧ ts.map Token.reading = (words w).flatMap readWord := by
  by_cases hne : w = []
  · subst hne
    exact ⟨[], .done n, by simp⟩
  · obtain ⟨ts, hts⟩ : ∃ ts, lex (String.ofList w) = .ok ts :=
      exists_lex_eq_ok_iff.mpr (by simpa using hw)
    have hlayout := (lex_eq_ok_iff.mp hts).shift n
    rw [String.toList_ofList, Nat.add_zero] at hlayout
    refine ⟨_, hlayout, ?_⟩
    rw [map_reading_shift, words_of_solid hne hsolid]
    simp [readWord, hts]

/-- A text over the alphabet has a layout in which every word is read on its own. -/
theorem exists_layout_words {cs : List Char} (h : ∀ c ∈ cs, c ∈ alphabet) (n : Nat) :
    ∃ ts, Layout [] n cs ts ∧ ts.map Token.reading = (words cs).flatMap readWord := by
  obtain ⟨w, rest, hcs, -, hsolid, hrest⟩ := Rule.exists_runLength (· ∉ blanks) cs
  have hword := exists_layout_word (by simpa using hsolid) (fun c hc => h c (by simp [hcs, hc])) n
  cases rest with
  | nil => rwa [hcs, List.append_nil]
  | cons c rest =>
      have hc : c ∈ blanks := by simpa using hrest
      obtain ⟨ts, hlayout, hts⟩ := hword
      have hletters : ∀ d ∈ rest, d ∈ alphabet := fun d hd => h d (by simp [hcs, hd])
      obtain ⟨us, htail, hus⟩ := exists_layout_words hletters (n + w.length + 1)
      have hahead : Layout (c :: rest ++ []) n w ts :=
        hlayout.congr_ahead (by simp [seam, isDigit_of_mem_blanks hc])
      refine ⟨ts ++ us, hcs ▸ hahead.append (.blank hc htail), ?_⟩
      rw [hcs, words_append_blank hc, List.map_append, List.flatMap_append, hts, hus]
termination_by cs.length
decreasing_by simp [hcs]; omega

theorem lex_map_reading {source : String} {ts : List Token} (h : lex source = .ok ts) :
    ts.map Token.reading = (words source.toList).flatMap readWord := by
  obtain ⟨us, hlayout, hus⟩ := exists_layout_words (exists_lex_eq_ok_iff.mp ⟨ts, h⟩) 0
  rw [(lex_eq_ok_iff.mp h).unique hlayout, hus]

/-! ### Errors and blanks -/

/-- How many characters in front of byte `position` are not blanks, or `none` when there is no cut
at this byte. -/
def solidBefore (source : String) (position : Nat) : Option Nat :=
  (takeBytes? position source.toList).map fun front => front.countP (· ∉ blanks)

/-- The first character that is not accepted is the same without the blanks. -/
theorem exists_outside_of_error {source : String} {e : Error} (h : lex source = .error e) :
    ∃ front c back, (words source.toList).flatten = front ++ c :: back ∧
      (∀ d ∈ front, d ∈ alphabet) ∧ c ∉ alphabet ∧ e.cause = .unrecognized c ∧
      solidBefore source e.position = some front.length := by
  obtain ⟨front, c, back, hsource, hfront, hc, rfl⟩ := lex_eq_error_iff.mp h
  have hsolid : c ∉ blanks := fun hblank => hc (mem_alphabet_of_mem_blanks hblank)
  refine ⟨front.filter (· ∉ blanks), c, back.filter (· ∉ blanks), ?_, ?_, hc, rfl, ?_⟩
  · rw [flatten_words, hsource, List.filter_append, List.filter_cons_of_pos (by simpa using hsolid)]
  · exact fun d hd => hfront d (List.mem_filter.mp hd).1
  · have htake : takeBytes? (byteLength front) source.toList = some front :=
      takeBytes?_eq_some_iff.mpr ⟨c :: back, hsource, rfl⟩
    rw [solidBefore, htake, Option.map_some, List.countP_eq_length_filter]

theorem exists_lex_eq_ok_iff_words {source : String} :
    (∃ ts, lex source = .ok ts) ↔ ∀ c ∈ (words source.toList).flatten, c ∈ alphabet := by
  rw [exists_lex_eq_ok_iff, flatten_words]
  constructor
  · exact fun h c hc => h c (List.mem_filter.mp hc).1
  · intro h c hc
    by_cases hblank : c ∈ blanks
    · exact mem_alphabet_of_mem_blanks hblank
    · exact h c (List.mem_filter.mpr ⟨hc, by simpa using hblank⟩)

/-! ### Texts with the same words -/

/-- The two texts have the same tokens but for their places, or the same character is not accepted
in them, with as many characters other than blanks in front of it. -/
def ReadAlike (s t : String) : Prop :=
  (∃ ts us, lex s = .ok ts ∧ lex t = .ok us ∧ ts.map Token.reading = us.map Token.reading) ∨
    ∃ c p q k, lex s = .error ⟨.unrecognized c, p⟩ ∧ lex t = .error ⟨.unrecognized c, q⟩ ∧
      solidBefore s p = some k ∧ solidBefore t q = some k

theorem readAlike_of_words {s t : String} (h : words s.toList = words t.toList) :
    ReadAlike s t := by
  have haccept : (∃ ts, lex s = .ok ts) ↔ ∃ us, lex t = .ok us := by
    rw [exists_lex_eq_ok_iff_words, exists_lex_eq_ok_iff_words, h]
  cases hs : lex s with
  | ok ts =>
      obtain ⟨us, hus⟩ := haccept.mp ⟨ts, hs⟩
      exact Or.inl ⟨ts, us, hs, hus, by rw [lex_map_reading hs, lex_map_reading hus, h]⟩
  | error e =>
      cases ht : lex t with
      | ok us =>
          obtain ⟨ts, hts⟩ := haccept.mpr ⟨us, ht⟩
          cases hs.symm.trans hts
      | error f =>
          obtain ⟨front, c, back, hwords, hfront, hc, hcause, hbefore⟩ := exists_outside_of_error hs
          obtain ⟨front', c', back', hwords', hfront', hc', hcause', hbefore'⟩ :=
            exists_outside_of_error ht
          rw [h, hwords'] at hwords
          obtain ⟨rfl, rfl⟩ := first_outside_unique hwords hfront' hc' hfront hc
          obtain ⟨cause, p⟩ := e
          obtain ⟨cause', q⟩ := f
          obtain rfl : cause = _ := hcause
          obtain rfl : cause' = _ := hcause'
          exact Or.inr ⟨c', p, q, front'.length, hs, ht, hbefore, hbefore'⟩

/-- Texts with the same words are read alike. So it makes no difference how long a run of blanks is
or of which blanks it consists, nor whether there is one at the start or the end. -/
theorem lex_of_words :
    (∀ s t : String, words s.toList = words t.toList → ReadAlike s t) ∧
      ∀ a b w w' : String, (∀ c ∈ w.toList, c ∈ blanks) → (∀ c ∈ w'.toList, c ∈ blanks) →
        (w ≠ "" ∧ w' ≠ "" ∨ a = "" ∨ b = "") → ReadAlike (a ++ w ++ b) (a ++ w' ++ b) := by
  refine ⟨fun s t => readAlike_of_words, ?_⟩
  intro a b w w' hw hw' hplace
  apply readAlike_of_words
  simp only [String.toList_append]
  rcases hplace with ⟨hne, hne'⟩ | rfl | rfl
  · rw [words_append_blanks_append (by simpa using hne) hw,
      words_append_blanks_append (by simpa using hne') hw']
  · simp [words_blanks_append hw, words_blanks_append hw']
  · simp [words_append_blanks hw, words_append_blanks hw']

theorem lex_of_words_line_break :
    (words "3 -4".toList = words "\t3\r\n-4".toList ∧ ReadAlike "3 -4" "\t3\r\n-4") ∧
      (∀ c ∈ " ".toList, c ∈ blanks) ∧ (∀ c ∈ "\r\n".toList, c ∈ blanks) ∧
      ReadAlike ("1" ++ " " ++ "×") ("1" ++ "\r\n" ++ "×") := by
  have hwords : words "3 -4".toList = words "\t3\r\n-4".toList := by decide
  have hspace : ∀ c ∈ " ".toList, c ∈ blanks := by simp [blanks]
  have hbreak : ∀ c ∈ "\r\n".toList, c ∈ blanks := by simp [blanks]
  exact ⟨⟨hwords, lex_of_words.1 _ _ hwords⟩, hspace, hbreak,
    lex_of_words.2 "1" "×" " " "\r\n" hspace hbreak (Or.inl ⟨by decide, by decide⟩)⟩

end ArithmeticTokens
