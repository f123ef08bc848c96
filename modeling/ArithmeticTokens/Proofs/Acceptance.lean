import ArithmeticTokens.Proofs.Layout

/-!
# Which texts are accepted

A text is accepted exactly when it has a layout, which is when all its characters are in the
alphabet: no arrangement of digits, operators and blanks is refused. Any other text is refused at
its first character outside the alphabet, and for no other reason.
-/

namespace ArithmeticTokens

open Text

/-- The scan of a text stops at its end with all its tokens, or in front of the first character
outside the alphabet. -/
theorem lex_cases (source : String) :
    (∃ ts, lex source = .ok ts ∧ Layout [] 0 source.toList ts) ∨
      ∃ front c back, source.toList = front ++ c :: back ∧ (∀ d ∈ front, d ∈ alphabet) ∧
        c ∉ alphabet ∧ lex source = .error ⟨.unrecognized c, byteLength front⟩ := by
  obtain ⟨front, hsource, hoffset, hscanned, hrest⟩ := Scan.exists_ofSource source
  cases h : (Scan.ofSource source).rest with
  | nil =>
      rw [h] at hsource hscanned
      left
      refine ⟨(Scan.ofSource source).tokens, by simp [lex, Scan.result, h], ?_⟩
      rw [hsource, List.append_nil]
      exact hscanned.layout
  | cons c back =>
      rw [h] at hsource hrest
      right
      refine ⟨front, c, back, hsource, hscanned.mem_alphabet, by simpa using hrest, ?_⟩
      rw [byteLength_eq_length hscanned.mem_alphabet, ← hoffset]
      simp [lex, Scan.result, h]

/-- The tokens of a text are those of its layout. -/
theorem lex_eq_ok_iff {source : String} {ts : List Token} :
    lex source = .ok ts ↔ Layout [] 0 source.toList ts := by
  constructor
  · intro h
    rcases lex_cases source with ⟨us, hus, hlayout⟩ | ⟨_, _, _, _, _, _, herror⟩
    · cases h.symm.trans hus
      exact hlayout
    · cases h.symm.trans herror
  · intro h
    rcases lex_cases source with ⟨us, hus, hlayout⟩ | ⟨front, c, back, hsource, _, hc, _⟩
    · rw [hus, h.unique hlayout]
    · exact absurd (h.mem_alphabet c (by simp [hsource])) hc

/-- What a scan has behind it is read alone as it was read in view of the text ahead. -/
theorem Scan.Sound.collected {source : String} {s : Scan} (h : Sound source s) :
    ∃ front, takeBytes? s.offset source.toList = some front ∧
      lex (String.ofList front) = .ok s.tokens := by
  obtain ⟨front, hsource, hoffset, hscanned⟩ := h
  refine ⟨front, ?_, ?_⟩
  · rw [hoffset]
    exact takeBytes?_eq_some_iff.mpr
      ⟨s.rest, hsource, byteLength_eq_length hscanned.mem_alphabet⟩
  · rw [lex_eq_ok_iff, String.toList_ofList]
    exact hscanned.layout.congr_ahead (seam_nil_right front)

/-- There is one first character outside the alphabet. -/
theorem first_outside_unique {front back front' back' : List Char} {c c' : Char}
    (heq : front ++ c :: back = front' ++ c' :: back') (hfront : ∀ d ∈ front, d ∈ alphabet)
    (hc : c ∉ alphabet) (hfront' : ∀ d ∈ front', d ∈ alphabet) (hc' : c' ∉ alphabet) :
    front = front' ∧ c = c' := by
  -- Both front parts are the longest run of characters of the alphabet.
  have hrun {as : List Char} {d : Char} (bs : List Char) (has : ∀ c ∈ as, c ∈ alphabet)
      (hd : d ∉ alphabet) : Rule.runLength (· ∈ alphabet) (as ++ d :: bs) = as.length :=
    Rule.runLength_append (by simpa using has) (by simpa using hd)
  have hlength : front.length = front'.length := by
    calc
      front.length = Rule.runLength (· ∈ alphabet) (front ++ c :: back) :=
        (hrun back hfront hc).symm
      _ = Rule.runLength (· ∈ alphabet) (front' ++ c' :: back') := by rw [heq]
      _ = front'.length := hrun back' hfront' hc'
  obtain ⟨hfronts, htail⟩ := List.append_inj heq hlength
  exact ⟨hfronts, (List.cons.inj htail).1⟩

/-- A text is refused at its first character outside the alphabet. -/
theorem lex_eq_error_iff {source : String} {e : Error} :
    lex source = .error e ↔
      ∃ front c back, source.toList = front ++ c :: back ∧ (∀ d ∈ front, d ∈ alphabet) ∧
        c ∉ alphabet ∧ e = ⟨.unrecognized c, byteLength front⟩ := by
  constructor
  · intro h
    rcases lex_cases source with ⟨ts, hts, _⟩ | ⟨front, c, back, hsource, hfront, hc, herror⟩
    · cases h.symm.trans hts
    · cases h.symm.trans herror
      exact ⟨front, c, back, hsource, hfront, hc, rfl⟩
  · rintro ⟨front, c, back, hsource, hfront, hc, rfl⟩
    rcases lex_cases source with
      ⟨ts, _, hlayout⟩ | ⟨front', c', back', hsource', hfront', hc', herror⟩
    · exact absurd (hlayout.mem_alphabet c (by simp [hsource])) hc
    · obtain ⟨rfl, rfl⟩ :=
        first_outside_unique (hsource'.symm.trans hsource) hfront' hc' hfront hc
      exact herror

theorem exists_lex_eq_ok_iff {source : String} :
    (∃ ts, lex source = .ok ts) ↔ ∀ c ∈ source.toList, c ∈ alphabet := by
  constructor
  · rintro ⟨ts, hts⟩
    exact (lex_eq_ok_iff.mp hts).mem_alphabet
  · intro h
    rcases lex_cases source with ⟨ts, hts, _⟩ | ⟨front, c, back, hsource, _, hc, _⟩
    · exact ⟨ts, hts⟩
    · exact absurd (h c (by simp [hsource])) hc

/-- An accepted text has as many bytes as characters. -/
theorem utf8ByteSize_eq_length {source : String} {ts : List Token} (h : lex source = .ok ts) :
    source.utf8ByteSize = source.toList.length := by
  calc
    source.utf8ByteSize = byteLength source.toList := utf8ByteSize_eq_byteLength source
    _ = source.toList.length := byteLength_eq_length (exists_lex_eq_ok_iff.mp ⟨ts, h⟩)

/-- A text is accepted when all its characters are in the alphabet. Otherwise the error shows the
first character that is not, as a whole, and the number of bytes in front of it. -/
theorem lex_accepts_or_refuses_first (source : String) :
    ((∃ ts, lex source = .ok ts) ↔ ∀ c ∈ source.toList, c ∈ alphabet) ∧
      ∀ e, lex source = .error e ↔
        ∃ front c back, source.toList = front ++ c :: back ∧ (∀ d ∈ front, d ∈ alphabet) ∧
          c ∉ alphabet ∧ e = ⟨.unrecognized c, byteLength front⟩ :=
  ⟨exists_lex_eq_ok_iff, fun _ => lex_eq_error_iff⟩

example : lex "12 ×-3" = .error ⟨.unrecognized '×', 3⟩ := by decide +kernel

end ArithmeticTokens
