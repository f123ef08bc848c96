import ArithmeticTokens.Proofs.Acceptance
import ArithmeticTokens.Proofs.Excerpts

/-!
# Where there is no report

There is no report for a place inside a character, and none for a place so far to the right that the
caret does not fit. The place of an error in a text is never inside a character or past the end, so
that only a long line leaves such an error without a report: the indent of the line does not count,
and neither does what follows the character that was not accepted.
-/

namespace ArithmeticTokens

open Text

/-- Where a text can be cut, the width of the caret decides. -/
theorem exists_report_eq_error_iff_of_append {e : Error} {source : String} {front back : List Char}
    (hsource : source.toList = front ++ back) (hposition : byteLength front = e.position) :
    (∃ fault, e.report source = .error fault) ↔
      caretFieldLimit < (Excerpt.around front back).dashes + 1 := by
  rw [Error.report_of_append hsource hposition]
  split <;> rename_i hwidth
  · refine iff_of_false ?_ (Nat.not_lt_of_le hwidth)
    rintro ⟨fault, hfault⟩
    cases hfault
  · exact iff_of_true ⟨_, rfl⟩ (Nat.lt_of_not_le hwidth)

theorem exists_report_eq_error_iff {e : Error} {source : String} :
    (∃ fault, e.report source = .error fault) ↔
      e.position ≤ source.utf8ByteSize ∧
        (InsideCharacter source.toList e.position ∨
          ∃ front back, source.toList = front ++ back ∧ byteLength front = e.position ∧
            caretFieldLimit < (Excerpt.around front back).dashes + 1) := by
  constructor
  · intro h
    rcases place_cases source e.position with hlt | hinside | ⟨front, back, hsource, hposition⟩
    · obtain ⟨fault, hfault⟩ := h
      cases hfault.symm.trans (Error.report_of_lt hlt)
    · have hlt := hinside.lt
      rw [← utf8ByteSize_eq_byteLength] at hlt
      exact ⟨Nat.le_of_lt hlt, Or.inl hinside⟩
    · rw [exists_report_eq_error_iff_of_append hsource hposition] at h
      exact ⟨hposition ▸ byteLength_le_size hsource, Or.inr ⟨front, back, hsource, hposition, h⟩⟩
  · rintro ⟨-, hinside | ⟨front, back, hsource, hposition, hwidth⟩⟩
    · obtain ⟨offset, hfault⟩ := Error.report_of_inside hinside
      exact ⟨_, hfault⟩
    · exact (exists_report_eq_error_iff_of_append hsource hposition).mpr hwidth

/-- A character that is not accepted is neither a space nor a tab. -/
theorem not_inIndent_of_not_mem_alphabet {c : Char} (hc : c ∉ alphabet) (front : List Char) :
    ¬ InIndent front c := by
  intro h
  have hindent := h c (by simp)
  simp only [isIndent, Bool.or_eq_true, decide_eq_true_eq] at hindent
  rcases hindent with rfl | rfl
  · exact hc (by decide)
  · exact hc (by decide)

/-- There is no report exactly for a place in the text that is inside a character or has its caret
in a field that is wider than 65535. For the place of an error that the text itself has only the
latter is possible, when there are more than 65534 characters between the indent of the line and the
character that was not accepted. -/
theorem report_faults_iff (e : Error) (source : String) :
    ((∃ fault, e.report source = .error fault) ↔
      e.position ≤ source.utf8ByteSize ∧
        (InsideCharacter source.toList e.position ∨
          ∃ front back, source.toList = front ++ back ∧ byteLength front = e.position ∧
            65535 < (behindNewlines front).length - indentLength (lineAround front back) + 1)) ∧
      (lex source = .error e →
        ¬ InsideCharacter source.toList e.position ∧ Line.locate source e.position ≠ none ∧
          ∃ front c back, source.toList = front ++ c :: back ∧
            e = ⟨.unrecognized c, byteLength front⟩ ∧
            ((∃ fault, e.report source = .error fault) ↔
              65534 < ((behindNewlines front).dropWhile isIndent).length)) := by
  refine ⟨exists_report_eq_error_iff, fun hlex => ?_⟩
  obtain ⟨front, c, back, hsource, -, hc, rfl⟩ := lex_eq_error_iff.mp hlex
  refine ⟨hsource ▸ not_insideCharacter_append front (c :: back), ?_, front, c, back, hsource, rfl,
    ?_⟩
  · rw [Line.locate, if_neg (Nat.not_lt_of_le (byteLength_le_size hsource))]
    exact Option.some_ne_none _
  · rw [exists_report_eq_error_iff_of_append hsource rfl,
      Excerpt.dashes_around back (not_inIndent_of_not_mem_alphabet hc front)]
    exact Nat.succ_lt_succ_iff

section LongLine

variable (n : Nat)

theorem mem_alphabet_of_mem_replicate_digit : ∀ d ∈ List.replicate n '1', d ∈ alphabet := by
  intro d hd
  rw [(List.mem_replicate.mp hd).2]
  decide

theorem byteLength_replicate_digit : byteLength (List.replicate n '1') = n := by
  rw [byteLength_eq_length (mem_alphabet_of_mem_replicate_digit n), List.length_replicate]

theorem lex_replicate_digit :
    lex (String.ofList (List.replicate n '1' ++ ['x'])) = .error ⟨.unrecognized 'x', n⟩ :=
  lex_eq_error_iff.mpr ⟨_, 'x', [], String.toList_ofList, mem_alphabet_of_mem_replicate_digit n,
    by decide, by rw [byteLength_replicate_digit]⟩

/-- The caret of a character behind some digits stands as far to the right as there are digits. -/
theorem dashes_replicate_digit : (Excerpt.around (List.replicate n '1') ['x']).dashes = n := by
  have hline : '\n' ∉ List.replicate n '1' := fun h =>
    absurd (List.mem_replicate.mp h).2 (by decide)
  rw [Excerpt.dashes_around [] (not_inIndent_of_not_mem_alphabet (by decide) _),
    behindNewlines_of_not_mem hline, List.dropWhile_replicate, if_neg (by decide),
    List.length_replicate]

theorem exists_report_replicate_digit_iff :
    (∃ fault, Error.report ⟨.unrecognized 'x', n⟩
        (String.ofList (List.replicate n '1' ++ ['x'])) = .error fault) ↔
      caretFieldLimit < n + 1 := by
  rw [exists_report_eq_error_iff_of_append String.toList_ofList (byteLength_replicate_digit n),
    dashes_replicate_digit]

end LongLine

/-- A character behind 65535 digits has no report. -/
theorem report_faults_long_line :
    lex (String.ofList (List.replicate 65535 '1' ++ ['x'])) = .error ⟨.unrecognized 'x', 65535⟩ ∧
      (∃ fault, Error.report ⟨.unrecognized 'x', 65535⟩
        (String.ofList (List.replicate 65535 '1' ++ ['x'])) = .error fault) ∧
      ∃ front c back,
        (String.ofList (List.replicate 65535 '1' ++ ['x'])).toList = front ++ c :: back ∧
        (⟨.unrecognized 'x', 65535⟩ : Error) = ⟨.unrecognized c, byteLength front⟩ ∧
        ((∃ fault, Error.report ⟨.unrecognized 'x', 65535⟩
            (String.ofList (List.replicate 65535 '1' ++ ['x'])) = .error fault) ↔
          65534 < ((behindNewlines front).dropWhile isIndent).length) := by
  have hlex := lex_replicate_digit 65535
  exact ⟨hlex, (exists_report_replicate_digit_iff 65535).mpr (by decide),
    ((report_faults_iff _ _).2 hlex).2.2⟩

end ArithmeticTokens
