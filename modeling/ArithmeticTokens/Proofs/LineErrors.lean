import ArithmeticTokens.Proofs.Acceptance
import ArithmeticTokens.Proofs.Lines

/-!
# Errors in their lines

The scan of a text and the search for a line look at the text in different ways. They agree about an
error: the line that is found for its place holds the character that was not accepted, all that is
in front of it there is accepted, and the line alone is refused for the same character at the same
offset (`RefusedAt`). The number of the line is known from the scan as well, which has gone past as
many newlines as there are lines in front. All of them are among the blanks that it left out
(`Scanned.skipped_eq`).
-/

namespace ArithmeticTokens

open Text

/-! ### What a scan leaves out -/

namespace Scan

/-- The blanks that the scan has gone past. -/
def skipped (s : Scan) : List Char :=
  (s.lexemes.toList.filter (·.rule = .blank)).flatMap fun l => l.text.toList

end Scan

/-- Only the rule for blanks accepts any, and it accepts nothing else. -/
theorem Rule.filter_blanks_of_spells {rule : Rule} {v : List Char} (h : rule.Spells v) :
    v.filter (· ∈ blanks) = if rule = .blank then v else [] := by
  cases h with
  | digits _ hv =>
      simpa using fun c hc => not_mem_blanks_of_isDigit (hv c hc)
  | signed _ hv =>
      have hminus : '-' ∉ blanks := by decide
      simpa [hminus] using fun c hc => not_mem_blanks_of_isDigit (hv c hc)
  | operator hc => simpa using not_mem_blanks_of_mem_operators hc
  | blanks _ hv => simpa using hv

/-- No blank of the text behind a scan belongs to a token. -/
theorem Scanned.skipped_eq {ahead cs : List Char} {n : Nat} {ls : List Lexeme}
    (h : Scanned ahead n cs ls) :
    ((ls.filter (·.rule = .blank)).flatMap fun l => l.text.toList) = cs.filter (· ∈ blanks) := by
  induction h with
  | done n => simp
  | @take n rule v cs ls head tail ih =>
      rw [List.filter_append, Rule.filter_blanks_of_spells head.spells, ← ih]
      by_cases hrule : rule = .blank
      · simp [hrule]
      · simp [hrule]

/-- In front of an error the scan has cut the text into its lexemes. -/
theorem exists_scanned_of_error {source : String} {e : Error} (h : lex source = .error e) :
    ∃ front c back, source.toList = front ++ c :: back ∧ c ∉ alphabet ∧
      e = ⟨.unrecognized c, byteLength front⟩ ∧
      Scanned (c :: back) 0 front (Scan.ofSource source).lexemes.toList := by
  obtain ⟨front, hsource, hoffset, hscanned, hstop⟩ := Scan.exists_ofSource source
  rw [lex, Scan.result] at h
  cases hrest : (Scan.ofSource source).rest with
  | nil => simp [hrest] at h
  | cons c back =>
      simp only [hrest] at h hsource hscanned hstop
      refine ⟨front, c, back, hsource, by simpa using hstop, ?_, hscanned⟩
      rw [byteLength_eq_length hscanned.mem_alphabet, ← hoffset]
      exact (Except.error.inj h).symm

/-! ### The line of an error -/

/-- The line is refused for the character at the place in it, and everything in front of the place
is accepted. -/
structure RefusedAt (line : Line) (c : Char) : Prop where
  offset_lt : line.offset < line.text.utf8ByteSize
  before : ∃ before, line.before? = some before ∧
    ∀ d ∈ before, d.isDigit = true ∨ d ∈ operators ∨ d ∈ blanks ∧ d ≠ '\n'
  at_place : ∃ behind, dropBytes? line.offset line.text.toList = some (c :: behind)
  alone : lex line.text = .error ⟨.unrecognized c, line.offset⟩

/-- A line is refused at its first character outside the alphabet. -/
theorem refusedAt_of_append {line : Line} {before behind : List Char} {c : Char}
    (htext : line.text.toList = before ++ c :: behind) (hoffset : line.offset = byteLength before)
    (hbefore : ∀ d ∈ before, d ∈ alphabet) (hnewline : '\n' ∉ before) (hc : c ∉ alphabet) :
    RefusedAt line c where
  offset_lt := by
    have hpos := c.utf8Size_pos
    rw [utf8ByteSize_eq_byteLength, htext, hoffset]
    simp
    omega
  before := by
    refine ⟨before, takeBytes?_eq_some_iff.mpr ⟨c :: behind, htext, hoffset.symm⟩, fun d hd => ?_⟩
    have hne : d ≠ '\n' := by
      rintro rfl
      exact hnewline hd
    simpa [hne] using mem_alphabet_iff.mp (hbefore d hd)
  at_place := ⟨behind, dropBytes?_eq_some_iff.mpr ⟨before, htext, hoffset.symm⟩⟩
  alone := lex_eq_error_iff.mpr ⟨before, c, behind, htext, hbefore, hc, by rw [hoffset]⟩

/-- The line that is found for the place of an error is refused alone for the same character, and
its number is one more than there are newlines among the blanks in front of the error. -/
theorem lex_error_in_line {source : String} {e : Error} (h : lex source = .error e) :
    ∃ line c, Line.locate source e.position = some line ∧ e.cause = .unrecognized c ∧
      RefusedAt line c ∧ line.number = 1 + (Scan.ofSource source).skipped.count '\n' := by
  obtain ⟨front, c, back, hsource, hc, rfl, hscanned⟩ := exists_scanned_of_error h
  obtain ⟨newline, -, hlocate⟩ := Line.exists_locate_append hsource
  obtain ⟨lines, hfront, -, hlast⟩ := exists_lines_append_behindNewlines front
  have hne : c ≠ '\n' := ne_of_not_mem_alphabet hc (by decide)
  refine ⟨_, c, hlocate, rfl, ?_, ?_⟩
  · -- The last part of the accepted text is what stands in front of the character in its line.
    have htext : (String.ofList (lineAround front (c :: back) ++ newline)).toList =
        behindNewlines front ++ c :: (restOfLine back ++ newline) := by
      simp [lineAround, restOfLine_cons hne]
    refine refusedAt_of_append htext rfl (fun d hd => hscanned.mem_alphabet d ?_) hlast hc
    rw [hfront]
    exact List.mem_append_right lines hd
  · calc
      front.count '\n' + 1 = 1 + (front.filter (· ∈ blanks)).count '\n' := by
        rw [List.count_filter (by decide), Nat.add_comm]
      _ = 1 + (Scan.ofSource source).skipped.count '\n' := by
        rw [Scan.skipped, hscanned.skipped_eq]

/-- An error behind a form feed and a carriage return, which end no line. -/
theorem lex_error_in_line_form_feed :
    lex "1\n\x0c 2\r-é3\n" = .error ⟨.unrecognized 'é', 7⟩ ∧
      RefusedAt ⟨2, "\x0c 2\r-é3\n", 5⟩ 'é' ∧
      2 = 1 + (Scan.ofSource "1\n\x0c 2\r-é3\n").skipped.count '\n' := by
  have hlex : lex "1\n\x0c 2\r-é3\n" = .error ⟨.unrecognized 'é', 7⟩ := by decide +kernel
  have hlocate : Line.locate "1\n\x0c 2\r-é3\n" 7 = some ⟨2, "\x0c 2\r-é3\n", 5⟩ := by
    decide +kernel
  obtain ⟨line, c, hline, hcause, hrefused, hnumber⟩ := lex_error_in_line hlex
  obtain rfl := Option.some.inj (hline.symm.trans hlocate)
  obtain rfl := Cause.unrecognized.inj hcause
  exact ⟨hlex, hrefused, hnumber⟩

end ArithmeticTokens
