import ArithmeticTokens.Proofs.Acceptance
import ArithmeticTokens.Proofs.Rendering

/-!
# What the caret points at

The report of an error in a text shows the line of the error and a caret below it. The line is
trimmed at both ends and the caret is moved by what is missing in front, so that it stands below
the character that was not accepted, as long as that character is shown. It is not shown when it is
white space itself and only white space follows it in its line: white space in the sense of
Unicode, which is trimmed, is more than the blanks that are accepted. `report_shows_character`
says that this is the only exception, and `report_hides_vertical_tab` is a text where it arises.
For an arbitrary place there is one more exception, which is a place in the indent of its line.
-/

namespace ArithmeticTokens

namespace Text

/-! ### Trimmed text -/

theorem length_trimEnd_le (cs : List Char) : (trimEnd cs).length ≤ cs.length := by
  have hlength := congrArg List.length (trimEnd_append_takeWhile cs)
  rw [List.length_append] at hlength
  omega

/-- The first character stays unless nothing stays. -/
theorem head?_trimEnd_cons {c : Char} {cs : List Char} (h : (c :: cs).all isWhiteSpace = false) :
    (trimEnd (c :: cs)).head? = some c := by
  have hprefix := trimEnd_append_takeWhile (c :: cs)
  cases htrim : trimEnd (c :: cs) with
  | nil =>
      have hall : (c :: cs).all isWhiteSpace = true := by
        rw [htrim, List.nil_append, List.reverse_eq_iff] at hprefix
        rw [← List.all_reverse, List.all_eq_true, ← hprefix]
        exact fun d hd => List.mem_takeWhile_imp hd
      rw [hall] at h
      cases h
  | cons d ds =>
      rw [htrim, List.cons_append] at hprefix
      rw [(List.cons.inj hprefix).1, List.head?_cons]

/-- What stands behind a text of which nothing is trimmed away. -/
theorem getElem?_trimEnd_append (as : List Char) (c : Char) (cs : List Char) :
    (trimEnd (as ++ c :: cs))[as.length]? =
      if (c :: cs).all isWhiteSpace then none else some c := by
  rw [trimEnd_append]
  split
  · exact List.getElem?_eq_none (length_trimEnd_le as)
  · rename_i h
    rw [List.getElem?_append_right le_rfl, Nat.sub_self, ← List.head?_eq_getElem?,
      head?_trimEnd_cons (by simpa using h)]

end Text

open Text

namespace Excerpt

/-! ### The lines of a report -/

/-- A report consists of four lines. -/
theorem pieces_report {heading : List Char} (hheading : '\n' ∉ heading) (e : Excerpt)
    (hshown : '\n' ∉ e.shown.toList) :
    pieces (heading ++ '\n' :: e.text.toList) =
      [heading ++ ['\n'], e.gutter.toList ++ ['\n'],
        e.number.repr.toList ++ (" | ".toList ++ e.shown.toList) ++ ['\n'],
        e.gutter.toList ++ (' ' :: e.caret.toList) ++ ['\n'], []] := by
  have hlines := (ConsistsOf.single hheading).append (e.consistsOf_text hshown)
  simpa using hlines.pieces_eq

theorem count_dash (e : Excerpt) :
    (e.gutter.toList ++ (' ' :: e.caret.toList)).count '-' = e.dashes := by
  simp [gutter, caret, List.count_replicate]

end Excerpt

/-- The character that a report shows right above its caret: in the third line, behind the number
of the line and the bar, the one with as many characters in front of it as there are dashes in the
fourth line. -/
def aboveCaret? (report : List Char) : Option Char :=
  match pieces report with
  | [_, _, line, caret, []] =>
      match line.dropWhile Char.isDigit with
      | ' ' :: '|' :: ' ' :: shown => shown.dropLast[caret.count '-']?
      | _ => none
  | _ => none

theorem aboveCaret?_report {heading : List Char} (hheading : '\n' ∉ heading) (e : Excerpt)
    (hshown : '\n' ∉ e.shown.toList) :
    aboveCaret? (heading ++ '\n' :: e.text.toList) = e.shown.toList[e.dashes]? := by
  have hnumber : ∀ c ∈ e.number.repr.toList, c.isDigit = true := by
    intro c hc
    rw [Nat.repr_eq_ofList_toDigits, String.toList_ofList] at hc
    exact Nat.isDigit_of_mem_toDigits (by decide) (by decide) hc
  have hdrop : (e.number.repr.toList ++ (" | ".toList ++ e.shown.toList) ++ ['\n']).dropWhile
      Char.isDigit = ' ' :: '|' :: ' ' :: (e.shown.toList ++ ['\n']) := by
    rw [List.append_assoc, List.dropWhile_append_of_pos hnumber, List.append_assoc]
    rfl
  have hdashes : (e.gutter.toList ++ (' ' :: e.caret.toList) ++ ['\n']).count '-' = e.dashes := by
    rw [List.count_append, e.count_dash]
    rfl
  rw [aboveCaret?, e.pieces_report hheading hshown]
  simp only [hdrop, hdashes, List.dropLast_concat]

/-! ### The character in a report -/

theorem exists_heading_line (c : Char) (position : Nat) :
    ∃ heading, '\n' ∉ heading ∧
      (Error.heading ⟨.unrecognized c, position⟩).toList = heading ++ ['\n'] := by
  obtain ⟨heading, hheading⟩ := Error.exists_heading_line ⟨.unrecognized c, position⟩
  exact ⟨heading, hheading.not_mem heading (List.mem_singleton_self heading),
    by simpa using hheading.eq⟩

/-- The report for a place in front of a character that is neither a newline nor left out with the
indent. -/
theorem Error.report_eq {source : String} {before as back : List Char} {c : Char} (cause : Cause)
    (hsource : source.toList = before ++ (as ++ c :: back)) (hbefore : Lines before)
    (has : '\n' ∉ as) (hnewline : c ≠ '\n') (hindent : isIndent c = false) :
    Error.report ⟨cause, byteLength (before ++ as)⟩ source =
      if (as.dropWhile isIndent).length + 1 ≤ caretFieldLimit then
        .ok (Error.heading ⟨cause, byteLength (before ++ as)⟩ ++
          Excerpt.text ⟨before.count '\n' + 1,
            String.ofList (trimEnd (as.dropWhile isIndent ++ c :: restOfLine back)),
            (as.dropWhile isIndent).length⟩)
      else .error (.fieldTooWide ((as.dropWhile isIndent).length + 1)) := by
  have hfront : behindNewlines (before ++ as) = as := by
    rw [hbefore.behindNewlines_append, behindNewlines_of_not_mem has]
  have hcount : (before ++ as).count '\n' = before.count '\n' := by
    rw [List.count_append, List.count_eq_zero_of_not_mem has, Nat.add_zero]
  have hout : ¬ InIndent (before ++ as) c := by
    intro h
    rw [h c (by simp)] at hindent
    cases hindent
  have haround : Excerpt.around (before ++ as) (c :: back) =
      ⟨before.count '\n' + 1,
        String.ofList (trimEnd (as.dropWhile isIndent ++ c :: restOfLine back)),
        (as.dropWhile isIndent).length⟩ := by
    have hdashes := Excerpt.dashes_around back hout
    rw [Excerpt.around, hfront] at hdashes
    rw [Excerpt.around, Excerpt.dropWhile_lineAround back hout, hfront, hcount,
      restOfLine_cons hnewline, Excerpt.mk.injEq]
    exact ⟨rfl, rfl, hdashes⟩
  rw [report_of_append (by rw [hsource, List.append_assoc]) rfl, haround]

/-- In the report of an error in a text the caret stands below the character that was not accepted.
Only where this is white space with nothing but white space behind it in its line, the report shows
nothing above the caret. -/
theorem report_shows_character {source text : String} {e : Error}
    (hlex : lex source = .error e) (hreport : e.report source = .ok text) :
    ∃ front c back, source.toList = front ++ c :: back ∧
      e = ⟨.unrecognized c, byteLength front⟩ ∧
      aboveCaret? text.toList =
        if (c :: restOfLine back).all isWhiteSpace then none else some c := by
  obtain ⟨front, c, back, hsource, hfront, hc, rfl⟩ := lex_eq_error_iff.mp hlex
  refine ⟨front, c, back, hsource, rfl, ?_⟩
  obtain ⟨before, as, rfl, hbefore, has⟩ := exists_lines front
  have hnewline : c ≠ '\n' := ne_of_not_mem_alphabet hc (by decide)
  have hindent : isIndent c = false := by
    have hspace : c ≠ ' ' := ne_of_not_mem_alphabet hc (by decide)
    have htab : c ≠ '\t' := ne_of_not_mem_alphabet hc (by decide)
    simp [isIndent, hspace, htab]
  rw [List.append_assoc] at hsource
  rw [Error.report_eq _ hsource hbefore has hnewline hindent] at hreport
  split at hreport
  · obtain rfl := Except.ok.inj hreport
    obtain ⟨heading, hheading, htext⟩ := exists_heading_line c (byteLength (before ++ as))
    have hshown : '\n' ∉ trimEnd (as.dropWhile isIndent ++ c :: restOfLine back) := by
      have hfirst : '\n' ∉ as.dropWhile isIndent := fun h =>
        has ((List.dropWhile_sublist isIndent).subset h)
      apply not_mem_trimEnd
      simp [hfirst, newline_not_mem_restOfLine, Ne.symm hnewline]
    rw [String.toList_append, htext, List.append_assoc, List.singleton_append,
      aboveCaret?_report hheading _ (by rwa [String.toList_ofList]), String.toList_ofList,
      getElem?_trimEnd_append]
  · cases hreport

/-- White space that is not accepted is shown as long as something else follows it. -/
theorem report_shows_no_break_space :
    lex "1\n\t 7\u00a0 x" = .error ⟨.unrecognized '\u00a0', 5⟩ ∧
      ∃ text, Error.report ⟨.unrecognized '\u00a0', 5⟩ "1\n\t 7\u00a0 x" = .ok text ∧
        aboveCaret? text.toList = some '\u00a0' ∧
        ∃ front c back, "1\n\t 7\u00a0 x".toList = front ++ c :: back ∧
          (⟨.unrecognized '\u00a0', 5⟩ : Error) = ⟨.unrecognized c, byteLength front⟩ ∧
          aboveCaret? text.toList =
            if (c :: restOfLine back).all isWhiteSpace then none else some c := by
  have hlex : lex "1\n\t 7\u00a0 x" = .error ⟨.unrecognized '\u00a0', 5⟩ := by decide +kernel
  have hreport : Error.report ⟨.unrecognized '\u00a0', 5⟩ "1\n\t 7\u00a0 x" =
      .ok ("Error: UnrecognizedInput (Unrecognized character `\\u\x7ba0\x7d`, expected a number, " ++
        "an operator or whitespace)\n  |\n2 | 7\u00a0 x\n  | -^\n") := by
    decide +kernel
  exact ⟨hlex, _, hreport, by decide +kernel, report_shows_character hlex hreport⟩

/-- A vertical tab is not accepted, but at the end of a line it is trimmed away. -/
theorem report_hides_vertical_tab :
    lex "1\x0b" = .error ⟨.unrecognized '\x0b', 1⟩ ∧
      ∃ text, Error.report ⟨.unrecognized '\x0b', 1⟩ "1\x0b" = .ok text ∧
        aboveCaret? text.toList = none := by
  have hreport : Error.report ⟨.unrecognized '\x0b', 1⟩ "1\x0b" =
      .ok ("Error: UnrecognizedInput (Unrecognized character `\\u\x7bb\x7d`, expected a number, " ++
        "an operator or whitespace)\n  |\n1 | 1\n  | -^\n") := by
    decide +kernel
  exact ⟨by decide +kernel, _, hreport, by decide +kernel⟩

/-! ### Any place in a text -/

/-- From the character behind the cut to the end of its line there is only white space. The newline,
which is white space too, ends the line. -/
def InTrailingSpace (c : Char) (back : List Char) : Prop :=
  ∀ d ∈ restOfLine (c :: back), isWhiteSpace d = true

section Around

variable {front : List Char} {c : Char} (back : List Char)

theorem aboveCaret?_around (e : Error) :
    aboveCaret? (e.heading ++ (Excerpt.around front back).text).toList =
      (Excerpt.around front back).shown.toList[(Excerpt.around front back).dashes]? := by
  obtain ⟨heading, hheading⟩ := e.exists_heading_line
  have htext : (e.heading ++ (Excerpt.around front back).text).toList =
      heading ++ '\n' :: (Excerpt.around front back).text.toList := by
    simp [hheading.eq]
  rw [htext, aboveCaret?_report (hheading.not_mem heading List.mem_cons_self) _
    (newline_not_mem_shown_around front back)]

/-- A character that does not belong to the indent is shown above the caret unless it is trimmed
away. -/
theorem getElem?_shown_around (h : ¬ InIndent front c) :
    (Excerpt.around front (c :: back)).shown.toList[(Excerpt.around front (c :: back)).dashes]? =
      if (restOfLine (c :: back)).all isWhiteSpace then none else some c := by
  rw [Excerpt.dashes_around back h, Excerpt.around, String.toList_ofList,
    Excerpt.dropWhile_lineAround back h]
  by_cases hnewline : c = '\n'
  · rw [hnewline, restOfLine_newline, List.append_nil, if_pos List.all_nil]
    exact List.getElem?_eq_none (length_trimEnd_le _)
  · rw [restOfLine_cons hnewline, getElem?_trimEnd_append]

/-- The shown line does not start with what belongs to an indent. -/
theorem getElem?_zero_shown_around (hc : isIndent c = true) :
    (Excerpt.around front back).shown.toList[0]? ≠ some c := by
  intro h
  rw [Excerpt.around, String.toList_ofList] at h
  have hfirst : ((lineAround front back).dropWhile isIndent).head? = some c := by
    have hlt := (List.getElem?_eq_some_iff.mp h).1
    rw [List.head?_eq_getElem?,
      ← trimEnd_append_takeWhile ((lineAround front back).dropWhile isIndent),
      List.getElem?_append_left hlt, h]
  have hnot := List.head?_dropWhile_not isIndent (lineAround front back)
  rw [hfirst] at hnot
  simp [hc] at hnot

/-- In the indent the caret stands at the start of the shown line. -/
theorem dashes_around_of_inIndent (h : InIndent front c) :
    (Excerpt.around front (c :: back)).dashes = 0 :=
  Nat.sub_eq_zero_of_le (Nat.le_of_lt (Excerpt.length_lt_indentLength back h))

/-- The character above the caret is the one of the place. -/
theorem getElem?_shown_around_iff :
    (Excerpt.around front (c :: back)).shown.toList[(Excerpt.around front (c :: back)).dashes]? =
        some c ↔
      ¬ InIndent front c ∧ ¬ InTrailingSpace c back := by
  by_cases hindent : InIndent front c
  · rw [dashes_around_of_inIndent back hindent]
    exact iff_of_false (getElem?_zero_shown_around _ (hindent c (by simp))) fun h => h.1 hindent
  · rw [getElem?_shown_around back hindent, InTrailingSpace, ← List.all_eq_true]
    simp [hindent]

/-- There is a character above the caret, in as many columns from the start of the line. -/
theorem dashes_around_lt_iff :
    (Excerpt.around front (c :: back)).dashes + indentLength (lineAround front (c :: back)) =
          (behindNewlines front).length ∧
        (Excerpt.around front (c :: back)).dashes <
          (Excerpt.around front (c :: back)).shown.length ↔
      ¬ InIndent front c ∧ ¬ InTrailingSpace c back := by
  by_cases hindent : InIndent front c
  · have hlt := Excerpt.length_lt_indentLength back hindent
    exact iff_of_false (fun h => by omega) fun h => h.1 hindent
  · have hcolumn := Excerpt.indentLength_add_length back hindent
    rw [← Excerpt.dashes_around back hindent, Nat.add_comm] at hcolumn
    have hshown := getElem?_shown_around back hindent
    rw [← String.length_toList, ← Nat.not_le, ← List.getElem?_eq_none_iff, hshown,
      InTrailingSpace, ← List.all_eq_true]
    simp [hcolumn, hindent]

end Around

/-- In a report the character of the place stands above the caret exactly if it belongs neither to
the indent nor to the white space at the end of its line. In the indent the caret is at the start of
the shown line. -/
theorem caret_below_character_iff {e : Error} {source text : String} {front back : List Char}
    {c : Char} (hsource : source.toList = front ++ c :: back)
    (hposition : byteLength front = e.position) (hreport : e.report source = .ok text) :
    ∃ heading rule shown caret,
      ConsistsOf text.toList
        [heading, rule, (front.count '\n' + 1).repr.toList ++ (" | ".toList ++ shown), caret] ∧
      (caret.count '-' + indentLength (lineAround front (c :: back)) =
            (behindNewlines front).length ∧ caret.count '-' < shown.length ↔
          ¬ InIndent front c ∧ ¬ InTrailingSpace c back) ∧
      (aboveCaret? text.toList = some c ↔ ¬ InIndent front c ∧ ¬ InTrailingSpace c back) ∧
      (InIndent front c → caret.count '-' = 0) := by
  rw [Error.report_of_append hsource hposition] at hreport
  split at hreport
  · obtain rfl := Except.ok.inj hreport
    obtain ⟨heading, hheading⟩ := e.exists_heading_line
    have hlines := hheading.append ((Excerpt.around front (c :: back)).consistsOf_text
      (newline_not_mem_shown_around front (c :: back)))
    rw [← String.toList_append] at hlines
    refine ⟨heading, _, _, _, hlines, ?_⟩
    rw [Excerpt.count_dash, aboveCaret?_around, String.length_toList]
    exact ⟨dashes_around_lt_iff back, getElem?_shown_around_iff back,
      dashes_around_of_inIndent back⟩
  · cases hreport

/-- The caret for a tab in the indent of a line. -/
theorem caret_below_tab :
    InIndent "1\n ".toList '\t' ∧
      ∃ text, Error.report ⟨.unrecognized '\t', 3⟩ "1\n \t5 & 3 \n" = .ok text ∧
        ∃ heading rule shown caret,
          ConsistsOf text.toList
            [heading, rule, ("1\n ".toList.count '\n' + 1).repr.toList ++ (" | ".toList ++ shown),
              caret] ∧
          (caret.count '-' + indentLength (lineAround "1\n ".toList ('\t' :: "5 & 3 \n".toList)) =
                (behindNewlines "1\n ".toList).length ∧ caret.count '-' < shown.length ↔
              ¬ InIndent "1\n ".toList '\t' ∧ ¬ InTrailingSpace '\t' "5 & 3 \n".toList) ∧
          (aboveCaret? text.toList = some '\t' ↔
            ¬ InIndent "1\n ".toList '\t' ∧ ¬ InTrailingSpace '\t' "5 & 3 \n".toList) ∧
          caret.count '-' = 0 := by
  have hindent : InIndent "1\n ".toList '\t' := by
    rw [InIndent, ← List.all_eq_true]
    decide +kernel
  have hsource : "1\n \t5 & 3 \n".toList = "1\n ".toList ++ '\t' :: "5 & 3 \n".toList := by
    decide +kernel
  have hreport : Error.report ⟨.unrecognized '\t', 3⟩ "1\n \t5 & 3 \n" =
      .ok ("Error: UnrecognizedInput (Unrecognized character `\\t`, expected a number, " ++
        "an operator or whitespace)\n  |\n2 | 5 & 3\n  | ^\n") := by
    decide +kernel
  obtain ⟨heading, rule, shown, caret, hlines, hcolumn, habove, hdashes⟩ :=
    caret_below_character_iff hsource (by decide +kernel) hreport
  exact ⟨hindent, _, hreport, heading, rule, shown, caret, hlines, hcolumn, habove,
    hdashes hindent⟩

end ArithmeticTokens
