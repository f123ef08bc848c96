import ArithmeticTokens.Proofs.Lines
import ArithmeticTokens.Report

/-!
# What stands around a line

A report is about one line, and the rest of the text comes into it only through the number of this
line. Whole lines in front make the number greater (`Line.locate_append_left`), also for the place
at the end of the text, which is found in another way than the other places. Nothing at all changes
with the text behind the newline of the line (`Line.locate_append_right`).
-/

namespace ArithmeticTokens

namespace Text

/-! ### Whole lines in front -/

theorem lines_toList {t : String} (h : t = "" ∨ ∃ front, t = front ++ "\n") : Lines t.toList := by
  obtain rfl | ⟨front, rfl⟩ := h
  · exact .nil
  · rw [String.toList_append]
    exact lines_concat_newline front.toList

namespace Line

/-- The same line when there are so many more lines in front of it. -/
def behind (k : Nat) (line : Line) : Line := { line with number := line.number + k }

/-- Whole lines in front of a text move its lines down. -/
theorem locate_append_left {t s : String} (ht : Lines t.toList) {position : Nat}
    (h : position ≤ s.utf8ByteSize) :
    ∃ line, locate s position = some line ∧
      locate (t ++ s) (t.utf8ByteSize + position) = some (line.behind (t.toList.count '\n')) := by
  rw [utf8ByteSize_eq_byteLength] at h
  obtain ⟨before, as, rest, offset, hs, hisLine, rfl, hoffset⟩ := exists_isLine _ h
  have hlower : IsLine (t.toList ++ before) as rest :=
    ⟨ht.append hisLine.before, hisLine.not_mem, hisLine.rest⟩
  have hts : (t ++ s).toList = (t.toList ++ before) ++ (as ++ rest) := by
    rw [String.toList_append, hs, List.append_assoc]
  have hplace : t.utf8ByteSize + (byteLength before + offset) =
      byteLength (t.toList ++ before) + offset := by
    rw [byteLength_append, utf8ByteSize_eq_byteLength, Nat.add_assoc]
  have hnumber : (t.toList ++ before).count '\n' + 1 =
      before.count '\n' + 1 + t.toList.count '\n' := by
    rw [List.count_append]
    omega
  refine ⟨_, hisLine.locate hs hoffset, ?_⟩
  rw [hplace, hlower.locate hts hoffset, hnumber]
  rfl

/-! ### Text behind a newline -/

/-- The line of a place ends with its newline, whatever follows. -/
theorem locate_append_right {s : String} (hs : Lines s.toList) (u : String) {position : Nat}
    (h : position < s.utf8ByteSize) : locate (s ++ u) position = locate s position := by
  rw [utf8ByteSize_eq_byteLength] at h
  obtain ⟨before, as, rest, offset, hparts, hisLine, rfl, hoffset⟩ :=
    exists_isLine _ (Nat.le_of_lt h)
  obtain rfl | ⟨back, rfl⟩ := hisLine.rest
  · -- Then nothing stands between the last newline and the place, which is the end of the text.
    exfalso
    have hlast : as = [] := by
      calc
        as = behindNewlines (before ++ as) := by
          rw [hisLine.before.behindNewlines_append, behindNewlines_of_not_mem hisLine.not_mem]
        _ = behindNewlines (s.toList ++ []) := by simp [hparts]
        _ = [] := hs.behindNewlines_append []
    have hsize : byteLength s.toList = byteLength before := by simp [hparts, hlast]
    omega
  · have hlonger : IsLine before as ('\n' :: (back ++ u.toList)) :=
      ⟨hisLine.before, hisLine.not_mem, Or.inr ⟨_, rfl⟩⟩
    have hsu : (s ++ u).toList = before ++ (as ++ '\n' :: (back ++ u.toList)) := by
      simp [hparts]
    rw [hlonger.locate hsu hoffset, hisLine.locate hparts hoffset]
    rfl

end Line

end Text

open Text

/-! ### The number in a report -/

namespace Excerpt

/-- The same excerpt when there are so many more lines in front of it. -/
def behind (k : Nat) (e : Excerpt) : Excerpt := { e with number := e.number + k }

/-- The number of a line decides neither what is shown of it nor where the caret stands. -/
theorem ofLine_behind (line : Line) (k : Nat) :
    ofLine (line.behind k) = (ofLine line).map (behind k) := by
  have hbefore : (line.behind k).before? = line.before? := rfl
  rw [ofLine, ofLine, hbefore]
  cases line.before? with
  | none => rfl
  | some before =>
      simp only [Line.behind, apply_ite (Except.map (behind k))]
      rfl

theorem number_of_ofLine {line : Line} {e : Excerpt} (h : ofLine line = .ok e) :
    e.number = line.number := by
  rw [ofLine] at h
  cases hbefore : line.before? with
  | none => simp [hbefore] at h
  | some before =>
      simp only [hbefore] at h
      split at h
      · rw [← Except.ok.inj h]
      · cases h

end Excerpt

namespace Error

theorem report_congr {e : Error} {s s' : String}
    (h : Line.locate s' e.position = Line.locate s e.position) : e.report s' = e.report s := by
  rw [report, report, h]

/-- With so many more lines in front of the line of an error there is no report as before, or a
report with the same excerpt further down. -/
theorem report_behind (e e' : Error) {s s' : String} {line : Line} {k : Nat}
    (hcause : e'.cause = e.cause) (hline : Line.locate s e.position = some line)
    (hline' : Line.locate s' e'.position = some (line.behind k)) :
    (∃ fault, e.report s = .error fault ∧ e'.report s' = .error fault) ∨
      ∃ excerpt : Excerpt, excerpt.number = line.number ∧
        e.report s = .ok (e.heading ++ excerpt.text) ∧
        e'.report s' = .ok (e.heading ++ (excerpt.behind k).text) := by
  have hheading : e'.heading = e.heading := by rw [heading, heading, tip?, tip?, name, name, hcause]
  rw [report_of_locate hline, report_of_locate hline', Excerpt.ofLine_behind, hheading]
  cases hexcerpt : Excerpt.ofLine line with
  | error fault => exact Or.inl ⟨fault, rfl, rfl⟩
  | ok excerpt => exact Or.inr ⟨excerpt, Excerpt.number_of_ofLine hexcerpt, rfl, rfl⟩

end Error

/-- Whole lines in front of a text change only the number of the line that is found for a place. In
a report they change this number and the width of the margins, and there is none exactly where
there was none before. Text behind the newline that ends the line of the place changes nothing. -/
theorem report_of_surroundings (e : Error) (t s u : String) :
    ((t = "" ∨ ∃ front, t = front ++ "\n") → e.position ≤ s.utf8ByteSize →
        ∃ line, Line.locate s e.position = some line ∧
          Line.locate (t ++ s) (t.utf8ByteSize + e.position) =
            some ⟨line.number + t.toList.count '\n', line.text, line.offset⟩ ∧
          ((∃ fault, e.report s = .error fault ∧
              Error.report ⟨e.cause, t.utf8ByteSize + e.position⟩ (t ++ s) = .error fault) ∨
            ∃ shown dashes,
              e.report s = .ok (e.heading ++ Excerpt.text ⟨line.number, shown, dashes⟩) ∧
              Error.report ⟨e.cause, t.utf8ByteSize + e.position⟩ (t ++ s) =
                .ok (e.heading ++
                  Excerpt.text ⟨line.number + t.toList.count '\n', shown, dashes⟩))) ∧
      ((∃ front, s = front ++ "\n") → e.position < s.utf8ByteSize →
        Line.locate (s ++ u) e.position = Line.locate s e.position ∧
          e.report (s ++ u) = e.report s) := by
  constructor
  · intro ht hle
    obtain ⟨line, hline, hline'⟩ := Line.locate_append_left (lines_toList ht) hle
    refine ⟨line, hline, hline', ?_⟩
    obtain hfault | ⟨⟨number, shown, dashes⟩, rfl, hreport, hreport'⟩ :=
      Error.report_behind e ⟨e.cause, t.utf8ByteSize + e.position⟩ rfl hline hline'
    · exact Or.inl hfault
    · exact Or.inr ⟨shown, dashes, hreport, hreport'⟩
  · intro hs hlt
    have hlocate := Line.locate_append_right (lines_toList (Or.inr hs)) u hlt
    exact ⟨hlocate, Error.report_congr hlocate⟩

/-- The tenth line has a wider margin than the first. -/
theorem report_of_surroundings_tenth_line :
    (∃ front, "\n\n\n\n\n\n\n\n\n" = front ++ "\n") ∧ 1 ≤ " é\n".utf8ByteSize ∧
      (∃ shown dashes,
        Error.report ⟨.unrecognized 'é', 1⟩ " é\n" =
          .ok (Error.heading ⟨.unrecognized 'é', 1⟩ ++ Excerpt.text ⟨1, shown, dashes⟩) ∧
        Error.report ⟨.unrecognized 'é', 10⟩ "\n\n\n\n\n\n\n\n\n é\n" =
          .ok (Error.heading ⟨.unrecognized 'é', 1⟩ ++ Excerpt.text ⟨10, shown, dashes⟩)) ∧
      (∃ front, " é\n" = front ++ "\n") ∧ 1 < " é\n".utf8ByteSize ∧
      Error.report ⟨.unrecognized 'é', 1⟩ " é\n2" = Error.report ⟨.unrecognized 'é', 1⟩ " é\n" := by
  have hfront : ∃ front, "\n\n\n\n\n\n\n\n\n" = front ++ "\n" :=
    ⟨"\n\n\n\n\n\n\n\n", by decide⟩
  have hwhole : ∃ front, " é\n" = front ++ "\n" := ⟨" é", by decide⟩
  have hline : Line.locate " é\n" 1 = some ⟨1, " é\n", 1⟩ := by decide +kernel
  have hreport : Error.report ⟨.unrecognized 'é', 1⟩ " é\n" =
      .ok ("Error: UnrecognizedInput (Unrecognized character `é`, expected a number, " ++
        "an operator or whitespace)\n  |\n1 | é\n  | ^\n") := by
    decide +kernel
  have hsurroundings :=
    report_of_surroundings ⟨.unrecognized 'é', 1⟩ "\n\n\n\n\n\n\n\n\n" " é\n" "2"
  refine ⟨hfront, by decide, ?_, hwhole, by decide, (hsurroundings.2 hwhole (by decide)).2⟩
  obtain ⟨line, hline', -, hcases⟩ := hsurroundings.1 (Or.inr hfront) (by decide)
  obtain rfl := Option.some.inj (hline'.symm.trans hline)
  obtain ⟨fault, hfault, -⟩ | hshown := hcases
  · cases hfault.symm.trans hreport
  · exact hshown

end ArithmeticTokens
