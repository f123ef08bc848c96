import ArithmeticTokens.Proofs.Encoding
import ArithmeticTokens.Proofs.Lines
import ArithmeticTokens.Report

/-!
# What a report shows of a place

A place past the end of a text is told by its offset, a place inside a character cannot be shown,
and any other place cuts the text in two (`place_cases`). Of the two parts only the line around the
cut matters: `Excerpt.around` computes from it what is shown and where the caret stands, and a
report shows this excerpt unless the caret is too far to the right (`Error.report_of_append`).
-/

namespace ArithmeticTokens

namespace Text

/-! ### Trimmed text -/

theorem trimEnd_append (as bs : List Char) :
    trimEnd (as ++ bs) = if bs.all isWhiteSpace then trimEnd as else as ++ trimEnd bs := by
  have hnone : (bs.reverse.dropWhile isWhiteSpace).isEmpty = bs.all isWhiteSpace := by
    rw [← List.all_reverse, Bool.eq_iff_iff, List.isEmpty_iff, List.dropWhile_eq_nil_iff,
      List.all_eq_true]
  rw [trimEnd, List.reverse_append, List.dropWhile_append, hnone]
  split
  · rfl
  · rw [List.reverse_append, List.reverse_reverse, trimEnd]

theorem trimEnd_append_newline {cs newline : List Char}
    (hnewline : newline = [] ∨ newline = ['\n']) : trimEnd (cs ++ newline) = trimEnd cs := by
  rcases hnewline with rfl | rfl
  · rw [List.append_nil]
  · rw [trimEnd_append, if_pos (by decide)]

theorem not_mem_trimEnd {c : Char} {cs : List Char} (h : c ∉ cs) : c ∉ trimEnd cs :=
  fun hc => h (trimEnd_append_takeWhile cs ▸ List.mem_append_left _ hc)

/-! ### Kinds of places -/

theorem byteLength_le_size {source : String} {front back : List Char}
    (hsource : source.toList = front ++ back) : byteLength front ≤ source.utf8ByteSize := by
  rw [utf8ByteSize_eq_byteLength, hsource, byteLength_append]
  exact Nat.le_add_right _ _

theorem place_cases (source : String) (position : Nat) :
    source.utf8ByteSize < position ∨ InsideCharacter source.toList position ∨
      ∃ front back, source.toList = front ++ back ∧ byteLength front = position := by
  cases hdrop : dropBytes? position source.toList with
  | none =>
      rcases dropBytes?_eq_none_iff.mp hdrop with hpast | hinside
      · exact Or.inl (by rwa [utf8ByteSize_eq_byteLength])
      · exact Or.inr (Or.inl hinside)
  | some back =>
      obtain ⟨front, hsource, hposition⟩ := dropBytes?_eq_some_iff.mp hdrop
      exact Or.inr (Or.inr ⟨front, back, hsource, hposition⟩)

/-- A text cannot be cut inside a character. -/
theorem not_insideCharacter_append (front back : List Char) :
    ¬ InsideCharacter (front ++ back) (byteLength front) := by
  intro hinside
  have hdrop : dropBytes? (byteLength front) (front ++ back) = some back :=
    dropBytes?_eq_some_iff.mpr ⟨front, rfl, rfl⟩
  rw [dropBytes?_eq_none_iff.mpr (Or.inr hinside)] at hdrop
  cases hdrop

theorem InsideCharacter.lt {cs : List Char} {n : Nat} (h : InsideCharacter cs n) :
    n < byteLength cs := by
  obtain ⟨front, c, back, rfl, -, hlt⟩ := h
  simp
  omega

/-- A place inside a character of a text is inside this character of its line. -/
theorem Line.exists_locate_inside {source : String} {position : Nat}
    (h : InsideCharacter source.toList position) :
    ∃ line, locate source position = some line ∧ line.before? = none := by
  obtain ⟨front, c, back, hsource, hlt, hlt'⟩ := h
  obtain ⟨before, as, rfl, hbefore, has⟩ := exists_lines front
  obtain ⟨rest, hback, hrest⟩ := exists_restOfLine_append back
  rw [byteLength_append] at hlt hlt'
  have hc : c ≠ '\n' := by
    rintro rfl
    rw [utf8Size_newline] at hlt'
    omega
  have hisLine : IsLine before (as ++ c :: restOfLine back) rest :=
    ⟨hbefore, by simp [has, newline_not_mem_restOfLine, Ne.symm hc], hrest⟩
  have hparts : source.toList = before ++ ((as ++ c :: restOfLine back) ++ rest) := by
    simpa [← hback] using hsource
  obtain ⟨offset, rfl⟩ : ∃ offset, position = byteLength before + offset :=
    ⟨position - byteLength before, by omega⟩
  have hinside : byteLength as < offset ∧ offset < byteLength as + c.utf8Size := by omega
  refine ⟨_, hisLine.locate hparts (by simp; omega), ?_⟩
  rw [Line.before?, takeBytes?, Option.map_eq_none_iff, dropBytes?_eq_none_iff,
    String.toList_ofList, List.append_assoc]
  exact Or.inr ⟨as, c, _, rfl, hinside⟩

end Text

open Text

/-! ### The excerpt around a cut -/

/-- How many characters a report leaves out at the start of a line. -/
def indentLength (line : List Char) : Nat := (line.takeWhile isIndent).length

namespace Excerpt

/-- The excerpt for the place between two parts of a text. -/
def around (front back : List Char) : Excerpt where
  number := front.count '\n' + 1
  shown := String.ofList (trimEnd ((lineAround front back).dropWhile isIndent))
  dashes := (behindNewlines front).length - indentLength (lineAround front back)

theorem dropWhile_isIndent_append {c : Char} (hc : isIndent c = false) (as cs : List Char) :
    (as ++ c :: cs).dropWhile isIndent = as.dropWhile isIndent ++ c :: cs := by
  rw [List.dropWhile_append, List.dropWhile_cons_of_neg (by simp [hc])]
  split
  · rename_i h
    rw [List.isEmpty_iff.mp h, List.nil_append]
  · rfl

/-- The newline of a line changes neither its indent nor what is left without it. -/
theorem dropWhile_isIndent_append_newline {line newline : List Char}
    (hnewline : newline = [] ∨ newline = ['\n']) :
    (line ++ newline).dropWhile isIndent = line.dropWhile isIndent ++ newline := by
  rcases hnewline with rfl | rfl
  · rw [List.append_nil, List.append_nil]
  · exact dropWhile_isIndent_append (by decide) line []

theorem length_takeWhile_add_dropWhile (line : List Char) :
    indentLength line + (line.dropWhile isIndent).length = line.length := by
  rw [indentLength, ← List.length_append, List.takeWhile_append_dropWhile]

theorem ofLine_around {front back newline : List Char}
    (hnewline : newline = [] ∨ newline = ['\n']) :
    ofLine ⟨front.count '\n' + 1, String.ofList (lineAround front back ++ newline),
        byteLength (behindNewlines front)⟩ =
      if (around front back).dashes + 1 ≤ caretFieldLimit then .ok (around front back)
      else .error (.fieldTooWide ((around front back).dashes + 1)) := by
  have hbefore : Line.before? ⟨front.count '\n' + 1,
      String.ofList (lineAround front back ++ newline), byteLength (behindNewlines front)⟩ =
        some (behindNewlines front) := by
    rw [Line.before?, String.toList_ofList]
    exact takeBytes?_eq_some_iff.mpr
      ⟨restOfLine back ++ newline, by rw [lineAround, List.append_assoc], rfl⟩
  have hindent : indentLength (lineAround front back ++ newline) =
      indentLength (lineAround front back) := by
    have hline := length_takeWhile_add_dropWhile (lineAround front back)
    have hwhole := length_takeWhile_add_dropWhile (lineAround front back ++ newline)
    rw [dropWhile_isIndent_append_newline hnewline, List.length_append,
      List.length_append] at hwhole
    omega
  rw [indentLength] at hindent
  rw [ofLine, hbefore]
  simp only [String.toList_ofList, hindent, dropWhile_isIndent_append_newline hnewline,
    trimEnd_append_newline hnewline]
  rfl

end Excerpt

/-- From the start of its line up to the cut and the character behind it there are only spaces and
tabs. -/
def InIndent (front : List Char) (c : Char) : Prop :=
  ∀ d ∈ behindNewlines front ++ [c], isIndent d = true

namespace Excerpt

variable {front : List Char} {c : Char} (back : List Char)

/-- The indent ends in front of a character that does not belong to it. -/
theorem dropWhile_lineAround (h : ¬ InIndent front c) :
    (lineAround front (c :: back)).dropWhile isIndent =
      (behindNewlines front).dropWhile isIndent ++ restOfLine (c :: back) := by
  rw [lineAround, List.dropWhile_append]
  split
  · rename_i hfront
    rw [List.isEmpty_iff] at hfront
    have hc : isIndent c = false := by
      refine Bool.eq_false_iff.mpr fun hc => h fun d hd => ?_
      rcases List.mem_append.mp hd with hd | hd
      · exact List.dropWhile_eq_nil_iff.mp hfront d hd
      · rwa [List.mem_singleton.mp hd]
    rw [hfront, List.nil_append]
    by_cases hnewline : c = '\n'
    · rw [hnewline, restOfLine_newline, List.dropWhile_nil]
    · rw [restOfLine_cons hnewline, List.dropWhile_cons_of_neg (by simp [hc])]
  · rfl

theorem indentLength_add_length (h : ¬ InIndent front c) :
    indentLength (lineAround front (c :: back)) +
        ((behindNewlines front).dropWhile isIndent).length =
      (behindNewlines front).length := by
  have hline := length_takeWhile_add_dropWhile (lineAround front (c :: back))
  rw [dropWhile_lineAround back h, List.length_append] at hline
  have hlength : (lineAround front (c :: back)).length =
      (behindNewlines front).length + (restOfLine (c :: back)).length := List.length_append
  omega

/-- There are as many dashes as there are characters shown in front of the place. -/
theorem dashes_around (h : ¬ InIndent front c) :
    (around front (c :: back)).dashes = ((behindNewlines front).dropWhile isIndent).length := by
  have hindent := indentLength_add_length back h
  simp only [around]
  omega

/-- The indent goes on behind a character that belongs to it. -/
theorem length_lt_indentLength (h : InIndent front c) :
    (behindNewlines front).length < indentLength (lineAround front (c :: back)) := by
  have hnewline : c ≠ '\n' := by
    rintro rfl
    exact absurd (h '\n' (by simp)) (by decide)
  have hline : lineAround front (c :: back) =
      (behindNewlines front ++ [c]) ++ restOfLine back := by
    rw [lineAround, restOfLine_cons hnewline]
    exact List.append_cons _ _ _
  rw [indentLength, hline, List.takeWhile_append_of_pos h]
  simp

end Excerpt

namespace Error

/-! ### The report of a place -/

variable {e : Error} {source : String}

theorem report_of_lt (h : source.utf8ByteSize < e.position) :
    e.report source = .ok (e.heading ++ "-> offset " ++ e.position.repr ++ "\n") := by
  have hlocate : Line.locate source e.position = none := by rw [Line.locate, if_pos h]
  rw [report, hlocate]

theorem report_of_inside (h : InsideCharacter source.toList e.position) :
    ∃ offset, e.report source = .error (.notBoundary offset) := by
  obtain ⟨line, hlocate, hbefore⟩ := Line.exists_locate_inside h
  refine ⟨line.offset, ?_⟩
  rw [report_of_locate hlocate, Excerpt.ofLine, hbefore]
  rfl

theorem report_of_append {front back : List Char} (hsource : source.toList = front ++ back)
    (hposition : byteLength front = e.position) :
    e.report source =
      if (Excerpt.around front back).dashes + 1 ≤ caretFieldLimit then
        .ok (e.heading ++ (Excerpt.around front back).text)
      else .error (.fieldTooWide ((Excerpt.around front back).dashes + 1)) := by
  obtain ⟨newline, hnewline, hlocate⟩ := Line.exists_locate_append hsource
  rw [hposition] at hlocate
  rw [report_of_locate hlocate, Excerpt.ofLine_around hnewline]
  split <;> rfl

/-- A report tells the offset of a place past the end of the text and shows the excerpt of any
other. -/
theorem report_eq_ok_iff {text : String} :
    e.report source = .ok text ↔
      source.utf8ByteSize < e.position ∧
          text = e.heading ++ "-> offset " ++ e.position.repr ++ "\n" ∨
        ∃ front back, source.toList = front ++ back ∧ byteLength front = e.position ∧
          (Excerpt.around front back).dashes + 1 ≤ caretFieldLimit ∧
          text = e.heading ++ (Excerpt.around front back).text := by
  constructor
  · intro h
    rcases place_cases source e.position with hlt | hinside | ⟨front, back, hsource, hposition⟩
    · rw [report_of_lt hlt] at h
      exact Or.inl ⟨hlt, (Except.ok.inj h).symm⟩
    · obtain ⟨offset, hfault⟩ := report_of_inside hinside
      cases h.symm.trans hfault
    · rw [report_of_append hsource hposition] at h
      split at h
      · rename_i hwidth
        exact Or.inr ⟨front, back, hsource, hposition, hwidth, (Except.ok.inj h).symm⟩
      · cases h
  · rintro (⟨hlt, rfl⟩ | ⟨front, back, hsource, hposition, hwidth, rfl⟩)
    · exact report_of_lt hlt
    · rw [report_of_append hsource hposition, if_pos hwidth]

end Error

end ArithmeticTokens
