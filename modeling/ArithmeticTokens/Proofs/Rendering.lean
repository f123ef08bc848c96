import ArithmeticTokens.Proofs.Excerpts
import ArithmeticTokens.Proofs.Printable

/-!
# The lines of a report

A report consists of whole lines: a heading, and below it either the offset or the three lines of an
excerpt (`placeLines`), which have their bars one below the other. No character of the text or of
the error adds a line to these: a heading shows characters in their escaped form, a line of the text
has no newline inside, and the one at its end is trimmed away.
-/

namespace ArithmeticTokens

namespace Text

/-! ### Texts made of lines -/

/-- The text consists of these lines, each ended by a newline. -/
structure ConsistsOf (text : List Char) (ls : List (List Char)) : Prop where
  eq : text = ls.flatMap (· ++ ['\n'])
  not_mem : ∀ l ∈ ls, '\n' ∉ l

namespace ConsistsOf

variable {text text' line : List Char} {ls ls' : List (List Char)}

theorem single (hline : '\n' ∉ line) : ConsistsOf (line ++ ['\n']) [line] :=
  ⟨by simp, by simpa using hline⟩

theorem append (h : ConsistsOf text ls) (h' : ConsistsOf text' ls') :
    ConsistsOf (text ++ text') (ls ++ ls') where
  eq := by rw [h.eq, h'.eq, List.flatMap_append]
  not_mem l hl := (List.mem_append.mp hl).elim (h.not_mem l) (h'.not_mem l)

theorem count_newline (h : ConsistsOf text ls) : text.count '\n' = ls.length := by
  obtain ⟨rfl, hnot⟩ := h
  induction ls with
  | nil => rfl
  | cons l ls ih =>
      rw [List.flatMap_cons, List.count_append, List.count_append,
        List.count_eq_zero_of_not_mem (hnot l List.mem_cons_self),
        ih fun l' hl' => hnot l' (List.mem_cons_of_mem l hl')]
      simp [Nat.add_comm]

theorem getLast?_eq (h : ConsistsOf text ls) (hne : ls ≠ []) : text.getLast? = some '\n' := by
  rw [h.eq, ← List.dropLast_concat_getLast hne, List.flatMap_append]
  simp

/-- The lines of such a text are its pieces, but for the empty one behind the last newline. -/
theorem pieces_eq (h : ConsistsOf text ls) : pieces text = ls.map (· ++ ['\n']) ++ [[]] := by
  obtain ⟨rfl, hnot⟩ := h
  induction ls with
  | nil => rfl
  | cons l ls ih =>
      rw [List.flatMap_cons, List.append_assoc, List.singleton_append,
        pieces_append_newline (hnot l List.mem_cons_self),
        ih fun l' hl' => hnot l' (List.mem_cons_of_mem l hl')]
      rfl

end ConsistsOf

end Text

open Text

/-! ### The heading -/

theorem Cause.newline_not_mem_name (cause : Cause) : '\n' ∉ cause.name.toList := by
  cases cause <;> simp [name]

/-- A tip shows a newline in its escaped form. -/
theorem Cause.newline_not_mem_tip {cause : Cause} {tip : String} (h : cause.tip? = some tip) :
    '\n' ∉ tip.toList := by
  cases cause with
  | unrecognized c =>
      obtain rfl := Option.some.inj h
      simp [newline_not_mem_escapeChar]
  | unknownKind name => cases h

/-- The heading is one line, whatever character it is about. -/
theorem Error.exists_heading_line (e : Error) :
    ∃ heading, ConsistsOf e.heading.toList [heading] := by
  have hname : '\n' ∉ e.name.toList := e.cause.newline_not_mem_name
  cases htip : e.tip? with
  | none =>
      have hline : '\n' ∉ "Error: ".toList ++ e.name.toList := by simp [hname]
      have htext : e.heading.toList = "Error: ".toList ++ e.name.toList ++ ['\n'] := by
        simp [heading, htip]
      exact ⟨_, htext ▸ ConsistsOf.single hline⟩
  | some tip =>
      have hline : '\n' ∉ "Error: ".toList ++ (e.name.toList ++ (" (".toList ++
          (tip.toList ++ [')']))) := by
        simp [hname, Cause.newline_not_mem_tip htip]
      have htext : e.heading.toList = "Error: ".toList ++ (e.name.toList ++ (" (".toList ++
          (tip.toList ++ [')']))) ++ ['\n'] := by
        simp [heading, htip]
      exact ⟨_, htext ▸ ConsistsOf.single hline⟩

/-! ### The lines of an excerpt -/

theorem not_mem_toDigits {c : Char} (hc : c.isDigit = false) (n : Nat) : c ∉ Nat.toDigits 10 n := by
  intro h
  rw [Nat.isDigit_of_mem_toDigits (by decide) (by decide) h] at hc
  cases hc

theorem Excerpt.consistsOf_text (e : Excerpt) (hshown : '\n' ∉ e.shown.toList) :
    ConsistsOf e.text.toList
      [e.gutter.toList, e.number.repr.toList ++ (" | ".toList ++ e.shown.toList),
        e.gutter.toList ++ (' ' :: e.caret.toList)] := by
  have hgutter : '\n' ∉ e.gutter.toList := by simp [gutter]
  have hline : '\n' ∉ e.number.repr.toList ++ (" | ".toList ++ e.shown.toList) := by
    simp [not_mem_toDigits, hshown]
  have hcaret : '\n' ∉ e.gutter.toList ++ (' ' :: e.caret.toList) := by
    simp [hgutter, caret]
  have htext : e.text.toList = (e.gutter.toList ++ ['\n']) ++
      ((e.number.repr.toList ++ (" | ".toList ++ e.shown.toList) ++ ['\n']) ++
        (e.gutter.toList ++ (' ' :: e.caret.toList) ++ ['\n'])) := by
    simp [text]
  rw [htext]
  exact (ConsistsOf.single hgutter).append ((ConsistsOf.single hline).append (.single hcaret))

/-- The lines below the heading of a report for the place between two parts of a text: a bar, the
line around the place without its indent and the white space at its end, and the caret. -/
def placeLines (front back : List Char) : List (List Char) :=
  let number := (front.count '\n' + 1).repr
  let margin := List.replicate (number.length + 1) ' '
  let column := (behindNewlines front).length
  let removed := indentLength (lineAround front back)
  [margin ++ ['|'],
    number.toList ++ (" | ".toList ++ trimEnd ((lineAround front back).dropWhile isIndent)),
    margin ++ ("| ".toList ++ (List.replicate (column - removed) '-' ++ ['^']))]

theorem newline_not_mem_shown_around (front back : List Char) :
    '\n' ∉ (Excerpt.around front back).shown.toList := by
  rw [Excerpt.around, String.toList_ofList]
  exact not_mem_trimEnd fun h =>
    newline_not_mem_lineAround front back ((List.dropWhile_sublist isIndent).subset h)

theorem consistsOf_around (front back : List Char) :
    ConsistsOf (Excerpt.around front back).text.toList (placeLines front back) := by
  simpa [placeLines, Excerpt.around, Excerpt.gutter, Excerpt.caret] using
    (Excerpt.around front back).consistsOf_text (newline_not_mem_shown_around front back)

/-- The first bar of a line is the one behind a part without bars. -/
theorem idxOf?_bar {as : List Char} (has : '|' ∉ as) (bs : List Char) :
    (as ++ '|' :: bs).idxOf? '|' = some as.length := by
  induction as with
  | nil => simp [List.idxOf?_cons]
  | cons a as ih =>
      rw [List.mem_cons, not_or] at has
      simp [List.idxOf?_cons, Ne.symm has.1, ih has.2]

/-- The bars stand one below the other, behind the place for the number and a space. -/
theorem idxOf?_bar_of_mem_placeLines {front back line : List Char}
    (h : line ∈ placeLines front back) :
    line.idxOf? '|' = some ((front.count '\n' + 1).repr.length + 1) := by
  have hmargin : '|' ∉ List.replicate ((front.count '\n' + 1).repr.length + 1) ' ' := by simp
  have hnumber : '|' ∉ (front.count '\n' + 1).repr.toList ++ [' '] := by simp [not_mem_toDigits]
  simp only [placeLines, List.mem_cons, List.not_mem_nil, or_false] at h
  rcases h with rfl | rfl | rfl
  · simpa using idxOf?_bar hmargin []
  · rw [← String.length_toList]
    simpa using idxOf?_bar hnumber _
  · simpa using idxOf?_bar hmargin _

/-- A report on a place past the end of the text consists of two lines and tells the offset. Any
other report consists of four lines, and these three below its heading: the bar alone, the line
around the place with its number, and the caret behind as many dashes as there are characters shown
in front of it. The bars stand one below the other. -/
theorem report_layout {e : Error} {source text : String} (h : e.report source = .ok text) :
    (source.utf8ByteSize < e.position →
      ∃ heading, ConsistsOf text.toList [heading, "-> offset ".toList ++ e.position.repr.toList]) ∧
      (e.position ≤ source.utf8ByteSize →
        text.toList.count '\n' = 4 ∧ text.toList.getLast? = some '\n' ∧
          ∃ front back heading, source.toList = front ++ back ∧ byteLength front = e.position ∧
            ConsistsOf text.toList (heading :: placeLines front back) ∧
            ∀ line ∈ placeLines front back,
              line.idxOf? '|' = some ((front.count '\n' + 1).repr.length + 1)) := by
  obtain ⟨heading, hheading⟩ := e.exists_heading_line
  rcases Error.report_eq_ok_iff.mp h with ⟨hlt, rfl⟩ | ⟨front, back, hsource, hposition, -, rfl⟩
  · refine ⟨fun _ => ⟨heading, ?_⟩, fun hle => absurd hlt (Nat.not_lt_of_le hle)⟩
    have hoffset : '\n' ∉ "-> offset ".toList ++ e.position.repr.toList := by
      simp [not_mem_toDigits]
    simpa [List.append_assoc] using hheading.append (.single hoffset)
  · have hle : e.position ≤ source.utf8ByteSize := hposition ▸ byteLength_le_size hsource
    have hlines := hheading.append (consistsOf_around front back)
    rw [← String.toList_append, List.singleton_append] at hlines
    refine ⟨fun hlt => absurd hlt (Nat.not_lt_of_le hle), fun _ => ⟨hlines.count_newline,
      hlines.getLast?_eq (List.cons_ne_nil _ _), front, back, heading, hsource, hposition, hlines,
      fun line => idxOf?_bar_of_mem_placeLines⟩⟩

/-- A newline as the offending character at the end of the second line, and a place past the end. -/
theorem report_layout_newline :
    (∃ text, Error.report ⟨.unrecognized '\n', 5⟩ "1\n\t 2\n" = .ok text ∧
      5 ≤ "1\n\t 2\n".utf8ByteSize ∧
        text.toList.count '\n' = 4 ∧ text.toList.getLast? = some '\n' ∧
          ∃ front back heading, "1\n\t 2\n".toList = front ++ back ∧ byteLength front = 5 ∧
            ConsistsOf text.toList (heading :: placeLines front back) ∧
            ∀ line ∈ placeLines front back,
              line.idxOf? '|' = some ((front.count '\n' + 1).repr.length + 1)) ∧
      ∃ text, Error.report ⟨.unknownKind "\n", 12⟩ "1\n" = .ok text ∧ "1\n".utf8ByteSize < 12 ∧
        ∃ heading, ConsistsOf text.toList [heading, "-> offset ".toList ++ (12).repr.toList] := by
  have hinside : Error.report ⟨.unrecognized '\n', 5⟩ "1\n\t 2\n" =
      .ok ("Error: UnrecognizedInput (Unrecognized character `\\n`, expected a number, " ++
        "an operator or whitespace)\n  |\n2 | 2\n  | -^\n") := by
    decide +kernel
  have hpast : Error.report ⟨.unknownKind "\n", 12⟩ "1\n" =
      .ok "Error: UnknownTokenType\n-> offset 12\n" := by
    decide +kernel
  exact ⟨⟨_, hinside, by decide, (report_layout hinside).2 (by decide)⟩,
    ⟨_, hpast, by decide, (report_layout hpast).1 (by decide)⟩⟩

end ArithmeticTokens
