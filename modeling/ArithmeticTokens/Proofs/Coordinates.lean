import ArithmeticTokens.Proofs.Placement
import Mathlib.Data.Prod.Lex

/-!
# Coordinates of a place

The number of its line and the offset in this line are coordinates of a place. One byte further on
stands the next offset of the same line or, behind a newline, the start of the next line
(`LiesAt.next`), and so the coordinates of a text grow with the place in lexicographic order. The
way back is a count: all the lines in front, and then the offset (`exists_locate_eq_add`).
-/

namespace ArithmeticTokens.Text

/-- The number of the line, and then the offset in it. -/
def Line.coordinates (line : Line) : ℕ ×ₗ ℕ := toLex (line.number, line.offset)

/-! ### One byte further on -/

theorem count_newline_take_succ (source : String) (position : Nat) :
    ((bytes source).take (position + 1)).count newline =
      ((bytes source).take position).count newline +
        (bytes source)[position]?.toList.count newline := by
  rw [List.take_add_one, List.count_append]

namespace LiesAt

variable {source : String} {position start stop start' stop' : Nat} {line line' : Line}

/-- Behind a newline starts the next line. -/
theorem next_of_newlineAt (h : LiesAt source position start stop line)
    (h' : LiesAt source (position + 1) start' stop' line') (hnewline : NewlineAt source position) :
    line'.number = line.number + 1 ∧ line'.offset = 0 := by
  have hcount := count_newline_take_succ source position
  have hnumber := h.number_eq
  have hnumber' := h'.number_eq
  have hoffset' := h'.offset_eq
  have hstart : position < start' :=
    Nat.lt_of_not_le fun hle => h'.front position hle (Nat.lt_succ_self position) hnewline
  rw [hnewline, Option.toList_some, List.count_singleton_self] at hcount
  omega

/-- Any other byte belongs to the line of the place behind it. -/
theorem next_of_not_newlineAt (h : LiesAt source position start stop line)
    (h' : LiesAt source (position + 1) start' stop' line')
    (hnewline : ¬ NewlineAt source position) :
    line'.number = line.number ∧ line'.offset = line.offset + 1 := by
  have hcount := count_newline_take_succ source position
  have hnumber := h.number_eq
  have hnumber' := h'.number_eq
  have hoffset := h.offset_eq
  have hoffset' := h'.offset_eq
  have hnone : (bytes source)[position]?.toList.count newline = 0 := by
    rw [List.count_eq_zero, Option.mem_toList]
    exact hnewline
  -- Both lines start behind the last newline in front of `position`.
  have hle : start ≤ start' := h.start_le h' (Nat.le_succ position)
  have hge : start' ≤ start := by
    refine Nat.le_of_not_lt fun hlt => ?_
    rcases h'.start_eq with rfl | hlast
    · exact Nat.not_lt_zero _ hlt
    · by_cases hplace : start' - 1 < position
      · exact h.front _ (by omega) hplace hlast
      · exact hnewline (by rwa [show start' - 1 = position by omega] at hlast)
  omega

/-- Whatever the byte is, the place behind it has greater coordinates. -/
theorem coordinates_lt_succ (h : LiesAt source position start stop line)
    (h' : LiesAt source (position + 1) start' stop' line') :
    line.coordinates < line'.coordinates := by
  rw [Line.coordinates, Line.coordinates, Prod.Lex.toLex_lt_toLex]
  by_cases hnewline : NewlineAt source position
  · obtain ⟨hnumber, -⟩ := h.next_of_newlineAt h' hnewline
    exact Or.inl (by omega)
  · obtain ⟨hnumber, hoffset⟩ := h.next_of_not_newlineAt h' hnewline
    exact Or.inr ⟨hnumber.symm, by omega⟩

/-- The coordinates grow from place to place. -/
theorem coordinates_lt {position' : Nat} (h : LiesAt source position start stop line)
    (h' : LiesAt source position' start' stop' line') (hlt : position < position') :
    line.coordinates < line'.coordinates := by
  induction position', hlt using Nat.le_induction generalizing start' stop' line' with
  | base => exact h.coordinates_lt_succ h'
  | succ position' _ ih =>
      obtain ⟨middle, _, _, -, hmiddle⟩ :=
        exists_liesAt_of_le (Nat.le_of_succ_le h'.position_le)
      exact (ih hmiddle).trans (hmiddle.coordinates_lt_succ h')

end LiesAt

/-! ### Back to the place -/

/-- Whole lines are the first ones of a text, and one for each of their newlines. -/
theorem Lines.take_lines {before : List Char} (h : Lines before) (cs : List Char) :
    ((lines (before ++ cs)).take (before.count '\n')).flatten = before := by
  induction h with
  | nil => rfl
  | @cons line before hline tail ih =>
      have hcount : (line ++ '\n' :: before).count '\n' = before.count '\n' + 1 := by
        simp [List.count_eq_zero_of_not_mem hline]
      rw [hcount, List.append_assoc, List.cons_append, lines_append_newline hline,
        List.take_succ_cons, List.flatten_cons, ih, List.append_assoc, List.singleton_append]

/-- A place is as far from the start of a text as the lines in front are long, and the offset. -/
theorem exists_locate_eq_add {source : String} {position : Nat}
    (h : position ≤ source.utf8ByteSize) :
    ∃ line, Line.locate source position = some line ∧
      position =
        byteLength ((lines source.toList).take (line.number - 1)).flatten + line.offset := by
  rw [utf8ByteSize_eq_byteLength] at h
  obtain ⟨before, as, rest, offset, hsource, hisLine, rfl, hoffset⟩ := exists_isLine _ h
  refine ⟨_, hisLine.locate hsource hoffset, ?_⟩
  rw [hsource, Nat.add_sub_cancel, hisLine.before.take_lines]

/-- The coordinates of a place grow with it in lexicographic order, so that no two places share
them, and give it back with the lengths of the lines in front. One byte further on, even at the end
of the text, the offset is one more in the same line, or it is zero in the next line, and the latter
exactly behind a newline. -/
theorem locate_coordinates (source : String) :
    (∀ p q, p < q → q ≤ source.utf8ByteSize →
      ∃ line line', Line.locate source p = some line ∧ Line.locate source q = some line' ∧
        line.coordinates < line'.coordinates) ∧
      (∀ p q line line', Line.locate source p = some line → Line.locate source q = some line' →
        line.coordinates = line'.coordinates → p = q) ∧
      (∀ p, p ≤ source.utf8ByteSize →
        ∃ line, Line.locate source p = some line ∧
          p = byteLength ((lines source.toList).take (line.number - 1)).flatten + line.offset) ∧
      ∀ p, p < source.utf8ByteSize →
        ∃ line line', Line.locate source p = some line ∧
          Line.locate source (p + 1) = some line' ∧
          (NewlineAt source p ∧ line'.number = line.number + 1 ∧ line'.offset = 0 ∨
            ¬ NewlineAt source p ∧ line'.number = line.number ∧
              line'.offset = line.offset + 1) := by
  refine ⟨fun p q hlt hle => ?_, fun p q line line' hline hline' heq => ?_,
    fun p hle => exists_locate_eq_add hle, fun p hlt => ?_⟩
  · obtain ⟨line, _, _, hline, hlies⟩ := exists_liesAt_of_le (Nat.le_trans (Nat.le_of_lt hlt) hle)
    obtain ⟨line', _, _, hline', hlies'⟩ := exists_liesAt_of_le hle
    exact ⟨line, line', hline, hline', hlies.coordinates_lt hlies' hlt⟩
  · obtain ⟨_, _, hlies⟩ := locate_eq_some_iff.mp hline
    obtain ⟨_, _, hlies'⟩ := locate_eq_some_iff.mp hline'
    rcases Nat.lt_trichotomy p q with hlt | rfl | hlt
    · exact absurd heq (hlies.coordinates_lt hlies' hlt).ne
    · rfl
    · exact absurd heq (hlies'.coordinates_lt hlies hlt).ne'
  · obtain ⟨line, _, _, hline, hlies⟩ := exists_liesAt_of_le (Nat.le_of_lt hlt)
    obtain ⟨line', _, _, hline', hlies'⟩ := exists_liesAt_of_le (Nat.succ_le_of_lt hlt)
    refine ⟨line, line', hline, hline', ?_⟩
    by_cases hnewline : NewlineAt source p
    · exact Or.inl ⟨hnewline, hlies.next_of_newlineAt hlies' hnewline⟩
    · exact Or.inr ⟨hnewline, hlies.next_of_not_newlineAt hlies' hnewline⟩

/-- From inside a character, and over the newline at the end of the text. -/
theorem locate_coordinates_last_newline :
    (∃ line line', Line.locate "é\n" 1 = some line ∧ Line.locate "é\n" 3 = some line' ∧
        line.coordinates < line'.coordinates) ∧
      (∀ p, Line.locate "é\n" p = some ⟨2, "", 0⟩ → p = 3) ∧
      (∃ line, Line.locate "é\n" 3 = some line ∧
        3 = byteLength ((lines "é\n".toList).take (line.number - 1)).flatten + line.offset) ∧
      ∃ line line', Line.locate "é\n" 2 = some line ∧ Line.locate "é\n" 3 = some line' ∧
        (NewlineAt "é\n" 2 ∧ line'.number = line.number + 1 ∧ line'.offset = 0 ∨
          ¬ NewlineAt "é\n" 2 ∧ line'.number = line.number ∧ line'.offset = line.offset + 1) := by
  have hend : Line.locate "é\n" 3 = some ⟨2, "", 0⟩ := by decide +kernel
  exact ⟨(locate_coordinates _).1 1 3 (by decide) (by decide),
    fun p hp => (locate_coordinates _).2.1 p 3 _ _ hp hend rfl,
    (locate_coordinates _).2.2.1 3 (by decide), (locate_coordinates _).2.2.2 2 (by decide)⟩

end ArithmeticTokens.Text
