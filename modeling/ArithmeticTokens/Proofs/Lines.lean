import ArithmeticTokens.Text.Line
import Mathlib.Data.List.TakeWhile

/-!
# Where a place lies

Around a place a text is some whole lines, then the line of the place, which goes on to its newline
or to the end of the text (`IsLine`, `exists_isLine`). The whole lines in front change nothing but
the number and the offset from which the search goes on (`Lines.locateIn`), so that the search ends
in the line of the place, or finds nothing when this is the end of the text and then gives the same
line (`IsLine.locate`). At a place that cuts the text in two, the line is put together from what is
next to the cut on both sides (`lineAround`).
-/

namespace ArithmeticTokens.Text

@[simp] theorem utf8Size_newline : '\n'.utf8Size = 1 := rfl

/-! ### The cut at one character -/

theorem decide_ne_of_not_mem {c : Char} {as : List Char} (h : c ∉ as) :
    ∀ a ∈ as, decide (a ≠ c) = true :=
  fun _ ha => decide_eq_true fun heq => h (heq ▸ ha)

theorem takeWhile_ne_append {c : Char} {as : List Char} (h : c ∉ as) (bs : List Char) :
    (as ++ c :: bs).takeWhile (· ≠ c) = as := by
  rw [List.takeWhile_append_of_pos (decide_ne_of_not_mem h), List.takeWhile_cons_of_neg (by simp),
    List.append_nil]

theorem dropWhile_ne_append {c : Char} {as : List Char} (h : c ∉ as) (bs : List Char) :
    (as ++ c :: bs).dropWhile (· ≠ c) = c :: bs := by
  rw [List.dropWhile_append_of_pos (decide_ne_of_not_mem h), List.dropWhile_cons_of_neg (by simp)]

/-! ### The cut behind newlines -/

/-- The pieces of a text: its lines with their newlines, then what follows the last newline, even
when this is empty. -/
def pieces (cs : List Char) : List (List Char) := cs.foldr placeInFront [[]]

theorem placeInFront_newline (ls : List (List Char)) : placeInFront '\n' ls = ['\n'] :: ls := by
  cases ls <;> simp [placeInFront]

theorem placeInFront_cons {c : Char} (hc : c ≠ '\n') (line : List Char) (ls : List (List Char)) :
    placeInFront c (line :: ls) = (c :: line) :: ls := by
  simp [placeInFront, hc]

/-- A text is cut behind its first newline. -/
theorem foldr_placeInFront_newline {as : List Char} (has : '\n' ∉ as) (ls : List (List Char)) :
    (as ++ ['\n']).foldr placeInFront ls = (as ++ ['\n']) :: ls := by
  induction as with
  | nil => exact placeInFront_newline ls
  | cons a as ih =>
      rw [List.mem_cons, not_or] at has
      rw [List.cons_append, List.foldr_cons, ih has.2, placeInFront_cons (Ne.symm has.1)]

theorem pieces_append_newline {as : List Char} (has : '\n' ∉ as) (bs : List Char) :
    pieces (as ++ '\n' :: bs) = (as ++ ['\n']) :: pieces bs := by
  rw [List.append_cons, pieces, List.foldr_append, foldr_placeInFront_newline has, pieces]

theorem lines_append_newline {as : List Char} (has : '\n' ∉ as) (bs : List Char) :
    lines (as ++ '\n' :: bs) = (as ++ ['\n']) :: lines bs := by
  rw [List.append_cons, lines, List.foldr_append, foldr_placeInFront_newline has, lines]

theorem lines_of_not_mem {as : List Char} (has : '\n' ∉ as) (hne : as ≠ []) : lines as = [as] := by
  induction as with
  | nil => exact absurd rfl hne
  | cons a as ih =>
      rw [List.mem_cons, not_or] at has
      cases as with
      | nil => rfl
      | cons b bs => rw [lines, List.foldr_cons, ← lines, ih has.2 (List.cons_ne_nil b bs),
          placeInFront_cons (Ne.symm has.1)]

theorem behindNewlines_of_not_mem {as : List Char} (has : '\n' ∉ as) : behindNewlines as = as := by
  have hreverse : '\n' ∉ as.reverse := fun h => has (List.mem_reverse.mp h)
  rw [behindNewlines, List.takeWhile_eq_self_iff.mpr (decide_ne_of_not_mem hreverse),
    List.reverse_reverse]

theorem behindNewlines_append_newline (as bs : List Char) :
    behindNewlines (as ++ '\n' :: bs) = behindNewlines bs := by
  have hstop : ('\n' :: as.reverse).takeWhile (· ≠ '\n') = [] := by simp
  rw [behindNewlines, behindNewlines, List.reverse_append, List.reverse_cons, List.append_assoc,
    List.singleton_append, List.takeWhile_append, hstop, List.append_nil]
  split
  · rename_i hlength
    rw [(List.takeWhile_prefix _).eq_of_length hlength]
  · rfl

/-- What is left of the line, without the newline. -/
def restOfLine (cs : List Char) : List Char := cs.takeWhile (· ≠ '\n')

theorem restOfLine_newline (cs : List Char) : restOfLine ('\n' :: cs) = [] := rfl

theorem restOfLine_cons {c : Char} (hc : c ≠ '\n') (cs : List Char) :
    restOfLine (c :: cs) = c :: restOfLine cs :=
  List.takeWhile_cons_of_pos (by simpa using hc)

theorem newline_not_mem_restOfLine (cs : List Char) : '\n' ∉ restOfLine cs := by
  intro h
  simpa using List.mem_takeWhile_imp h

/-- The rest of a line ends at a newline or at the end of the text. -/
theorem exists_restOfLine_append (cs : List Char) :
    ∃ rest, cs = restOfLine cs ++ rest ∧ (rest = [] ∨ ∃ back, rest = '\n' :: back) := by
  induction cs with
  | nil => exact ⟨[], rfl, Or.inl rfl⟩
  | cons c cs ih =>
      by_cases hc : c = '\n'
      · rw [hc]
        exact ⟨'\n' :: cs, rfl, Or.inr ⟨cs, rfl⟩⟩
      · obtain ⟨rest, hcs, hrest⟩ := ih
        refine ⟨rest, ?_, hrest⟩
        rw [restOfLine_cons hc, List.cons_append]
        exact congrArg (c :: ·) hcs

/-! ### Whole lines -/

/-- The text consists of whole lines, each with its newline. -/
inductive Lines : List Char → Prop
  | nil : Lines []
  | cons {line cs : List Char} (hline : '\n' ∉ line) (tail : Lines cs) : Lines (line ++ '\n' :: cs)

theorem Lines.append {before before' : List Char} (h : Lines before) (h' : Lines before') :
    Lines (before ++ before') := by
  induction h with
  | nil => exact h'
  | @cons line before hline tail ih =>
      rw [List.append_assoc, List.cons_append]
      exact .cons hline ih

/-- Unless there are none, the last character is a newline. -/
theorem Lines.eq_nil_or_concat {before : List Char} (h : Lines before) :
    before = [] ∨ ∃ front, before = front ++ ['\n'] := by
  induction h with
  | nil => exact Or.inl rfl
  | @cons line before _ _ ih =>
      rcases ih with rfl | ⟨front, rfl⟩
      · exact Or.inr ⟨line, rfl⟩
      · exact Or.inr ⟨line ++ '\n' :: front, by simp⟩

theorem Lines.behindNewlines_append {before : List Char} (h : Lines before) (cs : List Char) :
    behindNewlines (before ++ cs) = behindNewlines cs := by
  obtain rfl | ⟨front, rfl⟩ := h.eq_nil_or_concat
  · rfl
  · rw [List.append_assoc, List.singleton_append, behindNewlines_append_newline]

/-- The search goes past whole lines in front of the place. -/
theorem Lines.locateIn {before : List Char} (h : Lines before) {position start : Nat}
    (hposition : start + byteLength before ≤ position) (number : Nat) (cs : List Char) :
    Line.locateIn position number start (lines (before ++ cs)) =
      Line.locateIn position (number + before.count '\n') (start + byteLength before)
        (lines cs) := by
  induction h generalizing number start with
  | nil => simp
  | @cons line before hline tail ih =>
      have hlength : byteLength (line ++ '\n' :: before) =
          byteLength (line ++ ['\n']) + byteLength before := by
        simp
        omega
      have hcount : (line ++ '\n' :: before).count '\n' = 1 + before.count '\n' := by
        simp [List.count_eq_zero_of_not_mem hline, Nat.add_comm]
      rw [hlength, ← Nat.add_assoc] at hposition
      have hstop : ¬ (start ≤ position ∧ position < start + byteLength (line ++ ['\n'])) := by
        omega
      rw [List.append_assoc, List.cons_append, lines_append_newline hline, Line.locateIn,
        if_neg hstop, ih hposition, hcount, hlength, Nat.add_assoc, Nat.add_assoc]

/-! ### The line of a place -/

/-- Between two parts of a text stands one of its lines, without the newline. -/
structure IsLine (before as rest : List Char) : Prop where
  before : Lines before
  not_mem : '\n' ∉ as
  rest : rest = [] ∨ ∃ back, rest = '\n' :: back

/-- Every place of a text is in one of its lines or at its end. -/
theorem exists_isLine (cs : List Char) {position : Nat} (h : position ≤ byteLength cs) :
    ∃ before as rest offset, cs = before ++ (as ++ rest) ∧ IsLine before as rest ∧
      position = byteLength before + offset ∧ offset ≤ byteLength as := by
  by_cases hnewline : '\n' ∈ cs
  · obtain ⟨line, back, rfl, hline⟩ := List.eq_append_cons_of_mem hnewline
    by_cases hplace : position ≤ byteLength line
    · exact ⟨[], line, '\n' :: back, position, rfl, ⟨.nil, hline, Or.inr ⟨back, rfl⟩⟩, by simp,
        hplace⟩
    · have hback : position - byteLength (line ++ ['\n']) ≤ byteLength back := by
        simp at h ⊢
        omega
      obtain ⟨before, as, rest, offset, rfl, hisLine, hoffset, hle⟩ := exists_isLine back hback
      refine ⟨line ++ '\n' :: before, as, rest, offset, by simp,
        ⟨.cons hline hisLine.before, hisLine.not_mem, hisLine.rest⟩, ?_, hle⟩
      simp at hoffset ⊢
      omega
  · exact ⟨[], cs, [], position, by simp, ⟨.nil, hnewline, Or.inl rfl⟩, by simp, h⟩
termination_by cs.length
decreasing_by subst_vars; simp; omega

/-- A text is some whole lines, and then a text without a newline. -/
theorem exists_lines (cs : List Char) : ∃ before as, cs = before ++ as ∧ Lines before ∧ '\n' ∉ as := by
  obtain ⟨before, as, rest, offset, rfl, hisLine, hposition, hoffset⟩ :=
    exists_isLine cs (Nat.le_refl (byteLength cs))
  rcases hisLine.rest with rfl | ⟨back, rfl⟩
  · exact ⟨before, as, by simp, hisLine.before, hisLine.not_mem⟩
  · simp at hposition
    omega

/-- A text that ends in a newline consists of whole lines. -/
theorem lines_concat_newline (cs : List Char) : Lines (cs ++ ['\n']) := by
  obtain ⟨before, as, rfl, hbefore, has⟩ := exists_lines cs
  rw [List.append_assoc]
  exact hbefore.append (.cons has .nil)

/-- The place is found in its line: by the search, or as the end of the text. -/
theorem IsLine.locate {source : String} {before as rest : List Char} {offset : Nat}
    (h : IsLine before as rest) (hsource : source.toList = before ++ (as ++ rest))
    (hoffset : offset ≤ byteLength as) :
    Line.locate source (byteLength before + offset) =
      some ⟨before.count '\n' + 1, String.ofList (as ++ rest.take 1), offset⟩ := by
  have hsize : ¬ source.utf8ByteSize < byteLength before + offset := by
    rw [utf8ByteSize_eq_byteLength, hsource]
    simp
    omega
  rw [Line.locate, if_neg hsize, hsource, h.before.locateIn (by omega), Nat.zero_add,
    Nat.add_comm 1, Option.some.injEq]
  rcases h.rest with rfl | ⟨back, rfl⟩
  · rw [List.append_nil, List.take_nil, List.append_nil]
    -- Only a place in front of a character of the last line is found by the search.
    by_cases hend : offset < byteLength as
    · have hne : as ≠ [] := by
        rintro rfl
        simp at hend
      rw [lines_of_not_mem h.not_mem hne, Line.locateIn, if_pos (by omega), Option.getD_some,
        Nat.add_sub_cancel_left]
    · have hnone : Line.locateIn (byteLength before + offset) (before.count '\n' + 1)
          (byteLength before) (lines as) = none := by
        cases as with
        | nil => rfl
        | cons a as =>
            rw [lines_of_not_mem h.not_mem (List.cons_ne_nil a as), Line.locateIn,
              if_neg (by omega), Line.locateIn]
      rw [hnone, Option.getD_none, Line.atEnd, hsource, List.append_nil,
        h.before.behindNewlines_append, behindNewlines_of_not_mem h.not_mem, List.count_append,
        List.count_eq_zero_of_not_mem h.not_mem, Nat.add_zero, Nat.le_antisymm hoffset (by omega)]
  · rw [lines_append_newline h.not_mem, Line.locateIn, if_pos, Option.getD_some,
      Nat.add_sub_cancel_left, List.take_succ_cons, List.take_zero]
    simp
    omega

/-! ### The line around a cut -/

/-- What follows the last newline is the last of the lines that a text is cut into. -/
theorem exists_lines_append_behindNewlines (cs : List Char) :
    ∃ before, cs = before ++ behindNewlines cs ∧ Lines before ∧ '\n' ∉ behindNewlines cs := by
  obtain ⟨before, as, rfl, hbefore, has⟩ := exists_lines cs
  have hlast : behindNewlines (before ++ as) = as := by
    rw [hbefore.behindNewlines_append, behindNewlines_of_not_mem has]
  exact ⟨before, by rw [hlast], hbefore, by rwa [hlast]⟩

/-- The line around the place between two parts of a text, without its newline. -/
def lineAround (front back : List Char) : List Char := behindNewlines front ++ restOfLine back

theorem newline_not_mem_lineAround (front back : List Char) : '\n' ∉ lineAround front back := by
  obtain ⟨-, -, -, hfront⟩ := exists_lines_append_behindNewlines front
  simp [lineAround, hfront, newline_not_mem_restOfLine]

/-- Where a text can be cut, its line is found around the cut. -/
theorem Line.exists_locate_append {source : String} {front back : List Char}
    (hsource : source.toList = front ++ back) :
    ∃ newline, (newline = [] ∨ newline = ['\n']) ∧
      locate source (byteLength front) =
        some ⟨front.count '\n' + 1, String.ofList (lineAround front back ++ newline),
          byteLength (behindNewlines front)⟩ := by
  obtain ⟨before, hfront, hbefore, hlast⟩ := exists_lines_append_behindNewlines front
  obtain ⟨rest, hback, hrest⟩ := exists_restOfLine_append back
  have hisLine : IsLine before (lineAround front back) rest :=
    ⟨hbefore, newline_not_mem_lineAround front back, hrest⟩
  have hcount : front.count '\n' = before.count '\n' := by
    calc
      front.count '\n' = (before ++ behindNewlines front).count '\n' := congrArg _ hfront
      _ = before.count '\n' := by
        rw [List.count_append, List.count_eq_zero_of_not_mem hlast, Nat.add_zero]
  have hparts : source.toList = before ++ (lineAround front back ++ rest) := by
    rw [hsource, lineAround, List.append_assoc, ← hback, ← List.append_assoc, ← hfront]
  have hplace : byteLength front = byteLength before + byteLength (behindNewlines front) := by
    rw [← byteLength_append, ← hfront]
  refine ⟨rest.take 1, ?_, ?_⟩
  · rcases hrest with rfl | ⟨tail, rfl⟩ <;> simp
  · rw [hplace, hcount]
    exact hisLine.locate hparts (by simp [lineAround])

end ArithmeticTokens.Text
