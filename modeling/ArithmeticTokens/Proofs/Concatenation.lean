import ArithmeticTokens.Proofs.Acceptance

/-!
# Two texts in a row

What becomes of two texts when they are put together is decided at their border. An error in the
first stays, and an error in the second only moves. If both are accepted, their tokens stay too,
unless a number runs over the border: then the last token of the first text and the first token of
the second are one number, whether the former was a number itself or a minus sign.
-/

namespace ArithmeticTokens

open Text

/-- The number that two tokens make when the first touches the second. -/
def Token.join (t u : Token) : Token :=
  ⟨.number, t.value ++ u.value, ⟨t.span.start, u.span.stop⟩⟩

theorem Token.join_ofChars (kind kind' : Kind) (n : Nat) (v w : List Char) :
    (ofChars kind n v).join (ofChars kind' (n + v.length) w) = ofChars .number n (v ++ w) := by
  simp [join, ofChars, Nat.add_assoc]

namespace Layout

variable {ahead as bs : List Char} {n : Nat} {ts us : List Token}

/-- A text that starts with a digit starts with an unsigned number. -/
theorem exists_number_of_headIs (h : Layout ahead n bs us) (hb : headIs Char.isDigit bs = true) :
    ∃ v cs rest, bs = v ++ cs ∧ us = Token.ofChars .number n v :: rest ∧ v ≠ [] ∧
      (∀ c ∈ v, c.isDigit = true) ∧ seam v (cs ++ ahead) = false ∧
      Layout ahead (n + v.length) cs rest := by
  cases h with
  | done _ => simp at hb
  | blank hc _ => simp [isDigit_of_mem_blanks hc] at hb
  | @token _ kind v cs rest hv hseam tail =>
      rw [headIs_append hv.ne_nil] at hb
      cases kind with
      | number =>
          cases hv with
          | digits hne hv => exact ⟨v, cs, rest, rfl, rfl, hne, hv, hseam, tail⟩
          | signed _ _ => exact absurd hb (by simp)
      | operator =>
          cases hv with
          | operator hc => simp [isDigit_of_mem_operators hc] at hb

end Layout

/-- In front of a seam, digits prolong a token to a number. -/
theorem Kind.spells_append_digits {kind : Kind} {v w : List Char} (hv : kind.rule.Spells v)
    (hs : seam v w = true) (hw : ∀ c ∈ w, c.isDigit = true) : Rule.number.Spells (v ++ w) := by
  have hne : w ≠ [] := by
    rintro rfl
    simp at hs
  cases kind with
  | number => exact hv.append hw
  | operator =>
      cases hv with
      | @operator c hc =>
          have hminus : c = '-' := by
            simp only [seam, lastIs, List.getLast?_singleton, Option.any_some,
              isDigit_of_mem_operators hc, Bool.false_or, Bool.and_eq_true,
              decide_eq_true_eq] at hs
            exact hs.1
          rw [hminus]
          exact .signed hne hw

namespace Layout

variable {ahead as bs : List Char} {n : Nat} {ts us : List Token}

/-- Where there is a seam, the tokens on both sides of it are joined and all others stay. -/
theorem exists_join (ha : Layout [] n as ts) (hb : Layout ahead (n + as.length) bs us)
    (hs : seam as bs = true) :
    ∃ init last first rest, ts = init ++ [last] ∧ us = first :: rest ∧
      Layout ahead n (as ++ bs) (init ++ last.join first :: rest) := by
  induction ha with
  | done n => simp at hs
  | @blank n c cs ts hc tail ih =>
      have hblank : seam ([] ++ [c]) bs = false := seam_blank hc
      have hcs : cs ≠ [] := by
        rintro rfl
        exact absurd hs (by simpa using hblank)
      rw [← List.singleton_append, seam_append_left hcs] at hs
      rw [List.length_cons, Nat.add_comm _ 1, ← Nat.add_assoc] at hb
      obtain ⟨init, last, first, rest, rfl, rfl, hlayout⟩ := ih hb hs
      exact ⟨init, last, first, rest, rfl, rfl, .blank hc hlayout⟩
  | @token n kind v cs ts hv hseam tail ih =>
      rw [List.length_append, ← Nat.add_assoc] at hb
      by_cases hcs : cs = []
      · -- The token touches the border, so it is the one that is joined.
        subst hcs
        rw [List.append_nil] at hs
        obtain rfl := tail.eq_nil_of_nil
        have hdigit : headIs Char.isDigit bs = true := (Bool.and_eq_true_iff.mp hs).2
        obtain ⟨w, cs, rest, rfl, rfl, hne, hw, hseam', tail'⟩ :=
          hb.exists_number_of_headIs hdigit
        rw [seam_append_right hne] at hs
        have hspells : Kind.number.rule.Spells (v ++ w) := Kind.spells_append_digits hv hs hw
        have htail : Layout ahead (n + (v ++ w).length) cs rest := by
          rwa [List.length_append, ← Nat.add_assoc]
        refine ⟨[], Token.ofChars kind n v, _, rest, rfl, rfl, ?_⟩
        rw [List.append_nil, ← List.append_assoc, List.length_nil, Nat.add_zero,
          Token.join_ofChars, List.nil_append]
        exact .token hspells (by rwa [seam_append_left hne]) htail
      · rw [seam_append_left hcs] at hs
        obtain ⟨init, last, first, rest, rfl, rfl, hlayout⟩ := ih hb hs
        refine ⟨Token.ofChars kind n v :: init, last, first, rest, rfl, rfl, ?_⟩
        rw [List.append_assoc, List.cons_append]
        refine .token hv ?_ hlayout
        rw [List.append_assoc, seam_append_right hcs]
        rwa [seam_append_right hcs] at hseam

end Layout

/-! ### The laws for whole texts -/

theorem lex_append_of_error_left {a b : String} {e : Error} (ha : lex a = .error e) :
    lex (a ++ b) = .error e := by
  obtain ⟨front, c, back, hsource, hfront, hc, rfl⟩ := lex_eq_error_iff.mp ha
  apply lex_eq_error_iff.mpr
  refine ⟨front, c, back ++ b.toList, ?_, hfront, hc, rfl⟩
  rw [String.toList_append, hsource, List.append_assoc, List.cons_append]

theorem lex_append_of_error_right {a b : String} {ts : List Token} {e : Error}
    (ha : lex a = .ok ts) (hb : lex b = .error e) :
    lex (a ++ b) = .error ⟨e.cause, a.utf8ByteSize + e.position⟩ := by
  obtain ⟨front, c, back, hsource, hfront, hc, rfl⟩ := lex_eq_error_iff.mp hb
  have hall := exists_lex_eq_ok_iff.mp ⟨ts, ha⟩
  apply lex_eq_error_iff.mpr
  refine ⟨a.toList ++ front, c, back, ?_, ?_, hc, ?_⟩
  · rw [String.toList_append, hsource, List.append_assoc]
  · intro d hd
    exact (List.mem_append.mp hd).elim (hall d) (hfront d)
  · rw [byteLength_append, utf8ByteSize_eq_byteLength]

/-- The layout of the second of two texts, moved behind the first. -/
theorem layout_shift_of_lex {a b : String} {ts us : List Token} (ha : lex a = .ok ts)
    (hb : lex b = .ok us) :
    Layout [] (0 + a.toList.length) b.toList (us.map (Token.shift a.utf8ByteSize)) := by
  have hshift := (lex_eq_ok_iff.mp hb).shift a.utf8ByteSize
  rw [Nat.zero_add, ← utf8ByteSize_eq_length ha]
  simpa using hshift

/-- Two texts in a row. An error in the first is the error of both, an error in the second moves
by the size of the first, and without a seam the tokens of the second follow those of the first.
At a seam the last token of the first text and the first token of the second become one number. -/
theorem lex_append (a b : String) :
    (∀ e, lex a = .error e → lex (a ++ b) = .error e) ∧
      (∀ ts e, lex a = .ok ts → lex b = .error e →
        lex (a ++ b) = .error ⟨e.cause, a.utf8ByteSize + e.position⟩) ∧
      (∀ ts us, lex a = .ok ts → lex b = .ok us → seam a.toList b.toList = false →
        lex (a ++ b) = .ok (ts ++ us.map (Token.shift a.utf8ByteSize))) ∧
      ∀ ts us, lex a = .ok ts → lex b = .ok us → seam a.toList b.toList = true →
        ∃ init last first rest, ts = init ++ [last] ∧ us = first :: rest ∧
          lex (a ++ b) = .ok (init ++ last.join (first.shift a.utf8ByteSize) ::
            rest.map (Token.shift a.utf8ByteSize)) := by
  refine ⟨fun e ha => lex_append_of_error_left ha,
    fun ts e ha hb => lex_append_of_error_right ha hb, ?_, ?_⟩
  · intro ts us ha hb hs
    have hlayout : Layout (b.toList ++ []) 0 a.toList ts :=
      (lex_eq_ok_iff.mp ha).congr_ahead (by simpa using hs)
    rw [lex_eq_ok_iff, String.toList_append]
    exact hlayout.append (layout_shift_of_lex ha hb)
  · intro ts us ha hb hs
    obtain ⟨init, last, first, rest, rfl, hus, hlayout⟩ :=
      (lex_eq_ok_iff.mp ha).exists_join (layout_shift_of_lex ha hb) hs
    obtain ⟨first, rest, rfl, rfl, rfl⟩ := List.map_eq_cons_iff.mp hus
    refine ⟨init, last, first, rest, rfl, rfl, ?_⟩
    rwa [lex_eq_ok_iff, String.toList_append]

/-- A minus sign at the end of a text becomes the sign of the number behind it. -/
theorem lex_append_sign :
    lex "8-" = .ok [⟨.number, "8", ⟨0, 1⟩⟩, ⟨.operator, "-", ⟨1, 2⟩⟩] ∧
      lex "5 3" = .ok [⟨.number, "5", ⟨0, 1⟩⟩, ⟨.number, "3", ⟨2, 3⟩⟩] ∧
      lex ("8-" ++ "5 3") =
        .ok [⟨.number, "8", ⟨0, 1⟩⟩, ⟨.number, "-5", ⟨1, 3⟩⟩, ⟨.number, "3", ⟨4, 5⟩⟩] := by
  have ha : lex "8-" = .ok [⟨.number, "8", ⟨0, 1⟩⟩, ⟨.operator, "-", ⟨1, 2⟩⟩] := by
    decide +kernel
  have hb : lex "5 3" = .ok [⟨.number, "5", ⟨0, 1⟩⟩, ⟨.number, "3", ⟨2, 3⟩⟩] := by
    decide +kernel
  obtain ⟨init, last, first, rest, hts, hus, hlex⟩ :=
    (lex_append "8-" "5 3").2.2.2 _ _ ha hb (by decide)
  have hsplit : [(⟨.number, "8", ⟨0, 1⟩⟩ : Token)] ++ [⟨.operator, "-", ⟨1, 2⟩⟩] =
      init ++ [last] := hts
  obtain ⟨rfl, hlast⟩ := List.append_inj' hsplit rfl
  obtain ⟨rfl, rfl⟩ := List.cons.inj hus
  obtain ⟨rfl, -⟩ := List.cons.inj hlast
  exact ⟨ha, hb, hlex⟩

end ArithmeticTokens
