import ArithmeticTokens.Proofs.Alphabet
import Mathlib.Data.List.TakeWhile

/-!
# What is taken at the start of a text

Whether a rule accepts anything is decided by the first two characters (`Rule.begins`). What it
accepts is spelled in the way of the rule and is followed by nothing that would prolong it. Of the
rules, the first in order of priority is taken; the order matters only for a minus sign in front
of a digit, which belongs to the number. `Rule.Takes` holds these conditions on both sides of a
cut: `Rule.exists_takes_of_first?` and `Rule.Takes.first?_append` say that it is what is taken, and
`Rule.Takes.unique` that it allows one cut only.
-/

namespace ArithmeticTokens

open Text

namespace Rule

/-! ### Runs of characters -/

theorem runLength_append {p : Char → Bool} {v rest : List Char} (hv : ∀ c ∈ v, p c = true)
    (hrest : headIs p rest = false) : runLength p (v ++ rest) = v.length := by
  have hstop : rest.takeWhile p = [] := by
    cases rest with
    | nil => rfl
    | cons c rest => exact List.takeWhile_cons_of_neg (by simpa using hrest)
  rw [runLength, List.takeWhile_append_of_pos hv, hstop, List.append_nil]

theorem exists_runLength (p : Char → Bool) (cs : List Char) :
    ∃ v rest, cs = v ++ rest ∧ runLength p cs = v.length ∧ (∀ c ∈ v, p c = true) ∧
      headIs p rest = false := by
  refine ⟨cs.takeWhile p, cs.dropWhile p, List.takeWhile_append_dropWhile.symm, rfl,
    fun c hc => List.mem_takeWhile_imp hc, ?_⟩
  have hstop := List.head?_dropWhile_not p cs
  cases hrest : cs.dropWhile p with
  | nil => rfl
  | cons c rest => simpa [hrest] using hstop

theorem runLength_eq_zero_iff {p : Char → Bool} {cs : List Char} :
    runLength p cs = 0 ↔ headIs p cs = false := by
  cases cs with
  | nil => simp [runLength]
  | cons c cs => cases hc : p c <;> simp [runLength, hc]

/-- A length that is given for a run in the text shows that the run is not empty. -/
theorem exists_run_of_eq_some {p : Char → Bool} {cs : List Char} {n : Nat} (length : Nat → Nat)
    (h : (if runLength p cs = 0 then none else some (length (runLength p cs))) = some n) :
    ∃ v rest, cs = v ++ rest ∧ length v.length = n ∧ v ≠ [] ∧ (∀ c ∈ v, p c = true) ∧
      headIs p rest = false := by
  obtain ⟨v, rest, hcs, hrun, hv, hrest⟩ := exists_runLength p cs
  rw [hrun] at h
  have hne : v ≠ [] := by
    rintro rfl
    cases h
  rw [if_neg (List.length_eq_zero_iff.not.mpr hne), Option.some.injEq] at h
  exact ⟨v, rest, hcs, h, hne, hv, hrest⟩

/-! ### How the texts of a rule are spelled -/

/-- The texts that a rule accepts as a whole. -/
inductive Spells : Rule → List Char → Prop
  | digits {v : List Char} (hne : v ≠ []) (hv : ∀ c ∈ v, c.isDigit = true) : Spells number v
  | signed {v : List Char} (hne : v ≠ []) (hv : ∀ c ∈ v, c.isDigit = true) :
      Spells number ('-' :: v)
  | operator {c : Char} (hc : c ∈ operators) : Spells operator [c]
  | blanks {v : List Char} (hne : v ≠ []) (hv : ∀ c ∈ v, c ∈ blanks) : Spells blank v

theorem Spells.ne_nil {rule : Rule} {v : List Char} (h : rule.Spells v) : v ≠ [] := by
  cases h with
  | digits hne _ => exact hne
  | signed _ _ => simp
  | operator _ => simp
  | blanks hne _ => exact hne

theorem Spells.mem_alphabet {rule : Rule} {v : List Char} (h : rule.Spells v) :
    ∀ c ∈ v, c ∈ alphabet := by
  intro c hc
  cases h with
  | digits _ hv => exact mem_alphabet_of_isDigit (hv c hc)
  | signed _ hv =>
      rcases List.mem_cons.mp hc with rfl | hc
      · decide
      · exact mem_alphabet_of_isDigit (hv c hc)
  | operator ho =>
      rw [List.mem_singleton.mp hc]
      exact mem_alphabet_of_mem_operators ho
  | blanks _ hv => exact mem_alphabet_of_mem_blanks (hv c hc)

/-- The characters by which the rule prolongs what it accepted. -/
def goesOn : Rule → Char → Bool
  | number, c => c.isDigit
  | operator, _ => false
  | blank, c => c ∈ blanks

/-- What goes on in the way of the rule is spelled in its way together with the text in front. -/
theorem Spells.append {rule : Rule} {v run : List Char} (hv : rule.Spells v)
    (hrun : ∀ c ∈ run, rule.goesOn c = true) : rule.Spells (v ++ run) := by
  cases hv with
  | digits hne hv =>
      apply Spells.digits (List.append_ne_nil_of_left_ne_nil hne run)
      exact List.forall_mem_append.mpr ⟨hv, hrun⟩
  | signed hne hv =>
      apply Spells.signed (List.append_ne_nil_of_left_ne_nil hne run)
      exact List.forall_mem_append.mpr ⟨hv, hrun⟩
  | operator hc =>
      have hnil : run = [] :=
        List.eq_nil_iff_forall_not_mem.mpr fun c hmem => Bool.false_ne_true (hrun c hmem)
      rw [hnil, List.append_nil]
      exact .operator hc
  | blanks hne hv =>
      apply Spells.blanks (List.append_ne_nil_of_left_ne_nil hne run)
      exact List.forall_mem_append.mpr ⟨hv, fun c hc => of_decide_eq_true (hrun c hc)⟩

/-- The number that a minus sign alone would be has no digits. -/
theorem not_spells_number_minus : ¬ number.Spells ['-'] := by
  intro h
  cases h with
  | digits _ hv => exact ne_minus_of_isDigit (hv '-' (by simp)) rfl
  | signed hne _ => exact hne rfl

/-! ### The lengths of a rule -/

/-- Does the rule accept anything at the start of the text? -/
def begins : Rule → List Char → Bool
  | number, cs => headIs Char.isDigit cs || headIs (· = '-') cs && headIs Char.isDigit cs.tail
  | operator, cs => headIs (· ∈ operators) cs
  | blank, cs => headIs (· ∈ blanks) cs

/-- Does the text start with a character by which the rule prolongs what it accepted? -/
def prolongs : Rule → List Char → Bool
  | number, rest => headIs Char.isDigit rest
  | operator, _ => false
  | blank, rest => headIs (· ∈ blanks) rest

theorem prolongs_eq_headIs (rule : Rule) (rest : List Char) :
    rule.prolongs rest = headIs rule.goesOn rest := by
  cases rule with
  | number => rfl
  | operator => cases rest <;> rfl
  | blank => rfl

theorem length?_number_minus (cs : List Char) :
    number.length? ('-' :: cs) =
      if runLength Char.isDigit cs = 0 then none else some (1 + runLength Char.isDigit cs) := by
  simp [length?, signLength]

theorem length?_number_of_headIs {cs : List Char} (h : headIs (· = '-') cs = false) :
    number.length? cs =
      if runLength Char.isDigit cs = 0 then none else some (runLength Char.isDigit cs) := by
  have hsign : signLength cs = 0 := by
    cases cs with
    | nil => rfl
    | cons c cs => simpa [signLength] using h
  simp [length?, hsign]

theorem length?_eq_none_iff {rule : Rule} {cs : List Char} :
    rule.length? cs = none ↔ rule.begins cs = false := by
  cases rule with
  | number =>
      cases hsign : headIs (· = '-') cs with
      | true =>
          obtain ⟨cs, rfl⟩ := exists_eq_cons_of_headIs hsign
          rw [length?_number_minus, ite_eq_left_iff]
          simp [begins, runLength_eq_zero_iff]
      | false =>
          rw [length?_number_of_headIs hsign, ite_eq_left_iff]
          simp [begins, hsign, runLength_eq_zero_iff]
  | operator =>
      cases cs with
      | nil => simp [length?, begins]
      | cons c cs => simp [length?, begins]
  | blank => simp [length?, begins, runLength_eq_zero_iff]

theorem length?_append {rule : Rule} {v rest : List Char} (hv : rule.Spells v)
    (hrest : rule.prolongs rest = false) : rule.length? (v ++ rest) = some v.length := by
  cases hv with
  | @digits v hne hv =>
      obtain ⟨c, v, rfl⟩ := List.exists_cons_of_ne_nil hne
      have hc : c ≠ '-' := ne_minus_of_isDigit (hv c (by simp))
      rw [length?_number_of_headIs (by simpa using hc), runLength_append hv hrest]
      simp
  | @signed v hne hv =>
      rw [List.cons_append, length?_number_minus, runLength_append hv hrest]
      simp [hne, Nat.add_comm]
  | operator hc => simp [length?, hc]
  | blanks hne hv =>
      simp only [length?]
      rw [runLength_append (by simpa using hv) hrest]
      simp [hne]

theorem exists_of_length?_eq_some {rule : Rule} {cs : List Char} {n : Nat}
    (h : rule.length? cs = some n) :
    ∃ v rest, cs = v ++ rest ∧ v.length = n ∧ rule.Spells v ∧ rule.prolongs rest = false := by
  cases rule with
  | number =>
      cases hsign : headIs (· = '-') cs with
      | true =>
          obtain ⟨cs, rfl⟩ := exists_eq_cons_of_headIs hsign
          rw [length?_number_minus] at h
          obtain ⟨v, rest, rfl, rfl, hne, hv, hrest⟩ := exists_run_of_eq_some (1 + ·) h
          exact ⟨'-' :: v, rest, rfl, Nat.add_comm v.length 1, .signed hne hv, hrest⟩
      | false =>
          rw [length?_number_of_headIs hsign] at h
          obtain ⟨v, rest, hcs, hlength, hne, hv, hrest⟩ := exists_run_of_eq_some id h
          exact ⟨v, rest, hcs, hlength, .digits hne hv, hrest⟩
  | operator =>
      simp only [length?] at h
      split at h
      · cases h
      · rename_i c rest
        split at h
        · rename_i hc
          cases h
          exact ⟨[c], rest, rfl, rfl, .operator hc, rfl⟩
        · cases h
  | blank =>
      obtain ⟨v, rest, hcs, hlength, hne, hv, hrest⟩ := exists_run_of_eq_some id h
      exact ⟨v, rest, hcs, hlength, .blanks hne (by simpa using hv), hrest⟩

/-- What a rule accepts can be cut off. -/
theorem exists_takeBytes?_of_length? {rule : Rule} {cs : List Char} {n : Nat}
    (h : rule.length? cs = some n) : n ≤ byteLength cs ∧ ∃ v, takeBytes? n cs = some v := by
  obtain ⟨v, rest, rfl, rfl, hv, -⟩ := exists_of_length?_eq_some h
  have hbytes := byteLength_eq_length hv.mem_alphabet
  refine ⟨?_, v, takeBytes?_eq_some_iff.mpr ⟨rest, rfl, hbytes⟩⟩
  rw [byteLength_append, hbytes]
  exact Nat.le_add_right _ _

/-! ### The rule that is taken -/

/-- The rule takes `v` from the start of a text that goes on with `rest`. -/
structure Takes (rule : Rule) (v rest : List Char) : Prop where
  spells : rule.Spells v
  stops : rule.prolongs rest = false
  /-- A minus sign in front of a digit is not taken alone. -/
  unsigned : v = ['-'] → headIs Char.isDigit rest = false

theorem first?_eq_or (cs : List Char) :
    first? cs = (number.hit? cs).or ((operator.hit? cs).or (blank.hit? cs)) := by
  simp only [first?, priority, List.findSome?_cons, List.findSome?_nil]
  cases number.hit? cs <;> cases operator.hit? cs <;> cases blank.hit? cs <;> rfl

theorem hit?_eq_none_iff_begins {rule : Rule} {cs : List Char} :
    rule.hit? cs = none ↔ rule.begins cs = false := by
  rw [hit?_eq_none_iff, length?_eq_none_iff]

/-- Nothing is taken exactly in front of a character outside the alphabet and at the end. -/
theorem first?_eq_none_iff {cs : List Char} :
    first? cs = none ↔ headIs (· ∈ alphabet) cs = false := by
  rw [first?_eq_or, Option.or_eq_none_iff, Option.or_eq_none_iff, hit?_eq_none_iff_begins,
    hit?_eq_none_iff_begins, hit?_eq_none_iff_begins]
  cases cs with
  | nil => simp [begins]
  | cons c cs =>
      simp only [begins, headIs_cons, Bool.or_eq_false_iff, decide_eq_false_iff_not,
        mem_alphabet_iff, not_or, Bool.not_eq_true]
      constructor
      · rintro ⟨⟨hdigit, -⟩, hoperator, hblank⟩
        exact ⟨hdigit, hoperator, hblank⟩
      · rintro ⟨hdigit, hoperator, hblank⟩
        have hminus : c ≠ '-' := by
          rintro rfl
          exact hoperator (by decide)
        exact ⟨⟨hdigit, by simp [hminus]⟩, hoperator, hblank⟩

theorem hit?_append {rule : Rule} {v rest : List Char} (hv : rule.Spells v)
    (hrest : rule.prolongs rest = false) :
    rule.hit? (v ++ rest) = some ⟨rule, v.length, List.length_pos_iff.mpr hv.ne_nil⟩ :=
  hit?_eq_some_iff.mpr ⟨rfl, length?_append hv hrest⟩

theorem Takes.first?_append {rule : Rule} {v rest : List Char} (h : rule.Takes v rest) :
    first? (v ++ rest) = some ⟨rule, v.length, List.length_pos_iff.mpr h.spells.ne_nil⟩ := by
  have hhit := hit?_append h.spells h.stops
  rw [first?_eq_or]
  cases h.spells with
  | digits _ _ => rw [hhit, Option.some_or]
  | signed _ _ => rw [hhit, Option.some_or]
  | @operator c hc =>
      have hnumber : number.hit? ([c] ++ rest) = none := by
        have hsign : c = '-' → headIs Char.isDigit rest = false := by
          rintro rfl
          exact h.unsigned rfl
        rw [hit?_eq_none_iff_begins]
        simpa [begins, isDigit_of_mem_operators hc] using hsign
      rw [hnumber, Option.none_or, hhit, Option.some_or]
  | @blanks _ hne hv =>
      obtain ⟨c, v, rfl⟩ := List.exists_cons_of_ne_nil hne
      have hc : c ∈ blanks := hv c (by simp)
      have hoperator : operator.hit? (c :: v ++ rest) = none := by
        rw [hit?_eq_none_iff_begins]
        simpa [begins] using fun ho => not_mem_blanks_of_mem_operators ho hc
      have hnumber : number.hit? (c :: v ++ rest) = none := by
        rw [hit?_eq_none_iff_begins]
        simp [begins, isDigit_of_mem_blanks hc, ne_minus_of_mem_blanks hc]
      rw [hnumber, Option.none_or, hoperator, Option.none_or, hhit]

theorem exists_takes_of_first? {cs : List Char} {hit : Hit} (h : first? cs = some hit) :
    ∃ v rest, cs = v ++ rest ∧ v.length = hit.length ∧ hit.rule.Takes v rest := by
  have hrule : hit.rule.hit? cs = some hit ∧
      (hit.rule = operator → number.begins cs = false) := by
    rw [first?_eq_or, Option.or_eq_some_iff, Option.or_eq_some_iff] at h
    rcases h with hnumber | ⟨hnone, hoperator | ⟨-, hblank⟩⟩
    · have hr := (hit?_eq_some_iff.mp hnumber).1
      exact ⟨hr ▸ hnumber, fun ho => absurd (hr.symm.trans ho) (by decide)⟩
    · have hr := (hit?_eq_some_iff.mp hoperator).1
      exact ⟨hr ▸ hoperator, fun _ => hit?_eq_none_iff_begins.mp hnone⟩
    · have hr := (hit?_eq_some_iff.mp hblank).1
      exact ⟨hr ▸ hblank, fun ho => absurd (hr.symm.trans ho) (by decide)⟩
  obtain ⟨v, rest, rfl, hlength, hv, hrest⟩ :=
    exists_of_length?_eq_some (hit?_eq_some_iff.mp hrule.1).2
  refine ⟨v, rest, rfl, hlength, hv, hrest, ?_⟩
  rintro rfl
  -- A lone minus sign is spelled by the rule for operators only, which comes after the numbers.
  have ho : hit.rule = operator := by
    generalize hit.rule = rule at hv
    cases rule with
    | number => exact absurd hv not_spells_number_minus
    | operator => rfl
    | blank =>
        cases hv with
        | blanks _ hv => exact absurd rfl (ne_minus_of_mem_blanks (hv '-' (by simp)))
  have hbegins := hrule.2 ho
  simp only [begins, List.singleton_append, headIs_cons, List.tail_cons, Bool.or_eq_false_iff,
    decide_true, Bool.true_and] at hbegins
  exact hbegins.2

/-- A text is cut in one way. -/
theorem Takes.unique {rule rule' : Rule} {v v' rest rest' : List Char} (h : rule.Takes v rest)
    (h' : rule'.Takes v' rest') (heq : v ++ rest = v' ++ rest') :
    rule = rule' ∧ v = v' ∧ rest = rest' := by
  have hhit := h.first?_append
  rw [heq, h'.first?_append, Option.some.injEq, Hit.mk.injEq] at hhit
  exact ⟨hhit.1.symm, List.append_inj heq hhit.2.symm⟩

end Rule

end ArithmeticTokens
