import ArithmeticTokens.Proofs.Account
import Mathlib.Data.List.MinMax

/-!
# The longest match

The order of the rules matters only for a minus sign in front of a digit: nowhere else two rules
accept something at the same place (`Rule.exists_signed_of_ne`), and there the number is longer than
the operator. So no two rules ever accept equally much, what is accepted by the longest match is
determined without an order (`Rule.IsLongest.unique`), and it is what the first rule by priority
accepts. A scan that takes the longest match is then the same scan, step by step.
-/

namespace ArithmeticTokens

open Text

namespace Rule

variable {rule rule' : Rule} {cs : List Char} {n n' : Nat}

/-! ### Two rules at one place -/

theorem begins_of_length? (h : rule.length? cs = some n) : rule.begins cs = true := by
  by_contra hnone
  rw [length?_eq_none_iff.mpr (Bool.eq_false_iff.mpr hnone)] at h
  cases h

/-- A number and an operator start together with a sign. -/
theorem exists_signed_of_begins (hnumber : number.begins cs = true)
    (hoperator : operator.begins cs = true) :
    ∃ c rest, cs = '-' :: c :: rest ∧ c.isDigit = true := by
  obtain ⟨d, tail, rfl, hd⟩ := headIs_eq_true_iff.mp hoperator
  have hdigit : d.isDigit = false := isDigit_of_mem_operators (by simpa using hd)
  simp only [begins, headIs_cons, List.tail_cons, hdigit, Bool.false_or, Bool.and_eq_true,
    decide_eq_true_eq] at hnumber
  obtain ⟨rfl, htail⟩ := hnumber
  obtain ⟨c, rest, rfl, hc⟩ := headIs_eq_true_iff.mp htail
  exact ⟨c, rest, rfl, hc⟩

/-- No other rule begins where blanks do. -/
theorem begins_eq_false_of_blank (h : blank.begins cs = true) (hne : rule ≠ blank) :
    rule.begins cs = false := by
  obtain ⟨c, rest, rfl, hc⟩ := headIs_eq_true_iff.mp h
  have hblank : c ∈ blanks := by simpa using hc
  cases rule with
  | number => simp [begins, isDigit_of_mem_blanks hblank, ne_minus_of_mem_blanks hblank]
  | operator => simpa [begins] using fun ho => not_mem_blanks_of_mem_operators ho hblank
  | blank => exact absurd rfl hne

/-- Two rules accept something only at a minus sign in front of a digit. -/
theorem exists_signed_of_ne (h : rule.length? cs = some n) (h' : rule'.length? cs = some n')
    (hne : rule ≠ rule') : ∃ c rest, cs = '-' :: c :: rest ∧ c.isDigit = true := by
  have hbegins := begins_of_length? h
  have hbegins' := begins_of_length? h'
  by_cases hblank : rule = blank
  · subst hblank
    rw [begins_eq_false_of_blank hbegins hne.symm] at hbegins'
    cases hbegins'
  by_cases hblank' : rule' = blank
  · subst hblank'
    rw [begins_eq_false_of_blank hbegins' hne] at hbegins
    cases hbegins
  cases rule with
  | number =>
      cases rule' with
      | number => exact absurd rfl hne
      | operator => exact exists_signed_of_begins hbegins hbegins'
      | blank => exact absurd rfl hblank'
  | operator =>
      cases rule' with
      | number => exact exists_signed_of_begins hbegins' hbegins
      | operator => exact absurd rfl hne
      | blank => exact absurd rfl hblank'
  | blank => exact absurd rfl hblank

/-- There the number is longer than the operator. -/
theorem exists_length?_signed {c : Char} (hc : c.isDigit = true) (rest : List Char) :
    ∃ n, 1 < n ∧ number.length? ('-' :: c :: rest) = some n ∧
      operator.length? ('-' :: c :: rest) = some 1 ∧ blank.length? ('-' :: c :: rest) = none := by
  have hrun : runLength Char.isDigit (c :: rest) ≠ 0 := by
    rw [ne_eq, runLength_eq_zero_iff, headIs_cons, hc]
    exact Bool.noConfusion
  refine ⟨1 + runLength Char.isDigit (c :: rest), by omega, ?_, rfl, rfl⟩
  rw [length?_number_minus, if_neg hrun]

theorem signed_cases {c : Char} (hc : c.isDigit = true) {rest : List Char}
    (h : rule.length? ('-' :: c :: rest) = some n) :
    rule = number ∧ 1 < n ∨ rule = operator ∧ n = 1 := by
  obtain ⟨k, hk, hnumber, hoperator, hblank⟩ := exists_length?_signed hc rest
  cases rule with
  | number =>
      obtain rfl := Option.some.inj (hnumber.symm.trans h)
      exact Or.inl ⟨rfl, hk⟩
  | operator => exact Or.inr ⟨rfl, (Option.some.inj (hoperator.symm.trans h)).symm⟩
  | blank => cases hblank.symm.trans h

/-- No two rules accept equally much. -/
theorem eq_of_length?_eq (h : rule.length? cs = some n) (h' : rule'.length? cs = some n) :
    rule = rule' := by
  by_contra hne
  obtain ⟨c, rest, rfl, hc⟩ := exists_signed_of_ne h h' hne
  obtain ⟨rfl, hn⟩ | ⟨rfl, hn⟩ := signed_cases hc h
  · obtain ⟨rfl, -⟩ | ⟨-, hn'⟩ := signed_cases hc h'
    · exact hne rfl
    · omega
  · obtain ⟨-, hn'⟩ | ⟨rfl, -⟩ := signed_cases hc h'
    · omega
    · exact hne rfl

/-! ### The longest match -/

/-- No rule accepts more at the start of the text, and none accepts anything where this is
nothing. -/
def IsLongest (cs : List Char) : Option Hit → Prop
  | none => ∀ rule : Rule, rule.hit? cs = none
  | some hit => hit.rule.hit? cs = some hit ∧
      ∀ (rule : Rule) (other : Hit), rule.hit? cs = some other → other.length ≤ hit.length

theorem IsLongest.unique {hit? hit?' : Option Hit} (h : IsLongest cs hit?)
    (h' : IsLongest cs hit?') : hit? = hit?' := by
  cases hit? with
  | none =>
      cases hit?' with
      | none => rfl
      | some hit' => cases (h hit'.rule).symm.trans h'.1
  | some hit =>
      cases hit?' with
      | none => cases (h' hit.rule).symm.trans h.1
      | some hit' =>
          obtain ⟨hhit, hmost⟩ := h
          obtain ⟨hhit', hmost'⟩ := h'
          have hlength : hit.length = hit'.length :=
            Nat.le_antisymm (hmost' _ _ hhit) (hmost _ _ hhit')
          have hrule : hit.rule = hit'.rule := by
            apply eq_of_length?_eq (hit?_eq_some_iff.mp hhit).2
            rw [hlength]
            exact (hit?_eq_some_iff.mp hhit').2
          rw [← hhit, ← hhit', hrule]

theorem rule_of_first?_signed {c : Char} (hc : c.isDigit = true) {rest : List Char} {hit : Hit}
    (h : first? ('-' :: c :: rest) = some hit) : hit.rule = number := by
  obtain ⟨k, hk, hnumber, -⟩ := exists_length?_signed hc rest
  have hhit : number.hit? ('-' :: c :: rest) = some ⟨number, k, by omega⟩ :=
    hit?_eq_some_iff.mpr ⟨rfl, hnumber⟩
  rw [first?_eq_or, hhit, Option.some_or] at h
  rw [← Option.some.inj h]

/-- The first rule by priority accepts most. -/
theorem isLongest_first? (cs : List Char) : IsLongest cs (first? cs) := by
  cases hfirst : first? cs with
  | none =>
      intro rule
      rw [first?_eq_or, Option.or_eq_none_iff, Option.or_eq_none_iff] at hfirst
      obtain ⟨hnumber, hoperator, hblank⟩ := hfirst
      cases rule with
      | number => exact hnumber
      | operator => exact hoperator
      | blank => exact hblank
  | some hit =>
      obtain ⟨rule, -, hhit⟩ := List.exists_of_findSome?_eq_some hfirst
      obtain rfl := (hit?_eq_some_iff.mp hhit).1
      refine ⟨hhit, fun rule other hother => ?_⟩
      have hlength := (hit?_eq_some_iff.mp hhit).2
      have hlength' := (hit?_eq_some_iff.mp hother).2
      by_cases hrule : rule = hit.rule
      · subst hrule
        exact (Option.some.inj (hlength'.symm.trans hlength)).le
      · -- Another rule accepts something only at a sign, and there the number comes first.
        obtain ⟨c, rest, rfl, hc⟩ := exists_signed_of_ne hlength' hlength hrule
        have hnumber := rule_of_first?_signed hc hfirst
        obtain ⟨-, hpos⟩ | ⟨hoperator, -⟩ := signed_cases hc hlength
        · obtain ⟨hsame, -⟩ | ⟨-, hone⟩ := signed_cases hc hlength'
          · exact absurd (hsame.trans hnumber.symm) hrule
          · omega
        · cases hoperator.symm.trans hnumber

/-- What the rule that accepts most among those of the table accepts at the start of a text. -/
def longest? (table : List Rule) : Selection := fun cs =>
  (table.filterMap (·.hit? cs)).argmax Hit.length

theorem isLongest_longest? {table : List Rule} (htable : ∀ rule, rule ∈ table) (cs : List Char) :
    IsLongest cs (longest? table cs) := by
  have hmem {rule : Rule} {hit : Hit} (h : rule.hit? cs = some hit) :
      hit ∈ table.filterMap (·.hit? cs) :=
    List.mem_filterMap.mpr ⟨rule, htable rule, h⟩
  cases hlongest : longest? table cs with
  | none =>
      intro rule
      have hnil := List.argmax_eq_none.mp hlongest
      rw [Option.eq_none_iff_forall_not_mem]
      intro hit hhit
      exact List.not_mem_nil (hnil ▸ hmem hhit)
  | some hit =>
      obtain ⟨rule, -, hhit⟩ := List.mem_filterMap.mp (List.argmax_mem hlongest)
      obtain rfl := (hit?_eq_some_iff.mp hhit).1
      exact ⟨hhit, fun rule other hother => List.le_of_mem_argmax (hmem hother) hlongest⟩

/-- In whatever order the rules are, the longest match is the first by priority. -/
theorem longest?_eq_first? {table : List Rule} (htable : table.Perm priority) :
    longest? table = first? := by
  have hall (rule : Rule) : rule ∈ table := by
    rw [htable.mem_iff]
    cases rule <;> decide
  ext1 cs
  exact (isLongest_longest? hall cs).unique (isLongest_first? cs)

end Rule

/-- At most one rule accepts something at a place, but for a minus sign in front of a digit, where
the number and the operator do and the number is longer. So a scan by the longest match, with the
rules in any order, has the same result as the scan by priority, and the same rules accept the same
pieces on the way. -/
theorem lex_by_longest_match :
    (∀ cs : List Char, (¬ ∃ c rest, cs = '-' :: c :: rest ∧ c.isDigit = true) →
        ∀ (rule rule' : Rule) (n n' : Nat), rule.length? cs = some n → rule'.length? cs = some n' →
          rule = rule') ∧
      (∀ (c : Char) (rest : List Char), c.isDigit = true →
        ∃ n, 1 < n ∧ Rule.number.length? ('-' :: c :: rest) = some n ∧
          Rule.operator.length? ('-' :: c :: rest) = some 1 ∧
          Rule.blank.length? ('-' :: c :: rest) = none) ∧
      ∀ table : List Rule, table.Perm Rule.priority → ∀ source : String,
        ((Scan.start source).finish (Rule.longest? table)).result = lex source ∧
          ((Scan.start source).finish (Rule.longest? table)).lexemes.toList.map Lexeme.extent =
            (trace .trace source).filterMap Event.extent? := by
  refine ⟨fun cs hsigned rule rule' n n' h h' => ?_, fun c rest hc => ?_,
    fun table htable source => ?_⟩
  · by_contra hne
    exact hsigned (Rule.exists_signed_of_ne h h' hne)
  · exact Rule.exists_length?_signed hc rest
  · rw [Rule.longest?_eq_first? htable, filterMap_extent?_trace]
    exact ⟨rfl, rfl⟩

/-- With the rules in the opposite order. -/
theorem lex_by_longest_match_opposite :
    (¬ ∃ c rest, ['-', ' ', '5'] = '-' :: c :: rest ∧ c.isDigit = true) ∧
      (∀ rule n, Rule.length? rule ['-', ' ', '5'] = some n → rule = .operator) ∧
      '2'.isDigit = true ∧
      (∃ n, 1 < n ∧ Rule.number.length? ['-', '2', '×'] = some n ∧
        Rule.operator.length? ['-', '2', '×'] = some 1 ∧
        Rule.blank.length? ['-', '2', '×'] = none) ∧
      [Rule.blank, .operator, .number].Perm Rule.priority ∧
      ((Scan.start "5--2").finish (Rule.longest? [.blank, .operator, .number])).result =
        .ok [⟨.number, "5", ⟨0, 1⟩⟩, ⟨.operator, "-", ⟨1, 2⟩⟩, ⟨.number, "-2", ⟨2, 4⟩⟩] ∧
      ((Scan.start "5--2").finish
          (Rule.longest? [.blank, .operator, .number])).lexemes.toList.map Lexeme.extent =
        [(.number, 0, 1), (.operator, 1, 1), (.number, 2, 2)] := by
  have hsigned : ¬ ∃ c rest, ['-', ' ', '5'] = '-' :: c :: rest ∧ c.isDigit = true := by
    rintro ⟨c, rest, h, hc⟩
    obtain ⟨rfl, -⟩ := List.cons.inj (List.cons.inj h).2
    cases hc
  have hperm : [Rule.blank, .operator, .number].Perm Rule.priority := by decide
  obtain ⟨hsingle, hboth, hscan⟩ := lex_by_longest_match
  obtain ⟨hresult, hmatches⟩ := hscan _ hperm "5--2"
  refine ⟨hsigned, fun rule n h => hsingle _ hsigned rule .operator n 1 h rfl, by decide,
    hboth '2' ['×'] (by decide), hperm, ?_, ?_⟩
  · rw [hresult]
    decide +kernel
  · rw [hmatches]
    decide +kernel

end ArithmeticTokens
