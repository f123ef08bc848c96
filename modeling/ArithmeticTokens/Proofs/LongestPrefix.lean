import ArithmeticTokens.Proofs.MaximalMunch
import Mathlib.Order.Bounds.Basic

/-!
# The longest prefix

What a rule accepts is the longest front part of the text that is spelled in its way, and how it is
spelled is said without the rule's way to find it. One more character settles the length: where
something follows, nothing behind that can change what is accepted, and where nothing follows, the
rule goes on by as many characters as it finds at the start of the text behind
(`Rule.length?_spells_append`). A refusal is final too, but for the minus sign alone, which is no
number and becomes the sign of one when a digit follows it.
-/

namespace ArithmeticTokens

open Text

namespace Rule

variable {rule : Rule} {cs v : List Char} {n : Nat}

/-! ### Text behind a front part -/

/-- By how many characters the rule prolongs a text that it has accepted to its end. -/
def growth (rule : Rule) (rest : List Char) : Nat := runLength rule.goesOn rest

/-- A text that is spelled in the way of the rule is accepted whole, and prolonged by all that goes
on in the same way behind it. -/
theorem length?_spells_append (hv : rule.Spells v) (rest : List Char) :
    rule.length? (v ++ rest) = some (v.length + rule.growth rest) := by
  obtain ⟨run, tail, rfl, hlength, hrun, hstop⟩ := exists_runLength rule.goesOn rest
  rw [← prolongs_eq_headIs rule] at hstop
  calc
    rule.length? (v ++ (run ++ tail)) = rule.length? (v ++ run ++ tail) := by
      rw [List.append_assoc]
    _ = some (v ++ run).length := length?_append (hv.append hrun) hstop
    _ = some (v.length + rule.growth (run ++ tail)) := by
      rw [List.length_append, growth, hlength]

/-- Only the first character of what follows decides whether the rule goes on. -/
theorem prolongs_append {rest : List Char} (hne : rest ≠ []) (tail : List Char) :
    rule.prolongs (rest ++ tail) = rule.prolongs rest := by
  rw [prolongs_eq_headIs, prolongs_eq_headIs, headIs_append hne]

/-- A text other than the empty one and the minus sign alone shows whether the rule accepts
anything at its start. -/
theorem begins_append (hne : cs ≠ []) (hsign : ¬ (rule = number ∧ cs = ['-']))
    (tail : List Char) : rule.begins (cs ++ tail) = rule.begins cs := by
  obtain ⟨c, rest, rfl⟩ := List.exists_cons_of_ne_nil hne
  cases rule with
  | number =>
      cases rest with
      | nil =>
          have hc : c ≠ '-' := fun hc => hsign ⟨rfl, by rw [hc]⟩
          simp [begins, hc]
      | cons d rest => rfl
  | operator => rfl
  | blank => rfl

/-- Where something follows what is accepted, nothing behind that changes it. -/
theorem length?_append_of_lt (h : rule.length? cs = some n) (hn : n < byteLength cs)
    (tail : List Char) : rule.length? (cs ++ tail) = some n := by
  obtain ⟨v, rest, rfl, rfl, hv, hstop⟩ := exists_of_length?_eq_some h
  have hrest : rest ≠ [] := by
    rintro rfl
    rw [List.append_nil, byteLength_eq_length hv.mem_alphabet] at hn
    exact absurd hn (Nat.lt_irrefl v.length)
  rw [List.append_assoc]
  exact length?_append hv ((prolongs_append hrest tail).trans hstop)

/-- A text that is accepted to its end is prolonged by what follows it. -/
theorem length?_append_of_eq (h : rule.length? cs = some n) (hn : n = byteLength cs)
    (tail : List Char) : rule.length? (cs ++ tail) = some (n + rule.growth tail) := by
  obtain ⟨v, rest, rfl, rfl, hv, -⟩ := exists_of_length?_eq_some h
  have hempty : byteLength rest = 0 := by
    rw [byteLength_append, byteLength_eq_length hv.mem_alphabet] at hn
    omega
  obtain rfl := byteLength_eq_zero_iff.mp hempty
  rw [List.append_nil]
  exact length?_spells_append hv tail

/-! ### The greatest length -/

/-- The sizes in bytes of the front parts of a text that are spelled in the way of the rule. -/
def prefixLengths (rule : Rule) (cs : List Char) : Set Nat :=
  {k | ∃ v, v <+: cs ∧ rule.Spells v ∧ byteLength v = k}

theorem isGreatest_of_length? (h : rule.length? cs = some n) :
    IsGreatest (rule.prefixLengths cs) n := by
  constructor
  · obtain ⟨v, rest, rfl, rfl, hv, -⟩ := exists_of_length?_eq_some h
    exact ⟨v, List.prefix_append v rest, hv, byteLength_eq_length hv.mem_alphabet⟩
  · rintro _ ⟨w, ⟨tail, rfl⟩, hw, rfl⟩
    rw [length?_spells_append hw, Option.some.injEq] at h
    rw [byteLength_eq_length hw.mem_alphabet, ← h]
    exact Nat.le_add_right w.length _

/-- A rule accepts its longest front part, and nothing where there is none. -/
theorem length?_eq_some_iff : rule.length? cs = some n ↔ IsGreatest (rule.prefixLengths cs) n := by
  constructor
  · exact isGreatest_of_length?
  · intro h
    obtain ⟨v, ⟨tail, rfl⟩, hv, -⟩ := h.1
    have hlength := length?_spells_append hv tail
    rw [hlength, (isGreatest_of_length? hlength).unique h]

theorem exists_length?_iff :
    (∃ n, rule.length? cs = some n) ↔ ∃ v, v <+: cs ∧ rule.Spells v := by
  constructor
  · rintro ⟨n, h⟩
    obtain ⟨v, hprefix, hv, -⟩ := (isGreatest_of_length? h).1
    exact ⟨v, hprefix, hv⟩
  · rintro ⟨v, ⟨tail, rfl⟩, hv⟩
    exact ⟨_, length?_spells_append hv tail⟩

/-- A rule accepts something exactly where a front part of the text is spelled in its way. It then
accepts the longest such part, which ends on the border of two characters, and a kind of token has
the length of its rule. Behind a text the answer stays as it is where something of the text is left
over, and where nothing is accepted in a text other than the empty one and the minus sign alone. A
text that is accepted to its end is prolonged by what goes on in the same way behind it. -/
theorem length?_longest_and_final (rule : Rule) (cs : List Char) :
    ((∃ n, rule.length? cs = some n) ↔ ∃ v, v <+: cs ∧ rule.Spells v) ∧
      (∀ n, rule.length? cs = some n ↔ IsGreatest (rule.prefixLengths cs) n) ∧
      (∀ n, rule.length? cs = some n → ∃ v, takeBytes? n cs = some v) ∧
      (Kind.number.length? cs = number.length? cs ∧
        Kind.operator.length? cs = operator.length? cs) ∧
      ∀ tail : List Char,
        (∀ n, rule.length? cs = some n → n < byteLength cs →
          rule.length? (cs ++ tail) = some n) ∧
        (rule.length? cs = none → cs ≠ [] → ¬ (rule = number ∧ cs = ['-']) →
          rule.length? (cs ++ tail) = none) ∧
        ∀ n, rule.length? cs = some n → n = byteLength cs →
          rule.length? (cs ++ tail) = some (n + rule.growth tail) := by
  refine ⟨exists_length?_iff, fun n => length?_eq_some_iff,
    fun n h => (exists_takeBytes?_of_length? h).2, ⟨rfl, rfl⟩, fun tail => ⟨?_, ?_, ?_⟩⟩
  · exact fun n h hn => length?_append_of_lt h hn tail
  · intro h hne hsign
    rw [length?_eq_none_iff] at h ⊢
    rw [begins_append hne hsign, h]
  · exact fun n h hn => length?_append_of_eq h hn tail

/-- A number that is prolonged, one that is not, and a sign in front of another one. -/
theorem length?_longest_and_final_signs :
    (number.length? ['-', '7'] = some 2 ∧
        number.length? (['-', '7'] ++ ['0', '5', '×']) = some (2 + 2)) ∧
      (number.length? ['7', '-'] = some 1 ∧ number.length? (['7', '-'] ++ ['5']) = some 1) ∧
      (number.length? ['-', '-'] = none ∧ number.length? (['-', '-'] ++ ['5']) = none) ∧
      IsGreatest (number.prefixLengths ['-', '7']) 2 := by
  have hwhole : number.length? ['-', '7'] = some 2 := rfl
  have hpart : number.length? ['7', '-'] = some 1 := rfl
  have hnone : number.length? ['-', '-'] = none := rfl
  have hprolonged := (length?_longest_and_final number ['-', '7']).2.2.2.2 ['0', '5', '×']
  have hkept := (length?_longest_and_final number ['7', '-']).2.2.2.2 ['5']
  have hrefused := (length?_longest_and_final number ['-', '-']).2.2.2.2 ['5']
  exact ⟨⟨hwhole, hprolonged.2.2 2 hwhole rfl⟩, ⟨hpart, hkept.1 1 hpart (by decide)⟩,
    ⟨hnone, hrefused.2.1 hnone (by decide) (by decide)⟩,
    ((length?_longest_and_final number ['-', '7']).2.1 2).mp hwhole⟩

end Rule

end ArithmeticTokens
