import ArithmeticTokens.Proofs.MaximalMunch
import ArithmeticTokens.Scan

/-!
# What a scan leaves behind

A scan cuts the front of a text into lexemes. Each of them was taken in view of all that followed
it, so `Scanned` carries the text ahead along: it is an account of the lexemes that does not
mention the scan. `Scan.Sound` ties it to a scan, one step keeps it, and `Scan.exists_ofSource`
says what is left where no step is possible.
-/

namespace ArithmeticTokens

open Text

/-- The text `cs`, which starts at offset `n` and has the text `ahead` behind it, is cut into these
lexemes. -/
inductive Scanned (ahead : List Char) : Nat → List Char → List Lexeme → Prop
  | done (n : Nat) : Scanned ahead n [] []
  | take {n : Nat} {rule : Rule} {v cs : List Char} {ls : List Lexeme}
      (head : rule.Takes v (cs ++ ahead)) (tail : Scanned ahead (n + v.length) cs ls) :
      Scanned ahead n (v ++ cs) (⟨rule, n, String.ofList v⟩ :: ls)

namespace Scanned

theorem mem_alphabet {ahead cs : List Char} {n : Nat} {ls : List Lexeme}
    (h : Scanned ahead n cs ls) : ∀ c ∈ cs, c ∈ alphabet := by
  induction h with
  | done n => simp
  | take head tail ih =>
      intro c hc
      rcases List.mem_append.mp hc with hc | hc
      · exact head.spells.mem_alphabet c hc
      · exact ih c hc

/-- What is taken from the text ahead becomes one more lexeme. -/
theorem concat {front v rest : List Char} {n : Nat} {ls : List Lexeme} {rule : Rule}
    (h : Scanned (v ++ rest) n front ls) (hv : rule.Takes v rest) :
    Scanned rest n (front ++ v) (ls ++ [⟨rule, n + front.length, String.ofList v⟩]) := by
  induction h with
  | done n =>
      have hone : Scanned rest n (v ++ []) [⟨rule, n, String.ofList v⟩] := .take hv (.done _)
      simpa using hone
  | @take n rule' w cs ls head tail ih =>
      have hlonger : rule'.Takes w ((cs ++ v) ++ rest) := by simpa using head
      simpa [Nat.add_assoc] using Scanned.take hlonger ih

end Scanned

namespace Scan

/-! ### Invariants of a scan -/

/-- What every step keeps holds where the scan ends. -/
theorem finish_induction {select : Selection} {P : Scan → Prop}
    (step : ∀ s t, P s → s.next? select = some t → P t) {s : Scan} (h : P s) :
    P (s.finish select) := by
  fun_induction finish select s with
  | case1 s hhit => exact h
  | case2 s hit hhit ih => exact ih (step s _ h (by simp [next?, hhit]))

/-- A finished scan has no further step. -/
theorem next?_finish (select : Selection) (s : Scan) : (s.finish select).next? select = none := by
  fun_induction finish select s with
  | case1 s hhit => simp [next?, hhit]
  | case2 s hit hhit ih => exact ih

/-! ### The scan by priority -/

theorem hit?_first? (s : Scan) : s.hit? Rule.first? = Rule.first? s.rest := by
  simp only [hit?]
  split
  · rename_i hrest
    rw [hrest, Rule.first?_eq_none_iff.mpr rfl]
  · rfl

/-- The scan has cut all that is behind it into its lexemes. -/
def Sound (source : String) (s : Scan) : Prop :=
  ∃ front, source.toList = front ++ s.rest ∧ s.offset = front.length ∧
    Scanned s.rest 0 front s.lexemes.toList

theorem sound_start (source : String) : Sound source (start source) :=
  ⟨[], rfl, rfl, .done 0⟩

/-- One step takes one lexeme off the text ahead. -/
theorem Sound.next {source : String} {s t : Scan} (h : Sound source s)
    (hnext : s.next? Rule.first? = some t) : Sound source t := by
  obtain ⟨front, hsource, hoffset, hscanned⟩ := h
  obtain ⟨hit, hhit, rfl⟩ := Option.map_eq_some_iff.mp hnext
  rw [hit?_first?] at hhit
  obtain ⟨v, rest, hrest, hlength, htakes⟩ := Rule.exists_takes_of_first? hhit
  have hdrop : s.rest.drop hit.length = rest := by rw [hrest, ← hlength, List.drop_left]
  have htake : s.rest.take hit.length = v := by rw [hrest, ← hlength, List.take_left]
  refine ⟨front ++ v, ?_, ?_, ?_⟩
  · rw [hsource, accept, hdrop, hrest, List.append_assoc]
  · rw [accept, hoffset, List.length_append, hlength]
  · rw [hrest] at hscanned
    simpa [accept, hdrop, htake, hoffset] using hscanned.concat htakes

theorem sound_ofSource (source : String) : Sound source (ofSource source) :=
  finish_induction (fun _ _ h hnext => h.next hnext) (sound_start source)

/-- The scan of a text stops at the end or in front of a character outside the alphabet. -/
theorem exists_ofSource (source : String) :
    ∃ front, source.toList = front ++ (ofSource source).rest ∧
      (ofSource source).offset = front.length ∧
      Scanned (ofSource source).rest 0 front (ofSource source).lexemes.toList ∧
      headIs (· ∈ alphabet) (ofSource source).rest = false := by
  obtain ⟨front, hsource, hoffset, hscanned⟩ := sound_ofSource source
  refine ⟨front, hsource, hoffset, hscanned, ?_⟩
  have hnext := next?_finish Rule.first? (start source)
  rw [next?, Option.map_eq_none_iff, hit?_first?] at hnext
  exact Rule.first?_eq_none_iff.mp hnext

end Scan

end ArithmeticTokens
