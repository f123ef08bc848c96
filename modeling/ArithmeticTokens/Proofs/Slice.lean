import ArithmeticTokens.Proofs.Alphabet

/-!
# Slices of a text

A slice is cut out of a text by two byte offsets. It exists where both are on the border of two
characters and in order, so that a slice that is given is also a statement about its ends.
-/

namespace ArithmeticTokens.Text

/-- What lies between two byte offsets, or `none` when they are out of order, past the end of the
text or inside a character. -/
def slice? (cs : List Char) (start stop : Nat) : Option (List Char) :=
  if start ≤ stop then (dropBytes? start cs).bind (takeBytes? (stop - start)) else none

theorem slice?_eq_some_iff {cs v : List Char} {start stop : Nat} :
    slice? cs start stop = some v ↔
      ∃ front rest, cs = front ++ (v ++ rest) ∧ byteLength front = start ∧
        byteLength front + byteLength v = stop := by
  constructor
  · intro h
    simp only [slice?] at h
    split at h
    · obtain ⟨tail, htail, hv⟩ := Option.bind_eq_some_iff.mp h
      obtain ⟨front, rfl, hfront⟩ := dropBytes?_eq_some_iff.mp htail
      obtain ⟨rest, rfl, hlength⟩ := takeBytes?_eq_some_iff.mp hv
      exact ⟨front, rest, rfl, hfront, by omega⟩
    · cases h
  · intro ⟨front, rest, hcs, hstart, hstop⟩
    have hdrop : dropBytes? start cs = some (v ++ rest) :=
      dropBytes?_eq_some_iff.mpr ⟨front, hcs, hstart⟩
    have htake : takeBytes? (stop - start) (v ++ rest) = some v :=
      takeBytes?_eq_some_iff.mpr ⟨rest, rfl, by omega⟩
    rw [slice?, if_pos (by omega), hdrop, Option.bind_some, htake]

theorem slice?_of_dropBytes? {cs v rest : List Char} {n : Nat}
    (h : dropBytes? n cs = some (v ++ rest)) : slice? cs n (n + byteLength v) = some v := by
  obtain ⟨front, hcs, rfl⟩ := dropBytes?_eq_some_iff.mp h
  exact slice?_eq_some_iff.mpr ⟨front, rest, hcs, rfl, rfl⟩

/-- In a text over the alphabet, slices are counted in characters. -/
theorem slice?_of_eq_append {cs front v rest : List Char} (hcs : cs = front ++ (v ++ rest))
    (h : ∀ c ∈ cs, c ∈ alphabet) :
    slice? cs front.length (front.length + v.length) = some v := by
  have hfront : byteLength front = front.length :=
    byteLength_eq_length fun c hc => h c (by simp [hcs, hc])
  have hv : byteLength v = v.length :=
    byteLength_eq_length fun c hc => h c (by simp [hcs, hc])
  exact slice?_eq_some_iff.mpr ⟨front, rest, hcs, hfront, by rw [hfront, hv]⟩

end ArithmeticTokens.Text
