import ArithmeticTokens.Proofs.Acceptance
import ArithmeticTokens.Proofs.Slice

/-!
# Nothing is lost

The tokens of an accepted text and the gaps between them account for all of it. The spans of the
tokens ascend without touching one another's bytes, each spans its own value, the gaps hold blanks
only, and gaps and values in turn are the text again. `Covers` collects these facts.
-/

namespace ArithmeticTokens

open Text

/-- The spans from `n` to `stop` that some tokens leave free: one in front of each token and one
behind the last. -/
def gaps (stop : Nat) : Nat → List Token → List Span
  | n, [] => [⟨n, stop⟩]
  | n, t :: ts => ⟨n, t.span.start⟩ :: gaps stop t.span.stop ts

/-- The texts of two lists in turn, beginning with the first text of the first list. -/
def weave : List (List Char) → List (List Char) → List Char
  | w :: ws, v :: vs => w ++ (v ++ weave ws vs)
  | ws, vs => ws.flatten ++ vs.flatten

/-- The tokens and the gaps between them make up the text. -/
structure Covers (source : String) (tokens : List Token) : Prop where
  nonempty : ∀ t ∈ tokens, t.span.start < t.span.stop
  ascending : tokens.Pairwise fun t u =>
    t.span.start < u.span.start ∧ t.span.stop ≤ u.span.start
  inside : ∀ t ∈ tokens, t.span.stop ≤ source.utf8ByteSize
  value : ∀ t ∈ tokens, slice? source.toList t.span.start t.span.stop = some t.chars
  gaps : ∃ ws : List (List Char),
    (gaps source.utf8ByteSize 0 tokens).map (fun g => slice? source.toList g.start g.stop) =
        ws.map some ∧
      (∀ w ∈ ws, ∀ c ∈ w, c ∈ blanks) ∧
      weave ws (tokens.map Token.chars) = source.toList
  values : (tokens.map Token.chars).flatten = source.toList.filter (· ∉ blanks)

namespace Layout

variable {ahead cs : List Char} {n : Nat} {ts : List Token}

/-- The values of the tokens are all that is left without the blanks. -/
theorem flatten_values (h : Layout ahead n cs ts) :
    (ts.map Token.chars).flatten = cs.filter (· ∉ blanks) := by
  induction h with
  | done n => rfl
  | blank hc tail ih => rw [ih, List.filter_cons_of_neg (by simpa using hc)]
  | @token n kind v cs ts hv hseam tail ih =>
      have hall : v.filter (· ∉ blanks) = v :=
        List.filter_eq_self.mpr fun c hc => by simpa using Kind.not_mem_blanks hv hc
      rw [List.map_cons, List.flatten_cons, ih, List.filter_append, hall, Token.chars_ofChars]

/-- The gaps of a layout at the end of a text. A gap is still open where the layout begins: it
started behind `front`, and the blanks `w` belong to it. -/
theorem exists_gaps {text front w : List Char} (h : Layout ahead n cs ts)
    (htext : text = front ++ (w ++ cs)) (hn : n = front.length + w.length)
    (hletters : ∀ c ∈ text, c ∈ alphabet) (hw : ∀ c ∈ w, c ∈ blanks) :
    ∃ ws : List (List Char),
      (gaps text.length front.length ts).map (fun g => slice? text g.start g.stop) =
          ws.map some ∧
        (∀ x ∈ ws, ∀ c ∈ x, c ∈ blanks) ∧
        weave ws (ts.map Token.chars) = w ++ cs := by
  induction h generalizing front w with
  | done n =>
      have hslice := slice?_of_eq_append htext hletters
      have hstop : text.length = front.length + w.length := by simp [htext]
      refine ⟨[w], ?_, by simpa using hw, by simp [weave]⟩
      simpa [gaps, hstop] using hslice
  | @blank n c cs ts hc tail ih =>
      have hopen : ∀ d ∈ w ++ [c], d ∈ blanks := by
        intro d hd
        rcases List.mem_append.mp hd with hd | hd
        · exact hw d hd
        · rwa [List.mem_singleton.mp hd]
      have hlength : n + 1 = front.length + (w ++ [c]).length := by
        rw [List.length_append, List.length_singleton]
        omega
      have hcs : w ++ [c] ++ cs = w ++ c :: cs := by simp
      rw [← hcs] at htext ⊢
      exact ih htext hlength hopen
  | @token n kind v cs ts hv hseam tail ih =>
      have hbehind : n + v.length = (front ++ (w ++ v)).length := by
        rw [hn, List.length_append, List.length_append, Nat.add_assoc]
      have htext' : text = front ++ (w ++ v) ++ ([] ++ cs) := by simp [htext]
      obtain ⟨ws, hslices, hblanks, hweave⟩ :=
        ih htext' (by rw [hbehind, List.length_nil, Nat.add_zero]) (by simp)
      have hslice : slice? text front.length n = some w := by
        rw [hn]
        exact slice?_of_eq_append htext hletters
      refine ⟨w :: ws, ?_, ?_, ?_⟩
      · rw [← hbehind] at hslices
        rw [gaps, List.map_cons, List.map_cons]
        exact congrArg₂ List.cons hslice hslices
      · intro x hx
        rcases List.mem_cons.mp hx with rfl | hx
        · exact hw
        · exact hblanks x hx
      · rw [List.map_cons, weave, hweave, Token.chars_ofChars, List.nil_append]

end Layout

/-- The tokens of an accepted text and the gaps between them make up the text. -/
theorem lex_covers {source : String} {tokens : List Token} (h : lex source = .ok tokens) :
    Covers source tokens := by
  have hlayout := lex_eq_ok_iff.mp h
  have hletters := exists_lex_eq_ok_iff.mp ⟨tokens, h⟩
  have hsize := utf8ByteSize_eq_length h
  constructor
  case nonempty => exact fun t ht => (hlayout.bounds ht).2.1
  case ascending => exact hlayout.pairwise
  case inside =>
    intro t ht
    rw [hsize, ← Nat.zero_add source.toList.length]
    exact (hlayout.bounds ht).2.2
  case value =>
    intro t ht
    obtain ⟨front, kind, v, rest, hcs, -, rfl⟩ := hlayout.exists_of_mem ht
    rw [Token.chars_ofChars, Nat.zero_add]
    exact slice?_of_eq_append hcs hletters
  case gaps =>
    have htext : source.toList = [] ++ ([] ++ source.toList) := rfl
    rw [hsize]
    exact hlayout.exists_gaps htext rfl hletters (by simp)
  case values => exact hlayout.flatten_values

theorem lex_covers_signs :
    lex "\t5--2 \r\n3" =
        .ok [⟨.number, "5", ⟨1, 2⟩⟩, ⟨.operator, "-", ⟨2, 3⟩⟩, ⟨.number, "-2", ⟨3, 5⟩⟩,
          ⟨.number, "3", ⟨8, 9⟩⟩] ∧
      Covers "\t5--2 \r\n3" [⟨.number, "5", ⟨1, 2⟩⟩, ⟨.operator, "-", ⟨2, 3⟩⟩,
        ⟨.number, "-2", ⟨3, 5⟩⟩, ⟨.number, "3", ⟨8, 9⟩⟩] :=
  ⟨by decide +kernel, lex_covers (by decide +kernel)⟩

end ArithmeticTokens
