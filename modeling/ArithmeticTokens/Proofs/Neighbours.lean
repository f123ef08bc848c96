import ArithmeticTokens.Proofs.Acceptance
import ArithmeticTokens.Proofs.Slice
import Mathlib.Order.Bounds.Basic

/-!
# Tokens by their neighbours

Where the tokens of an accepted text start, of which kind they are and where they stop can be read
off the bytes around each offset. Nothing of this needs a scan: a minus sign is the sign of a
number when the byte behind it is a digit, whatever comes before it, and a digit starts a token
unless the byte in front of it is a digit or a minus sign. `lex_tokens_by_neighbours` says that the
tokens found in this way are the tokens of the text.
-/

namespace ArithmeticTokens

open Text

/-! ### What the bytes say -/

/-- Byte `i` of the text is a digit. -/
def DigitAt (source : String) (i : Nat) : Prop :=
  ∃ x, source.toUTF8[i]? = some x ∧ 0x30 ≤ x ∧ x ≤ 0x39

/-- Byte `i` of the text is a minus sign. -/
def MinusAt (source : String) (i : Nat) : Prop := source.toUTF8[i]? = some 0x2D

/-- Byte `i` of the text is one of `*`, `|`, `/`, `+` and `-`. -/
def OperatorAt (source : String) (i : Nat) : Prop :=
  ∃ x ∈ ([0x2A, 0x7C, 0x2F, 0x2B, 0x2D] : List UInt8), source.toUTF8[i]? = some x

/-- A token starts at byte `i`. -/
def StartsAt (source : String) (i : Nat) : Prop :=
  OperatorAt source i ∨
    DigitAt source i ∧ (i = 0 ∨ ¬ DigitAt source (i - 1) ∧ ¬ MinusAt source (i - 1))

/-- What starts at byte `i` is a number. -/
def NumberAt (source : String) (i : Nat) : Prop :=
  DigitAt source i ∨ MinusAt source i ∧ DigitAt source (i + 1)

/-- The token is what the bytes at its start and behind it make of it. -/
structure ReadsAs (source : String) (t : Token) : Prop where
  starts : StartsAt source t.span.start
  kind : t.kind = .number ↔ NumberAt source t.span.start
  stop_operator : t.kind = .operator → t.span.stop = t.span.start + 1
  stop_number : t.kind = .number →
    IsLeast {j | t.span.start < j ∧ (j = source.utf8ByteSize ∨ ¬ DigitAt source j)} t.span.stop
  value : slice? source.toList t.span.start t.span.stop = some t.chars

/-- A token is determined by its start. -/
theorem ReadsAs.unique {source : String} {t u : Token} (ht : ReadsAs source t)
    (hu : ReadsAs source u) (h : t.span.start = u.span.start) : t = u := by
  have hnumber : t.kind = .number ↔ u.kind = .number := by rw [ht.kind, hu.kind, h]
  have hkind : t.kind = u.kind := by
    cases hk : u.kind with
    | number => exact hnumber.mpr hk
    | operator =>
        cases hk' : t.kind with
        | number => rw [hnumber.mp hk'] at hk; cases hk
        | operator => rfl
  have hstop : t.span.stop = u.span.stop := by
    cases hk : u.kind with
    | number =>
        have hleast := ht.stop_number (hkind.trans hk)
        rw [h] at hleast
        exact hleast.unique (hu.stop_number hk)
    | operator => rw [ht.stop_operator (hkind.trans hk), hu.stop_operator hk, h]
  have hvalue : t.value = u.value := by
    have hslice := ht.value
    rw [h, hstop, hu.value, Option.some.injEq] at hslice
    exact String.toList_inj.mp hslice.symm
  obtain ⟨kind, value, start, stop⟩ := t
  simp only at h hkind hstop hvalue
  rw [h, hkind, hstop, hvalue]

/-! ### Bytes and characters -/

theorem toByteArray_of_mem_alphabet {cs : List Char} (h : ∀ c ∈ cs, c ∈ alphabet) :
    cs.utf8Encode = (cs.map Char.toUInt8).toByteArray := by
  induction cs with
  | nil => rfl
  | cons c cs ih =>
      have hc := utf8Size_of_mem_alphabet (h c (by simp))
      rw [List.utf8Encode_cons, List.utf8Encode_singleton, String.utf8EncodeChar_eq_singleton hc,
        ih fun d hd => h d (by simp [hd]), ← List.toByteArray_append]
      rfl

theorem getElem?_toByteArray (bytes : List UInt8) (i : Nat) :
    bytes.toByteArray[i]? = bytes[i]? := by
  by_cases hi : i < bytes.length
  · rw [getElem?_pos bytes.toByteArray i (by simpa using hi), getElem?_pos bytes i hi]
    simp [ByteArray.getElem_eq_getElem_data, List.data_toByteArray]
  · rw [getElem?_neg bytes.toByteArray i (by simpa using hi), getElem?_neg bytes i hi]

section

variable {source : String} (hletters : ∀ c ∈ source.toList, c ∈ alphabet)
include hletters

theorem getElem?_toUTF8 (i : Nat) : source.toUTF8[i]? = source.toList[i]?.map Char.toUInt8 := by
  have hbytes : source.toUTF8 = (source.toList.map Char.toUInt8).toByteArray := by
    rw [String.toUTF8_eq_toByteArray, ← String.ofList_toList (s := source),
      String.toByteArray_ofList, String.toList_ofList, toByteArray_of_mem_alphabet hletters]
  rw [hbytes, ← List.getElem?_map, getElem?_toByteArray]

/-- The byte behind the front part of a text is its next character. -/
theorem getElem?_toUTF8_length {front rest : List Char} (hsource : source.toList = front ++ rest) :
    source.toUTF8[front.length]? = rest.head?.map Char.toUInt8 := by
  rw [getElem?_toUTF8 hletters, hsource, List.getElem?_append_right le_rfl, Nat.sub_self,
    List.head?_eq_getElem?]

/-- A property of bytes and one of characters that agree on the alphabet agree on every text. -/
theorem exists_byte_iff {P : UInt8 → Prop} {p : Char → Bool}
    (hagree : ∀ c ∈ alphabet, (P c.toUInt8 ↔ p c = true)) {front rest : List Char}
    (hsource : source.toList = front ++ rest) :
    (∃ x, source.toUTF8[front.length]? = some x ∧ P x) ↔ headIs p rest = true := by
  rw [getElem?_toUTF8_length hletters hsource]
  cases rest with
  | nil => simp
  | cons c rest => simpa using hagree c (hletters c (by simp [hsource]))

theorem digitAt_iff {front rest : List Char} (hsource : source.toList = front ++ rest) :
    DigitAt source front.length ↔ headIs Char.isDigit rest = true := by
  have hall : alphabet.all (fun c =>
      (0x30 ≤ c.toUInt8 ∧ c.toUInt8 ≤ 0x39) ↔ c.isDigit = true) = true := by
    decide
  apply exists_byte_iff hletters _ hsource
  intro c hc
  exact of_decide_eq_true (List.all_eq_true.mp hall c hc)

theorem minusAt_iff {front rest : List Char} (hsource : source.toList = front ++ rest) :
    MinusAt source front.length ↔ headIs (· = '-') rest = true := by
  have hall : alphabet.all (fun c => c.toUInt8 = 0x2D ↔ c = '-') = true := by decide
  have hagree : ∀ c ∈ alphabet, (c.toUInt8 = 0x2D ↔ decide (c = '-') = true) := by
    intro c hc
    simpa using of_decide_eq_true (List.all_eq_true.mp hall c hc)
  rw [MinusAt, ← exists_byte_iff (P := (· = 0x2D)) hletters hagree hsource, exists_eq_right]

theorem operatorAt_iff {front rest : List Char} (hsource : source.toList = front ++ rest) :
    OperatorAt source front.length ↔ headIs (· ∈ operators) rest = true := by
  have hall : alphabet.all (fun c =>
      c.toUInt8 ∈ ([0x2A, 0x7C, 0x2F, 0x2B, 0x2D] : List UInt8) ↔ c ∈ operators) = true := by
    decide
  have hagree : ∀ c ∈ alphabet, (c.toUInt8 ∈ ([0x2A, 0x7C, 0x2F, 0x2B, 0x2D] : List UInt8) ↔
      decide (c ∈ operators) = true) := by
    intro c hc
    simpa using of_decide_eq_true (List.all_eq_true.mp hall c hc)
  rw [OperatorAt, ← exists_byte_iff hletters hagree hsource]
  exact exists_congr fun x => and_comm

/-- A token starts behind the front part of a text with an operator, or with a digit that does
not go on a number there. -/
theorem startsAt_iff {front rest : List Char} (hsource : source.toList = front ++ rest) :
    StartsAt source front.length ↔ headIs (· ∈ operators) rest = true ∨
      headIs Char.isDigit rest = true ∧ seam front rest = false := by
  rw [StartsAt, operatorAt_iff hletters hsource, digitAt_iff hletters hsource]
  refine or_congr_right (and_congr_right fun hdigit => ?_)
  rcases List.eq_nil_or_concat front with rfl | ⟨init, c, rfl⟩
  · simp
  · rw [List.concat_eq_append] at hsource ⊢
    have hbefore : source.toList = init ++ c :: rest := by simp [hsource]
    have hlength : (init ++ [c]).length - 1 = init.length := by simp
    rw [hlength, digitAt_iff hletters hbefore, minusAt_iff hletters hbefore]
    simp [seam, hdigit]

/-- No token starts where a number goes on. -/
theorem not_startsAt_of_seam {front rest : List Char} (hsource : source.toList = front ++ rest)
    (hs : seam front rest = true) : ¬ StartsAt source front.length := by
  rw [startsAt_iff hletters hsource, hs]
  intro h
  have hdigit : headIs Char.isDigit rest = true := (Bool.and_eq_true_iff.mp hs).2
  rcases h with hoperator | ⟨-, hfalse⟩
  · obtain ⟨c, rest, rfl, hc⟩ := headIs_eq_true_iff.mp hdigit
    exact not_mem_operators_of_isDigit hc (by simpa using hoperator)
  · cases hfalse

theorem StartsAt.lt_length {i : Nat} (h : StartsAt source i) : i < source.toList.length := by
  have hbyte : ∃ x, source.toUTF8[i]? = some x := by
    rcases h with ⟨x, -, hx⟩ | ⟨⟨x, hx, -⟩, -⟩
    · exact ⟨x, hx⟩
    · exact ⟨x, hx⟩
  obtain ⟨x, hx⟩ := hbyte
  rw [getElem?_toUTF8 hletters] at hx
  obtain ⟨c, hc, -⟩ := Option.map_eq_some_iff.mp hx
  exact (List.getElem?_eq_some_iff.mp hc).1

end

/-! ### Layouts by neighbours -/

/-- A token begins with an operator or with a digit. -/
theorem Kind.headIs_of_spells {kind : Kind} {v : List Char} (hv : kind.rule.Spells v) :
    headIs (· ∈ operators) v = true ∨ headIs Char.isDigit v = true := by
  cases kind with
  | number =>
      cases hv with
      | digits hne hv =>
          obtain ⟨c, v, rfl⟩ := List.exists_cons_of_ne_nil hne
          exact Or.inr (hv c (by simp))
      | signed _ _ => exact Or.inl (by simp [operators])
  | operator =>
      cases hv with
      | operator hc => exact Or.inl (by simpa using hc)

/-- Inside a token a number goes on. -/
theorem Kind.seam_of_spells_append {kind : Kind} {v w : List Char}
    (h : kind.rule.Spells (v ++ w)) (hv : v ≠ []) (hw : w ≠ []) : seam v w = true := by
  obtain ⟨c, v, rfl⟩ := List.exists_cons_of_ne_nil hv
  obtain ⟨d, w, rfl⟩ := List.exists_cons_of_ne_nil hw
  have hnumber : (c.isDigit = true ∨ c = '-') ∧ ∀ x ∈ v ++ d :: w, x.isDigit = true := by
    generalize htext : c :: v ++ d :: w = text at h
    cases kind with
    | number =>
        cases h with
        | digits _ hall =>
            subst htext
            exact ⟨Or.inl (hall c (by simp)), fun x hx => hall x (by simp at hx ⊢; tauto)⟩
        | signed _ hall =>
            obtain ⟨rfl, rfl⟩ := List.cons.inj htext
            exact ⟨Or.inr rfl, hall⟩
    | operator =>
        cases h with
        | operator _ => simp at htext
  have hlast : lastIs (fun x => x.isDigit || x = '-') (c :: v) = true := by
    apply lastIs_of_forall (by simp)
    intro x hx
    rcases List.mem_cons.mp hx with rfl | hx
    · simpa using hnumber.1
    · simp [hnumber.2 x (by simp [hx])]
  rw [seam, hlast, Bool.true_and, headIs_cons]
  exact hnumber.2 d (by simp)

/-- Every place inside a token is in the middle of a number. -/
theorem Kind.exists_seam {kind : Kind} {front v : List Char} (rest : List Char) {i : Nat}
    (hv : kind.rule.Spells v) (hlo : front.length < i) (hhi : i < front.length + v.length) :
    ∃ as bs, front ++ (v ++ rest) = as ++ bs ∧ as.length = i ∧ seam as bs = true := by
  have hsplit : v.take (i - front.length) ++ v.drop (i - front.length) = v :=
    List.take_append_drop _ _
  have htake : v.take (i - front.length) ≠ [] := by
    apply List.ne_nil_of_length_pos
    rw [List.length_take]
    omega
  have hdrop : v.drop (i - front.length) ≠ [] := by
    apply List.ne_nil_of_length_pos
    rw [List.length_drop]
    omega
  refine ⟨front ++ v.take (i - front.length), v.drop (i - front.length) ++ rest, ?_, ?_, ?_⟩
  · rw [List.append_assoc, ← List.append_assoc (v.take _), hsplit]
  · rw [List.length_append, List.length_take]
    omega
  · rw [seam_append_left htake, seam_append_right hdrop]
    exact Kind.seam_of_spells_append (hsplit.symm ▸ hv) htake hdrop

section

variable {source : String} (hletters : ∀ c ∈ source.toList, c ∈ alphabet)
include hletters

/-- The kind of a token shows in its first two bytes. -/
theorem numberAt_iff {kind : Kind} {front v rest : List Char}
    (hsource : source.toList = front ++ (v ++ rest)) (hv : kind.rule.Spells v)
    (hseam : seam v rest = false) : NumberAt source front.length ↔ kind = .number := by
  obtain ⟨c, w, rfl⟩ := List.exists_cons_of_ne_nil hv.ne_nil
  have hnext : source.toList = (front ++ [c]) ++ (w ++ rest) := by simp [hsource]
  have hlength : front.length + 1 = (front ++ [c]).length := by simp
  rw [NumberAt, hlength, digitAt_iff hletters hsource, minusAt_iff hletters hsource,
    digitAt_iff hletters hnext]
  simp only [List.cons_append, headIs_cons, decide_eq_true_eq]
  cases kind with
  | number =>
      cases hv with
      | digits _ hall => simp [hall c (by simp)]
      | signed hne hall =>
          obtain ⟨d, w, rfl⟩ := List.exists_cons_of_ne_nil hne
          simp [hall d (by simp)]
  | operator =>
      cases hv with
      | operator hc =>
          simp only [isDigit_of_mem_operators hc, Bool.false_eq_true, false_or, reduceCtorEq,
            iff_false, not_and]
          rintro rfl
          simpa [seam, lastIs] using hseam

/-- A number stops at the first byte behind its start that is no digit. -/
theorem isLeast_stop {front v rest : List Char} (hsource : source.toList = front ++ (v ++ rest))
    (hv : Kind.number.rule.Spells v) (hseam : seam v rest = false) :
    IsLeast {j | front.length < j ∧ (j = source.toList.length ∨ ¬ DigitAt source j)}
      (front.length + v.length) := by
  constructor
  · have hpos := List.length_pos_iff.mpr hv.ne_nil
    have hstops : headIs Char.isDigit rest = false := ((Kind.takes_iff hv).mpr hseam).stops
    have hbehind : source.toList = (front ++ v) ++ rest := by simp [hsource]
    refine ⟨by omega, Or.inr ?_⟩
    rw [← List.length_append, digitAt_iff hletters hbehind, hstops]
    simp
  · intro j ⟨hlo, hstop⟩
    by_contra hlt
    rw [Nat.not_le] at hlt
    obtain ⟨as, bs, hsplit, hlength, hs⟩ := Kind.exists_seam rest hv hlo hlt
    rcases hstop with hend | hdigit
    · rw [hend, hsource, List.length_append, List.length_append] at hlt
      omega
    · apply hdigit
      rw [← hlength, digitAt_iff hletters (hsource.trans hsplit)]
      exact (Bool.and_eq_true_iff.mp hs).2

end

namespace Layout

variable {cs : List Char} {n : Nat} {ts : List Token} {source : String}

/-- Tokens start where their neighbours say. The layout begins behind `front`, and no number runs
over that border. -/
theorem starts_iff (h : Layout [] n cs ts) (hletters : ∀ c ∈ source.toList, c ∈ alphabet)
    (front : List Char) (hsource : source.toList = front ++ cs) (hn : n = front.length)
    (hborder : seam front cs = false) (i : Nat) :
    (∃ t ∈ ts, t.span.start = i) ↔ n ≤ i ∧ StartsAt source i := by
  induction h generalizing front with
  | done n =>
      constructor
      · intro ⟨t, ht, _⟩
        cases ht
      · intro ⟨hi, hstarts⟩
        have hlt := hstarts.lt_length hletters
        rw [hsource, List.append_nil] at hlt
        omega
  | @blank n c cs ts hc tail ih =>
      have hblank : ¬ StartsAt source n := by
        rw [hn, startsAt_iff hletters hsource, headIs_cons, headIs_cons,
          isDigit_of_mem_blanks hc]
        simpa using fun ho => not_mem_blanks_of_mem_operators ho hc
      rw [ih (front ++ [c]) (by simp [hsource]) (by simp [hn]) (seam_blank hc)]
      constructor
      · intro ⟨hi, hstarts⟩
        exact ⟨by omega, hstarts⟩
      · intro ⟨hi, hstarts⟩
        refine ⟨?_, hstarts⟩
        by_contra hlt
        obtain rfl : i = n := by omega
        exact hblank hstarts
  | @token n kind v cs ts hv hseam tail ih =>
      rw [List.append_nil] at hseam
      have hbehind : seam (front ++ v) cs = false := by rwa [seam_append_left hv.ne_nil]
      have hfirst : StartsAt source n := by
        rw [hn, startsAt_iff hletters hsource, headIs_append hv.ne_nil, headIs_append hv.ne_nil]
        exact (Kind.headIs_of_spells hv).imp_right fun hdigit => ⟨hdigit, hborder⟩
      have hinside : n < i → i < n + v.length → ¬ StartsAt source i := by
        intro hlo hhi
        obtain ⟨as, bs, hsplit, hlength, hs⟩ :=
          Kind.exists_seam cs hv (hn ▸ hlo) (hn ▸ hhi)
        rw [← hlength]
        exact not_startsAt_of_seam hletters (hsource.trans hsplit) hs
      have htail := ih (front ++ v) (by simp [hsource]) (by simp [hn]) hbehind
      simp only [List.mem_cons, exists_eq_or_imp, htail]
      constructor
      · intro h
        rcases h with rfl | ⟨hi, hstarts⟩
        · exact ⟨le_rfl, hfirst⟩
        · exact ⟨by omega, hstarts⟩
      · intro ⟨hi, hstarts⟩
        by_cases hstart : n = i
        · exact Or.inl hstart
        · refine Or.inr ⟨?_, hstarts⟩
          by_contra hlt
          exact hinside (by omega) (by omega) hstarts

/-- A token of a text is what the bytes at its start and behind it make of it. -/
theorem readsAs (h : Layout [] 0 source.toList ts)
    (hletters : ∀ c ∈ source.toList, c ∈ alphabet) {t : Token} (ht : t ∈ ts) :
    ReadsAs source t := by
  have hstarts := ((h.starts_iff hletters [] rfl rfl rfl _).mp ⟨t, ht, rfl⟩).2
  have hsize : source.utf8ByteSize = source.toList.length := by
    rw [utf8ByteSize_eq_byteLength, byteLength_eq_length hletters]
  obtain ⟨us, vs, rfl⟩ := List.append_of_mem ht
  obtain ⟨front, kind, v, rest, hsource, rfl, hv, hseam, -⟩ := h.split
  rw [Nat.zero_add] at hstarts ⊢
  rw [List.append_nil] at hseam
  constructor
  case starts => exact hstarts
  case kind => exact (numberAt_iff hletters hsource hv hseam).symm
  case stop_operator =>
    intro hkind
    obtain rfl : kind = .operator := hkind
    cases hv with
    | operator _ => rfl
  case stop_number =>
    intro hkind
    obtain rfl : kind = .number := hkind
    rw [hsize]
    exact isLeast_stop hletters hsource hv hseam
  case value =>
    rw [Token.chars_ofChars]
    exact slice?_of_eq_append hsource hletters

end Layout

/-- The tokens of an accepted text are exactly those that its bytes show, in the order of their
starts. Whether a minus sign is a sign depends on the byte behind it only. -/
theorem lex_tokens_by_neighbours {source : String} {tokens : List Token}
    (h : lex source = .ok tokens) :
    (tokens.Pairwise fun t u => t.span.start < u.span.start) ∧
      (∀ i, (∃ t ∈ tokens, t.span.start = i) ↔ StartsAt source i) ∧
      (∀ t, t ∈ tokens ↔ ReadsAs source t) ∧
      ∀ t ∈ tokens, MinusAt source t.span.start →
        (t.kind = .number ↔ DigitAt source (t.span.start + 1)) := by
  have hlayout := lex_eq_ok_iff.mp h
  have hletters := exists_lex_eq_ok_iff.mp ⟨tokens, h⟩
  have hstarts (i : Nat) : (∃ t ∈ tokens, t.span.start = i) ↔ StartsAt source i := by
    rw [hlayout.starts_iff hletters [] rfl rfl rfl]
    simp
  have hreads {t : Token} (ht : t ∈ tokens) : ReadsAs source t := hlayout.readsAs hletters ht
  refine ⟨hlayout.pairwise.imp And.left, hstarts, fun t => ⟨hreads, ?_⟩, ?_⟩
  · intro ht
    obtain ⟨u, hu, hstart⟩ := (hstarts t.span.start).mpr ht.starts
    rwa [← (hreads hu).unique ht hstart]
  · intro t ht hminus
    rw [(hreads ht).kind, NumberAt]
    have hdigit : ¬ DigitAt source t.span.start := by
      intro ⟨x, hx, hlo, _⟩
      rw [hminus] at hx
      obtain rfl := Option.some.inj hx
      exact absurd hlo (by decide)
    simp [hdigit, hminus]

theorem lex_tokens_by_neighbours_signs :
    lex "3-4 --7-" =
        .ok [⟨.number, "3", ⟨0, 1⟩⟩, ⟨.number, "-4", ⟨1, 3⟩⟩, ⟨.operator, "-", ⟨4, 5⟩⟩,
          ⟨.number, "-7", ⟨5, 7⟩⟩, ⟨.operator, "-", ⟨7, 8⟩⟩] ∧
      ReadsAs "3-4 --7-" ⟨.number, "-7", ⟨5, 7⟩⟩ ∧ ¬ StartsAt "3-4 --7-" 6 := by
  have hlex : lex "3-4 --7-" =
      .ok [⟨.number, "3", ⟨0, 1⟩⟩, ⟨.number, "-4", ⟨1, 3⟩⟩, ⟨.operator, "-", ⟨4, 5⟩⟩,
        ⟨.number, "-7", ⟨5, 7⟩⟩, ⟨.operator, "-", ⟨7, 8⟩⟩] := by
    decide +kernel
  obtain ⟨-, hstarts, hreads, -⟩ := lex_tokens_by_neighbours hlex
  refine ⟨hlex, (hreads _).mp (by simp), fun h => ?_⟩
  obtain ⟨t, ht, hstart⟩ := (hstarts 6).mpr h
  simp at ht
  rcases ht with rfl | rfl | rfl | rfl | rfl <;> simp at hstart

end ArithmeticTokens
