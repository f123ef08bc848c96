import ArithmeticTokens.Proofs.Scanned

/-!
# The layout of a text

An accepted text consists of tokens with blanks between them, and no two neighbours in it would
rather be taken together. `Layout` says just that: it knows neither the order of a scan nor the
runs in which blanks are skipped, so layouts can be put together wherever no number runs over the
border (`seam`). A text has at most one layout (`Layout.unique`), and what a scan leaves behind
has the one with its tokens (`Scanned.layout`).
-/

namespace ArithmeticTokens

open Text

/-! ### Seams -/

/-- Would a number run over the border of the two texts? This is so where the second starts with a
digit and the first ends in one or in a minus sign. -/
def seam (as bs : List Char) : Bool :=
  lastIs (fun c => c.isDigit || c = '-') as && headIs Char.isDigit bs

@[simp] theorem seam_nil_left (bs : List Char) : seam [] bs = false := rfl

@[simp] theorem seam_nil_right (as : List Char) : seam as [] = false := by
  simp [seam]

theorem seam_append_left {as bs cs : List Char} (h : bs ≠ []) :
    seam (as ++ bs) cs = seam bs cs := by
  rw [seam, seam, lastIs_append h]

theorem seam_append_right {as bs cs : List Char} (h : bs ≠ []) :
    seam as (bs ++ cs) = seam as bs := by
  rw [seam, seam, headIs_append h]

/-- The border behind a blank is no seam. -/
theorem seam_blank {as bs : List Char} {c : Char} (h : c ∈ blanks) :
    seam (as ++ [c]) bs = false := by
  simp [seam, isDigit_of_mem_blanks h, ne_minus_of_mem_blanks h]

theorem Rule.Spells.lastIs_number {v : List Char} (hv : Rule.number.Spells v) :
    lastIs (fun c => c.isDigit || c = '-') v = true := by
  cases hv with
  | digits hne hv => exact lastIs_of_forall hne fun c hc => by simp [hv c hc]
  | @signed v hne hv =>
      rw [← List.singleton_append, lastIs_append hne]
      exact lastIs_of_forall hne fun c hc => by simp [hv c hc]

/-- A token is taken as it stands unless there is a seam behind it. -/
theorem Kind.takes_iff {kind : Kind} {v rest : List Char} (hv : kind.rule.Spells v) :
    kind.rule.Takes v rest ↔ seam v rest = false := by
  cases kind with
  | number =>
      rw [seam, hv.lastIs_number, Bool.true_and]
      constructor
      · exact fun h => h.stops
      · refine fun h => ⟨hv, h, ?_⟩
        rintro rfl
        exact absurd hv Rule.not_spells_number_minus
  | operator =>
      cases hv with
      | @operator c hc =>
          have hseam : seam [c] rest = (decide (c = '-') && headIs Char.isDigit rest) := by
            simp [seam, lastIs, isDigit_of_mem_operators hc]
          rw [hseam]
          constructor
          · intro h
            by_cases hminus : c = '-'
            · simp [h.unsigned (by rw [hminus])]
            · simp [hminus]
          · intro h
            refine ⟨.operator hc, rfl, fun hminus => ?_⟩
            simpa [List.singleton_inj.mp hminus] using h

theorem Kind.not_mem_blanks {kind : Kind} {c : Char} {v : List Char} (hv : kind.rule.Spells v)
    (hc : c ∈ v) : c ∉ blanks := by
  cases kind with
  | number =>
      cases hv with
      | digits _ hv => exact not_mem_blanks_of_isDigit (hv c hc)
      | signed _ hv =>
          rcases List.mem_cons.mp hc with rfl | hc
          · decide
          · exact not_mem_blanks_of_isDigit (hv c hc)
  | operator =>
      cases hv with
      | operator ho =>
          rw [List.mem_singleton.mp hc]
          exact not_mem_blanks_of_mem_operators ho

theorem Kind.rule_inj {k l : Kind} : k.rule = l.rule ↔ k = l := by
  cases k <;> cases l <;> decide

/-! ### Layouts -/

/-- The token of a kind with the text `v` at offset `n`. -/
def Token.ofChars (kind : Kind) (n : Nat) (v : List Char) : Token :=
  ⟨kind, String.ofList v, ⟨n, n + v.length⟩⟩

/-- The characters of the value of a token. -/
def Token.chars (t : Token) : List Char := t.value.toList

@[simp] theorem Token.chars_ofChars (kind : Kind) (n : Nat) (v : List Char) :
    (ofChars kind n v).chars = v := by
  simp [chars, ofChars]

/-- The token `k` bytes further on. -/
def Token.shift (k : Nat) (t : Token) : Token :=
  { t with span := ⟨k + t.span.start, k + t.span.stop⟩ }

theorem Token.shift_ofChars (k : Nat) (kind : Kind) (n : Nat) (v : List Char) :
    (ofChars kind n v).shift k = ofChars kind (k + n) v := by
  simp [shift, ofChars, Nat.add_assoc]

/-- The text `cs`, which starts at offset `n` and has the text `ahead` behind it, consists of these
tokens and of blanks. -/
inductive Layout (ahead : List Char) : Nat → List Char → List Token → Prop
  | done (n : Nat) : Layout ahead n [] []
  | blank {n : Nat} {c : Char} {cs : List Char} {ts : List Token} (hc : c ∈ blanks)
      (tail : Layout ahead (n + 1) cs ts) : Layout ahead n (c :: cs) ts
  | token {n : Nat} {kind : Kind} {v cs : List Char} {ts : List Token}
      (hv : kind.rule.Spells v) (hseam : seam v (cs ++ ahead) = false)
      (tail : Layout ahead (n + v.length) cs ts) :
      Layout ahead n (v ++ cs) (Token.ofChars kind n v :: ts)

namespace Layout

variable {ahead cs : List Char} {n : Nat} {ts : List Token}

theorem mem_alphabet (h : Layout ahead n cs ts) : ∀ c ∈ cs, c ∈ alphabet := by
  induction h with
  | done n => simp
  | blank hc tail ih =>
      intro d hd
      rcases List.mem_cons.mp hd with rfl | hd
      · exact mem_alphabet_of_mem_blanks hc
      · exact ih d hd
  | token hv hseam tail ih =>
      intro d hd
      rcases List.mem_append.mp hd with hd | hd
      · exact hv.mem_alphabet d hd
      · exact ih d hd

theorem blanks_append {v : List Char} (hv : ∀ c ∈ v, c ∈ blanks)
    (h : Layout ahead (n + v.length) cs ts) : Layout ahead n (v ++ cs) ts := by
  induction v generalizing n with
  | nil => exact h
  | cons c v ih =>
      apply Layout.blank (hv c (by simp))
      apply ih fun d hd => hv d (by simp [hd])
      rwa [Nat.add_right_comm]

theorem shift (h : Layout ahead n cs ts) (k : Nat) :
    Layout ahead (k + n) cs (ts.map (Token.shift k)) := by
  induction h with
  | done n => exact .done _
  | blank hc tail ih => exact .blank hc ih
  | token hv hseam tail ih =>
      rw [List.map_cons, Token.shift_ofChars]
      exact .token hv hseam (by rwa [Nat.add_assoc])

/-- Two layouts are put together where nothing in the first reaches into the second. -/
theorem append {bs : List Char} {us : List Token} (h : Layout (bs ++ ahead) n cs ts)
    (hb : Layout ahead (n + cs.length) bs us) : Layout ahead n (cs ++ bs) (ts ++ us) := by
  induction h with
  | done n => exact hb
  | blank hc tail ih =>
      apply Layout.blank hc
      apply ih
      rwa [List.length_cons, Nat.add_comm _ 1, ← Nat.add_assoc] at hb
  | @token n kind v cs ts hv hseam tail ih =>
      rw [List.append_assoc, List.cons_append]
      refine .token hv (by rwa [List.append_assoc]) (ih ?_)
      rwa [List.length_append, ← Nat.add_assoc] at hb

/-- What is ahead of a text may be replaced by anything that makes no seam with it. -/
theorem congr_ahead {ahead' : List Char} (h : Layout ahead n cs ts)
    (hs : seam cs ahead' = false) : Layout ahead' n cs ts := by
  induction h with
  | done n => exact .done n
  | @blank n c cs ts hc tail ih =>
      apply Layout.blank hc
      apply ih
      by_cases hcs : cs = []
      · rw [hcs, seam_nil_left]
      · rwa [← List.singleton_append, seam_append_left hcs] at hs
  | @token n kind v cs ts hv hseam tail ih =>
      by_cases hcs : cs = []
      · subst hcs
        refine .token hv ?_ (ih (seam_nil_left _))
        simpa using hs
      · rw [seam_append_left hcs] at hs
        refine .token hv ?_ (ih hs)
        rwa [seam_append_right hcs] at hseam ⊢

/-- A layout is taken apart at each of its tokens. -/
theorem split {us vs : List Token} {t : Token} (h : Layout ahead n cs (us ++ t :: vs)) :
    ∃ front kind v rest, cs = front ++ (v ++ rest) ∧ t = Token.ofChars kind (n + front.length) v ∧
      kind.rule.Spells v ∧ seam v (rest ++ ahead) = false ∧
      Layout (v ++ (rest ++ ahead)) n front us ∧
      Layout ahead (n + front.length + v.length) rest vs := by
  generalize hts : us ++ t :: vs = ts at h
  induction h generalizing us with
  | done n => simp at hts
  | @blank n c cs ts hc tail ih =>
      obtain ⟨front, kind, v, rest, rfl, rfl, hv, hseam, hus, hvs⟩ := ih hts
      have hoffset : n + 1 + front.length = n + (c :: front).length := by
        rw [List.length_cons]
        omega
      rw [hoffset] at hvs ⊢
      exact ⟨c :: front, kind, v, rest, rfl, rfl, hv, hseam, .blank hc hus, hvs⟩
  | @token n kind v cs ts hv hseam tail ih =>
      cases us with
      | nil =>
          obtain ⟨rfl, rfl⟩ := List.cons.inj hts
          exact ⟨[], kind, v, cs, rfl, rfl, hv, hseam, .done n, tail⟩
      | cons u us =>
          obtain ⟨rfl, htail⟩ := List.cons.inj hts
          obtain ⟨front, kind', v', rest, rfl, rfl, hv', hseam', hus, hvs⟩ := ih htail
          have hoffset : n + v.length + front.length = n + (v ++ front).length := by
            rw [List.length_append, Nat.add_assoc]
          rw [hoffset] at hvs ⊢
          refine ⟨v ++ front, kind', v', rest, by simp, rfl, hv', hseam', .token hv ?_ hus, hvs⟩
          simpa using hseam

/-- A token of a layout with what is in front of it and behind it. -/
theorem exists_of_mem (h : Layout ahead n cs ts) {t : Token} (ht : t ∈ ts) :
    ∃ front kind v rest, cs = front ++ (v ++ rest) ∧ v ≠ [] ∧
      t = Token.ofChars kind (n + front.length) v := by
  obtain ⟨us, vs, rfl⟩ := List.append_of_mem ht
  obtain ⟨front, kind, v, rest, hcs, rfl, hv, -⟩ := h.split
  exact ⟨front, kind, v, rest, hcs, hv.ne_nil, rfl⟩

theorem bounds (h : Layout ahead n cs ts) {t : Token} (ht : t ∈ ts) :
    n ≤ t.span.start ∧ t.span.start < t.span.stop ∧ t.span.stop ≤ n + cs.length := by
  obtain ⟨front, kind, v, rest, rfl, hv, rfl⟩ := h.exists_of_mem ht
  have hpos := List.length_pos_iff.mpr hv
  simp only [Token.ofChars, List.length_append]
  omega

theorem pairwise (h : Layout ahead n cs ts) :
    ts.Pairwise fun t u => t.span.start < u.span.start ∧ t.span.stop ≤ u.span.start := by
  induction h with
  | done n => exact .nil
  | blank hc tail ih => exact ih
  | @token n kind v cs ts hv hseam tail ih =>
      refine .cons (fun u hu => ?_) ih
      have hstart := (tail.bounds hu).1
      have hpos := List.length_pos_iff.mpr hv.ne_nil
      simp only [Token.ofChars]
      omega

theorem eq_nil_of_nil (h : Layout ahead n [] ts) : ts = [] := by
  generalize htext : ([] : List Char) = text at h
  cases h with
  | done _ => rfl
  | blank _ _ => cases htext
  | token hv _ _ => exact absurd (List.append_eq_nil_iff.mp htext.symm).1 hv.ne_nil

/-- A text has one layout. -/
theorem unique {us : List Token} (h : Layout ahead n cs ts) (h' : Layout ahead n cs us) :
    ts = us := by
  induction h generalizing us with
  | done n => rw [h'.eq_nil_of_nil]
  | @blank n c cs ts hc tail ih =>
      generalize htext : c :: cs = text at h'
      cases h' with
      | done _ => cases htext
      | blank _ tail' =>
          obtain ⟨rfl, rfl⟩ := List.cons.inj htext
          exact ih tail'
      | token hv _ _ =>
          obtain ⟨d, w, rfl⟩ := List.exists_cons_of_ne_nil hv.ne_nil
          obtain rfl := (List.cons.inj htext).1
          exact absurd hc (Kind.not_mem_blanks hv (by simp))
  | @token n kind v cs ts hv hseam tail ih =>
      generalize htext : v ++ cs = text at h'
      cases h' with
      | done _ => exact absurd (List.append_eq_nil_iff.mp htext).1 hv.ne_nil
      | blank hc _ =>
          obtain ⟨d, w, rfl⟩ := List.exists_cons_of_ne_nil hv.ne_nil
          obtain rfl := (List.cons.inj htext).1
          exact absurd hc (Kind.not_mem_blanks hv (by simp))
      | @token _ kind' v' cs' ts' hv' hseam' tail' =>
          have htakes := (Kind.takes_iff hv).mpr hseam
          have htakes' := (Kind.takes_iff hv').mpr hseam'
          have heq : v ++ (cs ++ ahead) = v' ++ (cs' ++ ahead) := by
            rw [← List.append_assoc, htext, List.append_assoc]
          obtain ⟨hrule, rfl, hrest⟩ := htakes.unique htakes' heq
          obtain rfl := Kind.rule_inj.mp hrule
          obtain rfl := List.append_cancel_right hrest
          rw [ih tail']

end Layout

/-! ### Layouts and scans -/

theorem Lexeme.token?_ofList {rule : Rule} {n : Nat} {v : List Char}
    (hv : ∀ c ∈ v, c ∈ alphabet) :
    (⟨rule, n, String.ofList v⟩ : Lexeme).token? =
      rule.kind?.map fun kind => Token.ofChars kind n v := by
  simp [token?, span, length, utf8ByteSize_ofList hv, Token.ofChars]

/-- The lexemes of a scanned text without the blanks among them are its tokens. -/
theorem Scanned.layout {ahead cs : List Char} {n : Nat} {ls : List Lexeme}
    (h : Scanned ahead n cs ls) : Layout ahead n cs (ls.filterMap Lexeme.token?) := by
  have htoken (kind : Kind) {n : Nat} {v cs : List Char} {ts : List Token}
      (h : kind.rule.Takes v (cs ++ ahead)) (tail : Layout ahead (n + v.length) cs ts) :
      Layout ahead n (v ++ cs) (Token.ofChars kind n v :: ts) :=
    .token h.spells ((Kind.takes_iff h.spells).mp h) tail
  induction h with
  | done n => exact .done n
  | @take n rule v cs ls head tail ih =>
      rw [List.filterMap_cons, Lexeme.token?_ofList head.spells.mem_alphabet]
      cases rule with
      | number => exact htoken .number head ih
      | operator => exact htoken .operator head ih
      | blank =>
          cases head.spells with
          | blanks _ hv => exact ih.blanks_append hv

end ArithmeticTokens
