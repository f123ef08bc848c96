import ArithmeticTokens.Proofs.Messages
import Mathlib.Algebra.Ring.Parity

/-!
# The texts of an error

Whatever character or name an error is about, its texts stay on one line of printable characters:
what is shown of the character or name is escaped, and the words around it and the offset are plain
text. The escaped part also cannot be mistaken for its end. A quote inside it comes from one escape,
whose backslash is the only one of an odd number in front of the quote, because every other escape
leaves an even number of backslashes at its end (`odd_backslashes_escape`).
-/

namespace ArithmeticTokens

namespace Text

/-! ### Printable text -/

/-- The controls of ASCII, and all beyond ASCII that some form of escaped text shows by its code
point. -/
def IsConcealed (c : Char) : Prop :=
  c.toNat ≤ 0x1F ∨ c.toNat = 0x7F ∨
    0x7F < c.toNat ∧ ∃ quotes, escapeChar quotes c = escapeCodePoint c

/-- Beyond ASCII a character is shown as it is or by its code point. -/
theorem escapeChar_of_gt {c : Char} (h : 0x7F < c.toNat) (quotes : Quotes) :
    escapeChar quotes c = if isUnprintable c then escapeCodePoint c else [c] := by
  have hne {d : Char} (hd : d.toNat ≤ 0x7F) : c ≠ d := by
    rintro rfl
    omega
  simp (disch := decide) only [escapeChar, hne, if_false]

theorem isConcealed_iff {c : Char} : IsConcealed c ↔ isUnprintable c = true := by
  constructor
  · rintro (hcontrol | hdelete | ⟨hgt, quotes, hescape⟩)
    · exact isUnprintable_of_lt_space (by omega)
    · rw [isUnprintable, hdelete]
      decide +kernel
    · by_contra hprintable
      rw [escapeChar_of_gt hgt, if_neg hprintable] at hescape
      obtain ⟨rfl, -⟩ := List.cons.inj hescape
      exact absurd hgt (by decide)
  · intro h
    by_cases hlo : c.toNat ≤ 0x1F
    · exact Or.inl hlo
    by_cases hhi : 0x7F < c.toNat
    · refine Or.inr (Or.inr ⟨hhi, .bare, ?_⟩)
      rw [escapeChar_of_gt hhi, if_pos h]
    · right
      left
      by_contra hne
      rw [isUnprintable_of_ascii (by omega) (by omega)] at h
      cases h

/-- The text holds no control and nothing that is shown by its code point. -/
def Printable (cs : List Char) : Prop := ∀ c ∈ cs, ¬ IsConcealed c

theorem printable_iff {cs : List Char} : Printable cs ↔ ∀ c ∈ cs, isUnprintable c = false := by
  simp only [Printable, isConcealed_iff, Bool.not_eq_true]

theorem Printable.append {as bs : List Char} (ha : Printable as) (hb : Printable bs) :
    Printable (as ++ bs) := fun c hc => (List.mem_append.mp hc).elim (ha c) (hb c)

/-- Plain words are printable. -/
theorem printable_of_ascii {cs : List Char}
    (h : cs.all (fun c => 0x20 ≤ c.toNat ∧ c.toNat < 0x7F) = true) : Printable cs :=
  printable_iff.mpr fun _ hc => isUnprintable_of_mem_ascii h hc

theorem printable_escapeChar (quotes : Quotes) (c : Char) : Printable (escapeChar quotes c) :=
  printable_iff.mpr fun _ hd => isUnprintable_of_mem_escapeChar hd

theorem printable_escape (quotes : Quotes) (cs : List Char) : Printable (escape quotes cs) := by
  intro d hd
  obtain ⟨c, -, hc⟩ := List.mem_flatMap.mp hd
  exact printable_escapeChar quotes c d hc

theorem printable_repr (n : Nat) : Printable n.repr.toList := by
  refine printable_iff.mpr fun d hd => ?_
  rw [Nat.toList_repr] at hd
  obtain ⟨k, hk, rfl⟩ := exists_digitChar_of_mem_toDigits (by decide) hd
  exact isUnprintable_digitChar (by omega)

/-! ### Backslashes in front of a quote -/

/-- The number of backslashes that a text ends in. -/
def backslashes (cs : List Char) : Nat := (cs.reverse.takeWhile (· = '\\')).length

theorem backslashes_concat (cs : List Char) (c : Char) :
    backslashes (cs ++ [c]) = if c = '\\' then backslashes cs + 1 else 0 := by
  by_cases hc : c = '\\' <;> simp [backslashes, hc]

/-- The quotes that stand behind a backslash in escaped text. -/
def Quotes.Escapes (quotes : Quotes) (q : Char) : Prop :=
  q = singleQuote ∧ quotes.single = true ∨ q = doubleQuote ∧ quotes.double = true

theorem Quotes.Escapes.escapeChar_eq {quotes : Quotes} {q : Char} (h : quotes.Escapes q) :
    escapeChar quotes q = ['\\', q] := by
  rcases h with ⟨rfl, h⟩ | ⟨rfl, h⟩ <;> simp [escapeChar, singleQuote, doubleQuote, h]

theorem Quotes.Escapes.ne_backslash {quotes : Quotes} {q : Char} (h : quotes.Escapes q) :
    q ≠ '\\' := by
  rcases h with ⟨rfl, -⟩ | ⟨rfl, -⟩ <;> decide

/-- No quote is written by its code point, nor stands in what is. -/
theorem Quotes.Escapes.not_mem_escapeCodePoint {quotes : Quotes} {q : Char} (h : quotes.Escapes q)
    (c : Char) : q ∉ escapeCodePoint c := by
  have hapart : q ∉ ['\\', 'u', '\x7b', '\x7d'] ∧ ∀ k < 16, q ≠ Nat.digitChar k := by
    rcases h with ⟨rfl, -⟩ | ⟨rfl, -⟩ <;> decide
  have hdigits := not_mem_toDigits_of_ne (by decide) hapart.2 c.toNat
  have hplain := hapart.1
  simp only [List.mem_cons, List.not_mem_nil, or_false, not_or] at hplain
  simp [escapeCodePoint, hplain, hdigits]

/-- An escape leaves an even number of backslashes at its end. -/
theorem even_backslashes_escapeChar {front : List Char} (h : Even (backslashes front))
    (quotes : Quotes) (c : Char) : Even (backslashes (front ++ escapeChar quotes c)) := by
  rcases escapeChar_cases quotes c with ⟨hself, -, hc⟩ | ⟨d, -, hpair, -⟩ | hcode
  · rw [hself, backslashes_concat, if_neg hc]
    exact Even.zero
  · rw [hpair, List.append_cons, backslashes_concat, backslashes_concat, if_pos rfl]
    split
    · rw [Nat.add_assoc]
      exact h.add even_two
    · exact Even.zero
  · rw [hcode, escapeCodePoint, ← List.append_assoc, backslashes_concat, if_neg (by decide)]
    exact Even.zero

/-- In front of a quote in an escape stands its backslash. -/
theorem eq_backslash_of_escapeChar {quotes : Quotes} {q c : Char} {as bs : List Char}
    (hq : quotes.Escapes q) (h : escapeChar quotes c = as ++ q :: bs) : as = ['\\'] := by
  rcases escapeChar_cases quotes c with ⟨hself, -, -⟩ | ⟨d, -, hpair, -⟩ | hcode
  · -- A character that stands for itself is no such quote.
    rw [hself] at h
    have hc : q = c := by simpa using congrArg (q ∈ ·) h
    rw [← hc, hq.escapeChar_eq] at hself
    cases hself
  · rw [hpair] at h
    cases as with
    | nil => exact absurd (List.cons.inj h).1.symm hq.ne_backslash
    | cons a as =>
        obtain ⟨rfl, htail⟩ := List.cons.inj h
        have hnil : as = [] := by
          have hlength := congrArg List.length htail
          simp only [List.append_eq, List.length_append, List.length_cons, List.length_nil] at hlength
          exact List.eq_nil_of_length_eq_zero (by omega)
        rw [hnil]
  · have hmem : q ∈ escapeChar quotes c := by simp [h]
    rw [hcode] at hmem
    exact absurd hmem (hq.not_mem_escapeCodePoint c)

/-- A quote in escaped text stands behind an odd number of backslashes. -/
theorem odd_backslashes_escape {quotes : Quotes} {q : Char} (hq : quotes.Escapes q)
    {front cs as bs : List Char} (hfront : Even (backslashes front))
    (h : escape quotes cs = as ++ q :: bs) : Odd (backslashes (front ++ as)) := by
  induction cs generalizing front as with
  | nil => simp at h
  | cons c cs ih =>
      have hnext := even_backslashes_escapeChar hfront quotes c
      rw [escape_cons, List.append_eq_append_iff] at h
      rcases h with ⟨tail, rfl, hrest⟩ | ⟨tail, hescape, hrest⟩
      · rw [← List.append_assoc]
        exact ih hnext hrest
      · cases tail with
        | nil =>
            rw [List.append_nil] at hescape
            have hodd := ih hnext (List.nil_append (q :: bs) ▸ hrest.symm)
            rwa [List.append_nil, hescape] at hodd
        | cons d tail =>
            obtain ⟨rfl, -⟩ := List.cons.inj hrest
            rw [eq_backslash_of_escapeChar hq hescape, backslashes_concat, if_pos rfl]
            exact hfront.add_one

/-- Behind the lead the text holds something between two quotes, and every other such quote in it
stands behind an odd number of backslashes. -/
structure Delimits (q : Char) (lead text : List Char) : Prop where
  delimited : ∃ inner, text = lead ++ q :: (inner ++ [q])
  escaped : ∀ front back, text = front ++ q :: back → front ≠ lead → back ≠ [] →
    Odd (backslashes front)

/-- Every occurrence but the first is behind the first. -/
theorem exists_of_append_cons_eq {q : Char} {lead front cs back : List Char} (hlead : q ∉ lead)
    (h : lead ++ q :: cs = front ++ q :: back) (hne : front ≠ lead) :
    ∃ as, front = lead ++ q :: as ∧ cs = as ++ q :: back := by
  induction lead generalizing front with
  | nil =>
      cases front with
      | nil => exact absurd rfl hne
      | cons a as =>
          obtain ⟨rfl, hcs⟩ := List.cons.inj h
          exact ⟨as, rfl, hcs⟩
  | cons l lead ih =>
      rw [List.mem_cons, not_or] at hlead
      cases front with
      | nil => exact absurd (List.cons.inj h).1.symm hlead.1
      | cons a front =>
          obtain ⟨rfl, htail⟩ := List.cons.inj h
          obtain ⟨as, rfl, hcs⟩ := ih hlead.2 htail fun heq => hne (by rw [heq])
          exact ⟨as, rfl, hcs⟩

theorem delimits_escape {quotes : Quotes} {q : Char} {lead : List Char} (hq : quotes.Escapes q)
    (hlead : q ∉ lead) (cs : List Char) :
    Delimits q lead (lead ++ q :: (escape quotes cs ++ [q])) where
  delimited := ⟨_, rfl⟩
  escaped := by
    intro front back htext hfront hback
    obtain ⟨as, rfl, hquoted⟩ := exists_of_append_cons_eq hlead htext hfront
    -- The last quote closes the text, so any other one is in the escaped part.
    rw [← List.dropLast_concat_getLast hback, ← List.cons_append, ← List.append_assoc] at hquoted
    have hinner : escape quotes cs = as ++ q :: back.dropLast := (List.append_inj' hquoted rfl).1
    have hopening : Even (backslashes (lead ++ [q])) := by
      rw [backslashes_concat, if_neg hq.ne_backslash]
      exact Even.zero
    rw [List.append_cons]
    exact odd_backslashes_escape hq hopening hinner

end Text

open Text

/-! ### What an error says -/

theorem Cause.printable_message (cause : Cause) : Printable cause.message.toList := by
  have hquote (q : Char) (h : [q].all (fun c => 0x20 ≤ c.toNat ∧ c.toNat < 0x7F) = true)
      {cs : List Char} (hcs : Printable cs) : Printable (q :: (cs ++ [q])) :=
    (printable_of_ascii h).append (hcs.append (printable_of_ascii h))
  cases cause with
  | unrecognized c =>
      rw [toList_message_unrecognized]
      exact (printable_of_ascii (by decide +kernel)).append
        (hquote _ (by decide) (printable_escapeChar _ c))
  | unknownKind name =>
      rw [toList_message_unknownKind]
      exact (printable_of_ascii (by decide +kernel)).append
        (hquote _ (by decide) (printable_escape _ _))

theorem Error.printable_message (e : Error) : Printable e.message.toList := by
  have hwords : Printable " at offset ".toList := printable_of_ascii (by decide +kernel)
  have htext : e.message = e.cause.message ++ " at offset " ++ e.position.repr := rfl
  rw [htext, String.toList_append, String.toList_append]
  exact (e.cause.printable_message.append hwords).append (printable_repr e.position)

theorem Cause.printable_tip (c : Char) : Printable (tip c).toList := by
  have hfront : Printable "Unrecognized character `".toList :=
    printable_of_ascii (by decide +kernel)
  have hback : Printable "`, expected a number, an operator or whitespace".toList :=
    printable_of_ascii (by decide +kernel)
  unfold tip
  rw [String.toList_append, String.toList_append, toList_bareChar]
  exact (hfront.append (printable_escapeChar _ c)).append hback

theorem Error.printable_tipText (e : Error) : Printable e.tipText.toList := by
  obtain ⟨cause, position⟩ := e
  cases cause with
  | unrecognized c => exact Cause.printable_tip c
  | unknownKind name => exact fun c hc => absurd hc List.not_mem_nil

/-- The message of an error, the words for its cause and its tip are printable, whatever character
or name they are about. In the words for a cause every quote of the kind that encloses the character
or the name, other than the two that do so, stands behind an odd number of backslashes. -/
theorem error_texts_printable :
    (∀ e : Error, Printable e.message.toList ∧ Printable e.cause.message.toList ∧
        Printable e.tipText.toList) ∧
      (∀ name, Delimits doubleQuote "unknown token type: ".toList
        (Cause.unknownKind name).message.toList) ∧
      ∀ c, Delimits singleQuote "unrecognized input: ".toList
        (Cause.unrecognized c).message.toList := by
  refine ⟨fun e => ⟨e.printable_message, e.cause.printable_message, e.printable_tipText⟩, ?_, ?_⟩
  · intro name
    rw [Cause.toList_message_unknownKind]
    exact delimits_escape (Or.inr ⟨rfl, rfl⟩) (by decide +kernel) name.toList
  · intro c
    have hone : escapeChar .ofCharacter c = escape .ofCharacter [c] := by
      rw [escape_cons, escape_nil, List.append_nil]
    rw [Cause.toList_message_unrecognized, hone]
    exact delimits_escape (Or.inl ⟨rfl, rfl⟩) (by decide +kernel) [c]

/-- A backslash and a quote in a name are written as three backslashes and a quote. -/
theorem error_texts_printable_quote :
    (Cause.unknownKind "a\\\"").message.toList =
        "unknown token type: \"a\\\\\\".toList ++ doubleQuote :: [doubleQuote] ∧
      Printable (Error.message ⟨.unknownKind "a\\\"", 7⟩).toList ∧
      Odd (backslashes "unknown token type: \"a\\\\\\".toList) := by
  have htext : (Cause.unknownKind "a\\\"").message.toList =
      "unknown token type: \"a\\\\\\".toList ++ doubleQuote :: [doubleQuote] := by
    decide +kernel
  obtain ⟨hprintable, hnames, -⟩ := error_texts_printable
  have hodd := (hnames "a\\\"").escaped _ _ htext (by decide +kernel) (List.cons_ne_nil _ _)
  exact ⟨htext, (hprintable _).1, hodd⟩

end ArithmeticTokens
