import ArithmeticTokens.Proofs.Lines
import ArithmeticTokens.Proofs.Printable

/-!
# A message tells which error it is of

Escaped text can be read again: `readChar` takes one character off it, whatever quotes were
escaped, and gives it back with all that follows. An escaped character is therefore never the
start of another one, the closing quote of a name is the first quote that is not escaped, and what
stands behind it is the offset, even where the name looks as if it went on with one.
-/

namespace ArithmeticTokens

namespace Text

/-! ### Digits -/

/-- The value of a digit, in any base up to sixteen. -/
def digitValue (d : Char) : Nat :=
  if d.isDigit then d.toNat - '0'.toNat else d.toNat - 'a'.toNat + 10

/-- The number that is written with these digits. -/
def ofDigits (base : Nat) (ds : List Char) : Nat :=
  ds.foldl (fun n d => base * n + digitValue d) 0

theorem digitValue_digitChar {k : Nat} (h : k < 16) : digitValue (Nat.digitChar k) = k := by
  have hall : ∀ k < 16, digitValue (Nat.digitChar k) = k := by decide
  exact hall k h

theorem ofDigits_toDigits {base : Nat} (hone : 1 < base) (hbase : base ≤ 16) (n : Nat) :
    ofDigits base (Nat.toDigits base n) = n := by
  induction n using Nat.strongRecOn with
  | ind n ih =>
      rw [Nat.toDigits_eq_if hone]
      split
      · rename_i h
        simp [ofDigits, digitValue_digitChar (Nat.lt_of_lt_of_le h hbase)]
      · rename_i h
        have hsmaller : n / base < n := Nat.div_lt_self (by omega) hone
        have hlast : n % base < 16 := Nat.lt_of_lt_of_le (Nat.mod_lt n (by omega)) hbase
        have hfirst := ih (n / base) hsmaller
        rw [ofDigits] at hfirst
        rw [ofDigits, List.foldl_append, hfirst, List.foldl_cons, List.foldl_nil,
          digitValue_digitChar hlast, Nat.div_add_mod]

theorem toDigits_inj {base : Nat} (hone : 1 < base) (hbase : base ≤ 16) {m n : Nat} :
    Nat.toDigits base m = Nat.toDigits base n ↔ m = n := by
  constructor
  · intro h
    rw [← ofDigits_toDigits hone hbase m, h, ofDigits_toDigits hone hbase]
  · exact congrArg _

/-! ### Reading escaped text -/

/-- Reads what stands behind the backslash of an escape. -/
def readEscape : List Char → Option (Char × List Char)
  | 'u' :: cs =>
      let digits := (cs.drop 1).takeWhile (· ≠ '\x7d')
      some (Char.ofNat (ofDigits 16 digits), cs.drop (digits.length + 2))
  | d :: cs => some (unescapeLetter d, cs)
  | [] => none

/-- Reads one character of escaped text, and gives it with what follows it. -/
def readChar : List Char → Option (Char × List Char)
  | '\\' :: cs => readEscape cs
  | c :: cs => some (c, cs)
  | [] => none

theorem readChar_of_ne {c : Char} (h : c ≠ '\\') (cs : List Char) :
    readChar (c :: cs) = some (c, cs) := by
  simp [readChar]

theorem readEscape_letter {d : Char} (h : d ∈ escapeLetters) (cs : List Char) :
    readEscape (d :: cs) = some (unescapeLetter d, cs) := by
  have hd : d ≠ 'u' := by
    rintro rfl
    exact absurd h (by decide)
  simp [readEscape]

theorem readEscape_codePoint (c : Char) (rest : List Char) :
    readEscape ('u' :: '\x7b' :: (Nat.toDigits 16 c.toNat ++ '\x7d' :: rest)) = some (c, rest) := by
  have hdigits : '\x7d' ∉ Nat.toDigits 16 c.toNat :=
    not_mem_toDigits_of_ne (by decide) (by decide) c.toNat
  have hrun := takeWhile_ne_append hdigits rest
  simp only [readEscape, List.drop_succ_cons, List.drop_zero, hrun,
    ofDigits_toDigits (by decide : 1 < 16) (Nat.le_refl 16), Char.ofNat_toNat]
  simp

/-- An escaped character is read, whatever quotes were escaped and whatever follows it. -/
theorem readChar_escapeChar (quotes : Quotes) (c : Char) (rest : List Char) :
    readChar (escapeChar quotes c ++ rest) = some (c, rest) := by
  rcases escapeChar_cases quotes c with ⟨hself, -, hc⟩ | ⟨d, hd, hpair, hletter⟩ | hcode
  · rw [hself, List.singleton_append, readChar_of_ne hc]
  · rw [hpair, ← hletter]
    exact readEscape_letter hd rest
  · have hread := readEscape_codePoint c rest
    simpa [hcode, escapeCodePoint, readChar] using hread

theorem escapeChar_append_inj {quotes : Quotes} {c d : Char} {as bs : List Char}
    (h : escapeChar quotes c ++ as = escapeChar quotes d ++ bs) : c = d ∧ as = bs := by
  have hread := congrArg readChar h
  rw [readChar_escapeChar, readChar_escapeChar, Option.some.injEq, Prod.mk.injEq] at hread
  exact hread

/-- The quote that closes a text is no part of it. -/
theorem escapeChar_append_ne_quote (c : Char) (as bs : List Char) :
    escapeChar .ofString c ++ as ≠ doubleQuote :: bs := by
  intro h
  have hread := congrArg readChar h
  rw [readChar_escapeChar, readChar_of_ne (by decide), Option.some.injEq, Prod.mk.injEq] at hread
  -- Only the quote itself is read as a quote, and its escape starts with a backslash.
  rw [hread.1] at h
  exact absurd (List.cons.inj h).1 (by decide)

theorem escape_append_inj {cs ds as bs : List Char}
    (h : escape .ofString cs ++ doubleQuote :: as = escape .ofString ds ++ doubleQuote :: bs) :
    cs = ds ∧ as = bs := by
  induction cs generalizing ds with
  | nil =>
      cases ds with
      | nil => exact ⟨rfl, (List.cons.inj h).2⟩
      | cons d ds =>
          rw [escape_cons, List.append_assoc] at h
          exact absurd h.symm (escapeChar_append_ne_quote d _ _)
  | cons c cs ih =>
      cases ds with
      | nil =>
          rw [escape_cons, List.append_assoc] at h
          exact absurd h (escapeChar_append_ne_quote c _ _)
      | cons d ds =>
          rw [escape_cons, escape_cons, List.append_assoc, List.append_assoc] at h
          obtain ⟨rfl, hrest⟩ := escapeChar_append_inj h
          obtain ⟨rfl, htail⟩ := ih hrest
          exact ⟨rfl, htail⟩

end Text

open Text

namespace Cause

theorem toList_message_unrecognized (c : Char) :
    (unrecognized c).message.toList =
      "unrecognized input: ".toList ++ singleQuote :: (escapeChar .ofCharacter c ++ [singleQuote]) := by
  have hmessage : (unrecognized c).message = "unrecognized input: " ++ quoteChar c := rfl
  rw [hmessage, String.toList_append, toList_quoteChar]

theorem toList_message_unknownKind (name : String) :
    (unknownKind name).message.toList =
      "unknown token type: ".toList ++
        doubleQuote :: (escape .ofString name.toList ++ [doubleQuote]) := by
  have hmessage : (unknownKind name).message = "unknown token type: " ++ quoteString name := rfl
  rw [hmessage, String.toList_append, toList_quoteString]

theorem message_unrecognized_append_ne (c : Char) (name : String) (as bs : List Char) :
    (unrecognized c).message.toList ++ as ≠ (unknownKind name).message.toList ++ bs := by
  intro h
  rw [toList_message_unrecognized, toList_message_unknownKind] at h
  have hthird := congrArg (fun cs => cs[2]?) h
  exact absurd (Option.some.inj hthird) (by decide)

/-- The words for a cause are not the start of the words for another. -/
theorem message_append_inj {k l : Cause} {as bs : List Char}
    (h : k.message.toList ++ as = l.message.toList ++ bs) : k = l ∧ as = bs := by
  cases k with
  | unrecognized c =>
      cases l with
      | unrecognized d =>
          rw [toList_message_unrecognized, toList_message_unrecognized, List.append_assoc,
            List.append_assoc] at h
          have hquoted := (List.cons.inj (List.append_cancel_left h)).2
          rw [List.append_eq, List.append_eq, List.append_assoc, List.append_assoc] at hquoted
          obtain ⟨rfl, hrest⟩ := escapeChar_append_inj hquoted
          exact ⟨rfl, (List.cons.inj hrest).2⟩
      | unknownKind name => exact absurd h (message_unrecognized_append_ne c name as bs)
  | unknownKind name =>
      cases l with
      | unrecognized d => exact absurd h.symm (message_unrecognized_append_ne d name bs as)
      | unknownKind name' =>
          rw [toList_message_unknownKind, toList_message_unknownKind, List.append_assoc,
            List.append_assoc] at h
          have hquoted := (List.cons.inj (List.append_cancel_left h)).2
          rw [List.append_eq, List.append_eq, List.append_assoc, List.append_assoc] at hquoted
          obtain ⟨hname, hrest⟩ := escape_append_inj hquoted
          exact ⟨by rw [String.toList_inj.mp hname], hrest⟩

/-- The tip for a character that is not accepted. -/
def tip (c : Char) : String :=
  "Unrecognized character `" ++ bareChar c ++ "`, expected a number, an operator or whitespace"

theorem tip_inj {c d : Char} : tip c = tip d ↔ c = d := by
  constructor
  · intro h
    unfold tip at h
    have htext := congrArg String.toList h
    simp only [String.toList_append, List.append_assoc] at htext
    have hbare := List.append_cancel_left htext
    rw [toList_bareChar, toList_bareChar] at hbare
    exact (escapeChar_append_inj hbare).1
  · exact congrArg tip

end Cause

theorem Error.message_inj {e f : Error} : e.message = f.message ↔ e = f := by
  constructor
  · intro h
    have hchars := congrArg String.toList h
    simp only [message, String.toList_append, List.append_assoc] at hchars
    obtain ⟨hcause, hoffset⟩ := Cause.message_append_inj hchars
    have hdigits := List.append_cancel_left hoffset
    rw [Nat.toList_repr, Nat.toList_repr, toDigits_inj (by decide) (by decide)] at hdigits
    obtain ⟨cause, position⟩ := e
    obtain ⟨cause', position'⟩ := f
    obtain rfl : cause = cause' := hcause
    obtain rfl : position = position' := hdigits
    rfl
  · exact congrArg message

/-- Two errors have the same message only if they are the same error, whatever stands in the names
that they show. The tips on two characters are the same only if the characters are. -/
theorem error_texts_identify :
    (∀ e f : Error, e.message = f.message ↔ e = f) ∧
      ∀ c d position position',
        (Error.tip? ⟨.unrecognized c, position⟩ = Error.tip? ⟨.unrecognized d, position'⟩ ↔ c = d) ∧
          (Error.tipText ⟨.unrecognized c, position⟩ =
            Error.tipText ⟨.unrecognized d, position'⟩ ↔ c = d) := by
  refine ⟨fun e f => Error.message_inj, ?_⟩
  intro c d position position'
  have htip (c : Char) (n : Nat) : Error.tip? ⟨.unrecognized c, n⟩ = some (Cause.tip c) := rfl
  have htext (c : Char) (n : Nat) : Error.tipText ⟨.unrecognized c, n⟩ = Cause.tip c := rfl
  rw [htip, htip, htext, htext, Option.some.injEq]
  exact ⟨Cause.tip_inj, Cause.tip_inj⟩

/-- A name that looks as if the message went on with an offset. -/
example : Error.message ⟨.unknownKind "a\" at offset 5", 7⟩ =
    "unknown token type: \"a\\\" at offset 5\" at offset 7" := by decide +kernel

end ArithmeticTokens
