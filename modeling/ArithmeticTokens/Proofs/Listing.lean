import ArithmeticTokens.Console
import ArithmeticTokens.Proofs.Lines
import ArithmeticTokens.Proofs.Separation

/-!
# Listings can be read back

Each token is printed on a line of its own, since no value that is read from a text holds a newline.
What stands between the parentheses of a line is cut at its first space, which is the one behind the
name of the kind, so the name and the value are found again whatever the value is
(`readLine_text`). A listing therefore shows the kinds and values of its tokens, and nothing else.
-/

namespace ArithmeticTokens

open Text

namespace Text

/-- What stands between the first opening and the last closing parenthesis. -/
def betweenParentheses (line : List Char) : List Char :=
  let behind := (line.dropWhile (· ≠ '(')).drop 1
  ((behind.reverse.dropWhile (· ≠ ')')).drop 1).reverse

theorem betweenParentheses_append {before after : List Char} (hbefore : '(' ∉ before)
    (hafter : ')' ∉ after) (cs : List Char) :
    betweenParentheses (before ++ '(' :: (cs ++ ')' :: after)) = cs := by
  have hend : (cs ++ ')' :: after).reverse = after.reverse ++ ')' :: cs.reverse := by simp
  have hlast : ')' ∉ after.reverse := fun h => hafter (List.mem_reverse.mp h)
  rw [betweenParentheses, dropWhile_ne_append hbefore, List.drop_succ_cons, List.drop_zero, hend,
    dropWhile_ne_append hlast, List.drop_succ_cons, List.drop_zero, List.reverse_reverse]

end Text

/-! ### The lines of a listing -/

/-- What a line of a listing shows: what stands between its parentheses, cut at the first space. -/
def readLine (line : List Char) : String × String :=
  let shown := betweenParentheses line
  (String.ofList (shown.takeWhile (· ≠ ' ')), String.ofList ((shown.dropWhile (· ≠ ' ')).drop 1))

/-- What the lines of a text show, with the kinds that their names stand for. -/
def readListing (text : String) : List (Except Error Kind × String) :=
  (lines text.toList).map fun line => ((Kind.parse (readLine line).1), (readLine line).2)

theorem Kind.not_mem_name {c : Char} (hc : c = ' ' ∨ c = '\n') (kind : Kind) :
    c ∉ kind.name.toList := by
  rcases hc with rfl | rfl <;> cases kind <;> simp [name]

namespace Token

theorem toList_text (t : Token) :
    t.text.toList = '(' :: (t.kind.name.toList ++ ' ' :: t.chars ++ [')']) := by
  simp [text, chars]

/-- A line shows the name of the kind and the value, whatever stands in the value. -/
theorem readLine_text (t : Token) : readLine (t.text.toList ++ ['\n']) = (t.kind.name, t.value) := by
  have hspace : ' ' ∉ t.kind.name.toList := t.kind.not_mem_name (Or.inl rfl)
  have hline : t.text.toList ++ ['\n'] =
      [] ++ '(' :: ((t.kind.name.toList ++ ' ' :: t.chars) ++ ')' :: ['\n']) := by
    simp [toList_text]
  rw [readLine, hline, betweenParentheses_append (by simp) (by simp),
    takeWhile_ne_append hspace, dropWhile_ne_append hspace, List.drop_succ_cons, List.drop_zero,
    chars, String.ofList_toList, String.ofList_toList]

theorem newline_not_mem_text {t : Token} (h : '\n' ∉ t.chars) : '\n' ∉ t.text.toList := by
  have hname : '\n' ∉ t.kind.name.toList := t.kind.not_mem_name (Or.inr rfl)
  simp [toList_text, hname, h]

theorem toList_listing_cons (t : Token) (ts : List Token) :
    (listing (t :: ts)).toList = t.text.toList ++ '\n' :: (listing ts).toList := by
  simp [listing]

/-- Tokens without a newline have one line each. -/
theorem lines_listing {ts : List Token} (h : ∀ t ∈ ts, '\n' ∉ t.chars) :
    lines (listing ts).toList = ts.map fun t => t.text.toList ++ ['\n'] := by
  induction ts with
  | nil => simp [listing, lines]
  | cons t ts ih =>
      have htext := newline_not_mem_text (h t List.mem_cons_self)
      have htail := ih fun u hu => h u (List.mem_cons_of_mem t hu)
      rw [toList_listing_cons, lines_append_newline htext, htail, List.map_cons]

theorem readListing_listing {ts : List Token} (h : ∀ t ∈ ts, '\n' ∉ t.chars) :
    readListing (listing ts) = ts.map fun t => (.ok t.kind, t.value) := by
  rw [readListing, lines_listing h, List.map_map]
  apply List.map_congr_left
  intro t _
  rw [Function.comp_apply, readLine_text, Kind.parse_name]

/-- A listing depends on the kinds and values only. -/
theorem listing_congr {ts us : List Token} (h : ts.map reading = us.map reading) :
    listing ts = listing us := by
  have hlisting (ts : List Token) : listing ts = String.join ((ts.map reading).map fun r =>
      "(" ++ r.1.name ++ " " ++ r.2 ++ ")" ++ "\n") := by
    rw [List.map_map]
    rfl
  rw [hlisting, hlisting, h]

end Token

/-- The values that are read from a text have no blanks in them, and so no newline. -/
theorem newline_not_mem_of_lex {source : String} {ts : List Token} (h : lex source = .ok ts) :
    ∀ t ∈ ts, '\n' ∉ t.chars := by
  intro t ht hnewline
  obtain ⟨us, vs, rfl⟩ := List.append_of_mem ht
  obtain ⟨front, kind, v, rest, -, rfl, hv, -⟩ := (lex_eq_ok_iff.mp h).split
  rw [Token.chars_ofChars] at hnewline
  exact Kind.not_mem_blanks hv hnewline (by simp [blanks])

theorem Printed.out_ofSource {source : String} {ts : List Token} (h : lex source = .ok ts) :
    (ofSource source).out = Token.listing ts := by
  rw [ofSource, h]

theorem readListing_out {source : String} {ts : List Token} (h : lex source = .ok ts) :
    readListing (Printed.ofSource source).out = ts.map fun t => (.ok t.kind, t.value) := by
  rw [Printed.out_ofSource h, Token.readListing_listing (newline_not_mem_of_lex h)]

/-- Two texts are printed alike only if they are read alike. -/
theorem out_eq_out_iff {s t : String} {ts us : List Token} (hs : lex s = .ok ts)
    (ht : lex t = .ok us) :
    (Printed.ofSource s).out = (Printed.ofSource t).out ↔
      ts.map Token.reading = us.map Token.reading := by
  constructor
  · intro h
    have hread (ts : List Token) :
        ts.map (fun t => ((.ok t.kind : Except Error Kind), t.value)) =
          (ts.map Token.reading).map (Prod.map .ok id) := by
      rw [List.map_map]
      rfl
    have hinjective (r r' : Kind × String)
        (hr : Prod.map (.ok : Kind → Except Error Kind) id r = Prod.map .ok id r') : r = r' := by
      obtain ⟨hkind, hvalue⟩ := Prod.mk.inj hr
      exact Prod.ext (Except.ok.inj hkind) hvalue
    have hlistings := congrArg readListing h
    rw [readListing_out hs, readListing_out ht, hread, hread] at hlistings
    exact (List.map_inj_right hinjective).mp hlistings
  · intro h
    rw [Printed.out_ofSource hs, Printed.out_ofSource ht, Token.listing_congr h]

/-- What is printed for an accepted text is read back line by line as the kinds and the values of
its tokens. Two accepted texts are printed alike exactly if their tokens are the same but for their
places. The name of a kind is read as this kind, and any other name is refused and shown in the
error. -/
theorem printed_tokens_read_back :
    (∀ source tokens, lex source = .ok tokens →
        readListing (Printed.ofSource source).out = tokens.map fun t => (.ok t.kind, t.value)) ∧
      (∀ s t ts us, lex s = .ok ts → lex t = .ok us →
        ((Printed.ofSource s).out = (Printed.ofSource t).out ↔
          ts.map Token.reading = us.map Token.reading)) ∧
      (∀ (name : String) (kind : Kind), Kind.parse name = .ok kind ↔ name = kind.name) ∧
      ∀ name : String, (∀ kind : Kind, name ≠ kind.name) →
        Kind.parse name = .error ⟨.unknownKind name, 0⟩ :=
  ⟨fun _ _ => readListing_out, fun _ _ _ _ => out_eq_out_iff,
    fun _ _ => Kind.parse_eq_ok_iff, fun _ => Kind.parse_eq_error⟩

/-- An operator in front of a sign, two texts with different blanks, and a name in small letters. -/
theorem printed_tokens_read_back_signs :
    (lex "11 - -2" = .ok [⟨.number, "11", ⟨0, 2⟩⟩, ⟨.operator, "-", ⟨3, 4⟩⟩,
          ⟨.number, "-2", ⟨5, 7⟩⟩] ∧
        readListing (Printed.ofSource "11 - -2").out =
          [(.ok .number, "11"), (.ok .operator, "-"), (.ok .number, "-2")]) ∧
      (lex "1 2" = .ok [⟨.number, "1", ⟨0, 1⟩⟩, ⟨.number, "2", ⟨2, 3⟩⟩] ∧
        lex "\t1\n2" = .ok [⟨.number, "1", ⟨1, 2⟩⟩, ⟨.number, "2", ⟨3, 4⟩⟩] ∧
        (Printed.ofSource "1 2").out = (Printed.ofSource "\t1\n2").out) ∧
      (∀ kind : Kind, "number" ≠ kind.name) ∧
      Kind.parse "number" = .error ⟨.unknownKind "number", 0⟩ := by
  have hsigns : lex "11 - -2" = .ok [⟨.number, "11", ⟨0, 2⟩⟩, ⟨.operator, "-", ⟨3, 4⟩⟩,
      ⟨.number, "-2", ⟨5, 7⟩⟩] := by
    decide +kernel
  have hspace : lex "1 2" = .ok [⟨.number, "1", ⟨0, 1⟩⟩, ⟨.number, "2", ⟨2, 3⟩⟩] := by
    decide +kernel
  have hnewline : lex "\t1\n2" = .ok [⟨.number, "1", ⟨1, 2⟩⟩, ⟨.number, "2", ⟨3, 4⟩⟩] := by
    decide +kernel
  have hname : ∀ kind : Kind, "number" ≠ kind.name := by
    intro kind
    cases kind <;> decide
  obtain ⟨hread, halike, -, hrefused⟩ := printed_tokens_read_back
  exact ⟨⟨hsigns, hread _ _ hsigns⟩,
    ⟨hspace, hnewline, (halike _ _ _ _ hspace hnewline).mpr rfl⟩, hname, hrefused _ hname⟩

end ArithmeticTokens
