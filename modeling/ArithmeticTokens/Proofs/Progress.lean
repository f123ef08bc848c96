import ArithmeticTokens.Cursor.Basic
import ArithmeticTokens.Proofs.Acceptance

/-!
# A scan gets to its end

Wherever a scan stands, it has read the text behind it just as that text would be read alone, and
the next step is well-defined: the offset is inside the text and on the border of two characters,
and so is the end of what is accepted there. Each step gets on by at least one byte, so that a text
of so many bytes needs no more steps. `Cursor.run` takes the same steps with a cursor, where every
cut and every sum can fail; none of them does.
-/

namespace ArithmeticTokens

open Text

namespace Rule

/-- The sign is one of the bytes of the text. -/
theorem signLength_le_byteLength (cs : List Char) : signLength cs ≤ byteLength cs := by
  cases cs with
  | nil => simp [signLength]
  | cons c cs =>
      have hpos := c.utf8Size_pos
      rw [signLength, byteLength_cons]
      split <;> omega

end Rule

namespace Scan

/-! ### The steps of a scan -/

/-- The scan after `k` steps, or `none` where it ends before. -/
def after (select : Selection) : Nat → Scan → Option Scan
  | 0, s => some s
  | k + 1, s => (s.next? select).bind (after select k)

theorem after_induction {select : Selection} {P : Scan → Prop}
    (step : ∀ s t, P s → s.next? select = some t → P t) {k : Nat} {s t : Scan} (hs : P s)
    (h : after select k s = some t) : P t := by
  induction k generalizing s with
  | zero => exact Option.some.inj h ▸ hs
  | succ k ih =>
      obtain ⟨r, hr, hrest⟩ := Option.bind_eq_some_iff.mp h
      exact ih (step s r hs hr) hrest

/-- A step gets on by what it accepts, which is not nothing. -/
theorem offset_lt_of_next? {select : Selection} {s t : Scan} (h : s.next? select = some t) :
    s.offset < t.offset := by
  obtain ⟨hit, -, rfl⟩ := Option.map_eq_some_iff.mp h
  exact Nat.lt_add_of_pos_right hit.length_pos

theorem offset_add_le_of_after {select : Selection} {k : Nat} {s t : Scan}
    (h : after select k s = some t) : s.offset + k ≤ t.offset := by
  induction k generalizing s with
  | zero => exact Option.some.inj h ▸ le_rfl
  | succ k ih =>
      obtain ⟨r, hr, hrest⟩ := Option.bind_eq_some_iff.mp h
      have hstep := offset_lt_of_next? hr
      have htail := ih hrest
      omega

/-- A scan ends after some number of steps. -/
theorem exists_after_finish (select : Selection) (s : Scan) :
    ∃ k, after select k s = some (s.finish select) := by
  fun_induction finish select s with
  | case1 s hhit => exact ⟨0, rfl⟩
  | case2 s hit hhit ih =>
      obtain ⟨k, hk⟩ := ih
      exact ⟨k + 1, by simp [after, next?, hhit, hk]⟩

/-! ### Where a scan stands -/

/-- What holds where a scan of the text stands after `k` steps. -/
structure AtHead (source : String) (k : Nat) (s : Scan) : Prop where
  inside : s.offset ≤ source.utf8ByteSize
  border : dropBytes? s.offset source.toList = some s.rest
  /-- The tokens so far are those of the text so far. -/
  collected : ∃ front, takeBytes? s.offset source.toList = some front ∧
    lex (String.ofList front) = .ok s.tokens
  steps : k ≤ s.offset
  sign : Rule.signLength s.rest ≤ byteLength s.rest
  /-- No rule accepts more than there is, or a part of a character. -/
  accepted : ∀ rule n, Rule.length? rule s.rest = some n →
    s.offset + n ≤ source.utf8ByteSize ∧ ∃ v, takeBytes? n s.rest = some v
  onward : ∀ t, s.next? Rule.first? = some t → s.offset < t.offset

theorem Sound.dropBytes? {source : String} {s : Scan} (h : Sound source s) :
    Text.dropBytes? s.offset source.toList = some s.rest := by
  obtain ⟨front, hsource, hoffset, hscanned⟩ := h
  rw [hoffset]
  exact dropBytes?_eq_some_iff.mpr ⟨front, hsource, byteLength_eq_length hscanned.mem_alphabet⟩

theorem Sound.size_eq {source : String} {s : Scan} (h : Sound source s) :
    source.utf8ByteSize = s.offset + byteLength s.rest := by
  obtain ⟨front, hsource, hbytes⟩ := dropBytes?_eq_some_iff.mp h.dropBytes?
  rw [utf8ByteSize_eq_byteLength, hsource, byteLength_append, hbytes]

theorem sound_after {source : String} {k : Nat} {s : Scan}
    (h : after Rule.first? k (start source) = some s) : Sound source s :=
  after_induction (fun _ _ hs hnext => hs.next hnext) (sound_start source) h

theorem atHead_after {source : String} {k : Nat} {s : Scan}
    (h : after Rule.first? k (start source) = some s) : AtHead source k s := by
  have hsound := sound_after h
  have hsize := hsound.size_eq
  constructor
  case inside => omega
  case border => exact hsound.dropBytes?
  case collected => exact hsound.collected
  case steps => simpa [start] using offset_add_le_of_after h
  case sign => exact Rule.signLength_le_byteLength s.rest
  case accepted =>
    intro rule n hn
    obtain ⟨hle, hcut⟩ := Rule.exists_takeBytes?_of_length? hn
    exact ⟨by omega, hcut⟩
  case onward => exact fun t ht => offset_lt_of_next? ht

end Scan

/-! ### The same steps with a cursor -/

namespace Cursor

/-- Where one turn of the loop leads. -/
inductive Turn where
  | onward (c : Cursor)
  | over (result : Except Error (List Token))

/-- Pushes the token for what is accepted, if there is one for it, and moves behind it. -/
def take (c : Cursor) (rest : List Char) (hit : Rule.Hit) : Except Fault Cursor :=
  match hit.rule.kind? with
  | none => c.advance hit.length
  | some kind =>
      match takeBytes? hit.length rest with
      | none => .error (.notBoundary hit.length)
      | some v =>
          if c.offset + hit.length < offsetLimit then
            (c.push ⟨kind, String.ofList v, ⟨c.offset, c.offset + hit.length⟩⟩).advance hit.length
          else .error (.offsetOverflow (c.offset + hit.length))

/-- One turn of the loop, where every cut and every sum is checked. -/
def turn (c : Cursor) : Except Fault Turn :=
  if c.atEnd then .ok (.over (.ok c.tokens.toList))
  else do
    let rest ← c.rest
    match Rule.first? rest with
    | some hit => return .onward (← c.take rest hit)
    | none => return .over (.error ⟨.unrecognized (← c.peek), c.offset⟩)

/-- What comes out after at most so many turns, or `none` when the loop is not over by then. -/
def run : Nat → Cursor → Except Fault (Option (Except Error (List Token)))
  | 0, _ => .ok none
  | k + 1, c => do
      match ← c.turn with
      | .onward c => run k c
      | .over result => return some result

end Cursor

namespace Scan

/-- The cursor where the scan stands. -/
def cursor (source : String) (s : Scan) : Cursor := ⟨source, s.offset, s.tokens.toArray⟩

@[simp] theorem offset_cursor (source : String) (s : Scan) :
    (s.cursor source).offset = s.offset := rfl

@[simp] theorem tokens_cursor (source : String) (s : Scan) :
    (s.cursor source).tokens = s.tokens.toArray := rfl

variable {source : String} {s : Scan}

theorem Sound.atEnd_cursor (h : Sound source s) : (s.cursor source).atEnd = s.rest.isEmpty :=
  Cursor.atEnd_of_dropBytes? h.dropBytes?

theorem Sound.rest_cursor (h : Sound source s) : (s.cursor source).rest = .ok s.rest :=
  Cursor.rest_of_dropBytes? h.dropBytes?

theorem tokens_accept (s : Scan) (hit : Rule.Hit) :
    (s.accept hit).tokens = s.tokens ++
      (Lexeme.token? ⟨hit.rule, s.offset, String.ofList (s.rest.take hit.length)⟩).toList := by
  rw [tokens, accept, Array.toList_push, List.filterMap_append]
  rfl

/-- Taking what is accepted succeeds, and it is the same step. -/
theorem Sound.take_cursor (h : Sound source s) (hlimit : source.utf8ByteSize < offsetLimit)
    {hit : Rule.Hit} (hhit : Rule.first? s.rest = some hit) :
    (s.cursor source).take s.rest hit = .ok ((s.accept hit).cursor source) := by
  obtain ⟨v, rest, hrest, hlength, htakes⟩ := Rule.exists_takes_of_first? hhit
  have hbytes : byteLength v = hit.length := by
    rw [byteLength_eq_length htakes.spells.mem_alphabet, hlength]
  have hcut : takeBytes? hit.length s.rest = some v :=
    takeBytes?_eq_some_iff.mpr ⟨rest, hrest, hbytes⟩
  have hfits : s.offset + hit.length < offsetLimit := by
    have hsize := h.size_eq
    rw [hrest, byteLength_append, hbytes] at hsize
    omega
  have htoken : Lexeme.token? ⟨hit.rule, s.offset, String.ofList (s.rest.take hit.length)⟩ =
      hit.rule.kind?.map fun kind => Token.ofChars kind s.offset v := by
    rw [hrest, ← hlength, List.take_left, Lexeme.token?_ofList htakes.spells.mem_alphabet]
  rw [cursor, cursor, tokens_accept, htoken, Cursor.take]
  cases hit.rule.kind? with
  | none => simp [Cursor.advance, hfits, accept]
  | some kind =>
      simp [hcut, hfits, Cursor.advance, Cursor.push, accept, Token.ofChars, hlength]

theorem Sound.turn_cursor (h : Sound source s) (hlimit : source.utf8ByteSize < offsetLimit) :
    (s.cursor source).turn = .ok (match s.next? Rule.first? with
      | some t => .onward (t.cursor source)
      | none => .over s.result) := by
  have hend := h.atEnd_cursor
  have hread := h.rest_cursor
  rw [next?, hit?_first?]
  cases hrest : s.rest with
  | nil =>
      have hnone : Rule.first? [] = none := Rule.first?_eq_none_iff.mpr rfl
      rw [hrest] at hend
      simp [Cursor.turn, hend, hnone, result, hrest]
  | cons c back =>
      rw [hrest] at hend hread
      cases hhit : Rule.first? (c :: back) with
      | none =>
          have hpeek : (s.cursor source).peek = .ok c := by
            simpa [hrest] using Cursor.peek_of_dropBytes? (c := s.cursor source) h.dropBytes?
          simp [Cursor.turn, hend, hread, hhit, hpeek, result, hrest, bind, Except.bind, pure,
            Except.pure]
      | some hit =>
          have htake := h.take_cursor hlimit (hrest ▸ hhit)
          rw [hrest] at htake
          simp [Cursor.turn, hend, hread, hhit, htake, bind, Except.bind, pure, Except.pure]

/-- With enough turns the loop is over with what the scan leaves. -/
theorem Sound.run_cursor {k turns : Nat} {t : Scan} (h : Sound source s)
    (hlimit : source.utf8ByteSize < offsetLimit) (hafter : after Rule.first? k s = some t)
    (hover : t.next? Rule.first? = none) (hk : k < turns) :
    Cursor.run turns (s.cursor source) = .ok (some t.result) := by
  induction k generalizing s turns with
  | zero =>
      obtain ⟨turns, rfl⟩ := Nat.exists_eq_add_of_lt hk
      obtain rfl := Option.some.inj hafter
      simp [Cursor.run, h.turn_cursor hlimit, hover, bind, Except.bind, pure, Except.pure]
  | succ k ih =>
      obtain ⟨r, hr, hrest⟩ := Option.bind_eq_some_iff.mp hafter
      obtain ⟨turns, rfl⟩ := Nat.exists_eq_add_of_lt hk
      have hturns : k < k + 1 + turns := by omega
      have htail := ih (h.next hr) hrest hturns
      simpa [Cursor.run, h.turn_cursor hlimit, hr, bind, Except.bind] using htail

end Scan

/-- At every step of a scan the offset is on a border inside the text, what was read is what would
be read of the text so far, and the next step gets on. So the scan is over after no more steps than
there are bytes, and the checked loop comes to the same result without a fault. -/
theorem lex_progress (source : String) :
    (∀ k s, Scan.after Rule.first? k (Scan.start source) = some s → Scan.AtHead source k s) ∧
      (∃ k ≤ source.utf8ByteSize, ∃ s, Scan.after Rule.first? k (Scan.start source) = some s ∧
        s.next? Rule.first? = none ∧ lex source = s.result) ∧
      (source.utf8ByteSize < offsetLimit →
        Cursor.run (source.utf8ByteSize + 1) (Cursor.ofSource source) =
          .ok (some (lex source))) := by
  obtain ⟨k, hk⟩ := Scan.exists_after_finish Rule.first? (Scan.start source)
  have hhead := Scan.atHead_after hk
  have hover := Scan.next?_finish Rule.first? (Scan.start source)
  -- Each step takes at least one byte, and all that is taken lies inside the text.
  have hsteps : k ≤ source.utf8ByteSize := hhead.steps.trans hhead.inside
  refine ⟨fun k s => Scan.atHead_after, ⟨k, hsteps, _, hk, hover, rfl⟩, fun hlimit => ?_⟩
  exact (Scan.sound_start source).run_cursor hlimit hk hover (Nat.lt_succ_of_le hsteps)

theorem lex_progress_signs :
    "5--2".utf8ByteSize < offsetLimit ∧
      Cursor.run 5 (Cursor.ofSource "5--2") =
        .ok (some (.ok [⟨.number, "5", ⟨0, 1⟩⟩, ⟨.operator, "-", ⟨1, 2⟩⟩,
          ⟨.number, "-2", ⟨2, 4⟩⟩])) := by
  have hlimit : "5--2".utf8ByteSize < offsetLimit := by decide
  have hlex : lex "5--2" = .ok [⟨.number, "5", ⟨0, 1⟩⟩, ⟨.operator, "-", ⟨1, 2⟩⟩,
      ⟨.number, "-2", ⟨2, 4⟩⟩] := by
    decide +kernel
  have hrun := (lex_progress "5--2").2.2 hlimit
  rw [hlex] at hrun
  exact ⟨hlimit, hrun⟩

end ArithmeticTokens
