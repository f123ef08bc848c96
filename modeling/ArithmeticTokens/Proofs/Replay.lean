import ArithmeticTokens.Proofs.Account
import ArithmeticTokens.Proofs.Sessions

/-!
# A scan repeated by hand

Whoever has the trace of a scan can take the same way with a cursor: for every match that is told
push the token of it, if it has one, and move behind it (`Session.replay`). The cursor then stands
where the scan stood, match by match. The steps for one match move it behind the match and report
its token (`Session.At.run_repeatSteps`), and by induction over the lexemes of the scan the whole
script does the same for all of them (`Session.replayed_of_scanned`). At the end the cursor stands
behind the text or in front of the character that was not accepted. Whether there is a character in
front of the cursor has to be asked apart, as it may be U+0000, which is also what is read at the
end.
-/

namespace ArithmeticTokens

open Text

namespace Cursor

/-- The cursor is not at the end, and what is read from it is the text from byte `n` on. -/
structure InFront (source : String) (n : Nat) (c : Cursor) : Prop where
  atEnd_eq : c.atEnd = false
  remainder : ∃ rest, dropBytes? n source.toList = some rest ∧ c.remainder = .ok (String.ofList rest)

end Cursor

namespace Session

/-! ### The steps for one match -/

/-- The token of a match, with the text that stands there. A match of blanks has none. -/
def matchToken? (source : String) (rule : Rule) (start length : Nat) : Option Token :=
  rule.kind?.bind fun kind =>
    (slice? source.toList start (start + length)).map fun v =>
      ⟨kind, String.ofList v, ⟨start, start + length⟩⟩

theorem matchToken?_of_slice {source : String} {rule : Rule} {n : Nat} {v : List Char}
    (h : slice? source.toList n (n + v.length) = some v) :
    matchToken? source rule n v.length = rule.kind?.map fun kind => Token.ofChars kind n v := by
  rw [matchToken?, h]
  cases rule.kind? with
  | none => rfl
  | some kind => rfl

/-- Pushes the token, if there is one, and moves on. -/
def repeatSteps (token? : Option Token) (length : Nat) : List Step :=
  (token?.map Step.push).toList ++ [.advance length]

/-- The steps that repeat a match. -/
def replay (source : String) : Rule × Nat × Nat → List Step
  | (rule, start, length) => repeatSteps (matchToken? source rule start length) length

/-- The events that a step reports. -/
def Effect.events : Effect → List Event
  | reported events => events
  | quiet | failed _ => []

/-- The current cursor is in the text at byte `n`. -/
structure At (source : String) (n : Nat) (s : Session) : Prop where
  source_eq : s.currentCursor.source = source
  offset_eq : s.currentCursor.offset = n

theorem currentCursor_replaceCurrent (s : Session) (c : Cursor) :
    (s.replaceCurrent c).currentCursor = c := by
  simp [currentCursor, replaceCurrent]

theorem at_start (source : String) : At source 0 (start source) := ⟨rfl, rfl⟩

namespace At

variable {source : String} {n k : Nat} {s : Session}

theorem push (h : At source n s) (token : Token) : At source n (s.apply (.push token)).1 := by
  have hcursor : (s.apply (.push token)).1.currentCursor = s.currentCursor.push token :=
    s.currentCursor_replaceCurrent _
  exact ⟨hcursor ▸ h.source_eq, hcursor ▸ h.offset_eq⟩

theorem advance (h : At source n s) (hfits : n + k < offsetLimit) :
    At source (n + k) (s.apply (.advance k)).1 ∧ (s.apply (.advance k)).2 = .quiet := by
  obtain ⟨hsource, rfl⟩ := h
  rw [apply_advance_of_lt hfits]
  refine ⟨⟨?_, ?_⟩, rfl⟩
  · rw [currentCursor_replaceCurrent, hsource]
  · rw [currentCursor_replaceCurrent]

/-- The steps for a match move the cursor behind it and report no more than its token. -/
theorem run_repeatSteps (h : At source n s) (hfits : n + k < offsetLimit) (token? : Option Token) :
    At source (n + k) (s.run (repeatSteps token? k)) ∧
      (s.trail (repeatSteps token? k)).map Prod.snd =
        (token?.map fun t => Effect.reported [.token t]).toList ++ [.quiet] := by
  cases token? with
  | none =>
      obtain ⟨hat, hquiet⟩ := h.advance hfits
      exact ⟨hat, congrArg (fun effect => [effect]) hquiet⟩
  | some t =>
      obtain ⟨hat, hquiet⟩ := (h.push t).advance hfits
      exact ⟨hat, congrArg (fun effect => [Effect.reported [.token t], effect]) hquiet⟩

theorem ne_failed_of_mem_repeatSteps (h : At source n s) (hfits : n + k < offsetLimit)
    {token? : Option Token} {next : Session × Effect} (hnext : next ∈ s.trail (repeatSteps token? k))
    (fault : Fault) : next.2 ≠ .failed fault := by
  intro hfault
  have heffect : next.2 ∈ (s.trail (repeatSteps token? k)).map Prod.snd := List.mem_map_of_mem hnext
  rw [hfault, (h.run_repeatSteps hfits token?).2] at heffect
  simp at heffect

theorem events_repeatSteps (h : At source n s) (hfits : n + k < offsetLimit)
    (token? : Option Token) :
    (s.trail (repeatSteps token? k)).flatMap (fun next => next.2.events) =
      (token?.map Event.token).toList := by
  calc
    (s.trail (repeatSteps token? k)).flatMap (fun next => next.2.events) =
        ((s.trail (repeatSteps token? k)).map Prod.snd).flatMap Effect.events := by
      rw [List.flatMap_map]
    _ = (token?.map Event.token).toList := by
      rw [(h.run_repeatSteps hfits token?).2]
      cases token? with
      | none => rfl
      | some t => rfl

/-- Only the last of these steps moves the cursor. -/
theorem run_of_repeatSteps (h : At source n s) {token? : Option Token} {done todo : List Step}
    (hsteps : repeatSteps token? k = done ++ todo) (htodo : todo ≠ []) :
    At source n (s.run done) := by
  obtain ⟨todo, last, rfl⟩ := List.eq_nil_or_concat todo |>.resolve_left htodo
  have hpushes : (token?.map Step.push).toList = done ++ todo := by
    rw [repeatSteps, List.concat_eq_append, ← List.append_assoc] at hsteps
    exact (List.append_inj' hsteps rfl).1
  cases done with
  | nil => exact h
  | cons step done =>
      cases token? with
      | none => cases hpushes
      | some t =>
          obtain ⟨rfl, hdone⟩ := List.cons.inj hpushes
          obtain ⟨rfl, -⟩ := List.append_eq_nil_iff.mp hdone.symm
          exact h.push t

theorem dropBytes? (h : At source n s) {cs : List Char}
    (hcs : Text.dropBytes? n source.toList = some cs) :
    Text.dropBytes? s.currentCursor.offset s.currentCursor.source.toList = some cs := by
  rw [h.source_eq, h.offset_eq, hcs]

theorem inFront (h : At source n s) {c : Char} {cs : List Char}
    (hcs : Text.dropBytes? n source.toList = some (c :: cs)) :
    s.currentCursor.InFront source n where
  atEnd_eq := Cursor.atEnd_of_dropBytes? (h.dropBytes? hcs)
  remainder := ⟨c :: cs, hcs, Cursor.remainder_of_dropBytes? (h.dropBytes? hcs)⟩

end At

/-! ### The steps for all matches -/

/-- What holds when these matches are repeated from here: every slice exists, no step fails, the
cursor stays in front of each match until its last step, and these events are reported. -/
structure Replayed (source : String) (ms : List (Rule × Nat × Nat)) (reported : List Event)
    (s : Session) : Prop where
  sliced : ∀ rule start length, (rule, start, length) ∈ ms →
    ∃ v, slice? source.toList start (start + length) = some v
  no_fault : ∀ next ∈ s.trail (ms.flatMap (replay source)), ∀ fault, next.2 ≠ .failed fault
  inFront : ∀ before rule start length after, ms = before ++ (rule, start, length) :: after →
    ∀ done todo, replay source (rule, start, length) = done ++ todo → todo ≠ [] →
      (s.run (before.flatMap (replay source) ++ done)).currentCursor.InFront source start
  events : (s.trail (ms.flatMap (replay source))).flatMap (fun next => next.2.events) = reported

theorem Replayed.nil (source : String) (s : Session) : Replayed source [] [] s where
  sliced _ _ _ h := absurd h List.not_mem_nil
  no_fault _ h := absurd h List.not_mem_nil
  inFront before _ _ _ after h := by simp at h
  events := rfl

/-- What a rule accepted is repeated in front of other matches. -/
theorem Replayed.cons {source : String} {rule : Rule} {n : Nat} {v cs : List Char}
    {ms : List (Rule × Nat × Nat)} {reported : List Event} {s : Session} (h : At source n s)
    (hcs : dropBytes? n source.toList = some (v ++ cs)) (hv : rule.Spells v)
    (hfits : n + v.length < offsetLimit)
    (tail : Replayed source ms reported (s.run (replay source (rule, n, v.length)))) :
    Replayed source ((rule, n, v.length) :: ms)
      ((rule.kind?.map fun kind => Event.token (Token.ofChars kind n v)).toList ++ reported) s := by
  have hslice : slice? source.toList n (n + v.length) = some v := by
    rw [← byteLength_eq_length hv.mem_alphabet]
    exact slice?_of_dropBytes? hcs
  constructor
  case sliced =>
    intro rule' start length hmem
    obtain heq | hmem := List.mem_cons.mp hmem
    · cases heq
      exact ⟨v, hslice⟩
    · exact tail.sliced rule' start length hmem
  case no_fault =>
    intro next hnext fault hfault
    rw [List.flatMap_cons, trail_append] at hnext
    obtain hnext | hnext := List.mem_append.mp hnext
    · exact h.ne_failed_of_mem_repeatSteps hfits hnext fault hfault
    · exact tail.no_fault next hnext fault hfault
  case inFront =>
    intro before rule' start length after hms done todo hsteps htodo
    cases before with
    | nil =>
        cases (List.cons.inj hms).1
        obtain ⟨c, w, rfl⟩ := List.exists_cons_of_ne_nil hv.ne_nil
        exact (h.run_of_repeatSteps hsteps htodo).inFront hcs
    | cons m before =>
        obtain ⟨rfl, htail⟩ := List.cons.inj hms
        rw [List.flatMap_cons, List.append_assoc, run_append]
        exact tail.inFront before rule' start length after htail done todo hsteps htodo
  case events =>
    rw [List.flatMap_cons, trail_append, List.flatMap_append, tail.events, replay,
      h.events_repeatSteps hfits, matchToken?_of_slice hslice, Option.map_map]
    rfl

/-- The lexemes of a text can be repeated where it starts, and the cursor is behind it then. -/
theorem replayed_of_scanned {source : String} {ahead cs : List Char} {n : Nat} {ls : List Lexeme}
    (h : Scanned ahead n cs ls) (hlimit : source.utf8ByteSize < offsetLimit) {s : Session}
    (hs : At source n s) (hcs : dropBytes? n source.toList = some (cs ++ ahead)) :
    At source (n + cs.length) (s.run ((ls.map Lexeme.extent).flatMap (replay source))) ∧
      Replayed source (ls.map Lexeme.extent) ((ls.filterMap Lexeme.token?).map Event.token) s := by
  induction h generalizing s with
  | done n => exact ⟨hs, .nil source s⟩
  | @take n rule v cs ls head tail ih =>
      have hv := head.spells.mem_alphabet
      have hextent : (⟨rule, n, String.ofList v⟩ : Lexeme).extent = (rule, n, v.length) := by
        rw [Lexeme.extent, Lexeme.length, utf8ByteSize_ofList hv]
      rw [List.append_assoc] at hcs
      have hrest : dropBytes? (n + v.length) source.toList = some (cs ++ ahead) := by
        rw [← byteLength_eq_length hv]
        exact dropBytes?_add hcs
      have hfits : n + v.length < offsetLimit := by
        calc
          n + v.length ≤ byteLength source.toList := le_byteLength_of_dropBytes? hrest
          _ = source.utf8ByteSize := (utf8ByteSize_eq_byteLength source).symm
          _ < offsetLimit := hlimit
      obtain ⟨hat, -⟩ := hs.run_repeatSteps hfits (matchToken? source rule n v.length)
      obtain ⟨hend, hreplayed⟩ := ih hat hrest
      rw [List.map_cons, hextent, List.flatMap_cons, run_append, List.length_append, ← Nat.add_assoc]
      refine ⟨hend, ?_⟩
      have hevents : ((⟨rule, n, String.ofList v⟩ :: ls).filterMap Lexeme.token?).map Event.token =
          (rule.kind?.map fun kind => Event.token (Token.ofChars kind n v)).toList ++
            (ls.filterMap Lexeme.token?).map Event.token := by
        rw [List.filterMap_cons, Lexeme.token?_ofList hv]
        cases rule.kind? <;> rfl
      rw [hevents]
      exact .cons hs hcs head.spells hfits hreplayed

/-- The steps that repeat a whole trace. -/
def script (source : String) : List Step :=
  ((trace .trace source).filterMap Event.extent?).flatMap (replay source)

/-- Whoever repeats the matches that a trace of everything tells by hand, pushing the token of each
that has one and moving behind it, meets no fault, is in front of each match when its steps begin
and reports the tokens that the trace tells. At the end the cursor stands behind the text when this
is accepted, and otherwise in front of the character that is not. The bound is that of the offsets,
which no text in memory reaches. -/
theorem replayed_script {source : String} (hlimit : source.utf8ByteSize < offsetLimit) :
    Replayed source ((trace .trace source).filterMap Event.extent?)
        ((trace .trace source).filter fun event => event.token?.isSome) (start source) ∧
      match lex source with
      | .ok _ => ((start source).run (script source)).currentCursor.atEnd = true
      | .error e =>
          ((start source).run (script source)).currentCursor.InFront source e.position ∧
            ∃ c, e.cause = .unrecognized c ∧
              ((start source).run (script source)).currentCursor.peek = .ok c := by
  obtain ⟨front, hsource, hoffset, hscanned, -⟩ := Scan.exists_ofSource source
  have hstart : dropBytes? 0 source.toList = some (front ++ (Scan.ofSource source).rest) :=
    dropBytes?_eq_some_iff.mpr ⟨[], hsource, rfl⟩
  obtain ⟨hend, hreplayed⟩ := replayed_of_scanned hscanned hlimit (at_start source) hstart
  have hrest : dropBytes? (0 + front.length) source.toList = some (Scan.ofSource source).rest := by
    rw [← byteLength_eq_length hscanned.mem_alphabet]
    exact dropBytes?_add hstart
  rw [Event.filter_token?, filterMap_token?_trace, script, filterMap_extent?_trace, lex,
    Scan.result]
  refine ⟨hreplayed, ?_⟩
  cases hcase : (Scan.ofSource source).rest with
  | nil =>
      rw [hcase] at hrest
      exact Cursor.atEnd_of_dropBytes? (hend.dropBytes? hrest)
  | cons c back =>
      rw [hcase] at hrest
      rw [hoffset, ← Nat.zero_add front.length]
      exact ⟨hend.inFront hrest, c, rfl, Cursor.peek_of_dropBytes? (hend.dropBytes? hrest)⟩

/-- The character that is not accepted is the one that is read at the end of a text as well. -/
theorem replayed_script_nul :
    "1 -2\x00".utf8ByteSize < offsetLimit ∧
      script "1 -2\x00" = [.push ⟨.number, "1", ⟨0, 1⟩⟩, .advance 1, .advance 1,
        .push ⟨.number, "-2", ⟨2, 4⟩⟩, .advance 2] ∧
      Replayed "1 -2\x00" [(.number, 0, 1), (.blank, 1, 1), (.number, 2, 2)]
        [.token ⟨.number, "1", ⟨0, 1⟩⟩, .token ⟨.number, "-2", ⟨2, 4⟩⟩] (start "1 -2\x00") ∧
      ((start "1 -2\x00").run (script "1 -2\x00")).currentCursor.InFront "1 -2\x00" 4 ∧
      ((start "1 -2\x00").run (script "1 -2\x00")).currentCursor.peek = .ok '\x00' := by
  have hlimit : "1 -2\x00".utf8ByteSize < offsetLimit := by decide
  have hlex : lex "1 -2\x00" = .error ⟨.unrecognized '\x00', 4⟩ := by decide +kernel
  have hmatches : (trace .trace "1 -2\x00").filterMap Event.extent? =
      [(.number, 0, 1), (.blank, 1, 1), (.number, 2, 2)] := by
    decide +kernel
  have htokens : (trace .trace "1 -2\x00").filter (fun event => event.token?.isSome) =
      [.token ⟨.number, "1", ⟨0, 1⟩⟩, .token ⟨.number, "-2", ⟨2, 4⟩⟩] := by
    decide +kernel
  obtain ⟨hreplayed, hlast⟩ := replayed_script hlimit
  rw [hmatches, htokens] at hreplayed
  rw [hlex] at hlast
  obtain ⟨hfront, c, hc, hpeek⟩ := hlast
  obtain rfl := Cause.unrecognized.inj hc
  exact ⟨hlimit, by decide +kernel, hreplayed, hfront, hpeek⟩

end Session

end ArithmeticTokens
