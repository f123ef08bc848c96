import ArithmeticTokens.Proofs.Acceptance
import ArithmeticTokens.Proofs.Slice
import ArithmeticTokens.Trace

/-!
# What a trace accounts for

The events of a scan cover the text from its start to where the scan ends, without a gap and
without an overlap. Each says which rule came first and how much it accepted, and right behind it
stands the token that this makes, if it makes one. `Told` is this account: it looks only at the
events and at the text, not at the scan. The last event says how the scan ended, and what was told
until then is what is read: of the whole text, or of the text in front of the error.
-/

namespace ArithmeticTokens

open Text

/-- The rule is the first that accepts something at the start of the text, and it accepts `n`
bytes. -/
def Rule.ComesFirst (rule : Rule) (cs : List Char) (n : Nat) : Prop :=
  rule.length? cs = some n ∧
    ∃ before behind, priority = before ++ rule :: behind ∧ ∀ r ∈ before, r.length? cs = none

/-- These events tell how the text is matched from byte `n` up to byte `stop`. -/
inductive Told (source : String) : Nat → List Event → Nat → Prop
  | done (n : Nat) : Told source n [] n
  | token {n length stop : Nat} {rule : Rule} {kind : Kind} {cs v : List Char} {events : List Event}
      (hpos : 0 < length) (hcs : dropBytes? n source.toList = some cs)
      (hrule : rule.ComesFirst cs length) (hkind : rule.kind? = some kind)
      (hv : slice? source.toList n (n + length) = some v)
      (tail : Told source (n + length) events stop) :
      Told source n
        (.matched rule n length :: .token ⟨kind, String.ofList v, ⟨n, n + length⟩⟩ :: events) stop
  | blank {n length stop : Nat} {cs : List Char} {events : List Event}
      (hpos : 0 < length) (hcs : dropBytes? n source.toList = some cs)
      (hrule : Rule.blank.ComesFirst cs length)
      (hnext : ∀ start size, events.head? ≠ some (.matched .blank start size))
      (tail : Told source (n + length) events stop) :
      Told source n (.matched .blank n length :: events) stop

/-- The token that an event shows. -/
def Event.token? : Event → Option Token
  | token t => some t
  | _ => none

theorem Told.level_eq_trace {source : String} {n stop : Nat} {events : List Event}
    (h : Told source n events stop) : ∀ event ∈ events, event.level = .trace := by
  induction h with
  | done n => simp
  | token _ _ _ _ _ _ ih => simpa [Event.level] using ih
  | blank _ _ _ _ _ ih => simpa [Event.level] using ih

theorem Rule.Takes.comesFirst {rule : Rule} {v rest : List Char} (h : rule.Takes v rest) :
    rule.ComesFirst (v ++ rest) v.length := by
  obtain ⟨before, r, behind, hpriority, hhit, hbefore⟩ :=
    List.findSome?_eq_some_iff.mp h.first?_append
  obtain ⟨hrule, hlength⟩ := Rule.hit?_eq_some_iff.mp hhit
  rw [← hrule] at hlength hpriority
  exact ⟨hlength, before, behind, hpriority, fun r hr => Rule.hit?_eq_none_iff.mp (hbefore r hr)⟩

theorem Lexeme.events_ofList {rule : Rule} {n : Nat} {v : List Char} (hv : ∀ c ∈ v, c ∈ alphabet) :
    (⟨rule, n, String.ofList v⟩ : Lexeme).events =
      .matched rule n v.length ::
        (rule.kind?.map fun kind => Event.token (Token.ofChars kind n v)).toList := by
  have hlength : (⟨rule, n, String.ofList v⟩ : Lexeme).length = v.length := utf8ByteSize_ofList hv
  rw [Lexeme.events, hlength, Lexeme.token?_ofList hv, Option.map_map]
  rfl

/-- The tokens among the events of some lexemes are those that the lexemes make. -/
theorem filterMap_token?_events (ls : List Lexeme) :
    (ls.flatMap Lexeme.events).filterMap Event.token? = ls.filterMap Lexeme.token? := by
  induction ls with
  | nil => rfl
  | cons l ls ih =>
      rw [List.flatMap_cons, List.filterMap_append, ih, List.filterMap_cons]
      cases h : l.token? with
      | none => simp [Lexeme.events, h, Event.token?]
      | some t => simp [Lexeme.events, h, Event.token?, List.filterMap_cons]

/-- Behind a run of blanks no further run of blanks is matched. -/
theorem Scanned.head?_events_ne_blank {ahead cs : List Char} {n : Nat} {ls : List Lexeme}
    (h : Scanned ahead n cs ls) (hstop : Rule.blank.prolongs (cs ++ ahead) = false)
    (start size : Nat) :
    (ls.flatMap Lexeme.events).head? ≠ some (.matched .blank start size) := by
  intro heq
  cases h with
  | done _ => simp at heq
  | @take _ rule v cs ls head tail =>
      have hrule : rule = .blank := by
        simp only [List.flatMap_cons, Lexeme.events, List.cons_append, List.head?_cons,
          Option.some.injEq, Event.matched.injEq] at heq
        exact heq.1
      subst hrule
      cases head.spells with
      | @blanks _ hne hv =>
          obtain ⟨c, v, rfl⟩ := List.exists_cons_of_ne_nil hne
          have hc : c ∈ blanks := hv c (by simp)
          simp [Rule.prolongs, hc] at hstop

/-- The events of the lexemes of a text tell how it is matched. The text scanned here has `front`
in front of it and `ahead` behind it. -/
theorem Scanned.told {source : String} {ahead cs front : List Char} {n : Nat} {ls : List Lexeme}
    (h : Scanned ahead n cs ls) (hsource : source.toList = front ++ (cs ++ ahead))
    (hfront : ∀ c ∈ front, c ∈ alphabet) (hn : n = front.length) :
    Told source n (ls.flatMap Lexeme.events) (n + cs.length) := by
  induction h generalizing front with
  | done n => exact .done n
  | @take n rule v cs ls head tail ih =>
      have hv := head.spells.mem_alphabet
      have hpos := List.length_pos_iff.mpr head.spells.ne_nil
      have hbytes : byteLength front = n := by rw [byteLength_eq_length hfront, hn]
      have hcs : dropBytes? n source.toList = some (v ++ (cs ++ ahead)) :=
        dropBytes?_eq_some_iff.mpr ⟨front, by simp [hsource], hbytes⟩
      have hslice : slice? source.toList n (n + v.length) = some v :=
        slice?_eq_some_iff.mpr ⟨front, cs ++ ahead, by simp [hsource], hbytes, by
          rw [hbytes, byteLength_eq_length hv]⟩
      have htail : Told source (n + v.length) (ls.flatMap Lexeme.events)
          (n + (v ++ cs).length) := by
        rw [List.length_append, ← Nat.add_assoc]
        have hsource' : source.toList = front ++ v ++ (cs ++ ahead) := by simp [hsource]
        apply ih hsource'
        · intro c hc
          exact (List.mem_append.mp hc).elim (hfront c) (hv c)
        · rw [List.length_append, hn]
      rw [List.flatMap_cons, Lexeme.events_ofList hv]
      cases rule with
      | number => exact .token hpos hcs head.comesFirst rfl hslice htail
      | operator => exact .token hpos hcs head.comesFirst rfl hslice htail
      | blank =>
          exact .blank hpos hcs head.comesFirst (tail.head?_events_ne_blank head.stops) htail

/-- A trace of everything is all that is reported. -/
theorem trace_eq_events (source : String) : trace .trace source = events source := by
  apply List.filter_eq_self.mpr
  intro event _
  cases event <;> rfl

/-- The rule, the offset and the length that an event tells of a match. -/
def Event.extent? : Event → Option (Rule × Nat × Nat)
  | matched rule start length => some (rule, start, length)
  | _ => none

/-- The rule of a lexeme, its offset and its length. -/
def Lexeme.extent (l : Lexeme) : Rule × Nat × Nat := (l.rule, l.start, l.length)

/-- The matches among the events of some lexemes are those of the lexemes. -/
theorem filterMap_extent?_events (ls : List Lexeme) :
    (ls.flatMap Lexeme.events).filterMap Event.extent? = ls.map Lexeme.extent := by
  induction ls with
  | nil => rfl
  | cons l ls ih =>
      have hl : l.events.filterMap Event.extent? = [l.extent] := by
        rw [Lexeme.events]
        cases l.token? with
        | none => rfl
        | some t => rfl
      rw [List.flatMap_cons, List.filterMap_append, hl, ih]
      rfl

theorem Scan.level_ending (s : Scan) : s.ending.level = .debug := by
  rw [ending]
  split
  · rfl
  · rfl

/-- What only detailed events tell is told by those of the lexemes of the scan. -/
theorem filterMap_trace {α : Type} {tell? : Event → Option α}
    (hdebug : ∀ event, event.level = .debug → tell? event = none) (source : String) :
    (trace .trace source).filterMap tell? =
      ((Scan.ofSource source).lexemes.toList.flatMap Lexeme.events).filterMap tell? := by
  have hending : [(Scan.ofSource source).ending, .left].filterMap tell? = [] := by
    rw [List.filterMap_cons_none (hdebug _ (Scan.level_ending _)),
      List.filterMap_cons_none (hdebug _ rfl), List.filterMap_nil]
  rw [trace_eq_events, events, List.filterMap_cons_none (hdebug _ rfl), List.filterMap_append,
    hending, List.append_nil]

/-- The matches that a trace tells are the lexemes of the scan. -/
theorem filterMap_extent?_trace (source : String) :
    (trace .trace source).filterMap Event.extent? =
      (Scan.ofSource source).lexemes.toList.map Lexeme.extent := by
  have hdebug (event : Event) (h : event.level = .debug) : event.extent? = none := by
    cases event with
    | matched => cases h
    | _ => rfl
  rw [filterMap_trace hdebug, filterMap_extent?_events]

/-- The tokens that a trace tells are those that the lexemes of the scan make. -/
theorem filterMap_token?_trace (source : String) :
    (trace .trace source).filterMap Event.token? =
      (Scan.ofSource source).lexemes.toList.filterMap Lexeme.token? := by
  have hdebug (event : Event) (h : event.level = .debug) : event.token? = none := by
    cases event with
    | token => cases h
    | _ => rfl
  rw [filterMap_trace hdebug, filterMap_token?_events]

/-- An event that shows a token is made from it. -/
theorem Event.filter_token? (events : List Event) :
    events.filter (fun event => event.token?.isSome) =
      (events.filterMap Event.token?).map Event.token := by
  induction events with
  | nil => rfl
  | cons event events ih =>
      cases event with
      | token t => exact congrArg (Event.token t :: ·) ih
      | _ => exact ih

/-- The trace of a text tells how it is matched up to the end or up to the error in it. Then comes
one last event about the outcome, and the tokens told before it are those of the text, or those of
the text in front of the error. -/
theorem trace_accounts (source : String) :
    ∃ body stop last,
      trace .trace source = .entered source.utf8ByteSize :: (body ++ [last, .left]) ∧
        Told source 0 body stop ∧ (∀ event ∈ body, event.level = .trace) ∧
        last.level = .debug ∧
        match lex source with
        | .ok tokens =>
            stop = source.utf8ByteSize ∧ body.filterMap Event.token? = tokens ∧
              last = .tokenized (body.filterMap Event.token?).length
        | .error e =>
            stop = e.position ∧ (∃ c, e.cause = .unrecognized c ∧ last = .noRule e.position c) ∧
              ∃ front, takeBytes? e.position source.toList = some front ∧
                lex (String.ofList front) = .ok (body.filterMap Event.token?) := by
  obtain ⟨front, hsource, hoffset, hscanned, -⟩ := Scan.exists_ofSource source
  have hletters := hscanned.mem_alphabet
  have hsource' : source.toList = [] ++ (front ++ (Scan.ofSource source).rest) := hsource
  have htold : Told source 0 ((Scan.ofSource source).lexemes.toList.flatMap Lexeme.events)
      (0 + front.length) :=
    hscanned.told hsource' (by simp) rfl
  rw [Nat.zero_add] at htold
  refine ⟨_, front.length, (Scan.ofSource source).ending, ?_, htold, htold.level_eq_trace, ?_, ?_⟩
  · rw [trace_eq_events, events]
  · rw [Scan.ending]
    split <;> rfl
  · rw [filterMap_token?_events, lex, Scan.result, Scan.ending]
    cases hrest : (Scan.ofSource source).rest with
    | nil =>
        rw [hrest, List.append_nil] at hsource
        refine ⟨?_, rfl, rfl⟩
        rw [utf8ByteSize_eq_byteLength, hsource, byteLength_eq_length hletters]
    | cons c back =>
        exact ⟨hoffset.symm, ⟨c, rfl, rfl⟩, (Scan.sound_ofSource source).collected⟩

end ArithmeticTokens
