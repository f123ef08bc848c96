import ArithmeticTokens.Cursor.Session
import ArithmeticTokens.Proofs.Encoding

/-!
# What a script does to the cursors

Only the advances that are taken on a cursor move it (`exists_getElem?_apply` for a step,
`exists_getElem?_run` for a script), and there is a further cursor only where the current one was
copied (`exists_copy`). Which cursor is current is changed by the steps that say so, and by no others
(`current_apply`). What is read from a cursor is a matter of its offset (`Cursor.Reads`). `Law` puts
this together for the session that a script leads to.
-/

namespace ArithmeticTokens

open Text

/-! ### Reading from a cursor -/

namespace Cursor

/-- There is no border between two characters where the cursor is. -/
def Astray (c : Cursor) : Prop :=
  c.source.utf8ByteSize < c.offset ∨ InsideCharacter c.source.toList c.offset

/-- What is read from a cursor. -/
structure Reads (source : String) (c : Cursor) : Prop where
  source_eq : c.source = source
  atEnd_iff : c.atEnd = true ↔ source.utf8ByteSize ≤ c.offset
  astray : c.Astray →
    c.remainder = .error (.notBoundary c.offset) ∧ c.peek = .error (.notBoundary c.offset)
  text : ¬ c.Astray → ∃ r, c.remainder = .ok r ∧ bytes r = (bytes source).drop c.offset ∧
    c.peek = .ok (r.toList.headD '\x00')

theorem reads (c : Cursor) : c.Reads c.source where
  source_eq := rfl
  atEnd_iff := by simp [atEnd]
  astray h := by
    rw [Astray, utf8ByteSize_eq_byteLength, ← dropBytes?_eq_none_iff] at h
    simp [remainder, peek, rest, h, Except.map]
  text h := by
    rw [Astray, utf8ByteSize_eq_byteLength, ← dropBytes?_eq_none_iff, ← ne_eq,
      Option.ne_none_iff_exists'] at h
    obtain ⟨cs, hcs⟩ := h
    refine ⟨String.ofList cs, by simp [remainder, rest, hcs, Except.map], ?_,
      by simp [peek, rest, hcs, Except.map]⟩
    rw [bytes_eq_encode, bytes_eq_encode, String.toList_ofList, encode_of_dropBytes? hcs]

/-! ### One step on a cursor -/

/-- The cursor after a step on it. An advance that would lead to an offset past 64 bits is not taken. -/
def stepped (c : Cursor) : Session.Step → Cursor
  | .advance n => if c.offset + n < offsetLimit then { c with offset := c.offset + n } else c
  | .push token => c.push token
  | .copy | .use _ => c

/-- How many bytes a step moves the cursor it is taken on. -/
def distance (c : Cursor) : Session.Step → Nat
  | .advance n => if c.offset + n < offsetLimit then n else 0
  | .push _ | .copy | .use _ => 0

theorem offset_stepped (c : Cursor) (step : Session.Step) :
    (c.stepped step).offset = c.offset + c.distance step := by
  cases step with
  | advance n =>
      rw [stepped, distance]
      split <;> rfl
  | push => rfl
  | copy => rfl
  | use => rfl

theorem source_stepped (c : Cursor) (step : Session.Step) :
    (c.stepped step).source = c.source := by
  cases step with
  | advance n =>
      rw [stepped]
      split <;> rfl
  | push => rfl
  | copy => rfl
  | use => rfl

end Cursor

namespace Session

variable {s : Session} {i : Nat} {c : Cursor}

/-! ### One step of a session -/

theorem getElem?_current (s : Session) : s.cursors[s.current]? = some s.currentCursor :=
  Array.getElem?_eq_getElem s.current_lt

theorem getElem?_replaceCurrent (s : Session) (c : Cursor) (i : Nat) :
    (s.replaceCurrent c).cursors[i]? = if i = s.current then some c else s.cursors[i]? := by
  rw [replaceCurrent, Array.getElem?_set]
  simp only [eq_comm]

theorem apply_advance_of_lt {n : Nat} (h : s.currentCursor.offset + n < offsetLimit) :
    s.apply (.advance n) =
      (s.replaceCurrent { s.currentCursor with offset := s.currentCursor.offset + n }, .quiet) := by
  simp only [apply, Cursor.advance, if_pos h]

theorem apply_advance_of_le {n : Nat} (h : offsetLimit ≤ s.currentCursor.offset + n) :
    s.apply (.advance n) = (s, .failed (.offsetOverflow (s.currentCursor.offset + n))) := by
  simp only [apply, Cursor.advance, if_neg (Nat.not_lt.mpr h)]

theorem replaceCurrent_currentCursor (s : Session) : s.replaceCurrent s.currentCursor = s := by
  obtain ⟨cursors, current, hlt⟩ := s
  simp [replaceCurrent, currentCursor]

/-- An advance puts the cursor after it in the place of the current one, also where it is not
taken. -/
theorem fst_apply_advance (s : Session) (n : Nat) :
    (s.apply (.advance n)).1 = s.replaceCurrent (s.currentCursor.stepped (.advance n)) := by
  by_cases hfits : s.currentCursor.offset + n < offsetLimit
  · rw [apply_advance_of_lt hfits, Cursor.stepped, if_pos hfits]
  · rw [apply_advance_of_le (Nat.not_lt.mp hfits), Cursor.stepped, if_neg hfits,
      replaceCurrent_currentCursor]

theorem size_apply (s : Session) (step : Step) :
    (s.apply step).1.cursors.size = s.cursors.size + [step].count .copy := by
  cases step with
  | advance n => simp [fst_apply_advance, replaceCurrent]
  | push token => simp [apply, replaceCurrent]
  | copy => simp [apply]
  | use index => simp [apply]

/-- A copy and a change of the current cursor change no cursor. -/
theorem getElem?_apply_copy (h : s.cursors[i]? = some c) :
    (s.apply .copy).1.cursors[i]? = some c := by
  obtain ⟨hi, -⟩ := Array.getElem?_eq_some_iff.mp h
  rw [apply, Array.getElem?_push, if_neg (Nat.ne_of_lt hi), h]

theorem getElem?_apply_use (h : s.cursors[i]? = some c) (index : Nat) :
    (s.apply (.use index)).1.cursors[i]? = some c := h

/-- The copy is the last of the cursors. -/
theorem getElem?_apply_copy_size (s : Session) :
    (s.apply .copy).1.cursors[s.cursors.size]? = some s.currentCursor := by
  rw [apply, Array.getElem?_push_size]

/-- Which cursor is current is a matter of the steps that make one current. -/
theorem current_apply (s : Session) {step : Step} (h : ∀ index, step ≠ .use index) :
    (s.apply step).1.current = s.current := by
  cases step with
  | advance n =>
      rw [fst_apply_advance]
      rfl
  | push token => rfl
  | copy => rfl
  | use index => exact absurd rfl (h index)

theorem current_apply_use_of_lt {index : Nat} (h : index < s.cursors.size) :
    (s.apply (.use index)).1.current = index :=
  Nat.min_eq_left (Nat.le_sub_one_of_lt h)

theorem current_apply_use_of_le {index : Nat} (h : s.cursors.size ≤ index) :
    (s.apply (.use index)).1.current + 1 = s.cursors.size := by
  have hlast : (s.apply (.use index)).1.current = s.cursors.size - 1 :=
    Nat.min_eq_right (Nat.le_trans (Nat.sub_le _ 1) h)
  rw [hlast]
  exact Nat.sub_add_cancel (Nat.zero_lt_of_lt s.current_lt)

theorem getElem?_apply_current (s : Session) (step : Step) :
    (s.apply step).1.cursors[s.current]? = some (s.currentCursor.stepped step) := by
  cases step with
  | advance n => rw [fst_apply_advance, getElem?_replaceCurrent, if_pos rfl]
  | push token => rw [apply, getElem?_replaceCurrent, if_pos rfl, Cursor.stepped]
  | copy => exact getElem?_apply_copy s.getElem?_current
  | use index => exact getElem?_apply_use s.getElem?_current index

/-- No step changes a cursor that is not the current one. -/
theorem getElem?_apply_of_ne (h : s.cursors[i]? = some c) (hne : i ≠ s.current) (step : Step) :
    (s.apply step).1.cursors[i]? = some c := by
  cases step with
  | advance n => rw [fst_apply_advance, getElem?_replaceCurrent, if_neg hne, h]
  | push token => rw [apply, getElem?_replaceCurrent, if_neg hne, h]
  | copy => exact getElem?_apply_copy h
  | use index => exact getElem?_apply_use h index

/-- A further cursor is a copy of the current one. -/
theorem eq_copy_of_getElem?_apply {step : Step} (h : (s.apply step).1.cursors[i]? = some c)
    (hnew : s.cursors.size ≤ i) : step = .copy ∧ i = s.cursors.size ∧ c = s.currentCursor := by
  obtain ⟨hi, -⟩ := Array.getElem?_eq_some_iff.mp h
  rw [size_apply] at hi
  by_cases hcopy : step = .copy
  · subst hcopy
    obtain rfl : i = s.cursors.size := by
      simp at hi
      omega
    rw [getElem?_apply_copy_size] at h
    exact ⟨rfl, rfl, (Option.some.inj h).symm⟩
  · simp [hcopy] at hi
    omega

/-- How far a step moves the cursor with index `i`. -/
def moved (s : Session) (i : Nat) (step : Step) : Nat :=
  if i = s.current then s.currentCursor.distance step else 0

theorem exists_getElem?_apply (h : s.cursors[i]? = some c) (step : Step) :
    ∃ c', (s.apply step).1.cursors[i]? = some c' ∧ c'.source = c.source ∧
      c'.offset = c.offset + s.moved i step := by
  by_cases hcurrent : i = s.current
  · subst hcurrent
    obtain rfl := Option.some.inj (h.symm.trans s.getElem?_current)
    refine ⟨_, s.getElem?_apply_current step, Cursor.source_stepped _ step, ?_⟩
    rw [Cursor.offset_stepped, moved, if_pos rfl]
  · exact ⟨c, getElem?_apply_of_ne h hcurrent step, rfl, by rw [moved, if_neg hcurrent, Nat.add_zero]⟩

/-! ### Scripts -/

/-- The session after a script. -/
def run : Session → List Step → Session
  | s, [] => s
  | s, step :: steps => run (s.apply step).1 steps

/-- How far the steps of a script move the cursor with index `i`. -/
def advanced (i : Nat) : Session → List Step → Nat
  | _, [] => 0
  | s, step :: steps => s.moved i step + advanced i (s.apply step).1 steps

theorem run_append (s : Session) (steps steps' : List Step) :
    s.run (steps ++ steps') = (s.run steps).run steps' := by
  induction steps generalizing s with
  | nil => rfl
  | cons step steps ih => exact ih (s.apply step).1

theorem trail_append (s : Session) (steps steps' : List Step) :
    s.trail (steps ++ steps') = s.trail steps ++ (s.run steps).trail steps' := by
  induction steps generalizing s with
  | nil => rfl
  | cons step steps ih => exact congrArg (s.apply step :: ·) (ih (s.apply step).1)

theorem trail_concat (s : Session) (steps : List Step) (step : Step) :
    s.trail (steps ++ [step]) = s.trail steps ++ [(s.run steps).apply step] :=
  trail_append s steps [step]

theorem size_run (s : Session) (steps : List Step) :
    (s.run steps).cursors.size = s.cursors.size + steps.count .copy := by
  induction steps generalizing s with
  | nil => rfl
  | cons step steps ih =>
      rw [run, ih, size_apply, Nat.add_assoc, ← List.count_append, List.singleton_append]

/-- The cursors that are there before a script are there after it, moved by its advances. -/
theorem exists_getElem?_run (h : s.cursors[i]? = some c) (steps : List Step) :
    ∃ c', (s.run steps).cursors[i]? = some c' ∧ c'.source = c.source ∧
      c'.offset = c.offset + advanced i s steps := by
  induction steps generalizing s c with
  | nil => exact ⟨c, h, rfl, rfl⟩
  | cons step steps ih =>
      obtain ⟨d, hd, hsource, hoffset⟩ := exists_getElem?_apply h step
      obtain ⟨e, he, hsource', hoffset'⟩ := ih hd
      exact ⟨e, he, hsource'.trans hsource, by rw [hoffset', hoffset, advanced, Nat.add_assoc]⟩

/-- A cursor that was not there before a script was made by a copy. -/
theorem exists_copy {steps : List Step} (h : (s.run steps).cursors[i]? = some c)
    (hnew : s.cursors.size ≤ i) :
    ∃ before after, steps = before ++ .copy :: after ∧ i = (s.run before).cursors.size := by
  induction steps generalizing s with
  | nil =>
      obtain ⟨hi, -⟩ := Array.getElem?_eq_some_iff.mp h
      exact absurd hi (Nat.not_lt.mpr hnew)
  | cons step steps ih =>
      by_cases hnext : (s.apply step).1.cursors.size ≤ i
      · obtain ⟨before, after, rfl, hsize⟩ := ih h hnext
        exact ⟨step :: before, after, rfl, hsize⟩
      · obtain ⟨rfl, hi, -⟩ :=
          eq_copy_of_getElem?_apply (Array.getElem?_eq_getElem (Nat.not_le.mp hnext)) hnew
        exact ⟨[], steps, rfl, hi⟩

/-- All cursors of a session are in one text. -/
theorem source_eq_run {source : String}
    (hs : ∀ (i : Nat) (c : Cursor), s.cursors[i]? = some c → c.source = source)
    {steps : List Step} (h : (s.run steps).cursors[i]? = some c) : c.source = source := by
  induction steps generalizing s with
  | nil => exact hs i c h
  | cons step steps ih =>
      refine ih (s := (s.apply step).1) (fun j d hd => ?_) h
      by_cases hj : j < s.cursors.size
      · have hbefore := Array.getElem?_eq_getElem hj
        obtain ⟨d', hd', hsource, -⟩ := exists_getElem?_apply hbefore step
        obtain rfl := Option.some.inj (hd.symm.trans hd')
        rw [hsource, hs j _ hbefore]
      · obtain ⟨-, -, rfl⟩ := eq_copy_of_getElem?_apply hd (Nat.not_lt.mp hj)
        exact hs _ _ s.getElem?_current

theorem getElem?_start {source : String} (h : (start source).cursors[i]? = some c) :
    i = 0 ∧ c = Cursor.ofSource source := by
  obtain ⟨hi, rfl⟩ := Array.getElem?_eq_some_iff.mp h
  obtain rfl : i = 0 := Nat.lt_one_iff.mp hi
  exact ⟨rfl, rfl⟩

/-- The cursor with index `i` is as far as the advances on it took it: from the start of the text,
or from where the cursor was that it is a copy of. -/
def Stands (source : String) (steps : List Step) (i offset : Nat) : Prop :=
  (i = 0 ∧ offset = advanced 0 (start source) steps) ∨
    ∃ before after, steps = before ++ .copy :: after ∧
      i = ((start source).run before).cursors.size ∧
      offset = ((start source).run before).currentCursor.offset +
        advanced i (((start source).run before).apply .copy).1 after

theorem stands_run {source : String} {steps : List Step}
    (h : ((start source).run steps).cursors[i]? = some c) : Stands source steps i c.offset := by
  by_cases hi : i < (start source).cursors.size
  · obtain ⟨rfl, hfirst⟩ := getElem?_start (Array.getElem?_eq_getElem hi)
    obtain ⟨d, hd, -, hoffset⟩ := exists_getElem?_run (Array.getElem?_eq_getElem hi) steps
    obtain rfl := Option.some.inj (h.symm.trans hd)
    exact Or.inl ⟨rfl, by rw [hoffset, hfirst]; exact Nat.zero_add _⟩
  · obtain ⟨before, after, rfl, hsize⟩ := exists_copy h (Nat.not_lt.mp hi)
    have hcopy : (((start source).run before).apply .copy).1.cursors[i]? =
        some ((start source).run before).currentCursor := by
      rw [hsize]
      exact getElem?_apply_copy_size _
    obtain ⟨d, hd, -, hoffset⟩ := exists_getElem?_run hcopy after
    rw [run_append, run] at h
    obtain rfl := Option.some.inj (h.symm.trans hd)
    exact Or.inr ⟨before, after, rfl, hsize, hoffset⟩

/-- What holds of the session that a script leads to from the start of a text. -/
structure Law (source : String) (steps : List Step) (s : Session) : Prop where
  /-- A further step of the script is taken from this session. -/
  trail_concat : ∀ step,
    (start source).trail (steps ++ [step]) = (start source).trail steps ++ [s.apply step]
  /-- There is one cursor at first, and one more for every copy. -/
  size_eq : s.cursors.size = 1 + steps.count .copy
  offset : ∀ (i : Nat) (c : Cursor), s.cursors[i]? = some c → Stands source steps i c.offset
  /-- An advance moves the current cursor, -/
  advance : ∀ n, s.currentCursor.offset + n < offsetLimit →
    s.apply (.advance n) =
      (s.replaceCurrent { s.currentCursor with offset := s.currentCursor.offset + n }, .quiet)
  /-- or it leads past 64 bits and changes nothing. -/
  overflow : ∀ n, offsetLimit ≤ s.currentCursor.offset + n →
    s.apply (.advance n) = (s, .failed (.offsetOverflow (s.currentCursor.offset + n)))
  /-- A push leaves every cursor where it is. -/
  push : ∀ token (i : Nat) (c : Cursor), s.cursors[i]? = some c →
    ∃ c' : Cursor, (s.apply (.push token)).1.cursors[i]? = some c' ∧ c'.offset = c.offset
  /-- An advance and a push leave the other cursors as they are, a copy and a change of the current
  cursor leave all of them so. -/
  isolated : ∀ step (i : Nat) (c : Cursor), s.cursors[i]? = some c →
    i ≠ s.current ∨ step = .copy ∨ (∃ index, step = .use index) →
      (s.apply step).1.cursors[i]? = some c
  /-- A copy is one more cursor behind the others, as the current one is. -/
  copy : (s.apply .copy).1.cursors[s.cursors.size]? = some s.currentCursor
  /-- An advance, a push and a copy leave the same cursor current. -/
  current_eq : ∀ step, (∀ index, step ≠ .use index) → (s.apply step).1.current = s.current
  /-- A change of the current cursor makes the one with its index current, -/
  use_of_lt : ∀ index, index < s.cursors.size → (s.apply (.use index)).1.current = index
  /-- or the last one when there are not so many. -/
  use_of_le : ∀ index, s.cursors.size ≤ index →
    (s.apply (.use index)).1.current + 1 = s.cursors.size
  reads : ∀ (i : Nat) (c : Cursor), s.cursors[i]? = some c → c.Reads source

/-- Whatever the script, its cursors go their own ways. -/
theorem law_run (source : String) (steps : List Step) :
    Law source steps ((start source).run steps) where
  trail_concat := trail_concat (start source) steps
  size_eq := size_run (start source) steps
  offset _ _ := stands_run
  advance _ := apply_advance_of_lt
  overflow _ := apply_advance_of_le
  push token i c h := by
    obtain ⟨c', hc', -, hoffset⟩ := exists_getElem?_apply h (.push token)
    exact ⟨c', hc', by rw [hoffset, moved, Cursor.distance, ite_self, Nat.add_zero]⟩
  isolated step i c h hidle := by
    rcases hidle with hne | rfl | ⟨index, rfl⟩
    · exact getElem?_apply_of_ne h hne step
    · exact getElem?_apply_copy h
    · exact getElem?_apply_use h index
  copy := getElem?_apply_copy_size _
  current_eq _ := current_apply _
  use_of_lt _ := current_apply_use_of_lt
  use_of_le _ := current_apply_use_of_le
  reads i c h := by
    have hsource : c.source = source :=
      source_eq_run (fun j d hd => by rw [(getElem?_start hd).2]; rfl) h
    rw [← hsource]
    exact c.reads

/-- The copy goes on by itself, and the other cursor stays in front of the offset that is too
great for it. -/
theorem law_run_copy :
    ((start "×1").run [.advance 1, .copy, .advance 18446744073709551615, .use 1,
        .advance 1]).cursors.map Cursor.offset = #[1, 2] ∧
      Law "×1" [.advance 1, .copy, .advance 18446744073709551615, .use 1, .advance 1]
        ((start "×1").run [.advance 1, .copy, .advance 18446744073709551615, .use 1,
          .advance 1]) :=
  ⟨by decide +kernel, law_run _ _⟩

end Session

end ArithmeticTokens
