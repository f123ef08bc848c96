import ArithmeticTokens.Cursor.Basic

/-!
# Sessions with several cursors

A session holds a list of cursors, of which one is current. Steps move the current cursor, push
tokens to it, copy it, or make another one current. A copy is a cursor of its own: no step on one
shows on another.
-/

namespace ArithmeticTokens

structure Session where
  cursors : Array Cursor
  current : Nat
  current_lt : current < cursors.size
  deriving DecidableEq, Repr

namespace Session

inductive Step where
  | advance (n : Nat)
  | push (token : Token)
  /-- Appends a copy of the current cursor, which stays the current one. -/
  | copy
  /-- Makes the cursor with this index current, or the last one when there are not so many. -/
  | use (index : Nat)
  deriving DecidableEq, Repr

/-- What a step shows besides the session it leads to. -/
inductive Effect where
  | quiet
  | reported (events : List Event)
  | failed (fault : Fault)
  deriving DecidableEq, Repr

/-- A session with one cursor, at the start of the text. -/
def start (source : String) : Session := ⟨#[Cursor.ofSource source], 0, by simp⟩

def currentCursor (s : Session) : Cursor := getElem s.cursors s.current s.current_lt

/-- Puts another cursor in the place of the current one. -/
def replaceCurrent (s : Session) (c : Cursor) : Session where
  cursors := s.cursors.set s.current c s.current_lt
  current := s.current
  current_lt := by simpa using s.current_lt

/-- The session after a step, which is the session before it when the step fails. -/
def apply (s : Session) : Step → Session × Effect
  | .advance n =>
      match s.currentCursor.advance n with
      | .ok c => (s.replaceCurrent c, .quiet)
      | .error fault => (s, .failed fault)
  | .push token => (s.replaceCurrent (s.currentCursor.push token), .reported [.token token])
  | .copy =>
      ({ cursors := s.cursors.push s.currentCursor
         current := s.current
         current_lt := by simpa using Nat.lt_succ_of_lt s.current_lt }, .quiet)
  | .use index =>
      ({ cursors := s.cursors
         current := min index (s.cursors.size - 1)
         current_lt := by have := s.current_lt; omega }, .quiet)

/-- The session after each step of a script, with what the step shows. -/
def trail (s : Session) : List Step → List (Session × Effect)
  | [] => []
  | step :: steps =>
      let next := s.apply step
      next :: next.1.trail steps

end Session

end ArithmeticTokens
