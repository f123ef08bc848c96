import ArithmeticTokens.Scan

/-!
# Traces

While it works, a scan reports events: that it begins, each lexeme with the token it makes, how it
ends, and that it is over. An event has a level, a name and named fields, and a listener names the
least severe level that it wants to hear.
-/

namespace ArithmeticTokens

/-- The levels of events, the most severe first; `off` is for a listener who wants nothing. -/
inductive Level where
  | off
  | error
  | warn
  | info
  | debug
  | trace
  deriving DecidableEq, Repr

namespace Level

/-- Less severe levels rank higher. -/
def rank : Level → Nat
  | off => 0
  | error => 1
  | warn => 2
  | info => 3
  | debug => 4
  | trace => 5

def name : Level → String
  | off => "OFF"
  | error => "ERROR"
  | warn => "WARN"
  | info => "INFO"
  | debug => "DEBUG"
  | trace => "TRACE"

/-- Does a listener at this level hear events of the other level? -/
def admits (limit level : Level) : Bool := level.rank ≤ limit.rank

end Level

inductive Event where
  /-- The scan of a text of so many bytes begins. -/
  | entered (size : Nat)
  /-- A rule accepted so many bytes. -/
  | matched (rule : Rule) (start length : Nat)
  | token (token : Token)
  /-- The whole text was accepted, with so many tokens. -/
  | tokenized (count : Nat)
  /-- No rule accepts the character. -/
  | noRule (position : Nat) (c : Char)
  /-- The scan is over. -/
  | left
  deriving DecidableEq, Repr

namespace Event

/-- The value of a field. -/
inductive Field where
  | number (n : Nat)
  | text (s : String)
  deriving DecidableEq, Repr

def level : Event → Level
  | entered _ => .debug
  | matched .. => .trace
  | token _ => .trace
  | tokenized _ => .debug
  | noRule .. => .debug
  | left => .debug

def name : Event → String
  | entered _ => "lex"
  | matched .. => "matched"
  | token _ => "token"
  | tokenized _ => "tokenized"
  | noRule .. => "no rule matches"
  | left => "lex"

def fields : Event → List (String × Field)
  | entered size => [("len", .number size)]
  | matched rule start length =>
      [("rule", .text rule.name), ("pos", .number start), ("len", .number length)]
  | token t =>
      [("kind", .text t.kind.name), ("value", .text t.value), ("start", .number t.span.start)]
  | tokenized count => [("count", .number count)]
  | noRule position c => [("pos", .number position), ("token", .text (Text.quoteChar c))]
  | left => []

end Event

/-- What is reported of one lexeme. -/
def Lexeme.events (l : Lexeme) : List Event :=
  .matched l.rule l.start l.length :: (l.token?.map Event.token).toList

/-- What is reported at the end of a finished scan. -/
def Scan.ending (s : Scan) : Event :=
  match s.rest with
  | [] => .tokenized s.tokens.length
  | c :: _ => .noRule s.offset c

/-- All that the scan of a text reports, in order. -/
def events (source : String) : List Event :=
  let s := Scan.ofSource source
  .entered source.utf8ByteSize ::
    (s.lexemes.toList.flatMap Lexeme.events ++ [s.ending, .left])

/-- What a listener at the given level hears of the scan of a text. -/
def trace (limit : Level) (source : String) : List Event :=
  (events source).filter fun event => limit.admits event.level

end ArithmeticTokens
