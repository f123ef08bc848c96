import ArithmeticTokens.Rule

/-!
# Scanning a text

A scan walks over a text from left to right. At each place a selection decides which rule accepts
how much; the piece is recorded as a lexeme and the scan goes on behind it, until nothing is left
or nothing is accepted. `lex` scans with the rules in order of priority: what remains at the end
decides between its tokens and an error at the first character that no rule accepts.

The selection is a parameter of the scan, so that different ways to choose a rule can be compared
on whole texts.
-/

namespace ArithmeticTokens

/-- A piece of a text that a rule accepted, and the byte offset at which it starts. -/
structure Lexeme where
  rule : Rule
  start : Nat
  text : String
  deriving DecidableEq, Repr

namespace Lexeme

/-- The number of bytes. -/
def length (l : Lexeme) : Nat := l.text.utf8ByteSize

def span (l : Lexeme) : Span := ⟨l.start, l.start + l.length⟩

/-- The token that a lexeme makes, if its rule makes any. -/
def token? (l : Lexeme) : Option Token := l.rule.kind?.map fun kind => ⟨kind, l.text, l.span⟩

end Lexeme

/-- A way to choose what is accepted at the start of a text. -/
abbrev Selection := List Char → Option Rule.Hit

/-- How far a text has been scanned. -/
structure Scan where
  /-- The number of bytes behind. -/
  offset : Nat
  /-- What is still ahead. -/
  rest : List Char
  /-- What has been accepted so far, in order. -/
  lexemes : Array Lexeme
  deriving DecidableEq, Repr

namespace Scan

/-- Nothing of the text has been scanned. -/
def start (source : String) : Scan := ⟨0, source.toList, #[]⟩

/-- What the selection accepts at the start of what is ahead, which is nothing at the end of the
text. -/
def hit? (select : Selection) (s : Scan) : Option Rule.Hit :=
  if s.rest = [] then none else select s.rest

/-- Accepts a piece at the start of what is ahead. -/
def accept (s : Scan) (hit : Rule.Hit) : Scan where
  offset := s.offset + hit.length
  rest := s.rest.drop hit.length
  lexemes := s.lexemes.push ⟨hit.rule, s.offset, String.ofList (s.rest.take hit.length)⟩

/-- One step of a scan, or `none` where it ends. -/
def next? (select : Selection) (s : Scan) : Option Scan := (s.hit? select).map s.accept

/-- A step leaves less text ahead. -/
theorem length_rest_accept_lt {select : Selection} {s : Scan} {hit : Rule.Hit}
    (h : s.hit? select = some hit) : (s.accept hit).rest.length < s.rest.length := by
  simp only [hit?] at h
  split at h
  · simp at h
  · rename_i hs
    have hpos := hit.length_pos
    have hrest := List.length_pos_iff.mpr hs
    simp only [accept, List.length_drop]
    omega

/-- The scan where no step is left. -/
def finish (select : Selection) (s : Scan) : Scan :=
  match _ : s.hit? select with
  | none => s
  | some hit => finish select (s.accept hit)
termination_by s.rest.length
decreasing_by exact length_rest_accept_lt ‹_›

/-- The tokens among what has been accepted. -/
def tokens (s : Scan) : List Token := s.lexemes.toList.filterMap Lexeme.token?

/-- The tokens of a finished scan, or an error at the first character still ahead. -/
def result (s : Scan) : Except Error (List Token) :=
  match s.rest with
  | [] => .ok s.tokens
  | c :: _ => .error ⟨.unrecognized c, s.offset⟩

/-- The finished scan of a text by the rules in order of priority. -/
def ofSource (source : String) : Scan := (start source).finish Rule.first?

end Scan

/-- The tokens of a text, in order and without the blanks between them, or an error at the first
character that no rule accepts. -/
def lex (source : String) : Except Error (List Token) := (Scan.ofSource source).result

end ArithmeticTokens
