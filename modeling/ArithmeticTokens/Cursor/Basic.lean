import ArithmeticTokens.Fault
import ArithmeticTokens.Text.Bytes
import ArithmeticTokens.Trace

/-!
# Cursors

A cursor is a byte offset into a text, with the tokens collected on the way. It is moved by hand
and nothing checks where it stops: past the end of the text or inside a character there is nothing
to read (`remainder`, `peek`), but the cursor itself is still in order.
-/

namespace ArithmeticTokens

/-- Offsets have 64 bits. -/
def offsetLimit : Nat := UInt64.size

structure Cursor where
  source : String
  offset : Nat
  tokens : Array Token
  deriving DecidableEq, Repr

namespace Cursor

def ofSource (source : String) : Cursor := ⟨source, 0, #[]⟩

/-- Moves the cursor by so many bytes. -/
def advance (c : Cursor) (n : Nat) : Except Fault Cursor :=
  if c.offset + n < offsetLimit then .ok { c with offset := c.offset + n }
  else .error (.offsetOverflow (c.offset + n))

/-- Collects a token, which need not be one of the text. -/
def push (c : Cursor) (token : Token) : Cursor := { c with tokens := c.tokens.push token }

def atEnd (c : Cursor) : Bool := c.source.utf8ByteSize ≤ c.offset

/-- The characters from the cursor on. -/
def rest (c : Cursor) : Except Fault (List Char) :=
  match Text.dropBytes? c.offset c.source.toList with
  | some cs => .ok cs
  | none => .error (.notBoundary c.offset)

/-- The text from the cursor on. -/
def remainder (c : Cursor) : Except Fault String := c.rest.map String.ofList

/-- The character at the cursor, and U+0000 at the end of the text. -/
def peek (c : Cursor) : Except Fault Char := c.rest.map fun cs => cs.headD '\x00'

/-! ### In front of the text `cs` -/

section

variable {c : Cursor} {cs : List Char}

theorem rest_of_dropBytes? (h : Text.dropBytes? c.offset c.source.toList = some cs) :
    c.rest = .ok cs := by
  rw [rest, h]

theorem remainder_of_dropBytes? (h : Text.dropBytes? c.offset c.source.toList = some cs) :
    c.remainder = .ok (String.ofList cs) := by
  rw [remainder, rest_of_dropBytes? h]
  rfl

theorem peek_of_dropBytes? (h : Text.dropBytes? c.offset c.source.toList = some cs) :
    c.peek = .ok (cs.headD '\x00') := by
  rw [peek, rest_of_dropBytes? h]
  rfl

theorem atEnd_of_dropBytes? (h : Text.dropBytes? c.offset c.source.toList = some cs) :
    c.atEnd = cs.isEmpty := by
  obtain ⟨front, hsource, hoffset⟩ := Text.dropBytes?_eq_some_iff.mp h
  have hsize : c.source.utf8ByteSize = c.offset + Text.byteLength cs := by
    rw [Text.utf8ByteSize_eq_byteLength, hsource, Text.byteLength_append, hoffset]
  cases cs with
  | nil => simp [atEnd, hsize]
  | cons d cs =>
      have hpos := d.utf8Size_pos
      rw [Text.byteLength_cons] at hsize
      exact decide_eq_false (by omega)

end

end Cursor

end ArithmeticTokens
