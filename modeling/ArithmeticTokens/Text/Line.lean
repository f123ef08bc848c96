import ArithmeticTokens.Text.Bytes

/-!
# Lines

A newline ends a line and belongs to it, and nothing else ends one. What follows the last newline is
a line too, unless it is empty. A byte offset lies in the line that holds this byte. The offset of
the end of the text lies behind what follows the last newline, empty or not, and this place is found
apart from the others: the lines that `locateIn` goes through do not hold it.
-/

namespace ArithmeticTokens.Text

/-- Puts a character in front of a text that is cut into lines; a newline is a line of its own
until something is put in front of it. -/
def placeInFront (c : Char) : List (List Char) → List (List Char)
  | [] => [[c]]
  | line :: lines => if c = '\n' then [c] :: line :: lines else (c :: line) :: lines

/-- The lines of a text with their newlines, the last one as far as the text goes. -/
def lines (cs : List Char) : List (List Char) := cs.foldr placeInFront []

/-- What follows the last newline of a text. -/
def behindNewlines (cs : List Char) : List Char := (cs.reverse.takeWhile (· ≠ '\n')).reverse

/-- A line of a text, and a place in it. -/
structure Line where
  /-- One for the first line. -/
  number : Nat
  /-- The whole line, with its newline where it has one. -/
  text : String
  /-- How many bytes of the line come before the place. -/
  offset : Nat
  deriving DecidableEq, Repr

namespace Line

/-- The place at byte `position`, when one of the lines holds this byte. The first of them has the
given number and starts at byte `start`. -/
def locateIn (position : Nat) : Nat → Nat → List (List Char) → Option Line
  | _, _, [] => none
  | number, start, line :: lines =>
      let stop := start + byteLength line
      if start ≤ position ∧ position < stop then
        some ⟨number, String.ofList line, position - start⟩
      else locateIn position (number + 1) stop lines

/-- The place at the end of a text. -/
def atEnd (source : String) : Line :=
  let last := behindNewlines source.toList
  ⟨source.toList.count '\n' + 1, String.ofList last, byteLength last⟩

/-- The place at byte `position` of a text, or `none` past its end. -/
def locate (source : String) (position : Nat) : Option Line :=
  if source.utf8ByteSize < position then none
  else some ((locateIn position 1 0 (lines source.toList)).getD (atEnd source))

/-- The text of the line before the place, or `none` when the place is inside a character. -/
def before? (line : Line) : Option (List Char) := takeBytes? line.offset line.text.toList

end Line

end ArithmeticTokens.Text
