import ArithmeticTokens.Error
import ArithmeticTokens.Fault
import ArithmeticTokens.Text.Line
import ArithmeticTokens.Text.WhiteSpace

/-!
# Reports

A report shows an error to a person: a heading with the name of the error and its tip, then the
line with the place of the error and a caret below it. The line loses the spaces and tabs at its
start and the white space at its end, and the caret is counted in characters from where the shown
line starts. A place past the end of the text has no line, and only its offset is shown.

There is no report for a place inside a character, nor for a caret field wider than 65535.
-/

namespace ArithmeticTokens

/-- The characters that a report leaves out at the start of a line. -/
def isIndent (c : Char) : Bool := c = ' ' || c = '\t'

/-- The greatest width of the field with the caret. -/
def caretFieldLimit : Nat := 65535

/-- A line as a report shows it. -/
structure Excerpt where
  /-- The number of the line. -/
  number : Nat
  /-- The line without the white space around it. -/
  shown : String
  /-- How many dashes stand before the caret. -/
  dashes : Nat
  deriving DecidableEq, Repr

namespace Excerpt

/-- The excerpt for a place in a line. A place among the spaces and tabs at the start of the line
has its caret at the start of the shown line. -/
def ofLine (line : Text.Line) : Except Fault Excerpt :=
  match line.before? with
  | none => .error (.notBoundary line.offset)
  | some before =>
      let text := line.text.toList
      let indent := (text.takeWhile isIndent).length
      let dashes := before.length - indent
      if dashes + 1 ≤ caretFieldLimit then
        .ok ⟨line.number, String.ofList (Text.trimEnd (text.dropWhile isIndent)), dashes⟩
      else .error (.fieldTooWide (dashes + 1))

/-- The bar of a line without a number, right below the one behind the line number. -/
def gutter (e : Excerpt) : String :=
  String.ofList (List.replicate (e.number.repr.length + 1) ' ') ++ "|"

/-- The caret and the dashes before it. -/
def caret (e : Excerpt) : String := String.ofList (List.replicate e.dashes '-') ++ "^"

/-- The three lines of an excerpt. -/
def text (e : Excerpt) : String :=
  e.gutter ++ "\n" ++ e.number.repr ++ " | " ++ e.shown ++ "\n" ++
    e.gutter ++ " " ++ e.caret ++ "\n"

end Excerpt

namespace Error

/-- The first line of a report. -/
def heading (e : Error) : String :=
  match e.tip? with
  | some tip => "Error: " ++ e.name ++ " (" ++ tip ++ ")\n"
  | none => "Error: " ++ e.name ++ "\n"

/-- The report of an error in a text. -/
def report (e : Error) (source : String) : Except Fault String :=
  match Text.Line.locate source e.position with
  | none => .ok (e.heading ++ "-> offset " ++ e.position.repr ++ "\n")
  | some line => (Excerpt.ofLine line).map fun excerpt => e.heading ++ excerpt.text

/-- A report comes from its line alone. -/
theorem report_of_locate {e : Error} {source : String} {line : Text.Line}
    (h : Text.Line.locate source e.position = some line) :
    e.report source = (Excerpt.ofLine line).map fun excerpt => e.heading ++ excerpt.text := by
  rw [report, h]

end Error

end ArithmeticTokens
