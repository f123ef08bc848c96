import ArithmeticTokens.Report
import ArithmeticTokens.Scan

/-!
# Output on a console

What the program prints on its two streams, and the code it exits with. When a fault ends the
program, an account of the fault goes to the second stream as well. This text is left out.
-/

namespace ArithmeticTokens

structure Printed where
  out : String
  err : String
  exitCode : Nat
  deriving DecidableEq, Repr

namespace Printed

/-- The exit code after a fault. -/
def faultCode : Nat := 101

/-- The exit code after an error in the text. -/
def errorCode : Nat := 1

/-- Prints the report of an error and then exits with the given code. Where the report faults,
nothing of it is printed, and the account of the fault is left out. -/
def ofError (e : Error) (source : String) (code : Nat) : Printed :=
  match e.report source with
  | .ok report => ⟨"", report, code⟩
  | .error _ => ⟨"", "", faultCode⟩

/-- Prints the tokens of a text, one on each line, or the report of the error in it. -/
def ofSource (source : String) : Printed :=
  match lex source with
  | .ok tokens => ⟨Token.listing tokens, "", 0⟩
  | .error e => ofError e source errorCode

/-- The text that the program shows its work on. -/
def sample : String := "11 + 22 - 33"

end Printed

end ArithmeticTokens
