import ArithmeticTokens.Text.Escape

/-!
# Errors

An error is a cause and the byte offset at which it arose. Its message shows both, with the
offending character or name in its escaped form, so that it stays on one line. An unrecognized
character comes with a tip that says what was expected instead.
-/

namespace ArithmeticTokens

/-- What can be wrong with a text or with the name of a kind. -/
inductive Cause where
  /-- No rule accepts the character. -/
  | unrecognized (token : Char)
  /-- No kind of token has the name. -/
  | unknownKind (name : String)
  deriving DecidableEq, Repr

/-- A cause and the byte offset at which it arose. -/
structure Error where
  cause : Cause
  position : Nat
  deriving DecidableEq, Repr

namespace Cause

/-- The name under which a report shows the cause. -/
def name : Cause → String
  | unrecognized _ => "UnrecognizedInput"
  | unknownKind _ => "UnknownTokenType"

/-- The cause in words. -/
def message : Cause → String
  | unrecognized token => "unrecognized input: " ++ Text.quoteChar token
  | unknownKind name => "unknown token type: " ++ Text.quoteString name

/-- What was expected, where there is something to say. -/
def tip? : Cause → Option String
  | unrecognized token =>
      some ("Unrecognized character `" ++ Text.bareChar token ++
        "`, expected a number, an operator or whitespace")
  | unknownKind _ => none

end Cause

namespace Error

def name (e : Error) : String := e.cause.name

/-- The cause in words, and the offset in decimal. -/
def message (e : Error) : String := e.cause.message ++ " at offset " ++ e.position.repr

def tip? (e : Error) : Option String := e.cause.tip?

/-- The tip as text, which is empty where there is none. -/
def tipText (e : Error) : String := e.tip?.getD ""

end Error

end ArithmeticTokens
