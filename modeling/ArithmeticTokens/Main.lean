import ArithmeticTokens.Console

/-!
# The program

Prints the tokens of the sample text.
-/

def main : IO UInt32 := do
  let printed := ArithmeticTokens.Printed.ofSource ArithmeticTokens.Printed.sample
  IO.print printed.out
  IO.eprint printed.err
  return printed.exitCode.toUInt32
