/-!
# Faults

A fault is an attempt at something that has no meaning: it is not an error in the text that is
read, and nothing is returned in its place.
-/

namespace ArithmeticTokens

inductive Fault where
  /-- An offset of this size does not fit in 64 bits. -/
  | offsetOverflow (offset : Nat)
  /-- A text is cut at a byte offset that is past its end or inside a character. -/
  | notBoundary (offset : Nat)
  /-- A field of this width is wider than a report can show. -/
  | fieldTooWide (width : Nat)
  deriving DecidableEq, Repr

end ArithmeticTokens
