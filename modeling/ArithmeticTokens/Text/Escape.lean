import ArithmeticTokens.Text.Unprintable

/-!
# Escaped text

Messages show a character or a name on one line of printable text. Five characters have an escape
of two characters, unprintable ones are written by their code points in hexadecimal, and a quote
is escaped only where it could be taken for a delimiter. Each form therefore has its own choice
of quotes.
-/

namespace ArithmeticTokens.Text

def singleQuote : Char := '\x27'

def doubleQuote : Char := '\x22'

/-- The quotes that a form of escaped text escapes. -/
structure Quotes where
  single : Bool
  double : Bool
  deriving DecidableEq, Repr

namespace Quotes

/-- Between single quotes only the single quote needs an escape. -/
def ofCharacter : Quotes := ⟨true, false⟩

/-- Between double quotes only the double quote needs an escape. -/
def ofString : Quotes := ⟨false, true⟩

/-- Without delimiters both quotes are escaped. -/
def bare : Quotes := ⟨true, true⟩

end Quotes

/-- The code point in lower-case hexadecimal, without leading zeros, between braces. -/
def escapeCodePoint (c : Char) : List Char :=
  ['\\', 'u', '\x7b'] ++ Nat.toDigits 16 c.toNat ++ ['\x7d']

/-- What stands for one character in escaped text. -/
def escapeChar (quotes : Quotes) (c : Char) : List Char :=
  if c = '\x00' then ['\\', '0']
  else if c = '\t' then ['\\', 't']
  else if c = '\n' then ['\\', 'n']
  else if c = '\r' then ['\\', 'r']
  else if c = '\\' then ['\\', '\\']
  else if c = singleQuote then if quotes.single then ['\\', c] else [c]
  else if c = doubleQuote then if quotes.double then ['\\', c] else [c]
  else if isUnprintable c then escapeCodePoint c
  else [c]

/-- Escaped text, character by character. -/
def escape (quotes : Quotes) (cs : List Char) : List Char := cs.flatMap (escapeChar quotes)

/-- A character between single quotes. -/
def quoteChar (c : Char) : String :=
  String.ofList (singleQuote :: (escapeChar .ofCharacter c ++ [singleQuote]))

/-- A text between double quotes. -/
def quoteString (s : String) : String :=
  String.ofList (doubleQuote :: (escape .ofString s.toList ++ [doubleQuote]))

/-- A character without delimiters. -/
def bareChar (c : Char) : String := String.ofList (escapeChar .bare c)

@[simp] theorem escape_nil (quotes : Quotes) : escape quotes [] = [] := rfl

@[simp] theorem escape_cons (quotes : Quotes) (c : Char) (cs : List Char) :
    escape quotes (c :: cs) = escapeChar quotes c ++ escape quotes cs := rfl

@[simp] theorem toList_quoteChar (c : Char) :
    (quoteChar c).toList = singleQuote :: (escapeChar .ofCharacter c ++ [singleQuote]) :=
  String.toList_ofList

@[simp] theorem toList_quoteString (s : String) :
    (quoteString s).toList = doubleQuote :: (escape .ofString s.toList ++ [doubleQuote]) :=
  String.toList_ofList

@[simp] theorem toList_bareChar (c : Char) : (bareChar c).toList = escapeChar .bare c :=
  String.toList_ofList

end ArithmeticTokens.Text
