import ArithmeticTokens.Token

/-!
# Rules

A rule says how much of the start of a text it accepts: a number is an optional minus sign and a
run of digits, an operator is one character, and a blank is a run of white space. Each rule
accepts as much as it can, never nothing (`Rule.length?_pos`), and among the rules the first in
order of priority that accepts anything is taken. All characters that a rule accepts are one
byte long, so a length counts characters and bytes alike.
-/

namespace ArithmeticTokens

/-- The operators. The vertical bar is one of them. -/
def operators : List Char := ['*', '|', '/', '+', '-']

/-- The characters that may stand between tokens. -/
def blanks : List Char := [' ', '\t', '\x0c', '\r', '\n']

inductive Rule where
  | number
  | operator
  | blank
  deriving DecidableEq, Repr

namespace Rule

/-- The rules, in the order in which they are tried. -/
def priority : List Rule := [number, operator, blank]

def name : Rule → String
  | number => "NUMBER"
  | operator => "BINARYOP"
  | blank => "WHITESPACE"

/-- The kind of token that a rule makes of what it accepts; a blank makes none. -/
def kind? : Rule → Option Kind
  | number => some .number
  | operator => some .operator
  | blank => none

/-- One for a text that starts with a minus sign. -/
def signLength (cs : List Char) : Nat := if cs.head? = some '-' then 1 else 0

/-- The length of the longest run of characters with property `p` at the start of a text. -/
def runLength (p : Char → Bool) (cs : List Char) : Nat := (cs.takeWhile p).length

/-- The length of what a rule accepts at the start of a text, or `none` if that is nothing. -/
def length? (rule : Rule) (cs : List Char) : Option Nat :=
  match rule with
  | number =>
      let digits := runLength Char.isDigit (cs.drop (signLength cs))
      if digits = 0 then none else some (signLength cs + digits)
  | operator =>
      match cs with
      | [] => none
      | c :: _ => if c ∈ operators then some 1 else none
  | blank =>
      let run := runLength (· ∈ blanks) cs
      if run = 0 then none else some run

theorem length?_pos {rule : Rule} {cs : List Char} {n : Nat}
    (h : rule.length? cs = some n) : 0 < n := by
  cases rule with
  | number =>
      simp only [length?] at h
      split at h
      · simp at h
      · cases h; omega
  | operator =>
      simp only [length?] at h
      split at h
      · simp at h
      · split at h
        · cases h; omega
        · simp at h
  | blank =>
      simp only [length?] at h
      split at h
      · simp at h
      · cases h; omega

/-- A rule that accepts something at the start of a text, and the length of that. -/
structure Hit where
  rule : Rule
  length : Nat
  length_pos : 0 < length
  deriving DecidableEq, Repr

/-- What a rule accepts at the start of a text. -/
def hit? (rule : Rule) (cs : List Char) : Option Hit :=
  match h : rule.length? cs with
  | none => none
  | some n => some ⟨rule, n, length?_pos h⟩

theorem hit?_eq_some_iff {rule : Rule} {cs : List Char} {hit : Hit} :
    rule.hit? cs = some hit ↔ hit.rule = rule ∧ rule.length? cs = some hit.length := by
  obtain ⟨r, n, hn⟩ := hit
  simp only [hit?]
  split <;> rename_i h
  · simp [h]
  · simp [h, eq_comm]

theorem hit?_eq_none_iff {rule : Rule} {cs : List Char} :
    rule.hit? cs = none ↔ rule.length? cs = none := by
  simp only [hit?]
  split <;> rename_i h <;> simp [h]

/-- The first rule in order of priority that accepts something at the start of a text. -/
def first? (cs : List Char) : Option Hit := priority.findSome? (·.hit? cs)

end Rule

/-- The rule that makes tokens of a kind. -/
def Kind.rule : Kind → Rule
  | number => .number
  | operator => .operator

/-- The length of the longest token of a kind at the start of a text. -/
def Kind.length? (kind : Kind) (cs : List Char) : Option Nat := kind.rule.length? cs

end ArithmeticTokens
