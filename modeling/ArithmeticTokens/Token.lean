import ArithmeticTokens.Error

/-!
# Tokens

A token has a kind, the text it stands for, and the span of that text in bytes. A kind is printed
by its name, and it is read by a table of names; it is read back from its own name and from no
other (`Kind.parse_eq_ok_iff`).
-/

namespace ArithmeticTokens

inductive Kind where
  | number
  | operator
  deriving DecidableEq, Repr

namespace Kind

def name : Kind → String
  | number => "NUMBER"
  | operator => "BINARYOP"

/-- The names that are read, each with the kind that it stands for. -/
def byName : List (String × Kind) := [("BINARYOP", operator), ("NUMBER", number)]

/-- The kind that this name stands for. -/
def parse (name : String) : Except Error Kind :=
  match byName.lookup name with
  | some kind => .ok kind
  | none => .error ⟨.unknownKind name, 0⟩

/-- The kinds are read under the names that they are printed with. -/
theorem name_of_mem_byName {name : String} {kind : Kind} (h : (name, kind) ∈ byName) :
    name = kind.name := by
  have hentries : ∀ entry ∈ byName, entry.1 = entry.2.name := by simp [byName, Kind.name]
  exact hentries (name, kind) h

@[simp] theorem parse_name (kind : Kind) : parse kind.name = .ok kind := by
  cases kind <;> rfl

theorem lookup_byName {name : String} {kind : Kind} (h : byName.lookup name = some kind) :
    name = kind.name := by
  obtain ⟨front, back, hsplit, -⟩ := List.lookup_eq_some_iff.mp h
  apply name_of_mem_byName
  rw [hsplit]
  exact List.mem_append_right front List.mem_cons_self

/-- A kind is read from its own name only. -/
theorem parse_eq_ok_iff {name : String} {kind : Kind} : parse name = .ok kind ↔ name = kind.name := by
  constructor
  · intro h
    simp only [parse] at h
    split at h
    · rename_i found hfound
      cases h
      exact lookup_byName hfound
    · cases h
  · rintro rfl
    exact parse_name kind

/-- Any other name is refused and shown in the error. -/
theorem parse_eq_error {name : String} (h : ∀ kind : Kind, name ≠ kind.name) :
    parse name = .error ⟨.unknownKind name, 0⟩ := by
  cases hlookup : byName.lookup name with
  | some kind => exact absurd (lookup_byName hlookup) (h kind)
  | none => rw [parse, hlookup]

end Kind

/-- A half-open range of byte offsets. -/
structure Span where
  start : Nat
  stop : Nat
  deriving DecidableEq, Repr

structure Token where
  kind : Kind
  value : String
  span : Span
  deriving DecidableEq, Repr

namespace Token

/-- The printed form of a token: its kind and its value in parentheses. -/
def text (token : Token) : String := "(" ++ token.kind.name ++ " " ++ token.value ++ ")"

/-- The printed forms of some tokens, each on a line of its own. -/
def listing (tokens : List Token) : String :=
  String.join (tokens.map fun token => token.text ++ "\n")

end Token

end ArithmeticTokens
