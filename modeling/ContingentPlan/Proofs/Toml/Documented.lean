import ContingentPlan.Codec
import ContingentPlan.Text.Identifier

/-!
What a library for TOML is documented to do with tables of texts and whole numbers.
-/

namespace ContingentPlan.Toml

def Bare (key : String) : Prop :=
  key ≠ "" ∧ ∀ character ∈ key.toList, Text.isLetterOrDigit character ∨ character ∈ ['_', '-']

instance (key : String) : Decidable (Bare key) :=
  decidable_of_iff (key ≠ "" ∧ key.toList.all (fun character =>
    Text.isLetterOrDigit character || ['_', '-'].contains character) = true) (by simp [Bare])

inductive Writable : Document → Prop
  | null : Writable .null
  | text (value : String) : Writable (.text value)
  | integer {number : Nat} : number < Nat.pow 2 63 → Writable (.ofId number)

def stated (entries : List (String × Document)) : List (String × Document) :=
  entries.filter fun entry => match entry.2 with
    | .null => false
    | _ => true

/-- The value is no null, and no integer beyond 64 bits with a sign. -/
structure Expressible (value : Document) : Prop where
  notNull : value ≠ .null
  fits : ∀ number, value = .integer number → number < Int.pow 2 63

/-- Texts and whole numbers are read back unchanged, but a number that needs all of 64 bits cannot be
written. What is read is a table with one value under each key. -/
structure Documented (toml : Codec) : Prop where
  pretty : ∀ entries : List (String × Document), (entries.map Prod.fst).Nodup →
    (∀ entry ∈ entries, Bare entry.1 ∧ Writable entry.2) →
    ∃ text, toml.pretty (.fields entries) = .ok text ∧ toml.read text = .ok (.fields (stated entries))
  unwritable : ∀ (entries : List (String × Document)) (number : Nat), Nat.pow 2 63 ≤ number →
    (∃ entry ∈ entries, entry.2 = .ofId number) →
    ∃ reason, toml.pretty (.fields entries) = .error reason
  read : ∀ text document, toml.read text = .ok document →
    ∃ entries : List (String × Document), document = .fields entries ∧ (entries.map Prod.fst).Nodup ∧
      ∀ entry ∈ entries, Expressible entry.2

end ContingentPlan.Toml
