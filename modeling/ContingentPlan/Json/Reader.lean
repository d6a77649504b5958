import ContingentPlan.Json.Token

/-!
Reading JSON texts. The depth of nesting is bounded by the number of tokens, and the entries of a
record are kept in their order, repeated names included.
-/

namespace ContingentPlan.Json

def word? (letters : List Char) : Option Document :=
  if letters = "null".toList then some .null
  else if letters = "true".toList then some (.boolean true)
  else if letters = "false".toList then some (.boolean false)
  else (Numeral.ofChars? letters).map Numeral.toDocument

mutual

def readValue : (depth : Nat) → List Token → Option (Document × List Token)
  | _ + 1, .listStart :: .listEnd :: rest => some (.list [], rest)
  | depth + 1, .listStart :: rest => do
      let (elements, rest) ← readElements depth rest
      return (.list elements, rest)
  | _ + 1, .recordStart :: .recordEnd :: rest => some (.record [], rest)
  | depth + 1, .recordStart :: rest => do
      let (entries, rest) ← readEntries depth rest
      return (.record entries, rest)
  | _ + 1, .string content :: rest =>
      some ((content.map Document.text).getD .unusable, rest)
  | _ + 1, .word letters :: rest => (word? letters).map fun value => (value, rest)
  | _, _ => none

def readElements : (depth : Nat) → List Token → Option (List Document × List Token)
  | 0, _ => none
  | depth + 1, tokens => do
      let (element, rest) ← readValue depth tokens
      match rest with
      | .listEnd :: rest => return ([element], rest)
      | .comma :: rest =>
          let (elements, rest) ← readElements depth rest
          return (element :: elements, rest)
      | _ => none

def readEntries : (depth : Nat) → List Token →
    Option (List (Option String × Document) × List Token)
  | depth + 1, .string name :: .colon :: tokens => do
      let (value, rest) ← readValue depth tokens
      match rest with
      | .recordEnd :: rest => return ([(name, value)], rest)
      | .comma :: rest =>
          let (entries, rest) ← readEntries depth rest
          return ((name, value) :: entries, rest)
      | _ => none
  | _, _ => none

end

def ofTokens? (tokens : List Token) : Option Document :=
  match readValue (tokens.length + 1) tokens with
  | some (document, []) => some document
  | _ => none

def read? (text : String) : Option Document := (tokens? text.toList).bind ofTokens?

end ContingentPlan.Json
