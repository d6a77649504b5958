import ContingentPlan.Toml.Scalar
import ContingentPlan.Toml.Tree

/-!
The statements of a TOML text: pairs of a dotted key and a value, headers of tables, and headers of
the elements of an array of tables. Values may be nested; keys and nesting have a bounded depth.
-/

namespace ContingentPlan.Toml

inductive Statement
  | pair (keys : List String) (value : Document)
  | header (keys : List String)
  | elementHeader (keys : List String)

def skipBlanks (text : List Char) : List Char := text.dropWhile isBlank

def skipGap (inComment : Bool) : List Char → List Char
  | [] => []
  | character :: rest =>
      if inComment && isPlain character then skipGap true rest
      else if isBlank character || character == '\n' then skipGap false rest
      else if character = '\r' ∧ rest.head? = some '\n' then skipGap false rest
      else if character = '#' then skipGap true rest
      else character :: rest

def readLineEnd? (text : List Char) : Option (List Char) :=
  let rest := match skipBlanks text with
    | '#' :: comment => comment.dropWhile isPlain
    | rest => rest
  if rest.isEmpty then some [] else afterNewline? rest

def isBareKeyChar (character : Char) : Bool :=
  Text.isLetterOrDigit character || character == '_' || character == '-'

def readKey? : List Char → Option (String × List Char)
  | '"' :: rest => (readBasic? rest).map fun found => (String.ofList found.1, found.2)
  | '\'' :: rest => (readLiteral? rest).map fun found => (String.ofList found.1, found.2)
  | text =>
      match text.span isBareKeyChar with
      | ([], _) => none
      | (key, rest) => some (String.ofList key, rest)

def readKeys? : (bound : Nat) → List Char → Option (List String × List Char)
  | 0, _ => none
  | bound + 1, text => do
      let (key, rest) ← readKey? (skipBlanks text)
      match skipBlanks rest with
      | '.' :: rest =>
          let (keys, rest) ← readKeys? bound rest
          return (key :: keys, rest)
      | rest => return ([key], rest)

def depthLimit : Nat := 79

def readAssignment? (text : List Char) : Option (List String × List Char) := do
  match ← readKeys? depthLimit text with
  | (keys, '=' :: rest) => return (keys, skipBlanks rest)
  | _ => none

mutual

def readValue? : (fuel depth : Nat) → List Char → Option (Document × List Char)
  | fuel + 1, depth + 1, '[' :: rest => do
      let (elements, rest) ← readElements? fuel depth (skipGap false rest)
      return (.list elements, rest)
  | fuel + 1, depth + 1, '\x7b' :: rest =>
      match skipBlanks rest with
      | '\x7d' :: rest => some (.record [], rest)
      | rest => do
          let (entries, rest) ← readPairs? fuel depth [] rest
          return (entries.toDocument, rest)
  | _ + 1, _, '"' :: rest =>
      (readText? ('"' :: rest)).map fun found => (.text (String.ofList found.1), found.2)
  | _ + 1, _, '\'' :: rest =>
      (readText? ('\'' :: rest)).map fun found => (.text (String.ofList found.1), found.2)
  | _ + 1, _, text => readScalar? text
  | _, _, _ => none

def readElements? : (fuel depth : Nat) → List Char → Option (List Document × List Char)
  | _ + 1, _, ']' :: rest => some ([], rest)
  | fuel + 1, depth, text => do
      let (element, rest) ← readValue? fuel depth text
      match skipGap false rest with
      | ',' :: rest =>
          let (elements, rest) ← readElements? fuel depth (skipGap false rest)
          return (element :: elements, rest)
      | ']' :: rest => return ([element], rest)
      | _ => none
  | _, _, _ => none

def readPairs? : (fuel depth : Nat) → Entries → List Char → Option (Entries × List Char)
  | fuel + 1, depth, entries, text => do
      let (keys, rest) ← readAssignment? text
      let (value, rest) ← readValue? fuel depth rest
      let entries ← entries.insertPair value keys
      match skipBlanks rest with
      | ',' :: rest => readPairs? fuel depth entries rest
      | '\x7d' :: rest => return (entries, rest)
      | _ => none
  | _, _, _, _ => none

end

def readStatement? (text : List Char) : Option (Statement × List Char) :=
  match text with
  | '[' :: '[' :: rest => do
      match ← readKeys? depthLimit rest with
      | (keys, ']' :: ']' :: rest) => return (.elementHeader keys, ← readLineEnd? rest)
      | _ => none
  | '[' :: rest => do
      match ← readKeys? depthLimit rest with
      | (keys, ']' :: rest) => return (.header keys, ← readLineEnd? rest)
      | _ => none
  | text => do
      let (keys, rest) ← readAssignment? text
      let (value, rest) ← readValue? (2 * text.length) depthLimit rest
      return (.pair keys value, ← readLineEnd? rest)

def readStatements? : (bound : Nat) → List Char → Option (List Statement)
  | bound, text =>
      match skipGap false text, bound with
      | [], _ => some []
      | _, 0 => none
      | text, bound + 1 => do
          let (statement, rest) ← readStatement? text
          return statement :: (← readStatements? bound rest)

end ContingentPlan.Toml
