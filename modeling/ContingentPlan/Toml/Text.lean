import ContingentPlan.Text.Digits

/-!
The four ways to write a string in TOML: in quotes or in apostrophes, single or tripled. Between
quotes a backslash starts an escape; between apostrophes every character stands for itself. Tripled
ones let line ends through, and drop one that follows the opening.
-/

namespace ContingentPlan.Toml

def isBlank (character : Char) : Bool := character == ' ' || character == '\t'

def isPlain (character : Char) : Bool :=
  character == '\t' || (0x20 ≤ character.toNat && character.toNat ≠ 0x7F)

def afterNewline? : List Char → Option (List Char)
  | '\n' :: rest => some rest
  | '\r' :: '\n' :: rest => some rest
  | _ => none

def unescape? : Char → Option Char
  | '"' => some '"'
  | '\\' => some '\\'
  | 'b' => some '\x08'
  | 'f' => some '\x0c'
  | 'n' => some '\n'
  | 'r' => some '\r'
  | 't' => some '\t'
  | _ => none

def scalar? (digits : List Char) : Option Char :=
  (Text.hexValue? digits).bind fun value =>
    if value.isValidChar then some (Char.ofNat value) else none

def readBasic? : List Char → Option (List Char × List Char)
  | [] => none
  | '"' :: rest => some ([], rest)
  | '\\' :: 'u' :: a :: b :: c :: d :: rest => do
      let character ← scalar? [a, b, c, d]
      let (text, rest) ← readBasic? rest
      return (character :: text, rest)
  | '\\' :: 'U' :: a :: b :: c :: d :: e :: f :: g :: h :: rest => do
      let character ← scalar? [a, b, c, d, e, f, g, h]
      let (text, rest) ← readBasic? rest
      return (character :: text, rest)
  | '\\' :: letter :: rest => do
      let character ← unescape? letter
      let (text, rest) ← readBasic? rest
      return (character :: text, rest)
  | character :: rest =>
      if isPlain character then do
        let (text, rest) ← readBasic? rest
        return (character :: text, rest)
      else none

/-- Reads between tripled quotes. While `folding`, the blanks and line ends behind a backslash at
the end of a line are passed over. -/
def readLongBasic? (folding : Bool) : List Char → Option (List Char × List Char)
  | [] => none
  | '"' :: '"' :: '"' :: '"' :: '"' :: rest => some (['"', '"'], rest)
  | '"' :: '"' :: '"' :: '"' :: rest => some (['"'], rest)
  | '"' :: '"' :: '"' :: rest => some ([], rest)
  | '\\' :: 'u' :: a :: b :: c :: d :: rest => do
      let character ← scalar? [a, b, c, d]
      let (text, rest) ← readLongBasic? false rest
      return (character :: text, rest)
  | '\\' :: 'U' :: a :: b :: c :: d :: e :: f :: g :: h :: rest => do
      let character ← scalar? [a, b, c, d, e, f, g, h]
      let (text, rest) ← readLongBasic? false rest
      return (character :: text, rest)
  | '\\' :: letter :: rest =>
      match unescape? letter with
      | some character => do
          let (text, rest) ← readLongBasic? false rest
          return (character :: text, rest)
      | none =>
          if (afterNewline? ((letter :: rest).dropWhile isBlank)).isSome then
            readLongBasic? true rest
          else none
  | '\r' :: '\n' :: rest =>
      if folding then readLongBasic? true rest
      else do
        let (text, rest) ← readLongBasic? false rest
        return ('\n' :: text, rest)
  | character :: rest =>
      if folding && (isBlank character || character == '\n') then readLongBasic? true rest
      else if isPlain character || character == '\n' then do
        let (text, rest) ← readLongBasic? false rest
        return (character :: text, rest)
      else none

def readLiteral? : List Char → Option (List Char × List Char)
  | [] => none
  | '\'' :: rest => some ([], rest)
  | character :: rest =>
      if isPlain character then do
        let (text, rest) ← readLiteral? rest
        return (character :: text, rest)
      else none

def readLongLiteral? : List Char → Option (List Char × List Char)
  | [] => none
  | '\'' :: '\'' :: '\'' :: '\'' :: '\'' :: rest => some (['\'', '\''], rest)
  | '\'' :: '\'' :: '\'' :: '\'' :: rest => some (['\''], rest)
  | '\'' :: '\'' :: '\'' :: rest => some ([], rest)
  | '\r' :: '\n' :: rest => do
      let (text, rest) ← readLongLiteral? rest
      return ('\n' :: text, rest)
  | character :: rest =>
      if isPlain character || character == '\n' then do
        let (text, rest) ← readLongLiteral? rest
        return (character :: text, rest)
      else none

def dropNewline (text : List Char) : List Char := (afterNewline? text).getD text

def readText? : List Char → Option (List Char × List Char)
  | '"' :: '"' :: '"' :: rest => readLongBasic? false (dropNewline rest)
  | '"' :: rest => readBasic? rest
  | '\'' :: '\'' :: '\'' :: rest => readLongLiteral? (dropNewline rest)
  | '\'' :: rest => readLiteral? rest
  | _ => none

end ContingentPlan.Toml
