import ContingentPlan.Document.Basic
import ContingentPlan.Toml.Text

/-!
Writing tables of texts and whole numbers as TOML, one line for each of them; null values are left out.
A text goes between quotes if that needs no escape, else between apostrophes,
else between tripled quotes, else between tripled apostrophes; where no way does without escapes,
it goes between quotes, tripled if it has line ends.
-/

namespace ContingentPlan.Toml

def longestRun (character : Char) (text : List Char) : Nat :=
  let (longest, current) := text.foldl
    (fun (longest, current) next =>
      if next = character then (longest, current + 1) else (max longest current, 0))
    (0, 0)
  max longest current

def fourDigits (value : Nat) : List Char :=
  [value / 0x1000 % 0x10, value / 0x100 % 0x10, value / 0x10 % 0x10, value % 0x10].map
    fun digit => (Text.hexDigit digit).toUpper

def escape (long : Bool) (character : Char) : List Char :=
  match character with
  | '\\' => ['\\', '\\']
  | '\x08' => ['\\', 'b']
  | '\t' => ['\\', 't']
  | '\n' => if long then ['\n'] else ['\\', 'n']
  | '\x0c' => ['\\', 'f']
  | '\r' => ['\\', 'r']
  | _ => if isPlain character then [character] else '\\' :: 'u' :: fourDigits character.toNat

def writeBasic : List Char → List Char
  | [] => []
  | '"' :: rest => '\\' :: '"' :: writeBasic rest
  | character :: rest => escape false character ++ writeBasic rest

/-- The text between tripled quotes, where the third of three quotes in a row is escaped; `run` of
them stand right before. -/
def writeLongBasic (run : Nat) : List Char → List Char
  | [] => []
  | '"' :: rest =>
      if run < 2 then '"' :: writeLongBasic (run + 1) rest
      else '\\' :: '"' :: writeLongBasic 0 rest
  | character :: rest => escape true character ++ writeLongBasic 0 rest

def tripled (mark : Char) (text content : List Char) : List Char :=
  [mark, mark, mark] ++ (if '\n' ∈ text then ['\n'] else []) ++ content ++ [mark, mark, mark]

def quoteChars (text : List Char) : List Char :=
  let lineEnds := '\n' ∈ text
  let plain := text.all fun character => isPlain character || character == '\n'
  let unescaped := plain && !text.contains '\\'
  if unescaped ∧ ¬lineEnds ∧ '"' ∉ text then '"' :: writeBasic text ++ ['"']
  else if plain ∧ ¬lineEnds ∧ '\'' ∉ text then '\'' :: text ++ ['\'']
  else if unescaped ∧ longestRun '"' text ≤ 2 then tripled '"' text (writeLongBasic 0 text)
  else if plain ∧ longestRun '\'' text ≤ 2 then tripled '\'' text text
  else if lineEnds then tripled '"' text (writeLongBasic 0 text)
  else '"' :: writeBasic text ++ ['"']

def quote (text : String) : String := String.ofList (quoteChars text.toList)

def writeValue : Document → Except String String
  | .text text => .ok (quote text)
  | .integer number =>
      if -Int.pow 2 63 ≤ number ∧ number < Int.pow 2 63 then .ok (toString number)
      else .error "out-of-range value"
  | _ => .error "unsupported value"

def writeEntries : List (Option String × Document) → Except String String
  | [] => .ok ""
  | (_, .null) :: entries => writeEntries entries
  | (name, value) :: entries => do
      let value ← writeValue value
      return (name.getD "" ++ " = " ++ value ++ "\n") ++ (← writeEntries entries)

def write : Document → Except String String
  | .record entries => writeEntries entries
  | _ => .error "unsupported value"

end ContingentPlan.Toml
