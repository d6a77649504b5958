import ContingentPlan.Decimal.Notation
import ContingentPlan.Document.Basic
import ContingentPlan.Text.Digits

/-!
Writing documents as JSON, on one line without blanks or with two blanks of indentation a level.
Inside strings the quote, the backslash and the control characters are escaped and nothing else.
-/

namespace ContingentPlan.Json

def escape (character : Char) : List Char :=
  match character with
  | '"' => ['\\', '"']
  | '\\' => ['\\', '\\']
  | '\x08' => ['\\', 'b']
  | '\x0c' => ['\\', 'f']
  | '\n' => ['\\', 'n']
  | '\r' => ['\\', 'r']
  | '\t' => ['\\', 't']
  | _ =>
      if character.toNat < 0x20 then
        ['\\', 'u', '0', '0', Text.hexDigit (character.toNat / 16), Text.hexDigit (character.toNat % 16)]
      else [character]

def quote (text : String) : String :=
  String.ofList ('"' :: text.toList.flatMap escape ++ ['"'])

def writeReal (value : Float) : String :=
  if value.isFinite then Decimal.write value else "null"

mutual

def compact : Document → String
  | .null => "null"
  | .boolean value => if value then "true" else "false"
  | .integer value => toString value
  | .real value => writeReal value
  | .text value => quote value
  | .list elements => "[" ++ ",".intercalate (compactElements elements) ++ "]"
  | .record entries => "\x7b" ++ ",".intercalate (compactEntries entries) ++ "\x7d"
  | .unusable => "null"

def compactElements : List Document → List String
  | [] => []
  | element :: elements => compact element :: compactElements elements

def compactEntries : List (Option String × Document) → List String
  | [] => []
  | (name, value) :: entries =>
      (quote (name.getD "") ++ ":" ++ compact value) :: compactEntries entries

end

def margin (level : Nat) : String := "\n" ++ String.ofList (List.replicate (2 * level) ' ')

def block (level : Nat) (opening closing : String) (items : List String) : String :=
  if items.isEmpty then opening ++ closing
  else
    opening ++ margin (level + 1) ++ ("," ++ margin (level + 1)).intercalate items
      ++ margin level ++ closing

mutual

def indented (level : Nat) : Document → String
  | .list elements => block level "[" "]" (indentedElements (level + 1) elements)
  | .record entries => block level "\x7b" "\x7d" (indentedEntries (level + 1) entries)
  | .null => "null"
  | .boolean value => if value then "true" else "false"
  | .integer value => toString value
  | .real value => writeReal value
  | .text value => quote value
  | .unusable => "null"

def indentedElements (level : Nat) : List Document → List String
  | [] => []
  | element :: elements => indented level element :: indentedElements level elements

def indentedEntries (level : Nat) : List (Option String × Document) → List String
  | [] => []
  | (name, value) :: entries =>
      (quote (name.getD "") ++ ": " ++ indented level value) :: indentedEntries level entries

end

def pretty (document : Document) : String := indented 0 document

end ContingentPlan.Json
