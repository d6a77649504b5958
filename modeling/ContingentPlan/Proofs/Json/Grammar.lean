import ContingentPlan.Codec
import ContingentPlan.Text.Digits

/-!
The JSON texts that plan data has, and what a library for JSON is documented to do with them. The library
is free in its choice of escapes and blanks, and may give up a text nested more than 127 levels deep.
-/

namespace ContingentPlan.Json

def shortEscapes : List (Char × Char) :=
  [('"', '"'), ('\\', '\\'), ('/', '/'), ('b', '\x08'), ('f', '\x0c'), ('n', '\n'), ('r', '\r'),
   ('t', '\t')]

inductive StandsFor : List Char → Char → Prop
  | plain {character : Char} : 0x20 ≤ character.toNat → character ≠ '"' → character ≠ '\\' →
      StandsFor [character] character
  | short {letter character : Char} : (letter, character) ∈ shortEscapes →
      StandsFor ['\\', letter] character
  | number {character : Char} : character.toNat < 0x20 →
      StandsFor ['\\', 'u', '0', '0', Text.hexDigit (character.toNat / 16),
        Text.hexDigit (character.toNat % 16)] character

inductive Quotes : List Char → List Char → Prop
  | nil : Quotes ['"'] []
  | cons {spelling text : List Char} {character : Char} {characters : List Char} :
      StandsFor spelling character → Quotes text characters →
      Quotes (spelling ++ text) (character :: characters)

def Blank (text : List Char) : Prop := ∀ character ∈ text, character ∈ [' ', '\t', '\n', '\r']

def listing (before after : List Char) (closing : Char) : List (List Char) → List Char
  | [] => [closing]
  | [item] => before ++ (item ++ (after ++ [closing]))
  | item :: second :: items =>
      before ++ (item ++ ',' :: listing before after closing (second :: items))

structure Member where
  name : String
  quoted : List Char
  gap : List Char
  text : List Char
  value : Document

namespace Member

def whole (member : Member) : List Char := '"' :: member.quoted ++ ':' :: (member.gap ++ member.text)

def entry (member : Member) : String × Document := (member.name, member.value)

structure Formed (member : Member) : Prop where
  quotes : Quotes member.quoted member.name.toList
  gap : Blank member.gap

end Member

/-- The text is one of the document, which has at most so many levels. -/
inductive Denotes : (levels : Nat) → List Char → Document → Prop
  | null {levels : Nat} : Denotes levels "null".toList .null
  | boolean {levels : Nat} (value : Bool) :
      Denotes levels (if value then "true" else "false").toList (.boolean value)
  | integer {levels number : Nat} : number < Nat.pow 2 64 →
      Denotes levels (Nat.toDigits 10 number) (.integer number)
  | tenth {levels : Nat} : Denotes levels "0.1".toList (.real 0.1)
  | zero {levels : Nat} : Denotes levels "0.0".toList (.real 0.0)
  | text {levels : Nat} {quoted : List Char} {value : String} : Quotes quoted value.toList →
      Denotes levels ('"' :: quoted) (.text value)
  | list {levels : Nat} {before after : List Char} {items : List (List Char × Document)} :
      Blank before → Blank after → (∀ item ∈ items, Denotes levels item.1 item.2) →
      Denotes (levels + 1) ('[' :: listing before after ']' (items.map Prod.fst))
        (.list (items.map Prod.snd))
  | record {levels : Nat} {before after : List Char} {members : List Member} :
      Blank before → Blank after → (∀ member ∈ members, member.Formed) →
      (∀ member ∈ members, Denotes levels member.text member.value) →
      Denotes (levels + 1) ('\x7b' :: listing before after '\x7d' (members.map Member.whole))
        (.fields (members.map Member.entry))

/-- Documents of at most so many levels that can be written without loss: the integers fit 64 bits, and
every name is text. -/
inductive Writable : (levels : Nat) → Document → Prop
  | null {levels : Nat} : Writable levels .null
  | boolean {levels : Nat} (value : Bool) : Writable levels (.boolean value)
  | integer {levels number : Nat} : number < Nat.pow 2 64 → Writable levels (.integer number)
  | tenth {levels : Nat} : Writable levels (.real 0.1)
  | zero {levels : Nat} : Writable levels (.real 0.0)
  | text {levels : Nat} (value : String) : Writable levels (.text value)
  | list {levels : Nat} {elements : List Document} : (∀ element ∈ elements, Writable levels element) →
      Writable (levels + 1) (.list elements)
  | fields {levels : Nat} {entries : List (String × Document)} :
      (∀ entry ∈ entries, Writable levels entry.2) → Writable (levels + 1) (.fields entries)

def deepest : Nat := 127

/-- What a library for JSON writes is a text of the document, and each text is read as its document. -/
structure Documented (json : Codec) : Prop where
  compact : ∀ document, Writable deepest document →
    ∃ text, json.compact document = .ok text ∧ Denotes deepest text.toList document
  pretty : ∀ document, Writable deepest document →
    ∃ text, json.pretty document = .ok text ∧ Denotes deepest text.toList document
  read : ∀ text document, Denotes deepest text.toList document → json.read text = .ok document

end ContingentPlan.Json
