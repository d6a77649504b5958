import ContingentPlan.Json.Numeral
import ContingentPlan.Text.Digits

/-!
The tokens of a JSON text. Between strings and punctuation stand words: numerals and the three
literal names.
-/

namespace ContingentPlan.Json

inductive Token
  | listStart
  | listEnd
  | recordStart
  | recordEnd
  | comma
  | colon
  /-- A string; nothing when it holds half of a surrogate pair. -/
  | string (content : Option String)
  | word (letters : List Char)

def isBlank (character : Char) : Bool :=
  character == ' ' || character == '\t' || character == '\n' || character == '\r'

def isWordChar (character : Char) : Bool :=
  Text.isLetterOrDigit character || character == '-' || character == '+' || character == '.'

inductive Piece
  | char (character : Char)
  | unit (value : Nat)

def unescape? : Char → Option Char
  | '"' => some '"'
  | '\\' => some '\\'
  | '/' => some '/'
  | 'b' => some '\x08'
  | 'f' => some '\x0c'
  | 'n' => some '\n'
  | 'r' => some '\r'
  | 't' => some '\t'
  | _ => none

def readPieces? : List Char → Option (List Piece × List Char)
  | [] => none
  | '"' :: rest => some ([], rest)
  | '\\' :: 'u' :: a :: b :: c :: d :: rest => do
      let value ← Text.hexValue? [a, b, c, d]
      let (pieces, rest) ← readPieces? rest
      return (.unit value :: pieces, rest)
  | '\\' :: letter :: rest => do
      let character ← unescape? letter
      let (pieces, rest) ← readPieces? rest
      return (.char character :: pieces, rest)
  | character :: rest =>
      if character.toNat < 0x20 then none
      else do
        let (pieces, rest) ← readPieces? rest
        return (.char character :: pieces, rest)

def isHighSurrogate (value : Nat) : Bool := 0xD800 ≤ value && value < 0xDC00

def isLowSurrogate (value : Nat) : Bool := 0xDC00 ≤ value && value < 0xE000

def joinPieces? : List Piece → Option (List Char)
  | [] => some []
  | .char character :: pieces => (joinPieces? pieces).map (character :: ·)
  | .unit high :: .unit low :: pieces =>
      if isHighSurrogate high && isLowSurrogate low then
        (joinPieces? pieces).map
          (Char.ofNat (0x10000 + (high - 0xD800) * 0x400 + (low - 0xDC00)) :: ·)
      else if isHighSurrogate high || isLowSurrogate high then none
      else (joinPieces? (.unit low :: pieces)).map (Char.ofNat high :: ·)
  | .unit value :: pieces =>
      if isHighSurrogate value || isLowSurrogate value then none
      else (joinPieces? pieces).map (Char.ofNat value :: ·)

theorem length_readPieces? {text rest : List Char} {pieces : List Piece}
    (found : readPieces? text = some (pieces, rest)) : rest.length < text.length := by
  fun_induction readPieces? text generalizing pieces with
  | case1 => simp at found
  | case2 rest =>
      simp only [Option.some.injEq, Prod.mk.injEq] at found
      simp [found.2]
  | case3 a b c d tail ih =>
      simp only [Option.bind_eq_bind, Option.pure_def, Option.bind_eq_some_iff, Option.some.injEq,
        Prod.mk.injEq, Prod.exists] at found
      obtain ⟨_, _, _, _, inner, _, rfl⟩ := found
      have shorter := ih inner
      simp only [List.length_cons]
      omega
  | case4 letter tail _ ih =>
      simp only [Option.bind_eq_bind, Option.pure_def, Option.bind_eq_some_iff, Option.some.injEq,
        Prod.mk.injEq, Prod.exists] at found
      obtain ⟨_, _, _, _, inner, _, rfl⟩ := found
      have shorter := ih inner
      simp only [List.length_cons]
      omega
  | case5 => simp at found
  | case6 character tail _ _ _ _ ih =>
      simp only [Option.bind_eq_bind, Option.pure_def, Option.bind_eq_some_iff, Option.some.injEq,
        Prod.mk.injEq, Prod.exists] at found
      obtain ⟨_, _, inner, _, rfl⟩ := found
      have shorter := ih inner
      simp only [List.length_cons]
      omega

def punctuation? : Char → Option Token
  | '[' => some .listStart
  | ']' => some .listEnd
  | '\x7b' => some .recordStart
  | '\x7d' => some .recordEnd
  | ',' => some .comma
  | ':' => some .colon
  | _ => none

def tokens? (text : List Char) : Option (List Token) :=
  match text with
  | [] => some []
  | character :: rest =>
      if isBlank character then tokens? rest
      else match punctuation? character with
        | some token => (tokens? rest).map (token :: ·)
        | none =>
            if character = '"' then
              match found : readPieces? rest with
              | none => none
              | some (pieces, rest) =>
                  have := length_readPieces? found
                  (tokens? rest).map (.string ((joinPieces? pieces).map String.ofList) :: ·)
            else if isWordChar character then
              (tokens? (rest.dropWhile isWordChar)).map
                (.word (character :: rest.takeWhile isWordChar) :: ·)
            else none
termination_by text.length
decreasing_by
  all_goals simp only [List.length_cons]
  · omega
  · omega
  · omega
  · have := (List.dropWhile_sublist isWordChar (l := rest)).length_le
    omega

end ContingentPlan.Json
