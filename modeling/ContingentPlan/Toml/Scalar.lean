import ContingentPlan.Document.Basic
import ContingentPlan.Text.Digits
import ContingentPlan.Text.Identifier
import ContingentPlan.Toml.Text

/-!
The values of TOML that are written as words: truth values, integers of 64 bits with a sign, floats,
dates and times. Of the last three only the form is checked, for nothing here uses them.
-/

namespace ContingentPlan.Toml

/-- Digits of which neighbours may have an underscore between them; the digits without it. -/
def groupedDigits? (isDigit : Char → Bool) : List Char → Option (List Char)
  | [] => none
  | [digit] => if isDigit digit then some [digit] else none
  | digit :: '_' :: rest =>
      if isDigit digit then (groupedDigits? isDigit rest).map (digit :: ·) else none
  | digit :: rest =>
      if isDigit digit then (groupedDigits? isDigit rest).map (digit :: ·) else none

def isOctal (digit : Char) : Bool := '0' ≤ digit && digit ≤ '7'

def isBinary (digit : Char) : Bool := digit == '0' || digit == '1'

def wholeDigits? (word : List Char) : Option (List Char) :=
  match groupedDigits? Text.isDigit word with
  | some ('0' :: _ :: _) => none
  | digits => digits

def cutSign : List Char → Bool × List Char
  | '+' :: word => (false, word)
  | '-' :: word => (true, word)
  | word => (false, word)

def magnitude? : List Char → Option Nat
  | '0' :: 'x' :: word =>
      (groupedDigits? (fun digit => (Text.hexDigit? digit).isSome) word).map (Text.valueInBase 16)
  | '0' :: 'o' :: word => (groupedDigits? isOctal word).map (Text.valueInBase 8)
  | '0' :: 'b' :: word => (groupedDigits? isBinary word).map (Text.valueInBase 2)
  | word => (wholeDigits? word).map (Text.valueInBase 10)

def integer? (word : List Char) : Option Int := do
  let (negative, digits) := cutSign word
  let magnitude ← if digits.length < word.length then
    (wholeDigits? digits).map (Text.valueInBase 10) else magnitude? word
  let value : Int := if negative then -magnitude else magnitude
  if -Int.pow 2 63 ≤ value ∧ value < Int.pow 2 63 then return value else none

/-- Whether a decimal, made of digits and a power of ten, lies beyond all doubles. -/
def isBeyondDoubles (digits : Nat) (exponent : Int) : Bool :=
  let size : Int := (toString digits).length + exponent
  if digits = 0 ∨ size < 300 then false
  else if 400 < size then true
  else (Nat.pow 2 1024 - Nat.pow 2 970) * Nat.pow 10 (-exponent).toNat ≤
    digits * Nat.pow 10 exponent.toNat

def isExponentMark (character : Char) : Bool := character == 'e' || character == 'E'

def isFloat (word : List Char) : Bool :=
  let (negative, rest) := cutSign word
  rest = "inf".toList || rest = "nan".toList ||
    (let (mantissa, scale) := rest.span (!isExponentMark ·)
    let (whole, fraction) := mantissa.span (· ≠ '.')
    let places? : Option (List Char) := match fraction with
      | [] => some []
      | _ :: digits => groupedDigits? Text.isDigit digits
    let exponent? : Option Int := match scale with
      | [] => some 0
      | _ :: word =>
          let (negative, digits) := cutSign word
          (groupedDigits? Text.isDigit digits).map fun digits =>
            if negative then -(Text.valueInBase 10 digits : Int) else Text.valueInBase 10 digits
    match wholeDigits? whole, places?, exponent? with
    | some whole, some places, some exponent =>
        !(fraction.isEmpty && scale.isEmpty) &&
          (negative || !isBeyondDoubles (Text.valueInBase 10 (whole ++ places)) (exponent - places.length))
    | _, _, _ => false)

def fixedNumber? (count : Nat) (word : List Char) : Option Nat :=
  if word.length = count ∧ word.all Text.isDigit then some (Text.valueInBase 10 word) else none

def isLeapYear (year : Nat) : Bool := year % 4 == 0 && (year % 100 != 0 || year % 400 == 0)

def daysInMonth (year month : Nat) : Nat :=
  if month = 2 then (if isLeapYear year then 29 else 28)
  else if month ∈ [4, 6, 9, 11] then 30
  else 31

def isDate : List Char → Bool
  | [a, b, c, d, '-', e, f, '-', g, h] =>
      match fixedNumber? 4 [a, b, c, d], fixedNumber? 2 [e, f], fixedNumber? 2 [g, h] with
      | some year, some month, some day =>
          1 ≤ month && month ≤ 12 && 1 ≤ day && day ≤ daysInMonth year month
      | _, _, _ => false
  | _ => false

def isBelow (bound : Nat) (word : List Char) : Bool :=
  match fixedNumber? 2 word with
  | some value => value < bound
  | none => false

def isTime : List Char → Bool
  | a :: b :: ':' :: c :: d :: ':' :: e :: f :: fraction =>
      isBelow 24 [a, b] && isBelow 60 [c, d] && isBelow 61 [e, f] &&
        match fraction with
        | [] => true
        | '.' :: digits => !digits.isEmpty && digits.all Text.isDigit
        | _ => false
  | _ => false

def isOffset : List Char → Bool
  | [] => true
  | ['Z'] => true
  | ['z'] => true
  | [sign, a, b, ':', c, d] =>
      (sign == '+' || sign == '-') && isBelow 24 [a, b] && isBelow 60 [c, d]
  | _ => false

def isTimeOfDate (word : List Char) : Bool :=
  let (time, offset) := word.span fun character => character == '.' || character == ':' || Text.isDigit character
  isTime time && isOffset offset

def isMoment (word : List Char) : Bool :=
  isTime word || isDate word ||
    (isDate (word.take 10) &&
      match word.drop 10 with
      | delimiter :: time => (delimiter == 'T' || delimiter == 't') && isTimeOfDate time
      | [] => false)

def isWordChar (character : Char) : Bool :=
  Text.isLetterOrDigit character || character == '_' || character == '+' || character == '-'
    || character == '.' || character == ':'

def scalarOfWord? (word : List Char) : Option Document :=
  if word = "true".toList then some (.boolean true)
  else if word = "false".toList then some (.boolean false)
  else match integer? word with
    | some value => some (.integer value)
    | none => if isFloat word || isMoment word then some .unusable else none

def readScalar? (text : List Char) : Option (Document × List Char) :=
  let (word, rest) := text.span isWordChar
  match isDate word, rest with
  | true, ' ' :: digit :: more =>
      if Text.isDigit digit then
        let (time, rest) := (digit :: more).span isWordChar
        if isTimeOfDate time then some (.unusable, rest) else none
      else some (.unusable, rest)
  | _, _ => (scalarOfWord? word).map fun value => (value, rest)

end ContingentPlan.Toml
