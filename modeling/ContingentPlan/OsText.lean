/-!
Texts of the operating system, such as paths and the words of a command line. They are bytes, as a rule
those of a text in UTF-8.
-/

namespace ContingentPlan

@[ext]
structure OsText where
  bytes : List UInt8
deriving DecidableEq, Repr

namespace OsText

def ofText (text : String) : OsText where
  bytes := text.toUTF8.data.toList

instance : Coe String OsText := ⟨ofText⟩

def text? (name : OsText) : Option String := String.fromUTF8? ⟨name.bytes.toArray⟩

/-- A character that is not complete yet: the bits so far, and the ranges of the bytes to come. -/
structure Pending where
  bits : Nat := 0
  ranges : List (Nat × Nat) := []

def following (byte : Nat) : List (Nat × Nat) :=
  let other := (0x80, 0xBF)
  if byte < 0xC2 then []
  else if byte < 0xE0 then [other]
  else if byte < 0xF0 then
    [if byte = 0xE0 then (0xA0, 0xBF) else if byte = 0xED then (0x80, 0x9F) else other, other]
  else if byte < 0xF5 then
    [if byte = 0xF0 then (0x90, 0xBF) else if byte = 0xF4 then (0x80, 0x8F) else other, other, other]
  else []

def startWith (byte : Nat) : List Char × Pending :=
  if byte < 0x80 then ([Char.ofNat byte], {})
  else match following byte with
    | [] => (['\uFFFD'], {})
    | ranges => ([], { bits := byte % Nat.pow 2 (6 - ranges.length), ranges })

def Pending.goOn (pending : Pending) (byte : Nat) : List Char × Pending :=
  match pending.ranges with
  | [] => startWith byte
  | (low, high) :: ranges =>
      if low ≤ byte ∧ byte ≤ high then
        let bits := 64 * pending.bits + byte % 64
        if ranges.isEmpty then ([Char.ofNat bits], {}) else ([], { bits, ranges })
      else
        let (characters, next) := startWith byte
        ('\uFFFD' :: characters, next)

def Pending.decode (pending : Pending) : List UInt8 → List Char
  | [] => if pending.ranges.isEmpty then [] else ['\uFFFD']
  | byte :: bytes =>
      let (characters, next) := pending.goOn byte.toNat
      characters ++ next.decode bytes

/-- The text with a replacement character for each part that is no UTF-8. -/
def lossy (name : OsText) : String :=
  name.text?.getD (String.ofList (Pending.decode {} name.bytes))

instance : ToString OsText := ⟨lossy⟩

end OsText

end ContingentPlan
