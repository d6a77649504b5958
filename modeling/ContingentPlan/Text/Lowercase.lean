import ContingentPlan.Text.Blank
import ContingentPlan.Text.LetterCase

/-!
The lower case of a text. Each character is mapped on its own, with two exceptions: the dotted
capital I becomes two characters, and a capital sigma at the end of a word takes its final form.
-/

namespace ContingentPlan.Text

def isCased (character : Char) : Bool := inRanges casedRanges character.toNat

def isCaseIgnorable (character : Char) : Bool := inRanges caseIgnorableRanges character.toNat

def CaseRun.contains (run : CaseRun) (point : Nat) : Bool :=
  run.first ≤ point && point ≤ run.last && (point - run.first) % run.stride == 0

def lowercaseChar (character : Char) : List Char :=
  if character.toNat < 0x80 then [character.toLower]
  else if character = '\u0130' then ['i', '\u0307']
  else match caseRuns.find? (·.contains character.toNat) with
    | some run => [Char.ofNat ((character.toNat : Int) + run.shift).toNat]
    | none => [character]

def meetsCased (text : List Char) : Bool :=
  match text.dropWhile isCaseIgnorable with
  | [] => false
  | character :: _ => isCased character

/-- A capital sigma is final when a letter stands before it and none behind it. -/
def lowercaseSigma (before after : List Char) : Char :=
  if meetsCased before && !meetsCased after then 'ς' else 'σ'

def lowercaseFrom (before : List Char) : List Char → List Char
  | [] => []
  | character :: rest =>
      (if character = 'Σ' then [lowercaseSigma before rest] else lowercaseChar character)
        ++ lowercaseFrom (character :: before) rest

def lowercase (text : String) : String := String.ofList (lowercaseFrom [] text.toList)

end ContingentPlan.Text
