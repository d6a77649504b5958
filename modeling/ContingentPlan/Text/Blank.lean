/-!
Blank characters, and how a line is trimmed and cut into words at them.
-/

namespace ContingentPlan.Text

/-- The characters of the Unicode property White_Space, as closed ranges of code points. -/
def blankRanges : List (Nat × Nat) :=
  [(0x09, 0x0D), (0x20, 0x20), (0x85, 0x85), (0xA0, 0xA0), (0x1680, 0x1680), (0x2000, 0x200A),
   (0x2028, 0x2029), (0x202F, 0x202F), (0x205F, 0x205F), (0x3000, 0x3000)]

def inRanges (ranges : List (Nat × Nat)) (point : Nat) : Bool :=
  ranges.any fun range => range.1 ≤ point && point ≤ range.2

def isBlank (character : Char) : Bool := inRanges blankRanges character.toNat

def trimChars (text : List Char) : List Char :=
  ((text.dropWhile isBlank).reverse.dropWhile isBlank).reverse

def trim (text : String) : String := String.ofList (trimChars text.toList)

def wordsFrom (current : List Char) : List Char → List (List Char)
  | [] => if current.isEmpty then [] else [current.reverse]
  | character :: rest =>
      if isBlank character then
        if current.isEmpty then wordsFrom [] rest
        else current.reverse :: wordsFrom [] rest
      else wordsFrom (character :: current) rest

def words (text : String) : List String := (wordsFrom [] text.toList).map String.ofList

end ContingentPlan.Text
