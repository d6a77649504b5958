/-!
The lines of a text. A line ends at a line feed; a carriage return right before that line feed
belongs to the line end, any other one to the line.
-/

namespace ContingentPlan.Text

def dropReturn : List Char → List Char
  | '\r' :: rest => rest
  | line => line

def linesFrom (current : List Char) : List Char → List (List Char)
  | [] => if current.isEmpty then [] else [current.reverse]
  | character :: rest =>
      if character = '\n' then (dropReturn current).reverse :: linesFrom [] rest
      else linesFrom (character :: current) rest

/-- The lines of a text; what follows the last line feed is a line only if it is not empty. -/
def lines (text : String) : List String := (linesFrom [] text.toList).map String.ofList

end ContingentPlan.Text
