/-!
Identifiers made from arbitrary text: ASCII letters and digits stay, every run of other characters
becomes one underscore, none stands at an end, and the first character is a letter.
-/

namespace ContingentPlan.Text

def isLetter (character : Char) : Bool :=
  ('a' ≤ character && character ≤ 'z') || ('A' ≤ character && character ≤ 'Z')

def isDigit (character : Char) : Bool := '0' ≤ character && character ≤ '9'

def isLetterOrDigit (character : Char) : Bool := isLetter character || isDigit character

/-- Replaces each run of other characters by one underscore; `afterUnderscore` says that the
character before was one. -/
def underscoreRuns (afterUnderscore : Bool) : List Char → List Char
  | [] => []
  | character :: rest =>
      if isLetterOrDigit character then character :: underscoreRuns false rest
      else if afterUnderscore then underscoreRuns true rest
      else '_' :: underscoreRuns true rest

def trimUnderscores (text : List Char) : List Char :=
  ((text.dropWhile (· == '_')).reverse.dropWhile (· == '_')).reverse

def startWithLetter : List Char → List Char
  | [] => ['s', '_']
  | character :: rest =>
      if isLetter character then character :: rest else 's' :: '_' :: character :: rest

def identifierChars (text : List Char) : List Char :=
  startWithLetter (trimUnderscores (underscoreRuns false text))

def identifier (text : String) : String := String.ofList (identifierChars text.toList)

end ContingentPlan.Text
