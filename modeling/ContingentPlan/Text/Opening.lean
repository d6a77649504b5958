/-!
Texts that open with a given text.
-/

namespace ContingentPlan.Text

def dropOpening : List Char → List Char → Option (List Char)
  | [], text => some text
  | _ :: _, [] => none
  | expected :: opening, character :: text =>
      if character = expected then dropOpening opening text else none

def afterOpening? (opening text : String) : Option String :=
  (dropOpening opening.toList text.toList).map String.ofList

def opensWith (opening text : String) : Bool := (afterOpening? opening text).isSome

end ContingentPlan.Text
