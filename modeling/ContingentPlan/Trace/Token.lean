import ContingentPlan.Text.Blank
import ContingentPlan.Text.Opening

/-!
What one line of a plan trace asks for: an action, or a move between the branches of the plan. The
token of a line is the trimmed text behind its first colon.
-/

namespace ContingentPlan

structure Signature where
  operator : String
  arguments : List String
deriving DecidableEq, Repr

namespace Signature

def ofText? (text : String) : Option Signature :=
  match Text.words text with
  | [] => none
  | operator :: arguments => some { operator, arguments }

def text (signature : Signature) : String :=
  " ".intercalate (signature.operator :: signature.arguments)

def observedFact? (signature : Signature) : Option String :=
  (Text.afterOpening? "observe-" signature.text).filter (· ≠ "")

end Signature

inductive Token
  | ramificate
  | shed
  | pop
  | assume
  | action (signature : Signature)
deriving DecidableEq, Repr

namespace Token

def ofText? (text : String) : Option Token :=
  if text = "ramificate" then some .ramificate
  else if Text.opensWith "shed" text then some .shed
  else if Text.opensWith "pop" text then some .pop
  else if Text.opensWith "assume" text then some .assume
  else (Signature.ofText? text).map .action

end Token

def tokenText? (line : String) : Option String :=
  match line.toList.dropWhile (· ≠ ':') with
  | [] => none
  | _ :: rest =>
      let token := Text.trim (String.ofList rest)
      if token = "" then none else some token

end ContingentPlan
