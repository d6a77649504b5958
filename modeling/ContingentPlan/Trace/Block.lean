import ContingentPlan.Text.Lines
import ContingentPlan.Text.Lowercase
import ContingentPlan.Text.Opening

/-!
The plan block of a planner trace: the lines after the one that announces a legal plan, up to the
line that gives the time spent, without blank ones, trimmed and in lower case.
-/

namespace ContingentPlan

/-- A line of the plan block with its number in the whole trace, counted from one. -/
structure TraceLine where
  number : Nat
  text : String
deriving DecidableEq, Repr

def planAnnouncement : String := "ff: found legal plan as follows"

def blockEnd : String := "time spent"

/-- The announcement is recognised in any mix of ASCII capitals and small letters. -/
def announcesPlan (line : String) : Bool :=
  (Text.trim line).toList.map Char.toLower == planAnnouncement.toList

def normalLine (line : String) : String := Text.lowercase (Text.trim line)

def planBlock? (trace : String) : Option (List TraceLine) :=
  match ((Text.lines trace).zipIdx 1).dropWhile (fun line => !announcesPlan line.1) with
  | [] => none
  | _ :: rest =>
      let block := rest.map fun line => { number := line.2, text := normalLine line.1 : TraceLine }
      some ((block.takeWhile fun line => !Text.opensWith blockEnd line.text).filter (·.text ≠ ""))

end ContingentPlan
