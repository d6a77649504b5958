/-!
The first name of a sequence of candidates that is admissible. The search looks at a given number
of candidates and answers the next one unseen; when fewer than that many candidates can be refused,
the answer is admissible.
-/

namespace ContingentPlan

def firstAdmissible (admissible : String → Bool) (candidate : Nat → String) :
    (bound start : Nat) → String
  | 0, start => candidate start
  | bound + 1, start =>
      if admissible (candidate start) then candidate start
      else firstAdmissible admissible candidate bound (start + 1)

end ContingentPlan
