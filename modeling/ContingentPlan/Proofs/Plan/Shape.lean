import ContingentPlan.Proofs.Plan.Gating

/-!
How many continuations are live, and which lines are events, is settled by the tokens of a block
alone. So the gating of an action can be told from the lines before it without building a graph.
-/

namespace ContingentPlan

/-- The number of live continuations, and whether the next line may branch or merge them. -/
structure Shape where
  live : Nat := 0
  branching : Bool := false
  merging : Bool := false
deriving DecidableEq

namespace Shape

def after (shape : Shape) : Option Token → Shape
  | none => shape
  | some .ramificate =>
      if shape.branching then { shape with live := if shape.live = 0 then 0 else shape.live + 1 }
      else { shape with branching := true }
  | some .shed => { shape with branching := false, merging := true }
  | some .pop => if 2 ≤ shape.live then { shape with branching := false } else shape
  | some .assume => { shape with branching := false }
  | some (.action _) =>
      { live := shape.live - (if shape.merging then 2 else 1) + 1, branching := true }

def event? (shape : Shape) : Option Token → Option Event
  | some (.action signature) => some (.action signature.observedFact?)
  | some .shed => some .shed
  | some .pop => if 2 ≤ shape.live then some .turn else none
  | _ => none

def eventsFrom (shape : Shape) (past : List Event) : List TraceLine → List Event
  | [] => past
  | line :: lines =>
      eventsFrom (shape.after line.token?) ((shape.event? line.token?).toList ++ past) lines

end Shape

def events (lines : List TraceLine) : List Event := Shape.eventsFrom {} [] lines

def gatingBehind (lines : List TraceLine) : Reading.Gating := gatingAfter (events lines)

namespace Reading

variable {domain : Domain} {reading after : Reading} {line : TraceLine}

def shape (reading : Reading) : Shape where
  live := reading.continuations.length
  branching := reading.branching
  merging := reading.merging

theorem event?_eq (reading : Reading) (line : TraceLine) :
    reading.event? line = reading.shape.event? line.token? := by
  unfold event? Shape.event?
  rfl

theorem shape_ramificate (reading : Reading) (number : Nat) :
    (reading.ramificate number).shape = reading.shape.after (some .ramificate) := by
  unfold ramificate Shape.after
  change _ = if reading.branching then _ else _
  split
  · cases stack : reading.continuations <;> simp [shape, warn, stack]
  · rfl

theorem shape_pop (reading : Reading) (number : Nat) (token : String) :
    (reading.pop number token).shape = reading.shape.after (some .pop) := by
  match stack : reading.continuations with
  | [] => simp [pop, Shape.after, shape, warn, stack]
  | [_] => simp [pop, Shape.after, shape, warn, stack]
  | top :: below :: rest => simp [pop, Shape.after, shape, stack]

theorem Stepped.shape (stepped : Stepped domain line reading after) :
    after.shape = reading.shape.after line.token? := by
  cases stepped with
  | malformed token => rw [token]; rfl
  | ramificate token => rw [token, shape_ramificate]
  | shed token => rw [token]; rfl
  | pop token => rw [token, shape_pop]
  | assume token => rw [token]; rfl
  | action token acted =>
      rw [token, acted.after_eq, Reading.shape, Shape.after, List.length_cons, List.length_drop]
      rfl

theorem remember_eq_eventsFrom {lines : List TraceLine} (past : List Event)
    (run : lines.foldlM (step domain) reading = .ok after) :
    reading.remember domain past lines = reading.shape.eventsFrom past lines := by
  induction lines generalizing past reading with
  | nil => rfl
  | cons line lines ih =>
      rw [List.foldlM_cons, except_bind_eq_ok] at run
      obtain ⟨middle, step, rest⟩ := run
      rw [remember, step, Shape.eventsFrom, ← (stepped_of_step step).shape, ← event?_eq]
      exact ih _ rest

/-- In front of a line that is reached, the gating is the one that the lines before it tell. -/
theorem gating_of_foldlM {freeId : Nat} {lines : List TraceLine}
    (run : lines.foldlM (step domain) { nextId := freeId } = .ok reading) :
    reading.gating = gatingBehind lines := by
  rw [gatingBehind, events, ((Governed.start freeId).foldlM run).gating, remember_eq_eventsFrom [] run]
  rfl

end Reading

end ContingentPlan
