import ContingentPlan.Proofs.Controller.Signals
import Mathlib.Data.Finset.Card

/-!
The searches for an edge name and for a signal as loops without a bound. A loop holds a candidate and a
counter, and as long as the candidate is refused it makes the next one. Both loops end, and they end at
the name that the bounded search answers.
-/

namespace ContingentPlan

structure Probe where
  candidate : String
  counter : Nat
deriving DecidableEq, Repr

structure Search where
  start : Probe
  refuses : String → Bool
  next : Probe → Probe

namespace Search

/-- From `probe` on the loop looks at `count` candidates, refuses all but the last and ends there. -/
inductive Runs (search : Search) : (probe : Probe) → (count : Nat) → (last : Probe) → Prop
  | stop {probe : Probe} : search.refuses probe.candidate = false → Runs search probe 1 probe
  | again {probe last : Probe} {count : Nat} : search.refuses probe.candidate = true →
      Runs search (search.next probe) count last → Runs search probe (count + 1) last

theorem runs_iff {search : Search} {probes : Nat → Probe}
    (advances : ∀ number, search.next (probes number) = probes (number + 1)) {start distance : Nat}
    (refused : ∀ number, start ≤ number → number < start + distance →
      search.refuses (probes number).candidate = true)
    (accepted : search.refuses (probes (start + distance)).candidate = false) {count : Nat}
    {last : Probe} :
    search.Runs (probes start) count last ↔
      count = distance + 1 ∧ last = probes (start + distance) := by
  induction distance generalizing start count with
  | zero =>
      constructor
      · intro run
        cases run with
        | stop => exact ⟨rfl, rfl⟩
        | again goesOn =>
            rw [Nat.add_zero, goesOn] at accepted
            cases accepted
      · rintro ⟨rfl, rfl⟩
        exact .stop accepted
  | succ distance ih =>
      have goesOn := refused start (by omega) (by omega)
      have shifted : start + (distance + 1) = start + 1 + distance := by omega
      rw [shifted] at refused accepted ⊢
      have later (count : Nat) : search.Runs (search.next (probes start)) count last ↔
          count = distance + 1 ∧ last = probes (start + 1 + distance) := by
        rw [advances]
        exact ih (fun number lower upper => refused number (by omega) upper) accepted
      constructor
      · intro run
        cases run with
        | stop free =>
            rw [goesOn] at free
            cases free
        | again _ rest =>
            obtain ⟨rfl, same⟩ := (later _).mp rest
            exact ⟨rfl, same⟩
      · rintro ⟨rfl, same⟩
        exact .again goesOn ((later _).mpr ⟨rfl, same⟩)

/-- The loop ends after at most one probe more than `limit`, and it ends with the first free name of the
candidates, which is `answer`. -/
structure EndsAtFirst (search : Search) (candidate : Nat → String) (free : String → Prop)
    (limit : Nat) (answer : String) : Prop where
  ends : ∃ count last, search.Runs search.start count last
  within : ∀ count last, search.Runs search.start count last → count ≤ limit + 1
  answers : ∀ count last, search.Runs search.start count last → last.candidate = answer
  accepted : free answer
  first : ∃ attempt, answer = candidate attempt ∧ ∀ earlier < attempt, ¬ free (candidate earlier)

theorem Runs.counter_add {search : Search} {probe last : Probe} {count : Nat}
    (run : search.Runs probe count last)
    (counts : ∀ probe, (search.next probe).counter = probe.counter + 1) :
    last.counter + 1 = probe.counter + count := by
  induction run with
  | stop => rfl
  | again _ _ ih =>
      rw [ih, counts]
      omega

theorem EndsAtFirst.counter_le {search : Search} {candidate : Nat → String} {free : String → Prop}
    {limit count : Nat} {answer : String} {last : Probe}
    (ends : search.EndsAtFirst candidate free limit answer)
    (counts : ∀ probe, (search.next probe).counter = probe.counter + 1)
    (run : search.Runs search.start count last) : last.counter ≤ search.start.counter + limit := by
  have within := ends.within _ _ run
  have counted := run.counter_add counts
  omega

theorem endsAtFirst {search : Search} {candidate : Nat → String} {free : String → Prop}
    {limit attempt : Nat} {answer : String}
    (start : search.start.candidate = candidate 0)
    (advances : ∀ number, search.next ⟨candidate number, search.start.counter + number⟩ =
      ⟨candidate (number + 1), search.start.counter + (number + 1)⟩)
    (refuses_iff : ∀ name, search.refuses name = true ↔ ¬ free name)
    (few : attempt ≤ limit) (named : answer = candidate attempt) (accepted : free answer)
    (refused : ∀ earlier < attempt, ¬ free (candidate earlier)) :
    search.EndsAtFirst candidate free limit answer := by
  let probes (number : Nat) : Probe := ⟨candidate number, search.start.counter + number⟩
  have origin : search.start = probes 0 := by
    rw [show probes 0 = ⟨candidate 0, search.start.counter + 0⟩ from rfl, ← start, Nat.add_zero]
  have runs (count : Nat) (last : Probe) : search.Runs search.start count last ↔
      count = attempt + 1 ∧ last = probes (0 + attempt) := by
    rw [origin]
    apply Search.runs_iff advances
    · intro number _ below
      exact (refuses_iff _).mpr (refused number (by omega))
    · rw [Nat.zero_add, Bool.eq_false_iff, Ne, refuses_iff, not_not, ← named]
      exact accepted
  constructor
  · exact ⟨_, _, (runs _ _).mpr ⟨rfl, rfl⟩⟩
  · intro count last run
    rw [((runs count last).mp run).1]
    omega
  · intro count last run
    rw [((runs count last).mp run).2, Nat.zero_add, named]
  · exact accepted
  · exact ⟨attempt, named, refused⟩

end Search

namespace PlanGraph

/-- Unregistered, or held by an edge of the kind itself. -/
def FreeFor (graph : PlanGraph) (kind : EdgeKind) (name : String) : Prop :=
  ∀ edge, graph.edge? name = some edge → edge.kind = kind

def heldByOther (graph : PlanGraph) (kind : EdgeKind) (name : String) : Bool :=
  match graph.edge? name with
  | none => false
  | some edge => edge.kind != kind

def nameSearch (graph : PlanGraph) (name : String) (kind : EdgeKind) : Search where
  start := { candidate := name, counter := 0 }
  refuses := graph.heldByOther kind
  next probe :=
    { candidate :=
        match probe.counter with
        | 0 => s!"{name}-{kindSuffix kind}"
        | number => s!"{name}-{kindSuffix kind}-{number}"
      counter := probe.counter + 1 }

theorem admits_iff {graph : PlanGraph} {kind : EdgeKind} {name : String} :
    graph.admits kind name = true ↔ graph.FreeFor kind name := by
  unfold admits FreeFor
  cases graph.edge? name <;> simp

theorem heldByOther_iff {graph : PlanGraph} {kind : EdgeKind} {name : String} :
    graph.heldByOther kind name = true ↔ ¬ graph.FreeFor kind name := by
  unfold heldByOther FreeFor
  cases graph.edge? name <;> simp

theorem nameFor_endsAtFirst (graph : PlanGraph) (name : String) (kind : EdgeKind) :
    (graph.nameSearch name kind).EndsAtFirst (nameCandidate name kind) (graph.FreeFor kind)
      graph.edges.size (graph.nameFor name kind) := by
  obtain ⟨attempt, few, answer, admitted, refused⟩ := graph.nameFor_spec name kind
  have advances (number : Nat) :
      (graph.nameSearch name kind).next ⟨nameCandidate name kind number, 0 + number⟩ =
        ⟨nameCandidate name kind (number + 1), 0 + (number + 1)⟩ := by
    rw [Nat.zero_add, Nat.zero_add]
    cases number <;> rfl
  apply Search.endsAtFirst rfl advances (fun _ => heldByOther_iff) few answer
  · rw [answer]
    exact admits_iff.mp admitted
  · intro earlier below free
    rw [← admits_iff, refused earlier below] at free
    cases free

/-- The counter fits a signed word of 32 bits, if the number of edges does. -/
theorem counter_lt_of_nameSearch {graph : PlanGraph} {name : String} {kind : EdgeKind} {count : Nat}
    {last : Probe} (few : graph.edges.size < Nat.pow 2 31)
    (run : (graph.nameSearch name kind).Runs (graph.nameSearch name kind).start count last) :
    last.counter < Nat.pow 2 31 := by
  have counter := (graph.nameFor_endsAtFirst name kind).counter_le (fun _ => rfl) run
  rw [show (graph.nameSearch name kind).start.counter = 0 from rfl, Nat.zero_add] at counter
  exact Nat.lt_of_le_of_lt counter few

end PlanGraph

def signalSearch (used : List String) (base : String) : Search where
  start := { candidate := base, counter := 1 }
  refuses := used.contains
  next probe := { candidate := s!"{base}_{probe.counter}", counter := probe.counter + 1 }

theorem freshSignal_endsAtFirst (used : List String) (base : String) :
    (signalSearch used base).EndsAtFirst (signalCandidate base) (· ∉ used) used.toFinset.card
      (freshSignal used base) := by
  obtain ⟨attempt, answer, unused, refused⟩ := freshSignal_spec used base
  have few : attempt ≤ used.toFinset.card := by
    rw [List.card_toFinset]
    apply attempts_le_length (signalCandidate_injective base)
    exact fun earlier below => List.mem_dedup.mpr (refused earlier below)
  have advances (number : Nat) :
      (signalSearch used base).next ⟨signalCandidate base number, 1 + number⟩ =
        ⟨signalCandidate base (number + 1), 1 + (number + 1)⟩ := by
    rw [Nat.add_comm 1, Nat.add_comm 1]
    rfl
  have refuses_iff (name : String) : (signalSearch used base).refuses name = true ↔ ¬ name ∉ used := by
    rw [not_not]
    exact List.contains_iff_mem
  apply Search.endsAtFirst rfl advances refuses_iff few answer
  · rw [answer]
    exact unused
  · intro earlier below free
    exact free (refused earlier below)

/-- The counter fits a signed word of 32 bits, if the number of used names does with one more. -/
theorem counter_lt_of_signalSearch {used : List String} {base : String} {count : Nat} {last : Probe}
    (few : used.toFinset.card + 1 < Nat.pow 2 31)
    (run : (signalSearch used base).Runs (signalSearch used base).start count last) :
    last.counter < Nat.pow 2 31 := by
  have counter := (freshSignal_endsAtFirst used base).counter_le (fun _ => rfl) run
  rw [show (signalSearch used base).start.counter = 1 from rfl, Nat.add_comm] at counter
  exact Nat.lt_of_le_of_lt counter few

theorem first_free_names_found :
    (∀ (graph : PlanGraph) (name : String) (kind : EdgeKind),
      (graph.nameSearch name kind).EndsAtFirst (PlanGraph.nameCandidate name kind)
        (graph.FreeFor kind) graph.edges.size (graph.nameFor name kind)) ∧
    ∀ (used : List String) (base : String),
      (signalSearch used base).EndsAtFirst (signalCandidate base) (· ∉ used) used.toFinset.card
        (freshSignal used base) :=
  ⟨PlanGraph.nameFor_endsAtFirst, freshSignal_endsAtFirst⟩

end ContingentPlan
