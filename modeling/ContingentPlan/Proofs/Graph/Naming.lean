import ContingentPlan.Proofs.Catalog
import ContingentPlan.Proofs.FreshName
import ContingentPlan.Reading

/-!
The names that a graph gives to its edges. A request is answered by its first candidate that no edge
of the other kind holds. Candidates for the completion edges of two nodes never coincide, and none of
them is the name of an observation outcome.
-/

namespace ContingentPlan

@[simp] theorem toString_string (text : String) : toString text = text := rfl

theorem toDigits_injective {first second : Nat}
    (same : Nat.toDigits 10 first = Nat.toDigits 10 second) : first = second := by
  have values := congrArg (fun digits => Nat.ofDigitChars 10 digits 0) same
  simpa using values

namespace PlanGraph

def suffixChars (kind : EdgeKind) : Nat → List Char
  | 0 => []
  | 1 => '-' :: (kindSuffix kind).toList
  | attempt + 2 => '-' :: ((kindSuffix kind).toList ++ '-' :: Nat.toDigits 10 (attempt + 1))

theorem toList_nameCandidate (name : String) (kind : EdgeKind) (attempt : Nat) :
    (nameCandidate name kind attempt).toList = name.toList ++ suffixChars kind attempt := by
  match attempt with
  | 0 => simp [nameCandidate, suffixChars]
  | 1 => simp [nameCandidate, suffixChars]
  | attempt + 2 => simp [nameCandidate, suffixChars]

theorem suffixChars_injective (kind : EdgeKind) (first second : Nat)
    (same : suffixChars kind first = suffixChars kind second) : first = second := by
  match first, second with
  | 0, 0 => rfl
  | 1, 1 => rfl
  | 0, 1 => simp [suffixChars] at same
  | 1, 0 => simp [suffixChars] at same
  | 0, _ + 2 => simp [suffixChars] at same
  | _ + 2, 0 => simp [suffixChars] at same
  | 1, _ + 2 => simp [suffixChars] at same
  | _ + 2, 1 => simp [suffixChars] at same
  | first + 2, second + 2 =>
      simp only [suffixChars, List.cons.injEq, List.append_cancel_left_eq, true_and] at same
      have numbers := toDigits_injective same
      omega

theorem nameCandidate_injective (name : String) (kind : EdgeKind) (first second : Nat)
    (same : nameCandidate name kind first = nameCandidate name kind second) : first = second := by
  have chars := congrArg String.toList same
  rw [toList_nameCandidate, toList_nameCandidate] at chars
  exact suffixChars_injective kind first second (List.append_cancel_left chars)

theorem mem_names_of_not_admits {graph : PlanGraph} {kind : EdgeKind} {name : String}
    (refused : graph.admits kind name = false) : name ∈ graph.edges.names := by
  rw [Catalog.mem_names_iff]
  cases found : graph.edge? name with
  | none => simp [admits, found] at refused
  | some edge => exact ⟨edge, found⟩

theorem nameFor_spec (graph : PlanGraph) (name : String) (kind : EdgeKind) :
    ∃ attempt ≤ graph.edges.size,
      graph.nameFor name kind = nameCandidate name kind attempt ∧
      graph.admits kind (nameCandidate name kind attempt) = true ∧
      ∀ earlier < attempt, graph.admits kind (nameCandidate name kind earlier) = false := by
  have size : graph.edges.names.length = graph.edges.size := by
    simp [Catalog.names, Catalog.size]
  have refused (candidate : String) (other : graph.admits kind candidate = false) :
      candidate ∈ graph.edges.names := mem_names_of_not_admits other
  have search := firstAdmissible_spec refused (nameCandidate_injective name kind)
  rwa [size] at search

theorem nameFor_admits (graph : PlanGraph) (name : String) (kind : EdgeKind) :
    graph.admits kind (graph.nameFor name kind) = true := by
  obtain ⟨attempt, -, answer, admitted, -⟩ := graph.nameFor_spec name kind
  rw [answer]
  exact admitted

theorem kind_of_admits {graph : PlanGraph} {kind : EdgeKind} {name : String} {edge : Edge}
    (admitted : graph.admits kind name = true) (found : graph.edge? name = some edge) :
    edge.kind = kind := by
  simpa [admits, found] using admitted

theorem nameFor_eq_nameCandidate {graph : PlanGraph} {name : String} {kind : EdgeKind} {attempt : Nat}
    (admitted : graph.admits kind (nameCandidate name kind attempt) = true)
    (refused : ∀ earlier < attempt, graph.admits kind (nameCandidate name kind earlier) = false) :
    graph.nameFor name kind = nameCandidate name kind attempt := by
  obtain ⟨found, -, answer, admittedFound, refusedFound⟩ := graph.nameFor_spec name kind
  have same : found = attempt := by
    rcases Nat.lt_trichotomy found attempt with below | same | above
    · rw [refused found below] at admittedFound
      cases admittedFound
    · exact same
    · rw [refusedFound attempt above] at admitted
      cases admitted
  rw [answer, same]

theorem nameFor_eq_of_admits {graph : PlanGraph} {name : String} {kind : EdgeKind}
    (admitted : graph.admits kind name = true) : graph.nameFor name kind = name :=
  nameFor_eq_nameCandidate admitted fun _ below => absurd below (Nat.not_lt_zero _)

/-- Graphs that admit the same names answer alike, whatever their sizes. -/
theorem nameFor_congr {graph after : PlanGraph} {kind : EdgeKind}
    (same : after.admits kind = graph.admits kind) (name : String) :
    after.nameFor name kind = graph.nameFor name kind := by
  obtain ⟨attempt, -, answer, admitted, refused⟩ := graph.nameFor_spec name kind
  rw [answer]
  apply nameFor_eq_nameCandidate
  · rw [same, admitted]
  · intro earlier below
    rw [same, refused earlier below]

def IsCompletionName (id : Nat) (name : String) : Prop :=
  ∃ attempt, name = nameCandidate s!"e{id}" .action attempt

theorem nameFor_isCompletionName (graph : PlanGraph) (id : Nat) :
    IsCompletionName id (graph.nameFor s!"e{id}" .action) := by
  obtain ⟨attempt, -, answer, -⟩ := graph.nameFor_spec s!"e{id}" .action
  exact ⟨attempt, answer⟩

theorem suffixChars_takeWhile_isDigit (kind : EdgeKind) (attempt : Nat) :
    (suffixChars kind attempt).takeWhile Char.isDigit = [] := by
  match attempt with
  | 0 => rfl
  | 1 => simp [suffixChars, Char.isDigit]
  | attempt + 2 => simp [suffixChars, Char.isDigit]

/-- The digits of the node's id can be read off the name, so they belong to one node only. -/
theorem IsCompletionName.id_eq {first second : Nat} {name : String}
    (ofFirst : IsCompletionName first name) (ofSecond : IsCompletionName second name) :
    first = second := by
  have readDigits (id attempt : Nat) :
      ((nameCandidate s!"e{id}" .action attempt).toList.tail).takeWhile Char.isDigit =
        Nat.toDigits 10 id := by
    have digits : ∀ digit ∈ Nat.toDigits 10 id, digit.isDigit = true :=
      fun digit member => Nat.isDigit_of_mem_toDigits (by omega) (by omega) member
    rw [toList_nameCandidate]
    simp [List.takeWhile_append_of_pos digits, suffixChars_takeWhile_isDigit]
  obtain ⟨firstAttempt, rfl⟩ := ofFirst
  obtain ⟨secondAttempt, same⟩ := ofSecond
  apply toDigits_injective
  rw [← readDigits first firstAttempt, same, readDigits]

def outcomeOpening : List Char := "observe-edge-".toList

theorem toList_outcomeEdge (value : Bool) (fact : String) :
    (Reading.outcomeEdge value fact).toList =
      outcomeOpening ++ ((Reading.outcomeWord value).toList ++ '-' :: fact.toList) := by
  change ("observe-edge-" ++ Reading.outcomeWord value ++ "-" ++ fact).toList = _
  rw [String.toList_append, String.toList_append, String.toList_append, List.append_assoc,
    List.append_assoc]
  rfl

theorem head?_outcomeEdge (outcome : Bool) (fact : String) :
    (Reading.outcomeEdge outcome fact).toList.head? = some 'o' := by
  rw [toList_outcomeEdge]
  rfl

theorem IsCompletionName.head? {id : Nat} {name : String} (completion : IsCompletionName id name) :
    name.toList.head? = some 'e' := by
  obtain ⟨attempt, rfl⟩ := completion
  have first : (toString "e").toList.head? = some 'e' := rfl
  simp only [toList_nameCandidate, String.toList_append, List.head?_append, first, Option.some_or]

theorem IsCompletionName.nameCandidate_ne_outcomeEdge {id : Nat} {name : String}
    (completion : IsCompletionName id name) (kind : EdgeKind) (attempt : Nat) (outcome : Bool)
    (fact : String) : nameCandidate name kind attempt ≠ Reading.outcomeEdge outcome fact := by
  intro same
  have heads := congrArg (fun text => text.toList.head?) same
  simp only [toList_nameCandidate, head?_outcomeEdge, List.head?_append, completion.head?] at heads
  cases heads

theorem IsCompletionName.ne_outcomeEdge {id : Nat} {name : String}
    (completion : IsCompletionName id name) (outcome : Bool) (fact : String) :
    name ≠ Reading.outcomeEdge outcome fact :=
  completion.nameCandidate_ne_outcomeEdge .action 0 outcome fact

def suffixDigits : Nat → List Char
  | attempt + 2 => Nat.toDigits 10 (attempt + 1)
  | _ => []

theorem takeWhile_isDigit_reverse_suffixChars (kind : EdgeKind) (attempt : Nat) (front : List Char) :
    (front ++ suffixChars kind (attempt + 1)).reverse.takeWhile Char.isDigit =
      (suffixDigits (attempt + 1)).reverse := by
  cases attempt with
  | zero => cases kind <;> simp [suffixChars, kindSuffix, suffixDigits, Char.isDigit]
  | succ attempt =>
      have digits : ∀ digit ∈ (Nat.toDigits 10 (attempt + 1)).reverse, digit.isDigit = true := by
        intro digit member
        rw [List.mem_reverse] at member
        exact Nat.isDigit_of_mem_toDigits (by omega) (by omega) member
      simp [suffixChars, suffixDigits, List.takeWhile_append_of_pos digits, Char.isDigit]

theorem suffixDigits_injective {first second : Nat}
    (same : suffixDigits (first + 1) = suffixDigits (second + 1)) : first = second := by
  cases first with
  | zero =>
      cases second with
      | zero => rfl
      | succ second => exact absurd same.symm Nat.toDigits_ne_nil
  | succ first =>
      cases second with
      | zero => exact absurd same Nat.toDigits_ne_nil
      | succ second =>
          have numbers := toDigits_injective same
          omega

/-- Names with suffixes coincide only where the names before the suffixes do. -/
theorem nameCandidate_succ_injective {name other : String} {kind : EdgeKind} {attempt again : Nat}
    (same : nameCandidate name kind (attempt + 1) = nameCandidate other kind (again + 1)) :
    name = other := by
  have chars := congrArg String.toList same
  rw [toList_nameCandidate, toList_nameCandidate] at chars
  have digits := congrArg (fun text => text.reverse.takeWhile Char.isDigit) chars
  simp only [takeWhile_isDigit_reverse_suffixChars, List.reverse_inj] at digits
  obtain rfl := suffixDigits_injective digits
  exact String.toList_inj.mp (List.append_cancel_right chars)

end PlanGraph

end ContingentPlan
