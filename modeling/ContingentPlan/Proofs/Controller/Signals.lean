import ContingentPlan.Controller.Signals
import ContingentPlan.Proofs.Graph.Naming
import ContingentPlan.Proofs.Text.Identifier
import Mathlib.Data.List.Nodup

/-!
The signals of a graph. The candidates for an edge are identifiers and no reserved words, and each edge
takes one that neither the interface nor an edge before it uses.
-/

namespace ContingentPlan

def IsReserved (text : String) : Prop :=
  ∃ word ∈ reservedWords, text.toList.map Char.toLower = word.toList.map Char.toLower

theorem not_isReserved_of_underscore {text : String} (underscored : '_' ∈ text.toList) :
    ¬ IsReserved text := by
  rintro ⟨word, member, same⟩
  have plain : ∀ word ∈ reservedWords, '_' ∉ word.toList.map Char.toLower := by decide +kernel
  apply plain word member
  rw [← same]
  exact List.mem_map_of_mem underscored

theorem isReserved_iff {text : String} (legal : Text.IsIdentifier text) :
    IsReserved text ↔ Text.lowercase text ∈ reservedWords := by
  have small : ∀ word ∈ reservedWords, word.toList.map Char.toLower = word.toList := by
    decide +kernel
  constructor
  · rintro ⟨word, member, same⟩
    rw [small word member, ← legal.toList_lowercase, String.toList_inj] at same
    rwa [same]
  · intro member
    exact ⟨_, member, by rw [small _ member, legal.toList_lowercase]⟩

theorem isIdentifier_signalBase (edge : String) : Text.IsIdentifier (signalBase edge) := by
  rw [signalBase]
  split
  · exact (Text.isIdentifier_identifier edge).append (List.all_eq_true.mp (by decide))
  · exact Text.isIdentifier_identifier edge

theorem not_isReserved_signalBase (edge : String) : ¬ IsReserved (signalBase edge) := by
  rw [signalBase]
  split
  · exact not_isReserved_of_underscore (by simp)
  · rename_i free
    rwa [isReserved_iff (Text.isIdentifier_identifier edge)]

theorem toList_signalCandidate (base : String) (attempt : Nat) :
    (signalCandidate base (attempt + 1)).toList =
      base.toList ++ '_' :: Nat.toDigits 10 (attempt + 1) := by
  simp [signalCandidate]

theorem signalCandidate_injective (base : String) (first second : Nat)
    (same : signalCandidate base first = signalCandidate base second) : first = second := by
  have chars := congrArg String.toList same
  match first, second with
  | 0, 0 => rfl
  | 0, second + 1 => simp [signalCandidate] at chars
  | first + 1, 0 => simp [signalCandidate] at chars
  | first + 1, second + 1 =>
      rw [toList_signalCandidate, toList_signalCandidate, List.append_cancel_left_eq,
        List.cons.injEq] at chars
      exact toDigits_injective chars.2

theorem isIdentifier_signalCandidate (edge : String) (attempt : Nat) :
    Text.IsIdentifier (signalCandidate (signalBase edge) attempt) := by
  cases attempt with
  | zero => exact isIdentifier_signalBase edge
  | succ attempt =>
      have digits : ∀ digit ∈ Nat.toDigits 10 (attempt + 1), Text.isIdentifierChar digit = true := by
        intro digit member
        have decimal := Nat.isDigit_of_mem_toDigits (by omega) (by omega) member
        exact Text.isIdentifierChar_of_isDigit decimal
      have suffixed : signalCandidate (signalBase edge) (attempt + 1) =
          signalBase edge ++ String.ofList ('_' :: Nat.toDigits 10 (attempt + 1)) := by
        rw [← String.toList_inj, toList_signalCandidate]
        simp
      rw [suffixed]
      apply (isIdentifier_signalBase edge).append
      simpa using And.intro (by decide) digits

theorem not_isReserved_signalCandidate (edge : String) (attempt : Nat) :
    ¬ IsReserved (signalCandidate (signalBase edge) attempt) := by
  cases attempt with
  | zero => exact not_isReserved_signalBase edge
  | succ attempt => exact not_isReserved_of_underscore (by simp [toList_signalCandidate])

theorem map_fst_assignSignals (used edges : List String) :
    (assignSignals used edges).map Prod.fst = edges := by
  induction edges generalizing used with
  | nil => rfl
  | cons edge edges ih => simp [assignSignals, ih]

theorem freshSignal_spec (used : List String) (base : String) :
    ∃ attempt, freshSignal used base = signalCandidate base attempt ∧
      signalCandidate base attempt ∉ used ∧
      ∀ earlier < attempt, signalCandidate base earlier ∈ used := by
  have taken : ∀ name, (!used.contains name) = false → name ∈ used := by simp
  obtain ⟨attempt, -, answer, unused, refused⟩ :=
    firstAdmissible_spec taken (signalCandidate_injective base)
  exact ⟨attempt, answer, by simpa using unused, fun earlier below => taken _ (refused earlier below)⟩

theorem freshSignal_of_not_mem {used : List String} {base : String} (unused : base ∉ used) :
    freshSignal used base = base := by
  obtain ⟨attempt, answer, -, refused⟩ := freshSignal_spec used base
  cases attempt with
  | zero => exact answer
  | succ attempt => exact absurd (refused 0 (by omega)) unused

theorem assignSignals_spec {used edges : List String} {entry : String × String}
    (member : entry ∈ assignSignals used edges) :
    entry.2 ∉ used ∧ ∃ attempt, entry.2 = signalCandidate (signalBase entry.1) attempt := by
  induction edges generalizing used with
  | nil => simp [assignSignals] at member
  | cons edge edges ih =>
      obtain ⟨attempt, answer, unused, -⟩ := freshSignal_spec used (signalBase edge)
      rw [assignSignals, answer] at member
      rcases List.mem_cons.mp member with rfl | later
      · exact ⟨unused, attempt, rfl⟩
      · obtain ⟨apart, candidate⟩ := ih later
        exact ⟨fun among => apart (List.mem_cons_of_mem _ among), candidate⟩

/-- Only a first candidate has no underscore, so a name without one is the signal of an edge that it
stands for. -/
theorem mem_assignSignals_iff {used edges : List String} {name : String}
    (plain : '_' ∉ name.toList) :
    name ∈ (assignSignals used edges).map Prod.snd ↔
      name ∉ used ∧ ∃ edge ∈ edges, signalBase edge = name := by
  constructor
  · intro member
    obtain ⟨⟨edge, signal⟩, among, rfl⟩ := List.mem_map.mp member
    obtain ⟨unused, attempt, candidate⟩ := assignSignals_spec among
    have listed : edge ∈ edges := by
      rw [← map_fst_assignSignals used edges]
      exact List.mem_map_of_mem among
    cases attempt with
    | zero => exact ⟨unused, edge, listed, candidate.symm⟩
    | succ attempt =>
        rw [candidate, toList_signalCandidate] at plain
        simp at plain
  · rintro ⟨unused, edge, listed, stands⟩
    induction edges generalizing used with
    | nil => cases listed
    | cons first edges ih =>
        rw [assignSignals, List.map_cons, List.mem_cons]
        by_cases taken : name = freshSignal used (signalBase first)
        · exact Or.inl taken
        · right
          apply ih
          · rw [List.mem_cons, not_or]
            exact ⟨taken, unused⟩
          · rcases List.mem_cons.mp listed with rfl | later
            · rw [stands, freshSignal_of_not_mem unused] at taken
              exact absurd rfl taken
            · exact later

theorem signalBase_eq_iff {edge name : String} (plain : '_' ∉ name.toList)
    (unreserved : Text.lowercase name ∉ reservedWords) :
    signalBase edge = name ↔ Text.identifier edge = name := by
  rw [signalBase]
  constructor
  · intro same
    split at same
    · rw [← same] at plain
      simp at plain
    · exact same
  · rintro rfl
    exact if_neg unreserved

theorem nodup_assignSignals (used edges : List String) :
    ((assignSignals used edges).map Prod.snd).Nodup := by
  induction edges generalizing used with
  | nil => simp [assignSignals]
  | cons edge edges ih =>
      rw [assignSignals, List.map_cons, List.nodup_cons]
      refine ⟨?_, ih _⟩
      intro member
      obtain ⟨entry, among, same⟩ := List.mem_map.mp member
      exact (assignSignals_spec among).1 (by simp [same])

namespace PlanGraph

variable {graph : PlanGraph} {name other : String}

theorem map_fst_signals (graph : PlanGraph) : graph.signals.map Prod.fst = graph.edges.names :=
  map_fst_assignSignals graph.interfaceNames graph.edges.names

theorem nodup_map_fst_signals (graph : PlanGraph) : (graph.signals.map Prod.fst).Nodup := by
  rw [map_fst_signals]
  exact graph.edges.nodup_names

theorem map_snd_signals (graph : PlanGraph) :
    graph.signals.map Prod.snd = graph.edges.names.map graph.signal := by
  rw [← map_fst_signals, List.map_map]
  apply List.map_congr_left
  rintro ⟨name, identifier⟩ member
  have found := (lookup_eq_some_iff_mem graph.nodup_map_fst_signals).mpr member
  rw [Function.comp_apply, signal, signalFor, found, Option.getD_some]

theorem nodup_map_snd_signals (graph : PlanGraph) : (graph.signals.map Prod.snd).Nodup :=
  nodup_assignSignals graph.interfaceNames graph.edges.names

theorem mem_signals_iff (registered : name ∈ graph.edges.names) (identifier : String) :
    (name, identifier) ∈ graph.signals ↔ identifier = graph.signal name := by
  have once := graph.nodup_map_fst_signals
  rw [← map_fst_signals] at registered
  obtain ⟨⟨_, held⟩, member, rfl⟩ := List.mem_map.mp registered
  have found := (lookup_eq_some_iff_mem once).mpr member
  rw [← lookup_eq_some_iff_mem once, signal, signalFor, found, Option.getD_some, Option.some.injEq,
    eq_comm]

theorem signal_mem (registered : name ∈ graph.edges.names) :
    (name, graph.signal name) ∈ graph.signals :=
  (mem_signals_iff registered _).mpr rfl

theorem signal_injective (registered : name ∈ graph.edges.names)
    (registeredToo : other ∈ graph.edges.names) (same : graph.signal name = graph.signal other) :
    name = other := by
  have entries := List.inj_on_of_nodup_map graph.nodup_map_snd_signals (signal_mem registered)
    (signal_mem registeredToo) same
  exact congrArg Prod.fst entries

theorem signal_spec (registered : name ∈ graph.edges.names) :
    graph.signal name ∉ graph.interfaceNames ∧
      ∃ attempt, graph.signal name = signalCandidate (signalBase name) attempt :=
  assignSignals_spec (signal_mem registered)

theorem isIdentifier_signal (graph : PlanGraph) (name : String) :
    Text.IsIdentifier (graph.signal name) := by
  rw [signal, signalFor]
  cases found : graph.signals.lookup name with
  | none => exact Text.isIdentifier_identifier name
  | some identifier =>
      obtain ⟨-, attempt, candidate⟩ :=
        assignSignals_spec ((lookup_eq_some_iff_mem graph.nodup_map_fst_signals).mp found)
      change identifier = _ at candidate
      rw [Option.getD_some, candidate]
      exact isIdentifier_signalCandidate name attempt

/-- Every edge has one signal of its own: an identifier that is neither reserved nor part of the
interface. -/
structure LegalSignals (graph : PlanGraph) : Prop where
  edges : graph.signals.map Prod.fst = graph.edges.names
  unique : ∀ name ∈ graph.edges.names, ∃! identifier, (name, identifier) ∈ graph.signals
  signal : ∀ name ∈ graph.edges.names, (name, graph.signal name) ∈ graph.signals
  injective : ∀ name ∈ graph.edges.names, ∀ other ∈ graph.edges.names,
    graph.signal name = graph.signal other → name = other
  identifier : ∀ name ∈ graph.edges.names, Text.IsIdentifier (graph.signal name)
  unreserved : ∀ name ∈ graph.edges.names, ¬ IsReserved (graph.signal name)
  outside : ∀ name ∈ graph.edges.names, graph.signal name ≠ "SOURCE" ∧ graph.signal name ≠ "SINK"
  apart : ∀ name ∈ graph.edges.names, ∀ node ∈ graph.nodes,
    graph.signal name ≠ node.dispatchSignal ∧ graph.signal name ≠ node.completeSignal ∧
      graph.signal name ≠ node.moduleName

theorem signals_legal (graph : PlanGraph) : graph.LegalSignals where
  edges := graph.map_fst_signals
  unique name registered := ⟨graph.signal name, signal_mem registered,
    fun identifier member => (mem_signals_iff registered identifier).mp member⟩
  signal name registered := signal_mem registered
  injective name registered other registeredToo := signal_injective registered registeredToo
  identifier name _ := graph.isIdentifier_signal name
  unreserved name registered := by
    obtain ⟨-, attempt, candidate⟩ := signal_spec registered
    rw [candidate]
    exact not_isReserved_signalCandidate name attempt
  outside name registered := by
    have unused := (signal_spec registered).1
    simp only [interfaceNames, List.mem_append, List.mem_cons, not_or] at unused
    exact ⟨unused.1.1, unused.1.2.1⟩
  apart name registered node member := by
    have unused := (signal_spec registered).1
    simp only [interfaceNames, List.mem_append, List.mem_flatMap, not_or, not_exists, not_and,
      List.mem_cons, List.not_mem_nil, or_false] at unused
    exact unused.2 node member

end PlanGraph

end ContingentPlan
