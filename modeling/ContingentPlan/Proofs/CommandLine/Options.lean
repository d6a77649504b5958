import ContingentPlan.CommandLine.Words
import ContingentPlan.Proofs.CommandLine.Values
import ContingentPlan.Proofs.Table
import ContingentPlan.Proofs.Reading.Action
import Mathlib.Data.List.TakeDrop
import Mathlib.Data.List.TakeWhile

/-!
The reader of words does what is documented of a library for arguments. Each setting has the value of the
command line or else that of its environment variable, and all values are admissible.
-/

namespace ContingentPlan.CommandLine

namespace Given

variable {environment : Table OsText OsText} {given after : Given} {setting : Setting} {value : OsText}

def Admissible (given : Given) : Prop :=
  ∀ setting value, given.settings.find? setting = some value → isAdmissible setting value = true

theorem set_eq_ok_iff : given.set setting value = .ok after ↔
    given.settings.find? setting = none ∧ isAdmissible setting value = true ∧
      after = { given with settings := given.settings.insert setting value } := by
  rw [set, Table.contains]
  cases given.settings.find? setting with
  | some other => simp
  | none => cases isAdmissible setting value <;> simp [eq_comm]

theorem find?_set (written : given.set setting value = .ok after) (other : Setting) :
    after.settings.find? other = if other = setting then some value else given.settings.find? other := by
  obtain ⟨-, -, rfl⟩ := set_eq_ok_iff.mp written
  exact Table.find?_insert _ _ _ _

namespace Admissible

theorem empty : Admissible {} := fun _ _ => nofun

theorem set (admissible : given.Admissible) (written : given.set setting value = .ok after) :
    after.Admissible := by
  intro other found here
  rw [find?_set written] at here
  split at here
  · rename_i same
    cases here
    exact same ▸ (set_eq_ok_iff.mp written).2.1
  · exact admissible other found here

theorem raise {flag : Flag} (admissible : given.Admissible) (raised : given.raise flag = .ok after) :
    after.Admissible := by
  rw [Given.raise] at raised
  split at raised
  · cases raised
  · cases raised
    exact admissible

theorem readLetters {letters : List UInt8} {pending : Option Setting} (admissible : given.Admissible)
    (read : given.readLetters letters = .ok (after, pending)) : after.Admissible := by
  induction letters generalizing given with
  | nil =>
      cases read
      exact admissible
  | cons letter letters ih =>
      rw [Given.readLetters.eq_def] at read
      dsimp only at read
      split at read
      · cases read
      · cases read
      · rw [except_bind_eq_ok] at read
        obtain ⟨raised, one, rest⟩ := read
        exact ih (admissible.raise one) rest
      · split at read
        · cases read
          exact admissible
        · rw [except_bind_eq_ok] at read
          obtain ⟨written, one, ⟨⟩⟩ := read
          exact admissible.set one

theorem readLong {body : List UInt8} {pending : Option Setting} (admissible : given.Admissible)
    (read : given.readLong body = .ok (after, pending)) : after.Admissible := by
  unfold Given.readLong at read
  dsimp only at read
  split at read
  · cases read
  · cases raised : given.raise _ <;> rw [raised] at read <;> cases read
    exact admissible.raise raised
  · cases read
    exact admissible
  · cases written : given.set _ _ <;> rw [written] at read <;> cases read
    exact admissible.set written
  · cases read

theorem readSwitches {body : List UInt8} {pending : Option Setting} (admissible : given.Admissible)
    (read : given.readSwitches body = .ok (after, pending)) : after.Admissible := by
  unfold Given.readSwitches at read
  split at read
  · exact admissible.readLong read
  · exact admissible.readLetters read

theorem readWords {pending : Option Setting} {words : List OsText} (admissible : given.Admissible)
    (read : given.readWords pending words = .ok after) : after.Admissible := by
  induction words generalizing given pending with
  | nil =>
      cases pending <;> cases read
      exact admissible
  | cons word words ih =>
      cases pending with
      | some setting =>
          rw [Given.readWords] at read
          split at read
          · rw [except_bind_eq_ok] at read
            obtain ⟨written, one, rest⟩ := read
            exact ih (admissible.set one) rest
          · cases read
      | none =>
          rw [Given.readWords] at read
          split at read
          · split at read
            · cases read
              exact admissible
            · cases read
          · split at read
            · cases read
            · rw [except_bind_eq_ok] at read
              obtain ⟨⟨middle, pending⟩, one, rest⟩ := read
              exact ih (admissible.readSwitches one) rest

end Admissible

theorem find?_fallBack (fell : given.fallBack environment setting = .ok after) (other : Setting) :
    after.settings.find? other =
      if other = setting then behind environment given.settings.find? setting else given.settings.find? other := by
  unfold fallBack at fell
  rw [behind]
  cases named : (environmentName? setting).bind environment.find? with
  | none =>
      rw [named] at fell
      cases fell
      by_cases same : other = setting <;> simp [same]
  | some found =>
      rw [named] at fell
      dsimp only at fell
      cases present : given.settings.find? setting with
      | some earlier =>
          rw [Table.contains, present, Option.isSome_some, if_pos rfl] at fell
          cases fell
          by_cases same : other = setting <;> simp [same, present]
      | none =>
          rw [Table.contains, present, Option.isSome_none, if_neg Bool.false_ne_true] at fell
          rw [find?_set fell, Option.none_or]

theorem Admissible.fallBack (admissible : given.Admissible)
    (fell : given.fallBack environment setting = .ok after) : after.Admissible := by
  unfold Given.fallBack at fell
  split at fell
  · split at fell
    · cases fell
      exact admissible
    · exact admissible.set fell
  · cases fell
    exact admissible

theorem find?_foldlM_fallBack {settings : List Setting}
    (fell : settings.foldlM (Given.fallBack environment) given = .ok after) (other : Setting) :
    after.settings.find? other = if other ∈ settings then behind environment given.settings.find? other
      else given.settings.find? other := by
  induction settings generalizing given with
  | nil =>
      cases fell
      simp
  | cons setting settings ih =>
      rw [List.foldlM_cons, except_bind_eq_ok] at fell
      obtain ⟨middle, first, rest⟩ := fell
      rw [ih rest, behind, find?_fallBack first]
      by_cases same : other = setting
      · subst same
        simp [behind, Option.or_assoc]
      · simp [same, behind]

theorem Admissible.foldlM_fallBack {settings : List Setting} (admissible : given.Admissible)
    (fell : settings.foldlM (Given.fallBack environment) given = .ok after) : after.Admissible := by
  induction settings generalizing given with
  | nil =>
      cases fell
      exact admissible
  | cons setting settings ih =>
      rw [List.foldlM_cons, except_bind_eq_ok] at fell
      obtain ⟨middle, first, rest⟩ := fell
      exact ih (admissible.fallBack first) rest

theorem exists_foldlM_fallBack (admissible : ∀ setting value,
      (environmentName? setting).bind environment.find? = some value → isAdmissible setting value = true)
    (settings : List Setting) (given : Given) :
    ∃ after, settings.foldlM (Given.fallBack environment) given = .ok after := by
  induction settings generalizing given with
  | nil => exact ⟨given, rfl⟩
  | cons setting settings ih =>
      obtain ⟨middle, first⟩ : ∃ middle, given.fallBack environment setting = .ok middle := by
        unfold Given.fallBack
        split
        · rename_i value found
          rw [Given.set, admissible setting value found]
          cases given.settings.contains setting <;> exact ⟨_, rfl⟩
        · exact ⟨_, rfl⟩
      obtain ⟨after, rest⟩ := ih middle
      exact ⟨after, by rw [List.foldlM_cons, except_bind_eq_ok]; exact ⟨middle, first, rest⟩⟩

end Given

def givenBy (words : List OsText) : Setting → Option OsText :=
  match ({} : Given).readWords none words with
  | .ok given => given.settings.find?
  | .error _ => fun _ => none

theorem carry_of_ofWords {environment : Table OsText OsText} {words : List OsText} {options : Options}
    (accepted : Options.ofWords environment words = .ok options) :
    options.Carry (behind environment (givenBy words)) := by
  rw [Options.ofWords, except_bind_eq_ok] at accepted
  obtain ⟨given, read, accepted⟩ := accepted
  rw [except_bind_eq_ok] at accepted
  obtain ⟨final, fell, accepted⟩ := accepted
  have admissible := (Given.Admissible.empty.readWords read).foldlM_fallBack fell
  have values : ∀ setting,
      final.settings.find? setting = behind environment (givenBy words) setting := by
    intro setting
    rw [givenBy, read, Given.find?_foldlM_fallBack fell]
    cases setting <;> simp [behind, environmentName?]
  cases named : final.settings.find? .domain with
  | none =>
      rw [named] at accepted
      cases accepted
  | some domain =>
      rw [named] at accepted
      cases accepted
      constructor <;> simp only [← values]
      · exact named.symm
      · exact admissible

section Assignments

theorem longSwitch?_longName (setting : Setting) :
    longSwitch? setting.longName.bytes = some (.setting setting) := by
  cases setting <;> decide

theorem readLong_assignment (given : Given) (entry : Setting × OsText) :
    given.readLong (entry.1.longName.bytes ++ equals :: entry.2.bytes) =
      (given.set entry.1 entry.2).map (·, none) := by
  have cut : (entry.1.longName.bytes ++ equals :: entry.2.bytes).span (· ≠ equals) =
      (entry.1.longName.bytes, equals :: entry.2.bytes) := by
    have all : entry.1.longName.bytes.all (· ≠ equals) = true := by cases entry.1 <;> decide
    have noEquals := List.all_eq_true.mp all
    rw [List.span_eq_takeWhile_dropWhile, List.takeWhile_append_of_pos noEquals,
      List.dropWhile_append_of_pos noEquals]
    simp
  rw [Given.readLong, cut]
  dsimp only
  rw [longSwitch?_longName]

theorem readWords_assignment (given : Given) (entry : Setting × OsText) (words : List OsText) :
    given.readWords none (assignment entry :: words) =
      given.set entry.1 entry.2 >>= fun given => given.readWords none words := by
  obtain ⟨first, more, begins⟩ : ∃ first more, entry.1.longName.bytes = first :: more := by
    cases entry.1 <;> exact ⟨_, _, rfl⟩
  have spelled : (assignment entry).bytes =
      hyphen :: hyphen :: first :: (more ++ equals :: entry.2.bytes) := by
    rw [assignment, begins]
    rfl
  have read := readLong_assignment given entry
  rw [begins, List.cons_append] at read
  have switches : given.readSwitches (assignment entry).bytes.tail =
      (given.set entry.1 entry.2).map (·, none) := by
    rw [spelled, ← read]
    rfl
  have noValue : Given.isValue (assignment entry) = false := by
    rw [Given.isValue, spelled]
    simp
  rw [Given.readWords, if_neg (by simp [spelled]), if_neg (by simp [noValue]), switches]
  cases given.set entry.1 entry.2 <;> rfl

theorem readWords_assignments {entries : List (Setting × OsText)} (given : Given)
    (absent : ∀ entry ∈ entries, given.settings.find? entry.1 = none)
    (distinct : (entries.map Prod.fst).Nodup)
    (admissible : ∀ entry ∈ entries, isAdmissible entry.1 entry.2 = true) :
    given.readWords none (entries.map assignment) = .ok { given with
      settings := entries.foldl (fun table entry => table.insert entry.1 entry.2) given.settings } := by
  induction entries generalizing given with
  | nil => rfl
  | cons entry entries ih =>
      rw [List.forall_mem_cons] at absent admissible
      rw [List.map_cons, List.nodup_cons] at distinct
      have written := Given.set_eq_ok_iff.mpr ⟨absent.1, admissible.1, rfl⟩
      rw [List.map_cons, readWords_assignment, written]
      change Given.readWords _ none _ = _
      rw [ih _ _ distinct.2 admissible.2, List.foldl_cons]
      intro other member
      rw [Given.find?_set written, if_neg]
      · exact absent.2 other member
      · exact fun same => distinct.1 (same ▸ List.mem_map_of_mem member)

theorem accepts_assignments {environment : Table OsText OsText} {values : Table Setting OsText}
    (combines : Combines environment values) :
    (∃ options, Options.ofWords environment (values.entries.map assignment) = .ok options) ∧
      givenBy (values.entries.map assignment) = values.find? := by
  have read : ({} : Given).readWords none (values.entries.map assignment) =
      .ok { settings := values } := by
    have whole : values.entries.foldl (fun table entry => table.insert entry.1 entry.2) ∅ = values :=
      Table.ofList_entries values
    rw [readWords_assignments {} (fun _ _ => rfl) values.distinct combines.admissible]
    dsimp only
    rw [whole]
  refine ⟨?_, by rw [givenBy, read]⟩
  obtain ⟨final, fell⟩ := Given.exists_foldlM_fallBack combines.admissibleBehind
    [.configuration, .domain, .output] { settings := values }
  obtain ⟨domain, given⟩ := Option.isSome_iff_exists.mp combines.named
  have named : final.settings.find? .domain = some domain := by
    rw [Given.find?_foldlM_fallBack fell, if_pos (by decide), given]
  cases outcome : Options.ofWords environment (values.entries.map assignment) with
  | ok options => exact ⟨options, rfl⟩
  | error stop =>
      simp only [Options.ofWords, except_bind_eq_error_iff, read, fell, reduceCtorEq, false_or,
        Except.ok.injEq, exists_eq_left', named] at outcome
      cases outcome

end Assignments

theorem ofWords_documented : DocumentedArguments Options.ofWords givenBy where
  carry _ _ _ := carry_of_ofWords
  assign _ _ := accepts_assignments

end ContingentPlan.CommandLine
