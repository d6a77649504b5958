import ContingentPlan.FileTree
import ContingentPlan.Proofs.Table
import ContingentPlan.Proofs.FreshName
import ContingentPlan.Proofs.OsText
import ContingentPlan.Proofs.Reading.Action
import Mathlib.Data.List.TakeDrop
import Mathlib.Data.List.TakeWhile

/-!
What writing leaves in a tree of files. A write that succeeds puts its content in the place of its path,
one that fails puts it nowhere, and neither touches any other file. Directories may be made on the way,
and none is lost.
-/

namespace ContingentPlan

namespace FileTree

variable {tree before after : FileTree} {system : System} {location place : Location} {path : OsText}

theorem entry?_put (nonroot : place ≠ []) (entry : Entry) :
    entry? (tree.put place entry) location =
      if location = place then some entry else tree.entry? location := by
  unfold entry? put
  by_cases root : location = []
  · subst root
    simp [Ne.symm nonroot]
  · rw [if_neg root, if_neg root]
    exact lookup_insertEntry place location entry tree.entries.entries

theorem entry?_erase (nonroot : place ≠ []) :
    entry? (tree.erase place) location = if location = place then none else tree.entry? location := by
  unfold entry? erase
  by_cases root : location = []
  · subst root
    simp [Ne.symm nonroot]
  · rw [if_neg root, if_neg root]
    exact lookup_filter_ne place location tree.entries.entries

/-- The trees hold the same files but for the places that are excepted. Directories stay, and others may
have been made. -/
structure SameBut (excepted : Location → Prop) (before after : FileTree) : Prop where
  workingDirectory : after.workingDirectory = before.workingDirectory
  files : ∀ location, ¬ excepted location → ∀ content,
    after.entry? location = some (.file content) ↔ before.entry? location = some (.file content)
  directories : ∀ location, before.entry? location = some .directory →
    after.entry? location = some .directory

namespace SameBut

variable {excepted more : Location → Prop} {middle : FileTree}

theorem refl (tree : FileTree) : SameBut excepted tree tree :=
  ⟨rfl, fun _ _ _ => Iff.rfl, fun _ => id⟩

theorem trans (same : SameBut excepted before middle) (again : SameBut excepted middle after) :
    SameBut excepted before after where
  workingDirectory := again.workingDirectory.trans same.workingDirectory
  files location kept content := (again.files location kept content).trans
    (same.files location kept content)
  directories location directory := again.directories location (same.directories location directory)

theorem mono (same : SameBut excepted before after)
    (weaker : ∀ location, excepted location → more location) :
    SameBut more before after where
  workingDirectory := same.workingDirectory
  files location kept := same.files location fun own => kept (weaker location own)
  directories := same.directories

theorem walk (same : SameBut excepted before after) {current : Location} {pieces : List OsText}
    (walked : before.walk current pieces = .ok location) :
    after.walk current pieces = .ok location := by
  induction pieces generalizing current with
  | nil => exact walked
  | cons piece pieces ih =>
      rw [FileTree.walk] at walked ⊢
      split at walked
      · cases walked
      · cases walked
      · rename_i directory
        rw [same.directories current directory]
        exact ih walked

theorem locate (same : SameBut excepted before after) (located : before.locate path = .ok location) :
    after.locate path = .ok location := by
  unfold FileTree.locate at located ⊢
  split at located
  · cases located
  · rename_i nonempty
    rw [if_neg nonempty]
    have start : after.start path = before.start path := by simp [start, same.workingDirectory]
    rw [start]
    exact same.walk located

end SameBut

theorem walk_append (current : Location) (first second : List OsText) :
    tree.walk current (first ++ second) =
      tree.walk current first >>= fun middle => tree.walk middle second := by
  induction first generalizing current with
  | nil => rfl
  | cons piece first ih =>
      rw [List.cons_append, walk, walk]
      split
      · rfl
      · rfl
      · exact ih _

theorem walk_concat {current directory : Location} {earlier : List OsText} {last : OsText}
    (walked : tree.walk current (earlier ++ [⟨[]⟩]) = .ok directory) :
    tree.walk current (earlier ++ [last]) = .ok (step directory last) := by
  rw [walk_append, except_bind_eq_ok] at walked ⊢
  obtain ⟨middle, walked, entered⟩ := walked
  refine ⟨middle, walked, ?_⟩
  rw [walk] at entered ⊢
  split at entered
  · cases entered
  · cases entered
  · cases entered
    rfl

theorem pieces_eq {slashes earlier : List OsText} {last : OsText}
    (cut : (pieces path).reverse.span (·.bytes = []) = (slashes, last :: earlier)) :
    pieces path = earlier.reverse ++ last :: slashes ∧ (∀ piece ∈ slashes, piece = ⟨[]⟩) ∧ last.bytes ≠ [] := by
  rw [List.span_eq_takeWhile_dropWhile, Prod.mk.injEq] at cut
  have empty : ∀ piece ∈ slashes, piece = ⟨[]⟩ := by
    intro piece member
    rw [← cut.1] at member
    simpa [OsText.ext_iff] using List.mem_takeWhile_imp member
  refine ⟨?_, empty, ?_⟩
  · have whole : slashes ++ last :: earlier = (pieces path).reverse := by
      rw [← cut.1, ← cut.2, List.takeWhile_append_dropWhile]
    have turned : slashes.reverse = slashes := by
      rw [List.eq_replicate_of_mem empty, List.reverse_replicate]
    rw [← List.reverse_reverse (pieces path), ← whole, List.reverse_append, List.reverse_cons, turned,
      List.append_assoc, List.singleton_append]
  · have stopped := List.head?_dropWhile_not (fun piece => decide (piece.bytes = [])) (pieces path).reverse
    rw [cut.2] at stopped
    simpa using stopped

/-- The place of an entry to be made is a name in a directory. Without a slash behind that name, the
path leads there. -/
theorem exists_of_target {slashed : Bool} (found : tree.target path = .ok (.place location slashed)) :
    ∃ directory last, location = directory ++ [last] ∧
      (slashed = false → tree.locate path = .ok location) := by
  unfold target at found
  dsimp only at found
  by_cases empty : path.bytes = []
  · rw [if_pos empty] at found
    cases found
  · rw [if_neg empty] at found
    split at found
    · cases found
    · rename_i slashes last earlier cut
      obtain ⟨spelled, -, nonempty⟩ := pieces_eq cut
      rw [except_bind_eq_ok] at found
      obtain ⟨directory, walked, found⟩ := found
      split at found
      · cases found
      · rename_i named
        cases found
        refine ⟨directory, last, rfl, fun bare => ?_⟩
        have noSlash : slashes = [] := by simpa using bare
        have step : step directory last = directory ++ [last] := by
          simp [FileTree.step, Path.isIdle, nonempty, not_or.mp named]
        rw [locate, if_neg empty, spelled, noSlash, walk_concat walked, step]

theorem sameBut_put_directory {excepted : Location → Prop} (nonroot : place ≠ [])
    (absent : tree.entry? place = none) : SameBut excepted tree (tree.put place .directory) where
  workingDirectory := rfl
  files location _ content := by
    rw [entry?_put nonroot]
    split
    · rename_i here
      simp [here, absent]
    · rfl
  directories location directory := by
    rw [entry?_put nonroot]
    split
    · rfl
    · exact directory

theorem sameBut_makeDirectory {excepted : Location → Prop}
    (made : tree.makeDirectory path system = .ok after) : SameBut excepted tree after := by
  unfold makeDirectory at made
  split at made
  · cases made
  · rw [except_bind_eq_ok] at made
    obtain ⟨target, found, made⟩ := made
    cases target with
    | nameless => cases made
    | place location slashed =>
        obtain ⟨directory, last, rfl, -⟩ := exists_of_target found
        dsimp only at made
        split at made
        · cases made
        · rename_i absent
          cases made
          exact sameBut_put_directory (by simp) (by simpa using absent)

theorem sameBut_makeMissing {excepted : Location → Prop} (tree : FileTree) (system : System)
    (paths : List OsText) : SameBut excepted tree (tree.makeMissing system paths).1 := by
  induction paths generalizing tree with
  | nil => exact .refl tree
  | cons path parents ih =>
      rw [makeMissing]
      split
      · rename_i made
        exact sameBut_makeDirectory made
      · have parents := ih tree
        split
        · rename_i stopped
          rwa [stopped] at parents
        · rename_i parented
          rw [parented] at parents
          split
          · rename_i made
            exact parents.trans (sameBut_makeDirectory made)
          · exact parents
      · exact .refl tree

theorem entry?_freshName (tree : FileTree) (directory : Location) :
    tree.entry? (directory ++ [tree.freshName directory]) = none := by
  have taken : ∀ name, (tree.entry? (directory ++ [OsText.ofText name])).isNone = false →
      name ∈ tree.entries.entries.map fun entry => (entry.1.getLastD ⟨[]⟩).lossy := by
    intro name there
    unfold entry? at there
    rw [if_neg (by simp)] at there
    by_contra free
    rw [Table.find?_eq_none_iff.mpr] at there
    · cases there
    · intro key
      obtain ⟨entry, member, here⟩ := List.mem_map.mp key
      exact free (List.mem_map.mpr ⟨entry, member, by simp [here]⟩)
  have injective : ∀ first second : Nat,
      s!".unfinished-{first}" = s!".unfinished-{second}" → first = second := by
    intro first second same
    exact toDigits_injective (by simpa using congrArg String.toList same)
  obtain ⟨attempt, -, answer, admitted, -⟩ := firstAdmissible_spec taken injective
  rw [List.length_map] at answer
  rw [freshName, answer]
  exact Option.isNone_iff_eq_none.mp admitted

section Staging

variable {content : ByteArray} {temporary : Location}

theorem sameBut_erase_put {excepted : Location → Prop} (nonroot : temporary ≠ [])
    (absent : tree.entry? temporary = none) :
    SameBut excepted tree ((tree.put temporary (.file content)).erase temporary) where
  workingDirectory := rfl
  files location _ other := by
    rw [entry?_erase nonroot, entry?_put nonroot]
    split
    · rename_i here
      simp [here, absent]
    · rfl
  directories location directory := by
    rw [entry?_erase nonroot, entry?_put nonroot]
    split
    · rename_i here
      rw [here, absent] at directory
      cases directory
    · exact directory

theorem sameBut_of_put (nonroot : temporary ≠ []) :
    SameBut (· = temporary) (tree.put temporary (.file content)) tree where
  workingDirectory := rfl
  files location other _ := by rw [entry?_put nonroot, if_neg other]
  directories location directory := by
    rw [entry?_put nonroot] at directory
    split at directory
    · cases directory
    · exact directory

theorem sameBut_put_file (content : ByteArray) (nonroot : place ≠ [])
    (noDirectory : tree.entry? place ≠ some .directory) :
    SameBut (· = place) tree (tree.put place (.file content)) where
  workingDirectory := rfl
  files location other _ := by rw [entry?_put nonroot, if_neg other]
  directories location directory := by
    rw [entry?_put nonroot, if_neg]
    · exact directory
    · rintro rfl
      exact noDirectory directory

theorem move_eq_ok (nonroot : temporary ≠ []) (absent : tree.entry? temporary = none)
    (moved : (tree.put temporary (.file content)).move temporary content path system = .ok after) :
    ∃ location, after.locate path = .ok location ∧
      after.entry? location = some (.file content) ∧ SameBut (· = location) tree after := by
  unfold move at moved
  split at moved
  · cases moved
  · rw [except_bind_eq_ok] at moved
    obtain ⟨target, found, moved⟩ := moved
    cases target with
    | nameless => cases moved
    | place location slashed =>
        obtain ⟨directory, last, rfl, leads⟩ := exists_of_target found
        have place : directory ++ [last] ≠ [] := by simp
        dsimp only at moved
        cases slashed with
        | true => cases moved
        | false =>
            rw [if_neg (by simp)] at moved
            split at moved
            · cases moved
            · rename_i noDirectory
              cases moved
              -- The path may lead to the temporary file itself, which is gone by then.
              have stillNone : entry? ((tree.put temporary (.file content)).erase temporary)
                  (directory ++ [last]) ≠ some .directory := by
                rw [entry?_erase nonroot]
                split
                · simp
                · exact noDirectory
              have same :=
                (sameBut_erase_put nonroot absent).trans (sameBut_put_file content place stillNone)
              refine ⟨directory ++ [last], ?_, ?_, same⟩
              · exact same.locate ((sameBut_of_put nonroot).locate (leads rfl))
              · rw [entry?_put place, if_pos rfl]

theorem overwrite_of_none (written : tree.overwrite path content system = (after, none)) :
    ∃ location, after.locate path = .ok location ∧
      after.entry? location = some (.file content) ∧ SameBut (· = location) tree after := by
  unfold overwrite at written
  split at written
  · cases written
  · cases written
  · rename_i location found
    rw [filePlace, except_bind_eq_ok] at found
    obtain ⟨target, targeted, found⟩ := found
    cases target with
    | nameless => cases found
    | place there slashed =>
        obtain ⟨directory, last, rfl, leads⟩ := exists_of_target targeted
        have nonroot : directory ++ [last] ≠ [] := by simp
        dsimp only at found
        split at found
        · cases found
        · rename_i free
          rw [not_or, Bool.not_eq_true] at free
          cases found
          have same := sameBut_put_file content nonroot free.2
          split at written
          · cases written
          · cases written
            exact ⟨_, same.locate (leads free.1), by rw [entry?_put nonroot, if_pos rfl], same⟩

theorem read_of_entry? {text : String} (willing : system.refusesReading path = none)
    (located : tree.locate path = .ok location)
    (holds : tree.entry? location = some (.file text.toUTF8)) : tree.read path system = .ok text := by
  have decoded : String.fromUTF8? text.toUTF8 = some text := dif_pos text.isValidUTF8
  rw [read, willing]
  dsimp only
  rw [except_bind_eq_ok]
  refine ⟨location, located, ?_⟩
  rw [holds]
  dsimp only
  rw [decoded]
  rfl

/-- The system gives temporary files names that are free. -/
def System.NamesFresh (system : System) : Prop :=
  ∀ (tree : FileTree) (directory : Location),
    tree.entry? (directory ++ [system.temporaryName tree directory]) = none

theorem System.namesFresh_default : NamesFresh {} := entry?_freshName

theorem absent_of_temporaryPlace {directory : OsText} (fresh : system.NamesFresh)
    (found : tree.temporaryPlace directory system = .ok temporary) :
    temporary ≠ [] ∧ tree.entry? temporary = none := by
  rw [temporaryPlace, except_bind_eq_ok] at found
  obtain ⟨location, -, found⟩ := found
  split at found
  · cases found
  · cases found
    exact ⟨by simp, fresh tree location⟩

/-- How a write ends. Either the place of the path holds the content and all other files are what they
were, or all files are, and the fault names the path or the directory before it. -/
inductive AllOrNothing (before : FileTree) (path : OsText) (content : ByteArray) :
    FileTree × Option PlanFault → Prop
  | all {after : FileTree} {location : Location} : after.locate path = .ok location →
      after.entry? location = some (.file content) → SameBut (· = location) before after →
      AllOrNothing before path content (after, none)
  | nothing {after : FileTree} {reported : OsText} {fault : FileFault} :
      reported = path ∨ reported = parentDirectory path → SameBut (fun _ => False) before after →
      AllOrNothing before path content (after, some (.file reported fault))

theorem allOrNothing_writeAtomically (fresh : system.NamesFresh) (tree : FileTree) (path : OsText)
    (content : ByteArray) :
    AllOrNothing tree path content (tree.writeAtomically path content system) := by
  have made {excepted : Location → Prop} :
      SameBut excepted tree (tree.makeDirectories (parentDirectory path) system).1 :=
    sameBut_makeMissing tree system _
  unfold writeAtomically
  dsimp only
  split
  · rename_i stopped
    rw [stopped] at made
    exact .nothing (.inr rfl) made
  · rename_i parented
    rw [parented] at made
    split
    · exact .nothing (.inr rfl) made
    · rename_i temporary found
      obtain ⟨nonroot, absent⟩ := absent_of_temporaryPlace fresh found
      split
      · exact .nothing (.inl rfl) (made.trans (sameBut_erase_put nonroot absent))
      · split
        · rename_i moved
          obtain ⟨location, leads, holds, same⟩ := move_eq_ok nonroot absent moved
          exact .all leads holds (made.trans same)
        · exact .nothing (.inl rfl) (made.trans (sameBut_erase_put nonroot absent))

theorem writeAtomically_of_none (fresh : system.NamesFresh)
    (written : tree.writeAtomically path content system = (after, none)) :
    ∃ location, after.locate path = .ok location ∧
      after.entry? location = some (.file content) ∧ SameBut (· = location) tree after := by
  have whole := allOrNothing_writeAtomically fresh tree path content
  rw [written] at whole
  cases whole with
  | all leads holds same => exact ⟨_, leads, holds, same⟩

end Staging

end FileTree

end ContingentPlan
