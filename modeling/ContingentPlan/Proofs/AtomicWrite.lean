import ContingentPlan.Proofs.FileTree

/-!
Writing a file as a whole. A write is all or nothing whatever the system refuses on the way, and one to
which nothing is refused succeeds wherever the path names a place for a file.
-/

namespace ContingentPlan.FileTree

variable {tree before after : FileTree} {system : System} {location other : Location} {path : OsText}

theorem walk_slashes {slashes : List OsText} (empty : ∀ piece ∈ slashes, piece = ⟨[]⟩)
    (walked : tree.walk location slashes = .ok other) : other = location := by
  induction slashes with
  | nil =>
      cases walked
      rfl
  | cons piece slashes ih =>
      rw [List.forall_mem_cons] at empty
      rw [walk, empty.1] at walked
      split at walked
      · cases walked
      · cases walked
      · exact ih empty.2 walked

theorem exists_target_of_locate (located : tree.locate path = .ok location) :
    tree.target path = .ok .nameless ∨ ∃ slashed, tree.target path = .ok (.place location slashed) := by
  unfold locate at located
  split at located
  · cases located
  · rename_i nonempty
    unfold target
    rw [if_neg nonempty]
    cases cut : (pieces path).reverse.span (·.bytes = []) with
    | mk slashes rest =>
        cases rest with
        | nil => exact Or.inl rfl
        | cons last earlier =>
            obtain ⟨spelled, empty, nonempty⟩ := pieces_eq cut
            rw [spelled, walk_append, except_bind_eq_ok] at located
            obtain ⟨directory, walked, led⟩ := located
            rw [walk] at led
            split at led
            · cases led
            · cases led
            · rename_i entered
              have inside : tree.walk (tree.start path) (earlier.reverse ++ [⟨[]⟩]) = .ok directory := by
                rw [walk_append, walked]
                change tree.walk directory [⟨[]⟩] = .ok directory
                rw [walk, entered]
                rfl
              dsimp only
              rw [inside]
              by_cases named : last.bytes = [Path.dot] ∨ last = upward
              · left
                change (if last.bytes = [Path.dot] ∨ last = upward then _ else _) = _
                rw [if_pos named]
                rfl
              · right
                rw [walk_slashes empty led]
                rw [not_or] at named
                refine ⟨!slashes.isEmpty, ?_⟩
                change (if last.bytes = [Path.dot] ∨ last = upward then _ else _) = _
                rw [if_neg (by simp [named]), step, if_neg (by simp [Path.isIdle, nonempty, named]), if_neg named.2]
                rfl

theorem SameBut.target {excepted : Location → Prop} {place : Target}
    (same : SameBut excepted before after) (found : before.target path = .ok place) :
    after.target path = .ok place := by
  unfold FileTree.target at found ⊢
  by_cases empty : path.bytes = []
  · rw [if_pos empty] at found
    cases found
  · rw [if_neg empty] at found ⊢
    cases cut : (pieces path).reverse.span (·.bytes = []) with
    | mk slashes rest =>
        rw [cut] at found
        cases rest with
        | nil => exact found
        | cons last earlier =>
            dsimp only at found ⊢
            change (before.walk _ _ >>= _) = _ at found
            rw [except_bind_eq_ok] at found
            obtain ⟨directory, walked, found⟩ := found
            have start : after.start path = before.start path := by
              simp [FileTree.start, same.workingDirectory]
            rw [start, same.walk walked]
            exact found

structure System.RefusesNothing (system : System) : Prop where
  directory : ∀ path, system.refusesDirectory path = none
  temporary : system.refusesTemporary = none
  opening : system.refusesOpening = none
  content : system.refusesContent = none
  move : system.refusesMove = none

theorem exists_of_isDirectory (stands : tree.isDirectory path = true) :
    ∃ location, tree.locate path = .ok location ∧ tree.entry? location = some .directory := by
  unfold isDirectory at stands
  split at stands
  · exact ⟨_, ‹_›, by simpa using stands⟩
  · cases stands

theorem makeDirectories_of_isDirectory (willing : system.RefusesNothing)
    (stands : tree.isDirectory path = true) : tree.makeDirectories path system = (tree, none) := by
  obtain ⟨location, located, directory⟩ := exists_of_isDirectory stands
  have refused : tree.makeDirectory path system = .error .alreadyExists := by
    unfold makeDirectory
    rw [willing.directory]
    rcases exists_target_of_locate located with target | ⟨slashed, target⟩
    · rw [target]
      rfl
    · rw [target]
      change (if (tree.entry? location).isSome then _ else _) = _
      rw [directory]
      rfl
  have nonempty : path.bytes ≠ [] := by
    intro empty
    rw [locate, if_pos empty] at located
    cases located
  unfold makeDirectories
  cases bound : path.bytes.length with
  | zero => exact absurd (List.length_eq_zero_iff.mp bound) nonempty
  | succ bound =>
      rw [ancestors, if_neg nonempty]
      cases Path.parent? path <;> simp [makeMissing, refused, stands]

/-- The path names a place for a file in a directory that is there. -/
structure Open (tree : FileTree) (path : OsText) : Prop where
  parent : tree.isDirectory (parentDirectory path) = true
  place : ∃ location, tree.target path = .ok (.place location false) ∧
    tree.entry? location ≠ some .directory

theorem move_succeeds {temporary : Location} (content : ByteArray) (willing : system.RefusesNothing)
    (opened : tree.Open path) (nonroot : temporary ≠ []) (absent : tree.entry? temporary = none) :
    ∃ after, (tree.put temporary (.file content)).move temporary content path system = .ok after := by
  obtain ⟨location, target, noDirectory⟩ := opened.place
  have staged : (tree.put temporary (.file content)).target path = .ok (.place location false) :=
    (sameBut_put_file content nonroot (by simp [absent])).target target
  have still : entry? (tree.put temporary (.file content)) location ≠ some .directory := by
    rw [entry?_put nonroot]
    split
    · simp
    · exact noDirectory
  refine ⟨((tree.put temporary (.file content)).erase temporary).put location (.file content), ?_⟩
  unfold move
  rw [willing.move, staged]
  change (if entry? (tree.put temporary (.file content)) location = some .directory then _ else _) = _
  rw [if_neg still]
  rfl

theorem overwrite_succeeds (willing : system.RefusesNothing) (opened : tree.Open path)
    (content : ByteArray) : (tree.overwrite path content system).2 = none := by
  obtain ⟨location, target, noDirectory⟩ := opened.place
  have place : tree.filePlace path = .ok location := by
    rw [filePlace, target]
    change (if false = true ∨ tree.entry? location = some .directory then _ else _) = _
    rw [if_neg (by simp [noDirectory])]
    rfl
  rw [overwrite, willing.opening, place, willing.content]

theorem writeAtomically_succeeds (fresh : system.NamesFresh) (willing : system.RefusesNothing)
    (opened : tree.Open path) (content : ByteArray) :
    (tree.writeAtomically path content system).2 = none := by
  obtain ⟨directory, located, -⟩ := exists_of_isDirectory opened.parent
  have place : tree.temporaryPlace (parentDirectory path) system =
      .ok (directory ++ [system.temporaryName tree directory]) := by
    rw [temporaryPlace, except_bind_eq_ok]
    refine ⟨directory, located, ?_⟩
    rw [willing.temporary]
    rfl
  obtain ⟨after, moved⟩ := move_succeeds content willing opened (by simp)
    (fresh tree directory)
  unfold writeAtomically
  dsimp only
  rw [makeDirectories_of_isDirectory willing opened.parent]
  dsimp only
  rw [place]
  dsimp only
  rw [willing.content]
  dsimp only
  rw [moved]

/-- A write puts all of the content in the place of its path or nothing anywhere, and no temporary file
stays. It does the former wherever a file can stand and the system refuses nothing. -/
theorem writes_all_or_nothing (fresh : system.NamesFresh) (tree : FileTree) (path : OsText)
    (content : ByteArray) :
    AllOrNothing tree path content (tree.writeAtomically path content system) ∧
    (system.RefusesNothing → tree.Open path →
      (tree.writeAtomically path content system).2 = none) :=
  ⟨allOrNothing_writeAtomically fresh tree path content,
    fun willing opened => writeAtomically_succeeds fresh willing opened content⟩

def cellar : FileTree where
  entries := ((∅ : Table Location Entry).insert ["shelf"] .directory).insert ["shelf", "label"]
    (.file "plums".toUTF8)

def fullDisk : System where
  refusesContent := some (.other "No space left on device")

theorem cellar_all_or_nothing :
    fullDisk.NamesFresh ∧
    (cellar.writeAtomically "shelf/label" "pears".toUTF8 fullDisk).2 =
      some (.file "shelf/label" (.other "No space left on device")) ∧
    AllOrNothing cellar "shelf/label" "pears".toUTF8
      (cellar.writeAtomically "shelf/label" "pears".toUTF8 fullDisk) ∧
    System.RefusesNothing {} ∧ cellar.Open "shelf/label" ∧
    (cellar.writeAtomically "shelf/label" "pears".toUTF8).1.entries.keys =
      [["shelf"], ["shelf", "label"]].map (·.map OsText.ofText) ∧
    (cellar.writeAtomically "shelf/label" "pears".toUTF8).2 = none := by
  have full : fullDisk.NamesFresh := entry?_freshName
  have willing : System.RefusesNothing {} := ⟨fun _ => rfl, rfl, rfl, rfl, rfl⟩
  have opened : cellar.Open "shelf/label" :=
    ⟨by decide +kernel, ["shelf", "label"], rfl, by decide +kernel⟩
  exact ⟨full, by decide +kernel, (writes_all_or_nothing full cellar _ _).1, willing, opened,
    by decide +kernel,
    (writes_all_or_nothing System.namesFresh_default cellar _ _).2 willing opened⟩

end ContingentPlan.FileTree
