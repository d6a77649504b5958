import ContingentPlan.Path
import Mathlib.Data.List.TakeWhile

/-!
Cutting paths and joining them again. A path that ends in a normal name has the same components when it
is joined from its parent and its file name.
-/

namespace ContingentPlan.Path

section Slashes

variable {text piece : List UInt8} {pieces others : List (List UInt8)}

theorem splitSlash_ne_nil (text : List UInt8) : splitSlash text ≠ [] := by
  cases text with
  | nil => simp [splitSlash]
  | cons byte text =>
      rw [splitSlash]
      split
      · simp
      · split <;> simp

theorem splitSlash_append (first second : List UInt8) :
    splitSlash (first ++ slash :: second) = splitSlash first ++ splitSlash second := by
  induction first with
  | nil => rfl
  | cons byte first ih =>
      rw [List.cons_append, splitSlash, splitSlash, ih]
      split
      · rfl
      · cases cut : splitSlash first with
        | nil => exact absurd cut (splitSlash_ne_nil first)
        | cons piece pieces => rfl

theorem splitSlash_of_not_mem (bare : slash ∉ piece) : splitSlash piece = [piece] := by
  induction piece with
  | nil => rfl
  | cons byte piece ih =>
      rw [List.mem_cons, not_or] at bare
      rw [splitSlash, if_neg (Ne.symm bare.1), ih bare.2]

theorem not_mem_of_mem_splitSlash (member : piece ∈ splitSlash text) : slash ∉ piece := by
  induction text generalizing piece with
  | nil =>
      cases List.mem_singleton.mp member
      exact List.not_mem_nil
  | cons byte text ih =>
      rw [splitSlash] at member
      split at member
      · rcases List.mem_cons.mp member with rfl | later
        · exact List.not_mem_nil
        · exact ih later
      · rename_i other
        split at member
        · cases List.mem_singleton.mp member
          simpa using Ne.symm other
        · rename_i first pieces cut
          rw [cut] at ih
          rcases List.mem_cons.mp member with rfl | later
          · simpa [Ne.symm other] using ih List.mem_cons_self
          · exact ih (List.mem_cons_of_mem first later)

theorem joinSlash_cons (piece : List UInt8) (nonempty : pieces ≠ []) :
    joinSlash (piece :: pieces) = piece ++ slash :: joinSlash pieces := by
  obtain ⟨next, pieces, rfl⟩ := List.exists_cons_of_ne_nil nonempty
  simp [joinSlash, List.intercalate_cons_cons]

theorem joinSlash_append (nonempty : pieces ≠ []) (othersNonempty : others ≠ []) :
    joinSlash (pieces ++ others) = joinSlash pieces ++ slash :: joinSlash others := by
  induction pieces with
  | nil => exact absurd rfl nonempty
  | cons piece pieces ih =>
      rw [List.cons_append, joinSlash_cons piece (by simp [othersNonempty])]
      cases pieces with
      | nil => simp [joinSlash]
      | cons next pieces => rw [ih (by simp), joinSlash_cons piece (by simp), List.append_assoc]; rfl

theorem joinSlash_splitSlash (text : List UInt8) : joinSlash (splitSlash text) = text := by
  induction text with
  | nil => rfl
  | cons byte text ih =>
      rw [splitSlash]
      split
      · rename_i slash
        rw [joinSlash_cons [] (splitSlash_ne_nil text), ih, slash]
        rfl
      · split
        · rename_i cut
          exact absurd cut (splitSlash_ne_nil text)
        · rename_i piece pieces cut
          rw [cut] at ih
          cases pieces with
          | nil => simpa [joinSlash] using ih
          | cons next pieces =>
              rw [joinSlash_cons _ (by simp)] at ih ⊢
              rw [List.cons_append, ih]

theorem splitSlash_joinSlash (nonempty : pieces ≠ []) (bare : ∀ piece ∈ pieces, slash ∉ piece) :
    splitSlash (joinSlash pieces) = pieces := by
  induction pieces with
  | nil => exact absurd rfl nonempty
  | cons piece pieces ih =>
      rw [List.forall_mem_cons] at bare
      cases pieces with
      | nil => simpa [joinSlash] using splitSlash_of_not_mem bare.1
      | cons next pieces =>
          rw [joinSlash_cons piece (by simp), splitSlash_append, splitSlash_of_not_mem bare.1,
            ih (by simp) bare.2]
          rfl

end Slashes

section Heads

variable {path head body : List UInt8}

theorem cutHead_cases (path : List UInt8) :
    (∃ rest, path = slash :: rest ∧ cutHead path = ([slash], rest)) ∨
    (∃ rest, path = dot :: rest ∧ (rest = [] ∨ rest.head? = some slash) ∧
      cutHead path = ([dot], rest)) ∨
    (path.head? ≠ some slash ∧ cutHead path = ([], path)) := by
  cases path with
  | nil => exact Or.inr (Or.inr ⟨nofun, rfl⟩)
  | cons first rest =>
      by_cases rooted : first = slash
      · exact Or.inl ⟨rest, by rw [rooted], by rw [cutHead, if_pos rooted]⟩
      have opened : (first :: rest).head? ≠ some slash := by simpa using rooted
      by_cases local' : first = dot ∧ (rest = [] ∨ rest.head? = some slash)
      · exact Or.inr (Or.inl ⟨rest, by rw [local'.1], local'.2, by rw [cutHead, if_neg rooted, if_pos local']⟩)
      · exact Or.inr (Or.inr ⟨opened, by rw [cutHead, if_neg rooted, if_neg local']⟩)

theorem eq_of_cutHead (cut : cutHead path = (head, body)) : path = head ++ body := by
  rcases cutHead_cases path with ⟨rest, rfl, same⟩ | ⟨rest, rfl, -, same⟩ | ⟨-, same⟩ <;>
    cases same.symm.trans cut <;> rfl

theorem head_of_cutHead (cut : cutHead path = (head, body)) :
    head = [] ∨ head = [slash] ∨ head = [dot] := by
  rcases cutHead_cases path with ⟨rest, -, same⟩ | ⟨rest, -, -, same⟩ | ⟨-, same⟩ <;>
    cases same.symm.trans cut <;> simp

theorem cutHead_self (cut : cutHead path = (head, body)) : cutHead head = (head, []) := by
  rcases head_of_cutHead cut with rfl | rfl | rfl <;> rfl

theorem cutHead_append (nonempty : path ≠ []) (rest : List UInt8) :
    cutHead (path ++ slash :: rest) = ((cutHead path).1, (cutHead path).2 ++ slash :: rest) := by
  obtain ⟨first, more, rfl⟩ := List.exists_cons_of_ne_nil nonempty
  cases more <;> simp only [List.cons_append, List.nil_append, cutHead] <;> split_ifs <;> simp_all

theorem cutHead_of_bare (bare : slash ∉ path) (noDot : path ≠ [dot]) : cutHead path = ([], path) := by
  rcases cutHead_cases path with ⟨rest, rfl, -⟩ | ⟨rest, rfl, ends, -⟩ | ⟨-, same⟩
  · simp at bare
  · rcases ends with rfl | slashed
    · exact absurd rfl noDot
    · exact absurd (List.mem_cons_of_mem dot (List.mem_of_mem_head? slashed)) bare
  · exact same

theorem cutHead_joinSlash {front others : List (List UInt8)} (othersNonempty : others ≠ [])
    (cut : cutHead path = (head, joinSlash (front ++ others))) :
    cutHead (head ++ joinSlash front) = (head, joinSlash front) := by
  by_cases nonempty : front = []
  · subst nonempty
    simpa [joinSlash] using cutHead_self cut
  · have whole : path = (head ++ joinSlash front) ++ slash :: joinSlash others := by
      rw [eq_of_cutHead cut, joinSlash_append nonempty othersNonempty, List.append_assoc]
    by_cases rootless : head ++ joinSlash front = []
    · rw [whole, rootless, List.append_eq_nil_iff.mp rootless |>.1] at cut
      cases cut
    · rw [whole, cutHead_append rootless] at cut
      have same : (cutHead (head ++ joinSlash front)).1 = head := congrArg Prod.fst cut
      have spelled := eq_of_cutHead (Prod.eta (cutHead (head ++ joinSlash front))).symm
      rw [same, List.append_cancel_left_eq] at spelled
      exact Prod.ext same spelled.symm

end Heads

def componentChars (path : List UInt8) : List (List UInt8) :=
  (if (cutHead path).1 = [] then [] else [(cutHead path).1]) ++
    (splitSlash (cutHead path).2).filter (!isIdle ·)

theorem components_eq (path : OsText) :
    components path = (componentChars path.bytes).map OsText.mk := rfl

example : components "/usr//./lib/../bin/." = ["/", "usr", "lib", "..", "bin"].map OsText.ofText := by
  decide

section Join

variable {base part : OsText} {path : List UInt8}

theorem componentChars_append (nonempty : path ≠ []) (rest : List UInt8) :
    componentChars (path ++ slash :: rest) =
      componentChars path ++ (splitSlash rest).filter (!isIdle ·) := by
  rw [componentChars, cutHead_append nonempty, splitSlash_append, List.filter_append, ← List.append_assoc]
  rfl

theorem componentChars_headless (headless : cutHead path = ([], path)) :
    componentChars path = (splitSlash path).filter (!isIdle ·) := by
  rw [componentChars, headless]
  rfl

theorem bytes_join (relative : isAbsolute part = false) : (join base part).bytes =
    if base.bytes = [] ∨ base.bytes.getLast? = some slash then base.bytes ++ part.bytes
    else base.bytes ++ slash :: part.bytes := by
  rw [join, if_neg (by simp [relative]), apply_ite OsText.bytes]

theorem componentChars_join (relative : isAbsolute part = false) (nonempty : base.bytes ≠ []) :
    componentChars (join base part).bytes =
      componentChars base.bytes ++ (splitSlash part.bytes).filter (!isIdle ·) := by
  rw [bytes_join relative]
  split
  · rename_i slashed
    obtain ⟨start, ends⟩ := List.getLast?_eq_some_iff.mp (slashed.resolve_left nonempty)
    rw [ends, List.append_assoc, List.singleton_append]
    by_cases root : start = []
    · subst root
      rfl
    · rw [componentChars_append root, componentChars_append root]
      simp [splitSlash, isIdle]
  · exact componentChars_append nonempty part.bytes

theorem join_of_nil (empty : base.bytes = []) : join base part = part := by
  rw [join, if_pos (Or.inl empty), empty, List.nil_append]
  exact ite_self part

theorem components_of_nil (empty : base.bytes = []) : components base = [] := by
  rw [components_eq, empty]
  rfl

/-- A path that starts with a name adds its components to those of the one before it. -/
theorem components_join (headless : cutHead part.bytes = ([], part.bytes)) :
    components (join base part) = components base ++ components part := by
  by_cases empty : base.bytes = []
  · rw [join_of_nil empty, components_of_nil empty, List.nil_append]
  · have relative : isAbsolute part = false := by
      rw [isAbsolute, beq_eq_false_iff_ne]
      intro absolute
      obtain ⟨rest, begins⟩ := List.head?_eq_some_iff.mp absolute
      rw [begins] at headless
      cases headless
    rw [components_eq, components_eq base, components_eq part, ← List.map_append,
      componentChars_join relative empty, componentChars_headless headless]

theorem eq_of_isIdle {piece : List UInt8} (idle : isIdle piece = true) : piece = [] ∨ piece = [dot] := by
  simpa [isIdle] using idle

theorem components_join_idle (idle : isIdle part.bytes = true) (nonempty : base.bytes ≠ []) :
    components (join base part) = components base := by
  have none : (splitSlash part.bytes).filter (!isIdle ·) = [] := by
    rcases eq_of_isIdle idle with same | same <;> rw [same] <;> rfl
  have relative : isAbsolute part = false := by
    rcases eq_of_isIdle idle with same | same <;> rw [isAbsolute, same] <;> rfl
  rw [components_eq, componentChars_join relative nonempty, none, List.append_nil, components_eq]

end Join

def IsNormal (component : OsText) : Prop := component.bytes ∉ [[slash], [dot], [dot, dot]]

instance (component : OsText) : Decidable (IsNormal component) := inferInstanceAs (Decidable (_ ∉ _))

section Cut

variable {path name parent : OsText}

theorem filter_takeWhile (pieces : List (List UInt8)) :
    (pieces.takeWhile isIdle).filter (!isIdle ·) = [] := by
  rw [List.filter_eq_nil_iff]
  intro piece member
  simp [List.mem_takeWhile_imp member]

/-- The pieces that count before the last one are those of the parent. -/
theorem components_of_cut {head last : List UInt8} {earlier : List (List UInt8)}
    (cut : cutBack path.bytes = (head, last :: earlier)) :
    cutHead last = ([], last) ∧ componentChars last = [last] ∧ components path =
      components (OsText.mk (head ++ joinSlash (earlier.dropWhile isIdle).reverse)) ++
        [OsText.mk last] := by
  cases headed : cutHead path.bytes with
  | mk first body =>
      rw [cutBack, headed, Prod.mk.injEq] at cut
      obtain ⟨rfl, cut⟩ := cut
      have counts : isIdle last = false := by
        simpa [cut] using List.head?_dropWhile_not isIdle (splitSlash body).reverse
      obtain ⟨front, fronted⟩ : ∃ front, (earlier.dropWhile isIdle).reverse = front := ⟨_, rfl⟩
      -- Idle pieces may stand between the parent and the last name, and behind that name.
      have pieces : splitSlash body = front ++ ((earlier.takeWhile isIdle).reverse ++
          last :: ((splitSlash body).reverse.takeWhile isIdle).reverse) := calc
        splitSlash body = ((splitSlash body).reverse.takeWhile isIdle ++
            last :: (earlier.takeWhile isIdle ++ earlier.dropWhile isIdle)).reverse := by
          rw [List.takeWhile_append_dropWhile, ← cut, List.takeWhile_append_dropWhile,
            List.reverse_reverse]
        _ = _ := by
          rw [← fronted]
          simp only [List.reverse_append, List.reverse_cons, List.append_assoc, List.singleton_append]
      have bare : ∀ piece ∈ splitSlash body, slash ∉ piece := fun piece => not_mem_of_mem_splitSlash
      have lastBare : slash ∉ last := bare last (by rw [pieces]; simp)
      simp only [isIdle, Bool.or_eq_false_iff, beq_eq_false_iff_ne] at counts
      have headless := cutHead_of_bare lastBare counts.2
      refine ⟨headless, ?_, ?_⟩
      · rw [componentChars_headless headless, splitSlash_of_not_mem lastBare]
        simp [isIdle, counts]
      · have parented : cutHead (first ++ joinSlash front) = (first, joinSlash front) := by
          apply cutHead_joinSlash _ (by rw [headed, ← pieces, joinSlash_splitSlash])
          simp
        have counted : (splitSlash (joinSlash front)).filter (!isIdle ·) = front.filter (!isIdle ·) := by
          by_cases empty : front = []
          · subst empty
            rfl
          · rw [splitSlash_joinSlash empty]
            intro piece member
            exact bare piece (by rw [pieces]; exact List.mem_append_left _ member)
        rw [fronted, components_eq, components_eq, componentChars, componentChars,
          headed, parented]
        dsimp only
        rw [counted, pieces, List.filter_append, List.filter_append, List.filter_cons,
          List.filter_reverse, List.filter_reverse, filter_takeWhile, filter_takeWhile]
        simp [isIdle, counts]

theorem components_of_cut_nil {head : List UInt8} (cut : cutBack path.bytes = (head, [])) :
    components path = [] ∨
      ∃ root, (root = [slash] ∨ root = [dot]) ∧ components path = [OsText.mk root] := by
  cases headed : cutHead path.bytes with
  | mk first body =>
      rw [cutBack, headed, Prod.mk.injEq] at cut
      obtain ⟨rfl, cut⟩ := cut
      have idle : (splitSlash body).filter (!isIdle ·) = [] := by
        rw [List.dropWhile_eq_nil_iff] at cut
        simpa [List.filter_eq_nil_iff] using cut
      have only : components path = (if first = [] then [] else [first]).map OsText.mk := by
        rw [components_eq, componentChars, headed, idle, List.append_nil]
      rcases head_of_cutHead headed with rfl | rfl | rfl
      · exact Or.inl only
      · exact Or.inr ⟨[slash], Or.inl rfl, only⟩
      · exact Or.inr ⟨[dot], Or.inr rfl, only⟩

theorem exists_parent_of_fileName? (named : fileName? path = some name) :
    ∃ parent, parent? path = some parent ∧ components path = components parent ++ [name] ∧
      slash ∉ name.bytes ∧ cutHead name.bytes = ([], name.bytes) ∧ components name = [name] := by
  unfold fileName? at named
  split at named
  · cases named
  · rename_i head last earlier cut
    split at named
    · cases named
    · cases named
      obtain ⟨headless, single, split⟩ := components_of_cut cut
      refine ⟨_, by rw [parent?, cut], split, ?_, headless, by rw [components_eq, single]; rfl⟩
      rw [cutBack] at cut
      obtain ⟨-, cut⟩ := Prod.mk.inj cut
      have member : last ∈ (splitSlash (cutHead path.bytes).2).reverse :=
        (List.dropWhile_sublist isIdle).subset (cut ▸ List.mem_cons_self)
      exact not_mem_of_mem_splitSlash (List.mem_reverse.mp member)

theorem fileName?_of_isNormal (last : (components path).getLast? = some name) (normal : IsNormal name) :
    fileName? path = some name := by
  cases cut : cutBack path.bytes with
  | mk head pieces =>
      cases pieces with
      | nil =>
          rcases components_of_cut_nil cut with none | ⟨root, named, only⟩
          · simp [none] at last
          · rw [only] at last
            cases last
            rcases named with rfl | rfl <;> simp [IsNormal] at normal
      | cons piece earlier =>
          obtain ⟨-, -, split⟩ := components_of_cut cut
          rw [split, List.getLast?_append, List.getLast?_singleton, Option.some_or,
            Option.some.injEq] at last
          rw [fileName?, cut]
          dsimp only
          rw [if_neg, last]
          rintro rfl
          simp [IsNormal, ← last] at normal

/-- Joining the parent of a path with a bare part gives the path again just if the part is the file name
of the path, but for pieces that do not count. -/
theorem components_join_parent_iff {part : OsText} (last : (components path).getLast? = some name)
    (normal : IsNormal name) (bare : slash ∉ part.bytes) :
    components (join ((parent? path).getD ⟨[]⟩) part) = components path ↔ part = name := by
  obtain ⟨parent, parented, split, -, headless, single⟩ :=
    exists_parent_of_fileName? (fileName?_of_isNormal last normal)
  rw [parented, Option.getD_some, split]
  constructor
  · intro same
    by_cases idle : isIdle part.bytes = true
    · exfalso
      by_cases empty : parent.bytes = []
      · rw [join_of_nil empty, components_of_nil empty, components_eq] at same
        rcases eq_of_isIdle idle with blank | single
        · rw [blank] at same
          cases same
        · rw [single] at same
          cases same
          exact absurd normal (by decide)
      · rw [components_join_idle idle empty] at same
        simpa using congrArg List.length same
    · simp only [isIdle, Bool.or_eq_true, beq_iff_eq, not_or] at idle
      rw [components_join (cutHead_of_bare bare idle.2), List.append_cancel_left_eq, components_eq,
        componentChars_headless (cutHead_of_bare bare idle.2), splitSlash_of_not_mem bare] at same
      simpa [isIdle, idle] using same
  · rintro rfl
    rw [components_join headless, single]

end Cut

end ContingentPlan.Path
