import ContingentPlan.Trace.Block
import Mathlib.Data.List.TakeWhile

/-!
The plan block as what stands behind the first announcement of a plan.
-/

namespace ContingentPlan

/-- The first announcement of a plan, with the lines before it and behind it. -/
structure Announced (lines preamble : List String) (announcement : String) (rest : List String) :
    Prop where
  lines_eq : lines = preamble ++ announcement :: rest
  announces : announcesPlan announcement = true
  first : ∀ line ∈ preamble, announcesPlan line = false

def TraceLine.ofNumbered (line : String × Nat) : TraceLine :=
  { number := line.2, text := normalLine line.1 }

def TraceLine.renumber (move : Nat → Nat) (line : TraceLine) : TraceLine :=
  { line with number := move line.number }

def TraceLine.ends (line : TraceLine) : Bool := Text.opensWith blockEnd line.text

def blockAmong (numbered : List (String × Nat)) : List TraceLine :=
  ((numbered.map TraceLine.ofNumbered).takeWhile (!·.ends)).filter (·.text ≠ "")

theorem planBlock?_of_announced {trace announcement : String} {preamble rest : List String}
    (announced : Announced (Text.lines trace) preamble announcement rest) :
    planBlock? trace = some (blockAmong (rest.zipIdx (preamble.length + 2))) := by
  have found : ((Text.lines trace).zipIdx 1).dropWhile (fun line => !announcesPlan line.1) =
      (announcement, preamble.length + 1) :: rest.zipIdx (preamble.length + 2) := by
    have passed : ∀ line ∈ preamble.zipIdx 1, (!announcesPlan line.1) = true := by
      intro line member
      rw [announced.first _ (List.fst_mem_of_mem_zipIdx member)]
      rfl
    rw [announced.lines_eq, List.zipIdx_append, List.zipIdx_cons,
      List.dropWhile_append_of_pos passed, List.dropWhile_cons_of_neg (by simp [announced.announces])]
    simp only [Nat.add_comm, Nat.add_left_comm]
  rw [planBlock?, found]
  rfl

theorem exists_announced {trace : String} {block : List TraceLine}
    (announced : planBlock? trace = some block) :
    ∃ preamble announcement rest, Announced (Text.lines trace) preamble announcement rest ∧
      block = blockAmong (rest.zipIdx (preamble.length + 2)) := by
  cases found : (Text.lines trace).find? announcesPlan with
  | none =>
      have passed : ((Text.lines trace).zipIdx 1).dropWhile
          (fun line => !announcesPlan line.1) = [] := by
        rw [List.dropWhile_eq_nil_iff]
        intro line member
        have silent := List.find?_eq_none.mp found _ (List.fst_mem_of_mem_zipIdx member)
        simpa using silent
      rw [planBlock?, passed] at announced
      cases announced
  | some announcement =>
      obtain ⟨announces, preamble, rest, split, first⟩ := List.find?_eq_some_iff_append.mp found
      have behind : Announced (Text.lines trace) preamble announcement rest :=
        ⟨split, announces, fun line member => by simpa using first line member⟩
      rw [planBlock?_of_announced behind, Option.some.injEq] at announced
      exact ⟨preamble, announcement, rest, behind, announced.symm⟩

theorem mem_blockAmong {numbered : List (String × Nat)} {line : TraceLine}
    (member : line ∈ blockAmong numbered) :
    line.ends = false ∧ ∃ item ∈ numbered, TraceLine.ofNumbered item = line := by
  have taken := (List.mem_filter.mp member).1
  refine ⟨by simpa using List.mem_takeWhile_imp taken, ?_⟩
  exact List.mem_map.mp ((List.takeWhile_sublist _).subset taken)

theorem blockAmong_map {numbered : List (String × Nat)} (move : Nat → Nat) :
    blockAmong (numbered.map (Prod.map id move)) =
      (blockAmong numbered).map (TraceLine.renumber move) := by
  have moved : TraceLine.ofNumbered ∘ Prod.map id move =
      TraceLine.renumber move ∘ TraceLine.ofNumbered := rfl
  rw [blockAmong, List.map_map, moved, ← List.map_map, List.takeWhile_map, List.filter_map]
  rfl

end ContingentPlan
