import ContingentPlan.Text.Lines
import Mathlib.Data.List.TakeWhile

/-!
Deleting lines from a text by their numbers. A line goes together with its line end, so the lines that
stay are left as they are and only move up.
-/

namespace ContingentPlan

section Numbered

variable {α β : Type} {numbers : List Nat}

/-- The items without those at the given positions, counted from `start`. -/
def withoutFrom (start : Nat) (numbers : List Nat) (items : List α) : List α :=
  ((items.zipIdx start).filter (·.2 ∉ numbers)).map Prod.fst

def movedUp (numbers : List Nat) (number : Nat) : Nat := number - numbers.countP (· < number)

theorem withoutFrom_map (start : Nat) (change : α → β) (items : List α) :
    withoutFrom start numbers (items.map change) = (withoutFrom start numbers items).map change := by
  rw [withoutFrom, withoutFrom, List.zipIdx_map, List.filter_map, List.map_map, List.map_map]
  rfl

theorem withoutFrom_sublist (start : Nat) (items : List α) :
    (withoutFrom start numbers items).Sublist items := by
  have kept := (List.filter_sublist (p := (·.2 ∉ numbers)) (l := items.zipIdx start)).map Prod.fst
  rwa [List.zipIdx_map_fst] at kept

theorem withoutFrom_append (start : Nat) (first second : List α) :
    withoutFrom start numbers (first ++ second) =
      withoutFrom start numbers first ++ withoutFrom (start + first.length) numbers second := by
  rw [withoutFrom, List.zipIdx_append, List.filter_append, List.map_append]
  rfl

theorem withoutFrom_of_beyond {start : Nat} {items : List α}
    (beyond : ∀ number ∈ numbers, start + items.length ≤ number) :
    withoutFrom start numbers items = items := by
  have all : (items.zipIdx start).filter (·.2 ∉ numbers) = items.zipIdx start := by
    rw [List.filter_eq_self]
    intro item member
    have bound := List.snd_lt_of_mem_zipIdx member
    simpa using fun deleted => absurd (beyond _ deleted) (by omega)
  rw [withoutFrom, all, List.zipIdx_map_fst]

theorem countP_lt_succ (distinct : numbers.Nodup) (bound : Nat) :
    numbers.countP (· < bound + 1) =
      numbers.countP (· < bound) + if bound ∈ numbers then 1 else 0 := by
  induction numbers with
  | nil => rfl
  | cons number numbers ih =>
      obtain ⟨fresh, distinct⟩ := List.nodup_cons.mp distinct
      rw [List.countP_cons, List.countP_cons, ih distinct]
      by_cases same : bound = number
      · subst same
        simp [fresh]
      · simp only [List.mem_cons, same, false_or, decide_eq_true_eq]
        have order : number < bound + 1 ↔ number < bound := by omega
        simp only [order]
        omega

theorem zipIdx_withoutFrom (distinct : numbers.Nodup) (items : List α) {start : Nat}
    (few : numbers.countP (· < start) ≤ start) :
    (withoutFrom start numbers items).zipIdx (movedUp numbers start) =
      ((items.zipIdx start).filter (·.2 ∉ numbers)).map (Prod.map id (movedUp numbers)) := by
  induction items generalizing start with
  | nil => rfl
  | cons item items ih =>
      have next := countP_lt_succ distinct start
      rw [withoutFrom, List.zipIdx_cons]
      by_cases deleted : start ∈ numbers
      · rw [if_pos deleted] at next
        have same : movedUp numbers (start + 1) = movedUp numbers start := by
          rw [movedUp, movedUp, next]
          omega
        rw [List.filter_cons_of_neg (by simpa using deleted), ← same]
        exact ih (by omega)
      · rw [if_neg deleted] at next
        have succ : movedUp numbers (start + 1) = movedUp numbers start + 1 := by
          rw [movedUp, movedUp, next]
          omega
        have later := @ih (start + 1) (by omega)
        rw [withoutFrom, succ] at later
        rw [List.filter_cons_of_pos (by simpa using deleted), List.map_cons, List.zipIdx_cons,
          List.map_cons, later]
        rfl

theorem takeWhile_filter {passes keeps : α → Bool} {items : List α}
    (stopKept : ∀ item ∈ items, passes item = false → keeps item = true) :
    (items.filter keeps).takeWhile passes = (items.takeWhile passes).filter keeps := by
  induction items with
  | nil => rfl
  | cons item items ih =>
      have later := ih fun other member => stopKept other (List.mem_cons_of_mem _ member)
      cases passing : passes item with
      | true => cases kept : keeps item <;> simp [passing, kept, later]
      | false => simp [passing, stopKept item List.mem_cons_self passing]

theorem eq_of_mem_zipIdx {items : List α} {start : Nat} {first second : α × Nat}
    (member : first ∈ items.zipIdx start) (other : second ∈ items.zipIdx start)
    (same : first.2 = second.2) : first = second := by
  have item := (List.mem_zipIdx_iff_le_and_getElem?_sub.mp member).2
  have otherItem := (List.mem_zipIdx_iff_le_and_getElem?_sub.mp other).2
  rw [same, otherItem, Option.some.injEq] at item
  exact Prod.ext item.symm same

end Numbered

namespace Text

variable {numbers : List Nat}

def rowsFrom (current : List Char) : List Char → List (List Char)
  | [] => if current.isEmpty then [] else [current.reverse]
  | character :: rest =>
      if character = '\n' then (character :: current).reverse :: rowsFrom [] rest
      else rowsFrom (character :: current) rest

def content (row : List Char) : List Char :=
  match row.reverse with
  | '\n' :: body => (dropReturn body).reverse
  | _ => row

def deleteLines (numbers : List Nat) (text : String) : String :=
  String.ofList (withoutFrom 1 numbers (rowsFrom [] text.toList)).flatten

theorem linesFrom_eq_rowsFrom {current : List Char} (unbroken : '\n' ∉ current) (text : List Char) :
    linesFrom current text = (rowsFrom current text).map content := by
  induction text generalizing current with
  | nil =>
      cases current with
      | nil => rfl
      | cons last current =>
          rw [List.mem_cons, not_or] at unbroken
          have row : content (last :: current).reverse = (last :: current).reverse := by
            rw [content, List.reverse_reverse]
            split
            · rename_i body same
              exact absurd (List.cons.inj same).1.symm unbroken.1
            · rfl
          simp only [linesFrom, rowsFrom, List.isEmpty_cons, Bool.false_eq_true, if_false,
            List.map_singleton, row]
  | cons character text ih =>
      by_cases ends : character = '\n'
      · have row : content (character :: current).reverse = (dropReturn current).reverse := by
          simp [content, ends]
        rw [linesFrom, rowsFrom, if_pos ends, if_pos ends, List.map_cons, row, ih (by simp)]
      · rw [linesFrom, rowsFrom, if_neg ends, if_neg ends,
          ih (by simpa using ⟨Ne.symm ends, unbroken⟩)]

/-- A list of rows: each ends at its first line feed, only the last one may lack it. -/
inductive Rows : List (List Char) → Prop
  | none : Rows []
  | broken {row : List Char} : row ≠ [] → '\n' ∉ row → Rows [row]
  | whole {body : List Char} {rows : List (List Char)} : '\n' ∉ body → Rows rows →
      Rows ((body ++ ['\n']) :: rows)

theorem rows_rowsFrom {current : List Char} (unbroken : '\n' ∉ current) (text : List Char) :
    Rows (rowsFrom current text) := by
  induction text generalizing current with
  | nil =>
      cases current with
      | nil => exact .none
      | cons last current => exact .broken (by simp) (by simpa [and_comm] using unbroken)
  | cons character text ih =>
      rw [rowsFrom]
      split
      · rename_i ends
        rw [ends, List.reverse_cons]
        exact .whole (by simpa using unbroken) (ih (by simp))
      · rename_i goesOn
        exact ih (by simpa using ⟨Ne.symm goesOn, unbroken⟩)

theorem Rows.sublist {rows kept : List (List Char)} (all : Rows rows) (some : kept.Sublist rows) :
    Rows kept := by
  induction all generalizing kept with
  | none =>
      rw [List.sublist_nil.mp some]
      exact .none
  | broken nonempty unbroken =>
      cases some with
      | cons _ later =>
          rw [List.sublist_nil.mp later]
          exact .none
      | cons_cons _ later =>
          rw [List.sublist_nil.mp later]
          exact .broken nonempty unbroken
  | whole unbroken _ ih =>
      cases some with
      | cons _ later => exact ih later
      | cons_cons _ later => exact .whole unbroken (ih later)

theorem rowsFrom_append {line : List Char} (unbroken : '\n' ∉ line) (current rest : List Char) :
    rowsFrom current (line ++ rest) = rowsFrom (line.reverse ++ current) rest := by
  induction line generalizing current with
  | nil => rfl
  | cons character line ih =>
      rw [List.mem_cons, not_or] at unbroken
      rw [List.cons_append, rowsFrom, if_neg (Ne.symm unbroken.1), ih unbroken.2]
      simp

theorem Rows.rowsFrom_flatten {rows : List (List Char)} (all : Rows rows) :
    rowsFrom [] rows.flatten = rows := by
  induction all with
  | none => rfl
  | @broken row nonempty unbroken =>
      have read := rowsFrom_append unbroken [] []
      rw [List.append_nil, List.append_nil] at read
      rw [List.flatten_cons, List.flatten_nil, List.append_nil, read, rowsFrom,
        if_neg (by simpa using nonempty), List.reverse_reverse]
  | whole unbroken _ ih =>
      rw [List.flatten_cons, List.append_assoc, rowsFrom_append unbroken, List.singleton_append,
        rowsFrom, if_pos rfl, ih]
      simp

theorem flatten_rowsFrom (current text : List Char) :
    (rowsFrom current text).flatten = current.reverse ++ text := by
  induction text generalizing current with
  | nil => cases current <;> simp [rowsFrom]
  | cons character text ih =>
      rw [rowsFrom]
      split
      · rw [List.flatten_cons, ih]
        simp
      · rw [ih]
        simp

theorem deleteLines_nil (text : String) : deleteLines [] text = text := by
  rw [deleteLines, withoutFrom_of_beyond (by simp), flatten_rowsFrom]
  simp

theorem lines_deleteLines (numbers : List Nat) (text : String) :
    lines (deleteLines numbers text) = withoutFrom 1 numbers (lines text) := by
  have rows : Rows (withoutFrom 1 numbers (rowsFrom [] text.toList)) :=
    (rows_rowsFrom (by simp) _).sublist (withoutFrom_sublist _ _)
  rw [lines, deleteLines, String.toList_ofList, linesFrom_eq_rowsFrom (by simp),
    rows.rowsFrom_flatten, lines, linesFrom_eq_rowsFrom (by simp), withoutFrom_map, withoutFrom_map]

end Text

end ContingentPlan
