import CanglingBroker.Foundation.Run

/-!
# Keyed tables

A table is a list of rows with a primary key and an optional alternate key,
both unique: the uniqueness is part of the table, so no statement can build a
table without it.  `NULL` alternate keys never conflict.

The statements are those a relational store runs as one atomic step: `UPDATE`
under a guard, `DELETE` under a guard and `INSERT OR IGNORE`.
-/

namespace CanglingBroker
namespace Foundation

abbrev Dict (Key Value : Type) : Type := AList fun _ : Key => Value

variable {Row Key Alternate : Type}

/-- Rows with a unique primary key and a unique, nullable alternate key. -/
structure Table (primary : Row → Key) (alternate : Row → Option Alternate) where
  rows : List Row
  primaryNodup : (rows.map primary).Nodup
  alternateNodup : (rows.filterMap alternate).Nodup

/-- The `SET` list of an `UPDATE` that leaves both keys alone. -/
structure Assignment (primary : Row → Key) (alternate : Row → Option Alternate) where
  set : Row → Row
  keepsPrimary : ∀ row, primary (set row) = primary row
  keepsAlternate : ∀ row, alternate (set row) = alternate row

namespace Table

variable {primary : Row → Key} {alternate : Row → Option Alternate}

theorem eq_of_rows_eq :
    ∀ {left right : Table primary alternate}, left.rows = right.rows → left = right
  | ⟨_, _, _⟩, ⟨_, _, _⟩, rfl => rfl

def empty : Table primary alternate where
  rows := []
  primaryNodup := List.nodup_nil
  alternateNodup := List.nodup_nil

def rewrite (guard : Row → Bool) (assignment : Assignment primary alternate) (row : Row) : Row :=
  if guard row then assignment.set row else row

theorem primary_rewrite (guard : Row → Bool) (assignment : Assignment primary alternate)
    (row : Row) :
    primary (rewrite guard assignment row) = primary row := by
  unfold rewrite
  split
  · exact assignment.keepsPrimary row
  · rfl

theorem alternate_rewrite (guard : Row → Bool) (assignment : Assignment primary alternate)
    (row : Row) :
    alternate (rewrite guard assignment row) = alternate row := by
  unfold rewrite
  split
  · exact assignment.keepsAlternate row
  · rfl

/-- `UPDATE … SET … WHERE guard`. -/
def update (guard : Row → Bool) (assignment : Assignment primary alternate)
    (table : Table primary alternate) : Table primary alternate where
  rows := table.rows.map (rewrite guard assignment)
  primaryNodup := by
    rw [List.map_map]
    have same : primary ∘ rewrite guard assignment = primary :=
      funext fun row => primary_rewrite guard assignment row
    rw [same]
    exact table.primaryNodup
  alternateNodup := by
    rw [List.filterMap_map]
    have same : alternate ∘ rewrite guard assignment = alternate :=
      funext fun row => alternate_rewrite guard assignment row
    rw [same]
    exact table.alternateNodup

/-- `DELETE … WHERE guard`. -/
def delete (guard : Row → Bool) (table : Table primary alternate) :
    Table primary alternate where
  rows := table.rows.filter fun row => !guard row
  primaryNodup := table.primaryNodup.sublist (List.filter_sublist.map primary)
  alternateNodup := table.alternateNodup.sublist (List.filter_sublist.filterMap alternate)

def Clash (primary : Row → Key) (alternate : Row → Option Alternate) (stored new : Row) : Prop :=
  primary stored = primary new ∨ (alternate new ≠ none ∧ alternate stored = alternate new)

instance [DecidableEq Key] [DecidableEq Alternate] (stored new : Row) :
    Decidable (Clash primary alternate stored new) :=
  inferInstanceAs (Decidable (_ ∨ (_ ∧ _)))

/-- Some stored row has the new row's primary or alternate key. -/
def Conflicts (table : Table primary alternate) (new : Row) : Prop :=
  ∃ stored ∈ table.rows, Clash primary alternate stored new

instance [DecidableEq Key] [DecidableEq Alternate]
    (table : Table primary alternate) (new : Row) :
    Decidable (table.Conflicts new) :=
  inferInstanceAs (Decidable (∃ stored ∈ table.rows, _))

/-- Append a row that conflicts with none. -/
def append (table : Table primary alternate) (new : Row)
    (free : ¬ table.Conflicts new) : Table primary alternate where
  rows := table.rows ++ [new]
  primaryNodup := by
    rw [List.map_append, List.map_cons, List.map_nil, List.nodup_append]
    refine ⟨table.primaryNodup, List.nodup_singleton _, ?_⟩
    intro key member other single same
    obtain ⟨stored, inTable, rfl⟩ := List.mem_map.mp member
    rw [List.mem_singleton] at single
    exact free ⟨stored, inTable, .inl (same.trans single)⟩
  alternateNodup := by
    rw [List.filterMap_append, List.nodup_append]
    refine ⟨table.alternateNodup, ?_, ?_⟩
    · cases shape : alternate new with
      | none => simp [shape]
      | some => simp [shape]
    · intro key member other single same
      obtain ⟨stored, inTable, keyed⟩ := List.mem_filterMap.mp member
      obtain ⟨fresh, isNew, freshKeyed⟩ := List.mem_filterMap.mp single
      rw [List.mem_singleton] at isNew
      subst isNew
      subst same
      refine free ⟨stored, inTable, .inr ⟨?_, ?_⟩⟩
      · rw [freshKeyed]
        exact Option.some_ne_none key
      · rw [keyed, freshKeyed]

section Insert

variable [DecidableEq Key] [DecidableEq Alternate]

/-- `INSERT OR IGNORE`: a conflicting row is silently not stored. -/
def insertOrIgnore (new : Row) (table : Table primary alternate) :
    Table primary alternate :=
  if free : ¬ table.Conflicts new then table.append new free else table

theorem insertOrIgnore_rows (new : Row) (table : Table primary alternate) :
    (table.insertOrIgnore new).rows =
      if table.Conflicts new then table.rows else table.rows ++ [new] := by
  unfold insertOrIgnore
  by_cases conflict : table.Conflicts new
  · simp [conflict]
  · simp [conflict, append]

theorem mem_insertOrIgnore_of_mem {new row : Row} {table : Table primary alternate}
    (member : row ∈ table.rows) :
    row ∈ (table.insertOrIgnore new).rows := by
  rw [insertOrIgnore_rows]
  split
  · exact member
  · exact List.mem_append_left [new] member

theorem mem_of_mem_insertOrIgnore {new row : Row} {table : Table primary alternate}
    (member : row ∈ (table.insertOrIgnore new).rows) :
    row ∈ table.rows ∨ (row = new ∧ ¬ table.Conflicts new) := by
  rw [insertOrIgnore_rows] at member
  split at member
  · exact .inl member
  · next free =>
    rcases List.mem_append.mp member with stored | single
    · exact .inl stored
    · exact .inr ⟨List.mem_singleton.mp single, free⟩

end Insert

variable {left right : Row}

theorem eq_of_primary_eq (table : Table primary alternate)
    (leftStored : left ∈ table.rows) (rightStored : right ∈ table.rows)
    (same : primary left = primary right) :
    left = right :=
  List.inj_on_of_nodup_map table.primaryNodup leftStored rightStored same

private theorem eq_of_filterMap_nodup {key : Alternate} : ∀ {rows : List Row},
    (rows.filterMap alternate).Nodup →
      left ∈ rows → right ∈ rows →
        alternate left = some key → alternate right = some key → left = right
  | [], _, leftStored, _, _, _ => by
    cases leftStored
  | head :: tail, unique, leftStored, rightStored, leftKeyed, rightKeyed => by
    have keyOfTail : ∀ row ∈ tail, alternate row = some key → key ∈ tail.filterMap alternate :=
      fun row member keyed => List.mem_filterMap.mpr ⟨row, member, keyed⟩
    have tailUnique : (tail.filterMap alternate).Nodup :=
      unique.sublist ((List.sublist_cons_self head tail).filterMap alternate)
    rcases List.mem_cons.mp leftStored with rfl | leftTail
    · rcases List.mem_cons.mp rightStored with rfl | rightTail
      · rfl
      · rw [List.filterMap_cons_some leftKeyed, List.nodup_cons] at unique
        exact absurd (keyOfTail right rightTail rightKeyed) unique.1
    · rcases List.mem_cons.mp rightStored with rfl | rightTail
      · rw [List.filterMap_cons_some rightKeyed, List.nodup_cons] at unique
        exact absurd (keyOfTail left leftTail leftKeyed) unique.1
      · exact
          eq_of_filterMap_nodup tailUnique leftTail rightTail leftKeyed rightKeyed

theorem eq_of_alternate_eq (table : Table primary alternate) {key : Alternate}
    (leftStored : left ∈ table.rows) (rightStored : right ∈ table.rows)
    (leftKeyed : alternate left = some key) (rightKeyed : alternate right = some key) :
    left = right :=
  eq_of_filterMap_nodup table.alternateNodup leftStored rightStored leftKeyed rightKeyed

/-! ## Reading the rows after a statement -/

variable {table : Table primary alternate} {guard : Row → Bool}
  {assignment : Assignment primary alternate}

theorem mem_update {row : Row} :
    row ∈ (table.update guard assignment).rows ↔
      ∃ stored ∈ table.rows, rewrite guard assignment stored = row :=
  List.mem_map

theorem mem_delete {row : Row} :
    row ∈ (table.delete guard).rows ↔ row ∈ table.rows ∧ guard row = false := by
  simp [delete]

theorem update_eq_self (unmatched : ∀ row ∈ table.rows, guard row = false) :
    table.update guard assignment = table := by
  have same : table.rows.map (rewrite guard assignment) = table.rows := by
    have pointwise : ∀ row ∈ table.rows, rewrite guard assignment row = id row := by
      intro row member
      simp [rewrite, unmatched row member]
    rw [List.map_congr_left pointwise, List.map_id]
  cases table
  simp only [update, Table.mk.injEq]
  exact same

end Table

end Foundation
end CanglingBroker
