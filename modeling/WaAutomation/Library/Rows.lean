/-
**Lists of rows with a primary key.**

`put` writes a row over the stored one with its key. Under unique keys it changes exactly one
element, which is what `count_put` (how a count moves) and `forall₂_put` (position by position) say;
`find_put` and `keys_put` need no uniqueness. `filter_put_in` and `filter_put_out` are about a part
of the rows a write stays inside or outside of.
-/

import Mathlib.Data.List.Forall2
import Mathlib.Data.List.Nodup

set_option linter.unusedSectionVars false

namespace WaAutomation.Library.Rows

variable {α κ : Type} [DecidableEq κ] (key : α → κ)

/-- Write a row over the stored one with its key. -/
def put (row : α) (rows : List α) : List α :=
  rows.map fun other => if key other = key row then row else other

variable {key}

theorem put_cons (row first : α) (rest : List α) :
    put key row (first :: rest) =
      (if key first = key row then row else first) :: put key row rest := rfl

theorem keys_put (row : α) (rows : List α) : (put key row rows).map key = rows.map key := by
  unfold put
  rw [List.map_map]
  refine List.map_congr_left fun other _ => ?_
  simp only [Function.comp_apply]
  split
  · rename_i same
    exact same.symm
  · rfl

/-- Rows with the same key are the same row. -/
theorem unique {rows : List α} (keys : (rows.map key).Nodup) {first second : α}
    (left : first ∈ rows) (right : second ∈ rows) (same : key first = key second) :
    first = second :=
  List.inj_on_of_nodup_map keys left right same

theorem mem_put {row other : α} {rows : List α} :
    other ∈ put key row rows ↔
      (other ∈ rows ∧ key other ≠ key row) ∨ (other = row ∧ ∃ old ∈ rows, key old = key row) := by
  unfold put
  rw [List.mem_map]
  constructor
  · rintro ⟨old, member, rfl⟩
    split
    · rename_i same
      exact .inr ⟨rfl, old, member, same⟩
    · rename_i different
      exact .inl ⟨member, different⟩
  · rintro (⟨member, different⟩ | ⟨rfl, old, member, same⟩)
    · exact ⟨other, member, if_neg different⟩
    · exact ⟨old, member, if_pos same⟩

/-- A row that is not stored changes nothing. -/
theorem put_absent {row : α} {rows : List α} (absent : key row ∉ rows.map key) :
    put key row rows = rows := by
  refine (List.map_congr_left fun other member => ?_).trans (List.map_id rows)
  exact if_neg fun same => absent (List.mem_map.mpr ⟨other, member, same⟩)

/-- A stored row written over itself changes nothing. -/
theorem put_stored {row : α} {rows : List α} (keys : (rows.map key).Nodup) (stored : row ∈ rows) :
    put key row rows = rows := by
  refine (List.map_congr_left fun other member => ?_).trans (List.map_id rows)
  split
  · rename_i same
    exact unique keys stored member same.symm
  · rfl

/-- The row found under a key after a write. -/
theorem find_put (row : α) (rows : List α) (sought : κ) :
    (put key row rows).find? (fun other => decide (key other = sought)) =
      if key row = sought then
        (rows.find? fun other => decide (key other = sought)).map fun _ => row
      else rows.find? fun other => decide (key other = sought) := by
  induction rows with
  | nil => simp [put]
  | cons first rest ih =>
    rw [put_cons, List.find?_cons, List.find?_cons, ih]
    by_cases same : key first = key row
    · rw [if_pos same, same]
      by_cases hit : key row = sought <;> simp [hit]
    · rw [if_neg same]
      by_cases hit : key first = sought
      · have miss : key row ≠ sought := fun equal => same (hit.trans equal.symm)
        simp [hit, miss]
      · simp [hit]

/-- A part of the rows that a write stays inside. -/
theorem filter_put_in {part : α → Bool} {row : α} {rows : List α} (inside : part row = true)
    (old : ∀ other ∈ rows, key other = key row → part other = true) :
    (put key row rows).filter part = put key row (rows.filter part) := by
  induction rows with
  | nil => rfl
  | cons first rest ih =>
    have rest_same := ih fun other member => old other (List.mem_cons_of_mem _ member)
    rw [put_cons]
    by_cases same : key first = key row
    · rw [if_pos same, List.filter_cons_of_pos inside, rest_same,
        List.filter_cons_of_pos (old first List.mem_cons_self same), put_cons, if_pos same]
    · rw [if_neg same]
      by_cases here : part first = true
      · rw [List.filter_cons_of_pos here, List.filter_cons_of_pos here, put_cons, if_neg same,
          rest_same]
      · rw [List.filter_cons_of_neg here, List.filter_cons_of_neg here, rest_same]

/-- A part of the rows that a write stays outside of. -/
theorem filter_put_out {part : α → Bool} {row : α} {rows : List α} (outside : part row = false)
    (old : ∀ other ∈ rows, key other = key row → part other = false) :
    (put key row rows).filter part = rows.filter part := by
  induction rows with
  | nil => rfl
  | cons first rest ih =>
    have rest_same := ih fun other member => old other (List.mem_cons_of_mem _ member)
    rw [put_cons]
    by_cases same : key first = key row
    · rw [if_pos same, List.filter_cons_of_neg (Bool.eq_false_iff.mp outside),
        List.filter_cons_of_neg (Bool.eq_false_iff.mp (old first List.mem_cons_self same)),
        rest_same]
    · rw [if_neg same, List.filter_cons, List.filter_cons, rest_same]

/-- How a count moves when one row is written. -/
theorem count_put {rows : List α} (keys : (rows.map key).Nodup) {old row : α} (member : old ∈ rows)
    (same : key old = key row) (counted : α → Bool) :
    (put key row rows).countP counted + (if counted old then 1 else 0) =
      rows.countP counted + (if counted row then 1 else 0) := by
  induction rows with
  | nil => cases member
  | cons first rest ih =>
    rw [List.map_cons, List.nodup_cons] at keys
    by_cases here : key first = key row
    · have is_old : first = old := by
        rcases List.mem_cons.mp member with rfl | later
        · rfl
        · exact absurd (List.mem_map.mpr ⟨old, later, same.trans here.symm⟩) keys.1
      have rest_same : put key row rest = rest := put_absent (here ▸ keys.1)
      subst is_old
      rw [put_cons, if_pos here, rest_same, List.countP_cons, List.countP_cons]
      omega
    · have later : old ∈ rest := by
        rcases List.mem_cons.mp member with rfl | later
        · exact absurd same here
        · exact later
      have rest_count := ih keys.2 later
      rw [put_cons, if_neg here, List.countP_cons, List.countP_cons]
      omega

/-- A write, position by position. -/
theorem forall₂_put {relation : α → α → Prop} {row : α} (refl : ∀ other, relation other other) :
    ∀ {rows : List α}, (∀ old ∈ rows, key old = key row → relation old row) →
      List.Forall₂ relation rows (put key row rows) := by
  intro rows
  induction rows with
  | nil => exact fun _ => .nil
  | cons first rest ih =>
    intro written
    rw [put_cons]
    refine .cons ?_ (ih fun old member => written old (List.mem_cons_of_mem _ member))
    by_cases same : key first = key row
    · rw [if_pos same]
      exact written first List.mem_cons_self same
    · rw [if_neg same]
      exact refl first

end WaAutomation.Library.Rows
