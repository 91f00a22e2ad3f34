/-
**Texts cut at separators, and blanks around the pieces.**

A text is a list of characters. `trim` takes the blanks off its ends; two texts are `Padded` when
one is the other with blanks around it.

* `trim_padded` says that padding does not show after `trim`, and `padded_trim` that a text is its
  trimmed form, padded;
* `splitOnP_before` and `splitOnP_after` say where what comes before and after a text goes when it
  is cut, so when no separator is blank, trimming a text before it is cut changes nothing in its
  trimmed pieces (`map_trim_splitOnP`).
-/

import Mathlib.Data.List.DropRight
import Mathlib.Data.List.Forall2

set_option linter.unusedSectionVars false

namespace WaAutomation.Library.Text

variable {α : Type} {blank : α → Bool}

/-- The text without the blanks at its ends. -/
def trim (blank : α → Bool) (text : List α) : List α := (text.dropWhile blank).rdropWhile blank

/-- A padded text is a text with blanks around it. -/
def Padded (blank : α → Bool) (padded text : List α) : Prop :=
  ∃ before after, padded = before ++ text ++ after ∧
    (∀ mark ∈ before, blank mark = true) ∧ ∀ mark ∈ after, blank mark = true

theorem rdropWhile_append {text after : List α} (blanks : ∀ mark ∈ after, blank mark = true) :
    (text ++ after).rdropWhile blank = text.rdropWhile blank := by
  unfold List.rdropWhile
  rw [List.reverse_append, List.dropWhile_append_of_pos]
  exact fun mark member => blanks mark (List.mem_reverse.mp member)

/-- Padding does not show after `trim`. -/
theorem trim_padded {padded text : List α} (pads : Padded blank padded text) :
    trim blank padded = trim blank text := by
  obtain ⟨before, after, rfl, front, back⟩ := pads
  unfold trim
  rw [List.append_assoc, List.dropWhile_append_of_pos front, List.dropWhile_append]
  by_cases all : (text.dropWhile blank).isEmpty = true
  · -- nothing but blanks: both sides are empty
    rw [if_pos all, List.isEmpty_iff.mp all, List.dropWhile_eq_nil_iff.mpr back]
  · rw [if_neg all, rdropWhile_append back]

/-- A text is its trimmed form, padded. -/
theorem padded_trim (text : List α) : Padded blank text (trim blank text) := by
  refine ⟨text.takeWhile blank, (text.dropWhile blank).rtakeWhile blank, ?_, ?_, ?_⟩
  · unfold trim
    rw [List.append_assoc, List.rdropWhile_append_rtakeWhile, List.takeWhile_append_dropWhile]
  · exact fun mark member => List.mem_takeWhile_imp member
  · exact fun mark member => List.mem_rtakeWhile_imp member

/-- A text with no blank at its ends. -/
theorem trim_eq {text : List α} (first : ∀ mark ∈ text.head?, blank mark = false)
    (last : ∀ mark ∈ text.getLast?, blank mark = false) : trim blank text = text := by
  have starts : text.dropWhile blank = text := by
    cases text with
    | nil => rfl
    | cons mark rest => exact List.dropWhile_cons_of_neg (by simp [first mark rfl])
  rw [trim, starts, List.rdropWhile_eq_self_iff]
  exact fun given => by simp [last _ (List.getLast?_eq_some_getLast given)]

/-! ### Pieces -/

section Pieces

variable {separates : α → Bool}

/-- What comes before a text goes to its first piece. -/
theorem splitOnP_before {before : List α} (joined : ∀ mark ∈ before, separates mark = false)
    (text : List α) :
    (before ++ text).splitOnP separates = (text.splitOnP separates).modifyHead (before ++ ·) := by
  induction before with
  | nil => exact (congrFun List.modifyHead_id _).symm
  | cons mark rest ih =>
    obtain ⟨here, there⟩ := List.forall_mem_cons.mp joined
    rw [List.cons_append, List.splitOnP_cons_eq_if_modifyHead, ih there,
      if_neg (Bool.eq_false_iff.mp here), List.modifyHead_modifyHead]
    rfl

/-- What comes after a text goes to its last piece. -/
theorem splitOnP_after {after : List α} (joined : ∀ mark ∈ after, separates mark = false)
    (text : List α) :
    List.Forall₂ (fun padded piece => padded = piece ∨ padded = piece ++ after)
      ((text ++ after).splitOnP separates) (text.splitOnP separates) := by
  induction text with
  | nil =>
    rw [List.nil_append, List.splitOnP_eq_singleton joined, List.splitOnP_nil]
    exact .cons (.inr rfl) .nil
  | cons mark rest ih =>
    rw [List.cons_append, List.splitOnP_cons_eq_if_modifyHead, List.splitOnP_cons_eq_if_modifyHead]
    split
    · exact .cons (.inl rfl) ih
    · generalize (rest ++ after).splitOnP separates = padded at ih ⊢
      generalize rest.splitOnP separates = pieces at ih ⊢
      cases ih with
      | nil => exact .nil
      | cons first later =>
        refine .cons ?_ later
        exact first.imp (congrArg _) (congrArg _)

/-- **A text may be trimmed before it is cut, or only its pieces**, when no separator is blank. -/
theorem map_trim_splitOnP (apart : ∀ mark, blank mark = true → separates mark = false)
    (text : List α) :
    ((trim blank text).splitOnP separates).map (trim blank) =
      (text.splitOnP separates).map (trim blank) := by
  obtain ⟨before, after, same, front, back⟩ : Padded blank text (trim blank text) :=
    padded_trim text
  have behind := splitOnP_after (fun mark member => apart mark (back mark member)) (trim blank text)
  conv_rhs => rw [same, List.append_assoc,
    splitOnP_before fun mark member => apart mark (front mark member)]
  have trimmed : ((trim blank text ++ after).splitOnP separates).map (trim blank) =
      ((trim blank text).splitOnP separates).map (trim blank) := by
    rw [← List.forall₂_eq_eq_eq, List.forall₂_map_left_iff, List.forall₂_map_right_iff]
    refine behind.imp fun padded piece pads => ?_
    obtain rfl | rfl := pads
    · rfl
    · exact trim_padded ⟨[], after, rfl, fun _ member => (by cases member), back⟩
  rw [← trimmed]
  cases (trim blank text ++ after).splitOnP separates with
  | nil => rfl
  | cons first rest =>
    rw [List.modifyHead_cons, List.map_cons, List.map_cons]
    congr 1
    exact (trim_padded ⟨before, [], by simp, front, fun _ member => (by cases member)⟩).symm

/-- A piece holds marks of the text that do not separate. -/
theorem mem_splitOnP {text : List α} :
    ∀ piece ∈ text.splitOnP separates, ∀ mark ∈ piece, mark ∈ text ∧ separates mark = false := by
  induction text with
  | nil => simp
  | cons first rest ih =>
    have later : ∀ piece ∈ rest.splitOnP separates, ∀ mark ∈ piece,
        mark ∈ first :: rest ∧ separates mark = false := fun piece member mark inside =>
      (ih piece member mark inside).imp_left (List.mem_cons_of_mem first)
    rw [List.splitOnP_cons_eq_if_modifyHead]
    split
    · exact List.forall_mem_cons.mpr ⟨fun _ inside => (by cases inside), later⟩
    · rename_i joined
      generalize rest.splitOnP separates = pieces at later ⊢
      cases pieces with
      | nil => exact fun _ member => by cases member
      | cons head tail =>
        obtain ⟨here, there⟩ := List.forall_mem_cons.mp later
        exact List.forall_mem_cons.mpr ⟨List.forall_mem_cons.mpr
          ⟨⟨List.mem_cons_self, Bool.eq_false_iff.mpr joined⟩, here⟩, there⟩

/-- A trimmed text is a part of the text. -/
theorem trim_sublist (text : List α) : (trim blank text).Sublist text :=
  (List.rdropWhile_prefix _ _).sublist.trans (List.dropWhile_sublist _)

theorem mem_intercalate {mark : α} {separator : List α} {pieces : List (List α)}
    (inside : mark ∈ separator.intercalate pieces) :
    mark ∈ separator ∨ ∃ piece ∈ pieces, mark ∈ piece := by
  induction pieces with
  | nil => cases inside
  | cons first rest ih =>
    cases rest with
    | nil => exact .inr ⟨first, List.mem_singleton_self first,
        by simpa [List.intercalate] using inside⟩
    | cons second rest =>
      rw [List.intercalate, List.intersperse_cons_cons, List.flatten_cons, List.flatten_cons,
        List.mem_append, List.mem_append] at inside
      obtain here | here | later := inside
      · exact .inr ⟨first, List.mem_cons_self, here⟩
      · exact .inl here
      · exact (ih later).imp_right fun ⟨piece, member, there⟩ =>
          ⟨piece, List.mem_cons_of_mem first member, there⟩

end Pieces

end WaAutomation.Library.Text
