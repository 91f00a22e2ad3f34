/-
**Regular expressions that are sequences of counted classes.**

An atom is a class of marks with the least and, if bounded, the greatest number of them it takes; a
pattern is a sequence of atoms. A match at the front of a text is searched as a backtracking matcher
does it: every atom takes as many marks as it can, and gives them back one by one while the atoms
after it fail.

* `matchAt_sound` says that what is found fits the pattern and is the front of the text;
* `matchAt_complete` says that a match is found wherever the front of the text has one;
* `exact_matchAt` puts them together for a scan.
-/

import Mathlib.Data.List.Basic
import Mathlib.Data.List.TakeWhile
import WaAutomation.Library.Scan

set_option linter.unusedSectionVars false

namespace WaAutomation.Library

/-- A class of marks, and how many of them are taken. -/
structure Atom (α : Type) where
  test : α → Bool
  least : Nat
  most : Option Nat

/-- A sequence of atoms. -/
abbrev Pattern (α : Type) := List (Atom α)

namespace Pattern

variable {α : Type}

/-- One mark of a class. -/
def one (test : α → Bool) : Atom α := ⟨test, 1, some 1⟩

/-- Any number of marks of a class. -/
def many (test : α → Bool) : Atom α := ⟨test, 0, none⟩

/-- One mark of a class or more. -/
def oneOrMore (test : α → Bool) : Atom α := ⟨test, 1, none⟩

/-- The marks an atom can take from the front of a text. -/
def longest (atom : Atom α) (text : List α) : List α :=
  match atom.most with
  | none => text.takeWhile atom.test
  | some bound => (text.takeWhile atom.test).take bound

/-- An atom takes `count` marks, or fewer while what follows fails. -/
def backtrack (next : List α → Option (List (List α))) (least : Nat) (text : List α) :
    (count : Nat) → Option (List (List α))
  | 0 => if least = 0 then (next text).map ([] :: ·) else none
  | count + 1 =>
      if least ≤ count + 1 then
        ((next (text.drop (count + 1))).map (text.take (count + 1) :: ·)).or
          (backtrack next least text count)
      else none

/-- The match at the front of a text: what each atom takes. -/
def matchAt : Pattern α → List α → Option (List (List α))
  | [], _ => some []
  | atom :: atoms, text => backtrack (matchAt atoms) atom.least text (longest atom text).length

/-- A piece an atom may take. -/
structure Fits (atom : Atom α) (piece : List α) : Prop where
  marks : ∀ mark ∈ piece, atom.test mark = true
  least : atom.least ≤ piece.length
  most : ∀ bound ∈ atom.most, piece.length ≤ bound

/-- The pieces fit the atoms one by one. -/
abbrev Matches (pattern : Pattern α) (pieces : List (List α)) : Prop :=
  List.Forall₂ Fits pattern pieces

section Backtrack

variable {next : List α → Option (List (List α))} {least : Nat} {text : List α}

theorem backtrack_sound {count : Nat} {pieces : List (List α)}
    (found : backtrack next least text count = some pieces) :
    ∃ taken ≤ count, least ≤ taken ∧ ∃ later, next (text.drop taken) = some later ∧
      pieces = text.take taken :: later := by
  induction count with
  | zero =>
    simp only [backtrack, Option.ite_none_right_eq_some, Option.map_eq_some_iff] at found
    obtain ⟨rfl, later, matched, rfl⟩ := found
    exact ⟨0, Nat.le_refl _, Nat.le_refl _, later, matched, rfl⟩
  | succ count ih =>
    simp only [backtrack, Option.ite_none_right_eq_some, Option.or_eq_some_iff,
      Option.map_eq_some_iff] at found
    obtain ⟨enough, ⟨later, matched, rfl⟩ | ⟨_, fewer⟩⟩ := found
    · exact ⟨count + 1, Nat.le_refl _, enough, later, matched, rfl⟩
    · obtain ⟨taken, below, rest⟩ := ih fewer
      exact ⟨taken, Nat.le_succ_of_le below, rest⟩

theorem backtrack_complete {count taken : Nat} (enough : least ≤ taken) (below : taken ≤ count)
    (matched : (next (text.drop taken)).isSome) : (backtrack next least text count).isSome := by
  induction count with
  | zero =>
    obtain rfl : taken = 0 := Nat.le_zero.mp below
    rw [backtrack, if_pos (Nat.le_zero.mp enough), Option.isSome_map]
    exact matched
  | succ count ih =>
    rw [backtrack, if_pos (Nat.le_trans enough below), Option.isSome_or, Option.isSome_map]
    obtain rfl | fewer := Nat.eq_or_lt_of_le below
    · rw [matched, Bool.true_or]
    · rw [ih (Nat.le_of_lt_succ fewer), Bool.or_true]

end Backtrack

/-- What an atom takes from its longest run fits it. -/
theorem fits_take {atom : Atom α} {text : List α} {taken : Nat} (enough : atom.least ≤ taken)
    (below : taken ≤ (longest atom text).length) : Fits atom (text.take taken) := by
  have bounded : (longest atom text).length ≤ (text.takeWhile atom.test).length ∧
      ∀ bound ∈ atom.most, (longest atom text).length ≤ bound := by
    unfold longest
    cases atom.most with
    | none => exact ⟨Nat.le_refl _, fun _ member => by cases member⟩
    | some bound =>
      refine ⟨List.length_take_le' _ _, fun other member => ?_⟩
      cases member
      exact List.length_take_le _ _
  have within := Nat.le_trans below bounded.1
  have length : (text.take taken).length = taken := List.length_take_of_le
    (Nat.le_trans within (List.takeWhile_prefix _).length_le)
  refine ⟨fun mark member => ?_, ?_, fun bound member => ?_⟩
  · have front : text.take taken = (text.takeWhile atom.test).take taken := by
      obtain ⟨rest, same⟩ := List.takeWhile_prefix (l := text) atom.test
      conv_lhs => rw [← same, List.take_append_of_le_length within]
    rw [front] at member
    exact List.mem_takeWhile_imp (List.mem_of_mem_take member)
  · rw [length]
    exact enough
  · rw [length]
    exact Nat.le_trans below (bounded.2 bound member)

/-- A piece that fits is no longer than the longest run. -/
theorem length_le_longest {atom : Atom α} {piece : List α} (fits : Fits atom piece)
    (rest : List α) : piece.length ≤ (longest atom (piece ++ rest)).length := by
  have run : piece.length ≤ ((piece ++ rest).takeWhile atom.test).length := by
    rw [List.takeWhile_append_of_pos fits.marks, List.length_append]
    exact Nat.le_add_right _ _
  unfold longest
  cases bounded : atom.most with
  | none => exact run
  | some bound =>
    rw [List.length_take]
    exact Nat.le_min.mpr ⟨fits.most bound bounded, run⟩

/-- **What is found fits the pattern**, and is the front of the text. -/
theorem matchAt_sound {pattern : Pattern α} : ∀ {text : List α} {pieces : List (List α)},
    matchAt pattern text = some pieces → Matches pattern pieces ∧ pieces.flatten <+: text := by
  induction pattern with
  | nil =>
    intro text pieces found
    cases found
    exact ⟨.nil, List.nil_prefix⟩
  | cons atom atoms ih =>
    intro text pieces found
    obtain ⟨taken, below, enough, later, matched, rfl⟩ := backtrack_sound found
    obtain ⟨fits, front⟩ := ih matched
    refine ⟨.cons (fits_take enough below) fits, ?_⟩
    rw [List.flatten_cons]
    conv_rhs => rw [← List.take_append_drop taken text]
    exact (List.prefix_append_right_inj _).mpr front

/-- **A match is found wherever there is one.** -/
theorem matchAt_complete {pattern : Pattern α} {pieces : List (List α)}
    (fits : Matches pattern pieces) (rest : List α) :
    (matchAt pattern (pieces.flatten ++ rest)).isSome := by
  induction fits with
  | nil => rfl
  | @cons atom piece atoms pieces first _ ih =>
    rw [List.flatten_cons, List.append_assoc]
    refine backtrack_complete first.least (length_le_longest first _) ?_
    rw [List.drop_left]
    exact ih

theorem exact_matchAt (pattern : Pattern α) :
    Exact (matchAt pattern) List.flatten (Matches pattern) :=
  ⟨matchAt_sound, fun rest fits => matchAt_complete fits rest⟩

end Pattern

end WaAutomation.Library
