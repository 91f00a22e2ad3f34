/-
**Texts cut at the marks found in them.**

A cut of a text is a sequence of literals with a mark between each two of them. It is a cut of the
text at its marks when no literal contains the text of a mark. A kind of mark is `Solid` when no two
occurrences overlap; then every text has exactly one cut at its marks, and a scan from left to right
that goes on behind each mark it finds comes to it.

* `cut_unique` says that a text has at most one cut;
* `scan_cuts` says that the scan with a matcher that is `Exact` yields one.
-/

import Mathlib.Data.List.Infix

set_option linter.unusedSectionVars false

namespace WaAutomation.Library

/-- Literals, each with the mark after it, and the last literal. -/
structure Cut (α μ : Type) where
  pieces : List (List α × μ)
  last : List α

namespace Cut

variable {α μ : Type}

/-- The texts of the marks put between the literals. -/
def fill (cut : Cut α μ) (texts : List (List α)) : List α :=
  (List.zipWith (fun piece text => piece.1 ++ text) cut.pieces texts).flatten ++ cut.last

/-- The marks, in order. -/
def marks (cut : Cut α μ) : List μ := cut.pieces.map Prod.snd

/-- The literals, in order. -/
def literals (cut : Cut α μ) : List (List α) := cut.pieces.map Prod.fst ++ [cut.last]

/-- A letter in front of the first literal. -/
def push (letter : α) (cut : Cut α μ) : Cut α μ :=
  match cut.pieces with
  | [] => ⟨[], letter :: cut.last⟩
  | piece :: pieces => ⟨(letter :: piece.1, piece.2) :: pieces, cut.last⟩

/-- The cut with another form of its marks. -/
def map {ν : Type} (form : μ → ν) (cut : Cut α μ) : Cut α ν :=
  ⟨cut.pieces.map (Prod.map id form), cut.last⟩

/-- A mark in front of the first literal. -/
def mark (first : μ) (cut : Cut α μ) : Cut α μ := ⟨([], first) :: cut.pieces, cut.last⟩

variable {cut : Cut α μ} {texts : List (List α)}

@[simp] theorem marks_map {ν : Type} (form : μ → ν) :
    (cut.map form).marks = cut.marks.map form := by
  simp [marks, map]

@[simp] theorem fill_map {ν : Type} (form : μ → ν) :
    (cut.map form).fill texts = cut.fill texts := by
  simp [fill, map, List.zipWith_map_left]

end Cut

/-! ### Marks that do not overlap -/

section Solid

variable {α μ : Type}

/-- Of two occurrences of marks that share a letter, the later one is the earlier one. -/
structure Solid (text : μ → List α) (valid : μ → Prop) : Prop where
  injective : ∀ {mark other}, valid mark → valid other → text mark = text other → mark = other
  apart : ∀ {mark other before shared rest rest'}, valid mark → valid other →
    text mark = before ++ shared → shared ≠ [] → shared ++ rest = text other ++ rest' →
    before = [] ∧ shared = text other

variable (text : μ → List α) (valid : μ → Prop)

/-- No mark occurs in the literal. -/
def Clean (literal : List α) : Prop := ∀ mark, valid mark → ¬text mark <:+: literal

/-- A cut of a text at its marks. -/
structure Cuts (whole : List α) (cut : Cut α μ) : Prop where
  joined : cut.fill (cut.marks.map text) = whole
  holds : ∀ mark ∈ cut.marks, valid mark
  clean : ∀ literal ∈ cut.literals, Clean text valid literal

variable {text valid}

theorem Clean.of_infix {literal part : List α} (clean : Clean text valid literal)
    (inside : part <:+: literal) : Clean text valid part :=
  fun mark holds occurs => clean mark holds (occurs.trans inside)

/-- The first mark of a text does not come later than a mark after a clean literal. -/
theorem first_mark_gap (solid : Solid text valid) {gap rest rest' : List α} {mark other : μ}
    (clean : Clean text valid gap) (holds : valid mark) (holds' : valid other)
    (same : text mark ++ rest = gap ++ (text other ++ rest')) :
    gap = [] ∧ mark = other ∧ rest = rest' := by
  obtain ⟨shared, whole, tail⟩ | ⟨shared, whole, tail⟩ := List.append_eq_append_iff.mp same
  · -- the mark ends within the gap
    exact absurd ⟨[], shared, by rw [whole, List.nil_append]⟩ (clean mark holds)
  · by_cases empty : shared = []
    · rw [empty, List.append_nil] at whole
      exact absurd ⟨[], [], by rw [whole, List.nil_append, List.append_nil]⟩ (clean mark holds)
    · obtain ⟨rfl, rfl⟩ := solid.apart holds holds' whole empty tail.symm
      rw [List.nil_append] at whole
      exact ⟨rfl, solid.injective holds holds' whole, (List.append_cancel_left tail).symm⟩

/-- Two cuts of a text agree up to their first marks. -/
theorem first_mark_unique (solid : Solid text valid) {literal literal' rest rest' : List α}
    {mark other : μ} (clean : Clean text valid literal) (clean' : Clean text valid literal')
    (holds : valid mark) (holds' : valid other)
    (same : literal ++ text mark ++ rest = literal' ++ text other ++ rest') :
    literal = literal' ∧ mark = other ∧ rest = rest' := by
  rw [List.append_assoc, List.append_assoc] at same
  obtain ⟨gap, rfl, tail⟩ | ⟨gap, rfl, tail⟩ := List.append_eq_append_iff.mp same
  · obtain ⟨rfl, marks, rests⟩ := first_mark_gap solid
      (clean'.of_infix (List.suffix_append _ _).isInfix) holds holds' tail
    exact ⟨(List.append_nil _).symm, marks, rests⟩
  · obtain ⟨rfl, marks, rests⟩ := first_mark_gap solid
      (clean.of_infix (List.suffix_append _ _).isInfix) holds' holds tail
    exact ⟨List.append_nil _, marks.symm, rests.symm⟩

/-- A cut with a first piece is that piece before the cut of the rest. -/
theorem cuts_cons {whole : List α} {literal : List α} {mark : μ} {pieces : List (List α × μ)}
    {last : List α} : Cuts text valid whole ⟨(literal, mark) :: pieces, last⟩ ↔
      Clean text valid literal ∧ valid mark ∧
        ∃ rest, whole = literal ++ text mark ++ rest ∧ Cuts text valid rest ⟨pieces, last⟩ := by
  constructor
  · rintro ⟨joined, holds, clean⟩
    obtain ⟨here, later⟩ := List.forall_mem_cons.mp holds
    obtain ⟨first, others⟩ := List.forall_mem_cons.mp clean
    refine ⟨first, here, _, ?_, ⟨rfl, later, others⟩⟩
    rw [← joined]
    simp [Cut.fill, Cut.marks]
  · rintro ⟨first, here, rest, rfl, ⟨joined, later, others⟩⟩
    refine ⟨?_, List.forall_mem_cons.mpr ⟨here, later⟩, List.forall_mem_cons.mpr ⟨first, others⟩⟩
    rw [← joined]
    simp [Cut.fill, Cut.marks]

theorem cuts_nil {whole last : List α} :
    Cuts text valid whole ⟨[], last⟩ ↔ last = whole ∧ Clean text valid last :=
  ⟨fun cuts => ⟨cuts.joined, cuts.clean last (List.mem_singleton_self last)⟩, fun ⟨same, clean⟩ =>
    ⟨same, fun _ member => (by cases member), fun literal member =>
      List.mem_singleton.mp member ▸ clean⟩⟩

/-- A text without a mark is cut nowhere. -/
theorem not_cuts_of_clean {whole literal last : List α} {mark : μ} {pieces : List (List α × μ)}
    (clean : Clean text valid whole) :
    ¬Cuts text valid whole ⟨(literal, mark) :: pieces, last⟩ := by
  rw [cuts_cons]
  rintro ⟨_, holds, rest, rfl, _⟩
  exact clean mark holds ⟨literal, rest, rfl⟩

/-- **A text has at most one cut at its marks.** -/
theorem cut_unique (solid : Solid text valid) {whole : List α} {first second : Cut α μ}
    (one : Cuts text valid whole first) (two : Cuts text valid whole second) : first = second := by
  obtain ⟨pieces, last⟩ := first
  obtain ⟨pieces', last'⟩ := second
  induction pieces generalizing whole pieces' with
  | nil =>
    obtain ⟨rfl, clean⟩ := cuts_nil.mp one
    cases pieces' with
    | nil => rw [(cuts_nil.mp two).1]
    | cons piece pieces' => exact absurd two (not_cuts_of_clean clean)
  | cons piece pieces ih =>
    cases pieces' with
    | nil =>
      obtain ⟨rfl, clean⟩ := cuts_nil.mp two
      exact absurd one (not_cuts_of_clean clean)
    | cons piece' pieces' =>
      obtain ⟨clean, holds, rest, rfl, later⟩ := cuts_cons.mp one
      obtain ⟨clean', holds', rest', same, later'⟩ := cuts_cons.mp two
      obtain ⟨literals, marks, rfl⟩ := first_mark_unique solid clean clean' holds holds' same
      rw [Prod.ext literals marks, Cut.mk.injEq, List.cons.injEq]
      have tails := Cut.mk.injEq .. ▸ ih later pieces' later'
      exact ⟨⟨rfl, tails.1⟩, tails.2⟩

/-- A cut whose marks all have another form is a cut at the marks of that form. -/
theorem cuts_lift {ν : Type} {form : ν → μ} {text' : ν → List α} {valid' : ν → Prop}
    (texts : ∀ mark, text (form mark) = text' mark)
    (into : ∀ {mark}, valid' mark → valid (form mark))
    (onto : ∀ {mark}, valid mark → ∃ formed, valid' formed ∧ form formed = mark)
    {whole : List α} {cut : Cut α μ} (cuts : Cuts text valid whole cut) :
    ∃ lifted, Cuts text' valid' whole lifted ∧ lifted.map form = cut := by
  have cleans : ∀ {literal}, Clean text valid literal → Clean text' valid' literal :=
    fun clean mark holds occurs => clean (form mark) (into holds) (texts mark ▸ occurs)
  obtain ⟨pieces, last⟩ := cut
  induction pieces generalizing whole with
  | nil =>
    obtain ⟨rfl, clean⟩ := cuts_nil.mp cuts
    exact ⟨⟨[], last⟩, cuts_nil.mpr ⟨rfl, cleans clean⟩, rfl⟩
  | cons piece pieces ih =>
    obtain ⟨literal, mark⟩ := piece
    obtain ⟨clean, holds, rest, rfl, later⟩ := cuts_cons.mp cuts
    obtain ⟨lifted, cut, same⟩ := ih later
    obtain ⟨formed, holds', rfl⟩ := onto holds
    refine ⟨⟨(literal, formed) :: lifted.pieces, lifted.last⟩,
      cuts_cons.mpr ⟨cleans clean, holds', rest, by rw [texts], cut⟩, ?_⟩
    rw [Cut.map, Cut.mk.injEq] at same
    rw [Cut.map, List.map_cons, same.1, same.2]
    rfl

end Solid

/-! ### The scan -/

section Scan

variable {α μ : Type} (find : List α → Option μ) (text : μ → List α) (valid : μ → Prop)

/-- The cut of a text behind the next `skip` letters, those that are left of the mark found last. -/
def scan : (skip : Nat) → List α → Cut α μ
  | _, [] => ⟨[], []⟩
  | skip + 1, _ :: rest => scan skip rest
  | 0, letter :: rest =>
      match find (letter :: rest) with
      | some mark => (scan ((text mark).length - 1) rest).mark mark
      | none => (scan 0 rest).push letter

/-- The matcher finds a mark at the front of a text exactly when there is one. -/
structure Exact : Prop where
  sound : ∀ {whole mark}, find whole = some mark → valid mark ∧ text mark <+: whole
  complete : ∀ {mark} rest, valid mark → (find (text mark ++ rest)).isSome

variable {find text valid}

theorem scan_skip (skip : Nat) (whole : List α) :
    scan find text skip whole = scan find text 0 (whole.drop skip) := by
  induction whole generalizing skip with
  | nil => rw [List.drop_nil]; cases skip <;> rfl
  | cons letter rest ih =>
    cases skip with
    | zero => rfl
    | succ skip =>
      rw [scan, ih, List.drop_succ_cons]

/-- The scan goes on behind the mark it finds. -/
theorem scan_found {letter : α} {rest : List α} {mark : μ}
    (found : find (letter :: rest) = some mark) (inhabited : text mark ≠ []) :
    scan find text 0 (letter :: rest) =
      (scan find text 0 ((letter :: rest).drop (text mark).length)).mark mark := by
  have length : (text mark).length = (text mark).length - 1 + 1 :=
    (Nat.succ_pred_eq_of_pos (List.length_pos_iff.mpr inhabited)).symm
  rw [scan, found]
  dsimp only
  rw [scan_skip, length, List.drop_succ_cons, Nat.add_sub_cancel]

theorem clean_nil (inhabited : ∀ mark, valid mark → text mark ≠ []) : Clean text valid [] :=
  fun mark holds occurs => inhabited mark holds (List.infix_nil.mp occurs)

/-- A mark in front of a text that is cut. -/
theorem cuts_mark (inhabited : ∀ mark, valid mark → text mark ≠ []) {rest : List α} {mark : μ}
    {cut : Cut α μ} (holds : valid mark) (cuts : Cuts text valid rest cut) :
    Cuts text valid (text mark ++ rest) (cut.mark mark) :=
  cuts_cons.mpr ⟨clean_nil inhabited, holds, rest, rfl, cuts⟩

/-- A letter in front of a text that is cut, at which no mark begins. -/
theorem cuts_push {letter : α} {rest : List α} {cut : Cut α μ}
    (none : ∀ mark, valid mark → ¬text mark <+: letter :: rest)
    (cuts : Cuts text valid rest cut) : Cuts text valid (letter :: rest) (cut.push letter) := by
  -- an occurrence in the longer literal begins at the letter or lies in the shorter one
  have longer : ∀ {literal after}, rest = literal ++ after → Clean text valid literal →
      Clean text valid (letter :: literal) := by
    rintro literal after rfl clean mark holds occurs
    obtain front | inside := List.infix_cons_iff.mp occurs
    · exact none mark holds (front.trans (List.prefix_append (letter :: literal) after))
    · exact clean mark holds inside
  obtain ⟨pieces, last⟩ := cut
  cases pieces with
  | nil =>
    obtain ⟨rfl, clean⟩ := cuts_nil.mp cuts
    exact cuts_nil.mpr ⟨rfl, longer (List.append_nil _).symm clean⟩
  | cons piece pieces =>
    obtain ⟨clean, holds, after, same, later⟩ := cuts_cons.mp cuts
    refine cuts_cons.mpr ⟨longer (same.trans (List.append_assoc _ _ _)) clean, holds, after, ?_,
      later⟩
    rw [same]
    rfl

/-- **The scan cuts a text at its marks.** -/
theorem scan_cuts (exact : Exact find text valid) (inhabited : ∀ mark, valid mark → text mark ≠ [])
    (whole : List α) : Cuts text valid whole (scan find text 0 whole) := by
  induction length : whole.length using Nat.strong_induction_on generalizing whole with
  | _ count ih =>
    subst length
    cases whole with
    | nil => exact cuts_nil.mpr ⟨rfl, clean_nil inhabited⟩
    | cons letter rest =>
      cases found : find (letter :: rest) with
      | none =>
        have cut := ih rest.length (Nat.lt_succ_self _) rest rfl
        rw [scan, found]
        refine cuts_push (fun mark holds front => ?_) cut
        obtain ⟨after, same⟩ := front
        have finds := exact.complete after holds
        rw [same, found] at finds
        cases finds
      | some mark =>
        obtain ⟨holds, after, same⟩ := exact.sound found
        have positive := List.length_pos_iff.mpr (inhabited mark holds)
        have cut := ih after.length
          (by rw [← same, List.length_append]; omega) after rfl
        rw [scan_found found (inhabited mark holds), ← same, List.drop_left]
        exact cuts_mark inhabited holds cut

end Scan

end WaAutomation.Library
