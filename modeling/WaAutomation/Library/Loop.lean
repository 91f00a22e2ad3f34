/-
**Loops with and without a bound on their turns.**

A loop is given by what one turn does: `step` is `none` where the loop leaves. `Leaves` is the run
of the loop without a bound, `bounded` the run that stops after a number of turns.

* `bounded_of_leaves` and `leaves_of_bounded` compare the two;
* `leaves_follow` carries the run of one loop over to another that does the same elsewhere;
* a loop `Projects` to an observation when what it observes of a state decides whether it leaves
  there, and what it observes next. Then `leaves_nodup`: a loop that leaves observes nothing twice,
  and `bounded_exact`: a bound that is not below the number of observations is never the reason why
  a loop that would leave stops;
* a loop over positions `Ascends` when every turn goes to a later one. Then `Ascends.bounded`: it
  comes to the end, and what it passes over lies strictly between a position and where it goes on.
-/

import Mathlib.Data.List.Perm.Subperm

set_option linter.unusedSectionVars false

namespace WaAutomation.Library.Loop

section Runs

variable {α : Type} (step : α → Option α)

/-- The loop leaves at the last state, after a turn at each of the visited ones. -/
inductive Leaves : α → List α → α → Prop
  | leave {state : α} (ends : step state = none) : Leaves state [] state
  | turn {state next last : α} {visited : List α} (goes : step state = some next)
      (rest : Leaves next visited last) : Leaves state (state :: visited) last

/-- The loop with a bound: the states it made a turn at, and the one it stopped at. -/
def bounded : (bound : ℕ) → α → List α × α
  | 0, state => ([], state)
  | bound + 1, state =>
      match step state with
      | none => ([], state)
      | some next => (state :: (bounded bound next).1, (bounded bound next).2)

variable {step}

theorem bounded_leave (bound : ℕ) {state : α} (ends : step state = none) :
    bounded step bound state = ([], state) := by
  cases bound with
  | zero => rfl
  | succ bound => simp only [bounded, ends]

theorem bounded_turn (bound : ℕ) {state next : α} (goes : step state = some next) :
    bounded step (bound + 1) state =
      (state :: (bounded step bound next).1, (bounded step bound next).2) := by
  simp only [bounded, goes]

theorem leaves_last {state last : α} {visited : List α} (leaves : Leaves step state visited last) :
    step last = none := by
  induction leaves with
  | leave ends => exact ends
  | turn _ _ ih => exact ih

/-- A loop that leaves within the bound does not notice it. -/
theorem bounded_of_leaves {state last : α} {visited : List α}
    (leaves : Leaves step state visited last) :
    ∀ {bound : ℕ}, visited.length ≤ bound → bounded step bound state = (visited, last) := by
  induction leaves with
  | leave ends => exact fun {bound} _ => bounded_leave bound ends
  | turn goes _ ih =>
    intro bound enough
    obtain ⟨rest, rfl⟩ : ∃ rest, bound = rest + 1 :=
      ⟨bound - 1, by simp only [List.length_cons] at enough; omega⟩
    rw [bounded_turn rest goes, ih (by simpa using enough)]

/-- A bounded loop that stopped where the loop leaves made the run of the loop. -/
theorem leaves_of_bounded {bound : ℕ} :
    ∀ {state : α}, step (bounded step bound state).2 = none →
      Leaves step state (bounded step bound state).1 (bounded step bound state).2 := by
  induction bound with
  | zero => exact fun ends => .leave ends
  | succ bound ih =>
    intro state ends
    cases goes : step state with
    | none =>
      rw [bounded_leave _ goes]
      exact .leave goes
    | some next =>
      rw [bounded_turn bound goes] at ends ⊢
      exact .turn goes (ih ends)

/-- What every turn keeps, a bounded run keeps. -/
theorem bounded_valid {valid : α → Prop}
    (stays : ∀ {state next}, valid state → step state = some next → valid next) {bound : ℕ} :
    ∀ {state : α}, valid state → valid (bounded step bound state).2 := by
  induction bound with
  | zero => exact id
  | succ bound ih =>
    intro state here
    cases goes : step state with
    | none =>
      rw [bounded_leave _ goes]
      exact here
    | some next =>
      rw [bounded_turn bound goes]
      exact ih (stays here goes)

/-- The loop goes on at a place it visits, or leaves there. -/
theorem leaves_next {state last : α} {visited : List α} (leaves : Leaves step state visited last) :
    ∀ {later next : α}, later ∈ visited → step later = some next →
      next ∈ visited ∨ next = last := by
  have first {state last : α} {visited : List α} (leaves : Leaves step state visited last) :
      state ∈ visited ∨ state = last := by
    cases leaves with
    | leave _ => exact .inr rfl
    | turn _ _ => exact .inl List.mem_cons_self
  induction leaves with
  | leave _ => exact fun member => by cases member
  | turn goes rest ih =>
    intro later next member turns
    rcases List.mem_cons.mp member with rfl | later
    · rw [goes] at turns
      cases turns
      exact (first rest).imp_left (List.mem_cons_of_mem _)
    · exact (ih later turns).imp_left (List.mem_cons_of_mem _)

/-- From a visited state on, the loop makes the rest of the run. -/
theorem leaves_from {state last later : α} {visited : List α}
    (leaves : Leaves step state visited last) (member : later ∈ visited) :
    ∃ rest, Leaves step later rest last ∧ rest.length ≤ visited.length := by
  induction leaves with
  | leave ends => cases member
  | turn goes rest ih =>
    rcases List.mem_cons.mp member with rfl | inside
    · exact ⟨_, .turn goes rest, Nat.le_refl _⟩
    · obtain ⟨suffix, leaves, shorter⟩ := ih inside
      exact ⟨suffix, leaves, Nat.le_trans shorter (by simp)⟩

/-- **A loop that follows another one**: the places it comes to are the images of those the other
comes to, and it goes on from where the other leaves. -/
theorem leaves_follow {β : Type} {other : β → Option β} (place : α → β) {state last : α}
    {visited : List α} (leaves : Leaves step state visited last)
    (follows : ∀ later ∈ visited, other (place later) = (step later).map place) {end' : β}
    {rest : List β} (goes_on : Leaves other (place last) rest end') :
    Leaves other (place state) (visited.map place ++ rest) end' := by
  induction leaves with
  | leave _ => exact goes_on
  | turn goes _ ih =>
    refine .turn ?_ (ih (fun later member => follows later (List.mem_cons_of_mem _ member)) goes_on)
    rw [follows _ List.mem_cons_self, goes]
    rfl

end Runs

/-! ### Observations -/

section Observations

variable {α ι : Type} (step : α → Option α) (observe : α → ι) (successor : ι → Option ι)
  (valid : α → Prop)

/-- On valid states, the observation of a state decides the observation of the next. -/
structure Projects : Prop where
  stays : ∀ {state next}, valid state → step state = some next → valid next
  follows : ∀ {state}, valid state → (step state).map observe = successor (observe state)

variable {step observe successor valid}

theorem Projects.visited (projects : Projects step observe successor valid) {state last : α}
    {visited : List α} (leaves : Leaves step state visited last) (here : valid state) :
    ∀ later ∈ visited, valid later ∧ step later ≠ none := by
  induction leaves with
  | leave _ => exact fun _ member => by cases member
  | turn goes _ ih =>
    intro later member
    rcases List.mem_cons.mp member with rfl | inside
    · exact ⟨here, by rw [goes]; exact Option.some_ne_none _⟩
    · exact ih (projects.stays here goes) later inside

/-- Equal observations leave after equally many turns. -/
theorem Projects.same_length (projects : Projects step observe successor valid) {state last : α}
    {visited : List α} (leaves : Leaves step state visited last) :
    ∀ {other last' : α} {visited' : List α}, Leaves step other visited' last' → valid state →
      valid other → observe state = observe other → visited.length = visited'.length := by
  induction leaves with
  | leave ends =>
    intro other last' visited' leaves' here there same
    cases leaves' with
    | leave _ => rfl
    | turn goes' _ =>
      have first := projects.follows here
      have second := projects.follows there
      rw [ends, same] at first
      rw [goes', ← first] at second
      cases second
  | turn goes _ ih =>
    intro other last' visited' leaves' here there same
    have first := projects.follows here
    rw [goes, same] at first
    cases leaves' with
    | leave ends' =>
      have second := projects.follows there
      rw [ends', ← first] at second
      cases second
    | turn goes' rest' =>
      have second := projects.follows there
      rw [goes', ← first] at second
      have next := Option.some.inj second
      simp only [List.length_cons]
      rw [ih rest' (projects.stays here goes) (projects.stays there goes') next.symm]

/-- **A loop that leaves observes nothing twice.** -/
theorem Projects.leaves_nodup (projects : Projects step observe successor valid) {state last : α}
    {visited : List α} (leaves : Leaves step state visited last) (here : valid state) :
    (visited.map observe).Nodup := by
  induction leaves with
  | leave _ => exact List.nodup_nil
  | @turn state next last visited goes rest ih =>
    refine List.nodup_cons.mpr ⟨fun again => ?_, ih (projects.stays here goes)⟩
    obtain ⟨later, inside, same⟩ := List.mem_map.mp again
    obtain ⟨suffix, leaves, shorter⟩ := leaves_from rest inside
    have valid_later := (projects.visited rest (projects.stays here goes) later inside).1
    have equal := projects.same_length (.turn goes rest) leaves here valid_later same.symm
    simp only [List.length_cons] at equal
    omega

/-- The pigeonhole: a loop that leaves makes no more turns than there are observations. -/
theorem Projects.leaves_length (projects : Projects step observe successor valid) {all : List ι}
    (inside : ∀ state, valid state → step state ≠ none → observe state ∈ all) {state last : α}
    {visited : List α} (leaves : Leaves step state visited last) (here : valid state) :
    visited.length ≤ all.length := by
  have subset : visited.map observe ⊆ all := by
    intro seen member
    obtain ⟨later, visits, rfl⟩ := List.mem_map.mp member
    obtain ⟨valid_later, goes⟩ := projects.visited leaves here later visits
    exact inside later valid_later goes
  have short := ((projects.leaves_nodup leaves here).subperm subset).length_le
  simpa using short

/-- **The bound is exact**: it stops the loop where it does not leave if and only if the loop never
leaves. -/
theorem Projects.bounded_exact (projects : Projects step observe successor valid) {all : List ι}
    (inside : ∀ state, valid state → step state ≠ none → observe state ∈ all) {bound : ℕ}
    (enough : all.length ≤ bound) {state : α} (here : valid state) :
    step (bounded step bound state).2 = none ↔ ∃ visited last, Leaves step state visited last := by
  constructor
  · exact fun ends => ⟨_, _, leaves_of_bounded ends⟩
  · rintro ⟨visited, last, leaves⟩
    have short := projects.leaves_length inside leaves here
    rw [bounded_of_leaves leaves (Nat.le_trans short enough)]
    exact leaves_last leaves

/-- The bounded run of a loop observes the bounded run of the observations. -/
theorem Projects.bounded_observe (projects : Projects step observe successor valid) {bound : ℕ} :
    ∀ {state : α}, valid state →
      (bounded step bound state).1.map observe = (bounded successor bound (observe state)).1 ∧
        observe (bounded step bound state).2 = (bounded successor bound (observe state)).2 := by
  induction bound with
  | zero => exact fun _ => ⟨rfl, rfl⟩
  | succ bound ih =>
    intro state here
    have follows := projects.follows here
    cases goes : step state with
    | none =>
      rw [goes] at follows
      rw [bounded_leave _ goes, bounded_leave _ follows.symm]
      exact ⟨rfl, rfl⟩
    | some next =>
      rw [goes] at follows
      obtain ⟨visits, stops⟩ := ih (projects.stays here goes)
      rw [bounded_turn bound goes, bounded_turn bound follows.symm]
      exact ⟨congrArg (observe state :: ·) visits, stops⟩

end Observations

/-! ### Loops that ascend -/

section Ascends

/-- A loop over the positions below a limit that goes to a later position in every turn. -/
structure Ascends (next : ℕ → Option ℕ) (limit : ℕ) : Prop where
  leaves : ∀ {position}, next position = none ↔ limit ≤ position
  goes : ∀ {position later}, next position = some later → position < later ∧ later ≤ limit

/-- The position lies strictly between another one and where the loop goes on from there. -/
def Passes (next : ℕ → Option ℕ) (source position : ℕ) : Prop :=
  ∃ later, next source = some later ∧ source < position ∧ position < later

variable {next : ℕ → Option ℕ} {limit : ℕ}

/-- **A loop that ascends comes to the end**, at strictly increasing positions, and passes over the
positions it does not visit. -/
theorem Ascends.bounded (ascends : Ascends next limit) {bound : ℕ} :
    ∀ {start : ℕ}, start ≤ limit → limit - start ≤ bound →
      (Loop.bounded next bound start).2 = limit ∧
      (Loop.bounded next bound start).1.Pairwise (· < ·) ∧
      (∀ position ∈ (Loop.bounded next bound start).1, start ≤ position ∧ position < limit) ∧
      ∀ position, start ≤ position → position < limit →
        (position ∉ (Loop.bounded next bound start).1 ↔
          ∃ source ∈ (Loop.bounded next bound start).1, Passes next source position) := by
  -- by induction on the bound: the first turn accounts for the positions before the next one
  induction bound with
  | zero =>
    intro start below enough
    have last : start = limit := by omega
    exact ⟨last, List.Pairwise.nil, fun _ member => (by cases member),
      fun position here there => absurd there (by omega)⟩
  | succ bound ih =>
    intro start below enough
    cases turn : next start with
    | none =>
      have last : start = limit := Nat.le_antisymm below (ascends.leaves.mp turn)
      rw [bounded_leave _ turn]
      exact ⟨last, List.Pairwise.nil, fun _ member => (by cases member),
        fun position here there => absurd there (by omega)⟩
    | some later =>
      obtain ⟨ahead, inside⟩ := ascends.goes turn
      obtain ⟨ends, sorted, within, passes⟩ := ih inside (by omega)
      rw [bounded_turn bound turn]
      refine ⟨ends, ?_, ?_, fun position here there => ?_⟩
      · exact List.pairwise_cons.mpr
          ⟨fun visited member => Nat.lt_of_lt_of_le ahead (within visited member).1, sorted⟩
      · refine List.forall_mem_cons.mpr ⟨⟨Nat.le_refl start, by omega⟩, fun visited member => ?_⟩
        have bounds := within visited member
        omega
      · rw [List.mem_cons, not_or, List.exists_mem_cons_iff]
        by_cases before : position < later
        · -- the first turn passes over the positions before `later`
          have unvisited : position ∉ (Loop.bounded next bound later).1 := fun member =>
            absurd (within position member).1 (Nat.not_le.mpr before)
          constructor
          · rintro ⟨other, _⟩
            exact .inl ⟨later, turn, by omega, before⟩
          · rintro (⟨_, _, after, _⟩ | ⟨source, member, _, _, after, _⟩)
            · exact ⟨Nat.ne_of_gt after, unvisited⟩
            · have bounds := within source member
              omega
        · have beyond := Nat.not_lt.mp before
          have first : ¬Passes next start position := by
            rintro ⟨other, same, _, shorter⟩
            rw [turn] at same
            cases same
            exact before shorter
          rw [passes position beyond there, or_iff_right first]
          exact and_iff_right (by omega)

end Ascends

end WaAutomation.Library.Loop
