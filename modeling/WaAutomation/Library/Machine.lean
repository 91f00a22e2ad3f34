/-
**Interleaved runs of programs over one shared state.**

A `Machine` has slots, each of which holds at most one program in flight; what may be started in a
slot, and what its start and its end do to the shared state, is part of the machine. A `Pool` is the
shared state with the programs in flight, every one of them suspended at a call. A move either
starts a program in a free slot or executes the pending call of one slot; both run the program on to
its next call.

* `act_cases` is the inversion of one move;
* `Meets` says that every move of a run satisfies a condition on the pool it is made in, and
  `run_invariant` is the induction over a run whose moves meet it;
* `observe` folds an observer over a run, `Watched` is the condition on moves that may speak of what
  it noted, and `watched_invariant` the induction over such a run;
* `run_until` says that a program in flight meets its goal on the way (`Program.Until`);
* `lasting_run` is the rule of a phase: a property of the state that every program in flight and
  every program started later keeps as long as it finds it at its calls;
* `Pool.Attached` attaches an assertion to every program in flight; `attached_place` reduces it
  after a move to the moved program and to the interference with the others; `Pool.Compatible` is
  about any two of them.
-/

import WaAutomation.Library.Program

set_option linter.unusedSectionVars false

namespace WaAutomation.Library

/-- Programs in slots `τ` over a shared state `σ`. The slot fixes the type `κ` of what can be
started in it and the type `α` of the results. -/
structure Machine (ε χ ι σ : Type) (ρ : ι → Type) (τ : Type) (κ α : τ → Type) where
  exec : (request : ι) → χ → σ → Except ε (ρ request) × σ
  program : (slot : τ) → κ slot → Program ε χ ι ρ (α slot)
  admits : (slot : τ) → κ slot → σ → Bool
  leave : (slot : τ) → κ slot → Except ε (α slot) → σ → σ

namespace Machine

variable {ε χ ι σ τ : Type} {ρ : ι → Type} {κ α : τ → Type}

/-- A program in flight: what was started, the call it waits at, and the rest. -/
structure Thread (ε χ ι : Type) (ρ : ι → Type) (κ α : Type) where
  label : κ
  request : ι
  next : Except ε (ρ request) → Program ε χ ι ρ α

/-- The program a thread has still to run. -/
def Thread.program {κ α : Type} (thread : Thread ε χ ι ρ κ α) : Program ε χ ι ρ α :=
  .call thread.request thread.next

/-- The shared state and the programs in flight. -/
structure Pool (ε χ ι σ : Type) (ρ : ι → Type) (τ : Type) (κ α : τ → Type) where
  shared : σ
  thread : (slot : τ) → Option (Thread ε χ ι ρ (κ slot) (α slot))

/-- A pool with nothing in flight. -/
def Pool.idle (shared : σ) : Pool ε χ ι σ ρ τ κ α := ⟨shared, fun _ => none⟩

/-- One move of a pool. -/
inductive Move (χ τ : Type) (κ : τ → Type) where
  | start (slot : τ) (label : κ slot) (input : χ)
  | resume (slot : τ) (input : χ)

variable [DecidableEq τ] (machine : Machine ε χ ι σ ρ τ κ α)

/-- The slot a move is made in. -/
def Move.slot : Move χ τ κ → τ
  | .start slot _ _ => slot
  | .resume slot _ => slot

/-- The input a move is made with. -/
def Move.input : Move χ τ κ → χ
  | .start _ _ input => input
  | .resume _ input => input

/-- Put a program that ran on to its next stop back into its slot. -/
def place (slot : τ) (label : κ slot) (stop : Stop ε χ ι ρ (α slot)) (shared : σ)
    (thread : (slot : τ) → Option (Thread ε χ ι ρ (κ slot) (α slot))) : Pool ε χ ι σ ρ τ κ α :=
  match stop with
  | .finished result =>
      ⟨machine.leave slot label result shared, Function.update thread slot none⟩
  | .calling request next =>
      ⟨shared, Function.update thread slot (some ⟨label, request, next⟩)⟩

/-- One move, if the pool can make it. -/
def act (pool : Pool ε χ ι σ ρ τ κ α) : Move χ τ κ → Option (Pool ε χ ι σ ρ τ κ α)
  | .start slot label input =>
      match pool.thread slot with
      | some _ => none
      | none =>
          if machine.admits slot label pool.shared then
            some (machine.place slot label ((machine.program slot label).settle input) pool.shared
              pool.thread)
          else none
  | .resume slot input =>
      match pool.thread slot with
      | none => none
      | some thread =>
          let outcome := machine.exec thread.request input pool.shared
          some (machine.place slot thread.label ((thread.next outcome.1).settle input) outcome.2
            pool.thread)

/-- A sequence of moves. -/
def run (pool : Pool ε χ ι σ ρ τ κ α) : List (Move χ τ κ) → Option (Pool ε χ ι σ ρ τ κ α)
  | [] => some pool
  | move :: moves => (machine.act pool move).bind fun next => run next moves

/-- A move executed the last call of the program in `slot`, which ended with `result`. -/
def Ends (pool : Pool ε χ ι σ ρ τ κ α) (slot : τ) (label : κ slot) (input : χ)
    (result : Except ε (α slot)) : Prop :=
  ∃ thread, pool.thread slot = some thread ∧ thread.label = label ∧
    (thread.next (machine.exec thread.request input pool.shared).1).settle input = .finished result

/-! ### One move -/

/-- **What one move does.** -/
theorem act_cases {pool pool' : Pool ε χ ι σ ρ τ κ α} {move : Move χ τ κ}
    (moved : machine.act pool move = some pool') :
    (∃ slot label input, move = .start slot label input ∧ pool.thread slot = none ∧
      machine.admits slot label pool.shared = true ∧
      pool' = machine.place slot label ((machine.program slot label).settle input) pool.shared
        pool.thread) ∨
    (∃ slot input thread, move = .resume slot input ∧ pool.thread slot = some thread ∧
      pool' = machine.place slot thread.label
        ((thread.next (machine.exec thread.request input pool.shared).1).settle input)
        (machine.exec thread.request input pool.shared).2 pool.thread) := by
  cases move with
  | start slot label input =>
    left
    simp only [act] at moved
    split at moved
    · cases moved
    · rename_i free
      split at moved
      · rename_i admitted
        exact ⟨slot, label, input, rfl, free, admitted, (Option.some.inj moved).symm⟩
      · cases moved
  | resume slot input =>
    right
    simp only [act] at moved
    split at moved
    · cases moved
    · rename_i thread busy
      exact ⟨slot, input, thread, rfl, busy, (Option.some.inj moved).symm⟩

/-- The other slots are left alone. -/
theorem place_other {slot other : τ} (different : other ≠ slot) (label : κ slot)
    (stop : Stop ε χ ι ρ (α slot)) (shared : σ)
    (thread : (slot : τ) → Option (Thread ε χ ι ρ (κ slot) (α slot))) :
    (machine.place slot label stop shared thread).thread other = thread other := by
  cases stop <;> exact Function.update_of_ne different _ _

theorem place_finished_thread (slot : τ) (label : κ slot) (result : Except ε (α slot)) (shared : σ)
    (thread : (slot : τ) → Option (Thread ε χ ι ρ (κ slot) (α slot))) :
    (machine.place slot label (.finished result) shared thread).thread slot = none :=
  Function.update_self _ _ _

theorem place_calling_thread (slot : τ) (label : κ slot) (request : ι)
    (next : Except ε (ρ request) → Program ε χ ι ρ (α slot)) (shared : σ)
    (thread : (slot : τ) → Option (Thread ε χ ι ρ (κ slot) (α slot))) :
    (machine.place slot label (.calling request next) shared thread).thread slot =
      some ⟨label, request, next⟩ :=
  Function.update_self _ _ _

/-- What a resumed program leaves in its slot. -/
theorem act_resume {pool pool' : Pool ε χ ι σ ρ τ κ α} {slot : τ} {input : χ}
    {thread : Thread ε χ ι ρ (κ slot) (α slot)}
    (moved : machine.act pool (.resume slot input) = some pool')
    (busy : pool.thread slot = some thread) :
    (∃ result,
      (thread.next (machine.exec thread.request input pool.shared).1).settle input =
        .finished result ∧ pool'.thread slot = none) ∨
    (∃ request next,
      (thread.next (machine.exec thread.request input pool.shared).1).settle input =
        .calling request next ∧ pool'.thread slot = some ⟨thread.label, request, next⟩) := by
  simp only [act, busy, Option.some.injEq] at moved
  subst moved
  cases (thread.next (machine.exec thread.request input pool.shared).1).settle input with
  | finished result => exact .inl ⟨result, rfl, machine.place_finished_thread _ _ _ _ _⟩
  | calling request next =>
    exact .inr ⟨request, next, rfl, machine.place_calling_thread _ _ _ _ _ _⟩

/-! ### Runs -/

theorem run_append (pool : Pool ε χ ι σ ρ τ κ α) (first second : List (Move χ τ κ)) :
    machine.run pool (first ++ second) =
      (machine.run pool first).bind fun next => machine.run next second := by
  induction first generalizing pool with
  | nil => rfl
  | cons move moves ih =>
    simp only [List.cons_append, run]
    cases machine.act pool move with
    | none => rfl
    | some next => exact ih next

/-- Every move of the run satisfies `keeps` in the pool it is made in. -/
def Meets (keeps : Pool ε χ ι σ ρ τ κ α → Move χ τ κ → Prop) :
    Pool ε χ ι σ ρ τ κ α → List (Move χ τ κ) → Prop
  | _, [] => True
  | pool, move :: moves =>
      keeps pool move ∧ ∀ next, machine.act pool move = some next → Meets keeps next moves

/-- **The induction over a run.** -/
theorem run_invariant {keeps : Pool ε χ ι σ ρ τ κ α → Move χ τ κ → Prop}
    {invariant : Pool ε χ ι σ ρ τ κ α → Prop}
    (step : ∀ pool move pool', invariant pool → keeps pool move →
      machine.act pool move = some pool' → invariant pool') :
    ∀ (moves : List (Move χ τ κ)) (pool pool' : Pool ε χ ι σ ρ τ κ α), invariant pool →
      machine.Meets keeps pool moves → machine.run pool moves = some pool' → invariant pool' := by
  intro moves
  induction moves with
  | nil =>
    intro pool pool' holds _ reached
    cases reached
    exact holds
  | cons move moves ih =>
    intro pool pool' holds meets reached
    obtain ⟨next, moved, rest⟩ := Option.bind_eq_some_iff.mp reached
    exact ih next pool' (step pool move next holds meets.1 moved) (meets.2 next moved) rest

/-- The induction over the pools a run from an idle one reaches. -/
theorem run_reached {keeps : Pool ε χ ι σ ρ τ κ α → Move χ τ κ → Prop}
    {invariant : Pool ε χ ι σ ρ τ κ α → Prop} {shared : σ} (begins : invariant (Pool.idle shared))
    (step : ∀ moves pool move pool', machine.run (Pool.idle shared) moves = some pool →
      invariant pool → keeps pool move → machine.act pool move = some pool' → invariant pool')
    {moves : List (Move χ τ κ)} {pool : Pool ε χ ι σ ρ τ κ α}
    (meets : machine.Meets keeps (Pool.idle shared) moves)
    (reached : machine.run (Pool.idle shared) moves = some pool) : invariant pool := by
  have extended (pool : Pool ε χ ι σ ρ τ κ α) (move : Move χ τ κ) (pool' : Pool ε χ ι σ ρ τ κ α)
      (holds : (∃ before, machine.run (Pool.idle shared) before = some pool) ∧ invariant pool)
      (met : keeps pool move) (moved : machine.act pool move = some pool') :
      (∃ before, machine.run (Pool.idle shared) before = some pool') ∧ invariant pool' := by
    obtain ⟨⟨before, here⟩, holds⟩ := holds
    refine ⟨⟨before ++ [move], ?_⟩, step before pool move pool' here holds met moved⟩
    rw [run_append, here, Option.bind_some, run, moved]
    rfl
  exact (machine.run_invariant extended moves _ pool ⟨⟨[], rfl⟩, begins⟩ meets reached).2

/-- The induction over a run whose invariant speaks of the moves made so far. -/
theorem run_history {start : Pool ε χ ι σ ρ τ κ α} {past : List (Move χ τ κ)}
    {allowed : List (Move χ τ κ) → Move χ τ κ → Prop}
    {invariant : List (Move χ τ κ) → Pool ε χ ι σ ρ τ κ α → Prop} (begins : invariant past start)
    (step : ∀ past pool move pool', invariant past pool → allowed past move →
      machine.act pool move = some pool' → invariant (past ++ [move]) pool') :
    ∀ {moves : List (Move χ τ κ)} {pool : Pool ε χ ι σ ρ τ κ α},
      (∀ before move after, moves = before ++ move :: after → allowed (past ++ before) move) →
        machine.run start moves = some pool → invariant (past ++ moves) pool := by
  intro moves
  induction moves generalizing start past with
  | nil =>
    intro pool _ reached
    cases reached
    rw [List.append_nil]
    exact begins
  | cons move moves ih =>
    intro pool all reached
    obtain ⟨next, moved, rest⟩ := Option.bind_eq_some_iff.mp reached
    have first := all [] move moves rfl
    rw [List.append_nil] at first
    have later := ih (step past start move next begins first moved)
      (fun before other after same => ?_) rest
    · rwa [List.append_assoc] at later
    · have here := all (move :: before) other after (by rw [same]; rfl)
      rwa [List.append_assoc]

/-- A slot no move is made in keeps its program. -/
theorem run_other {slot : τ} {moves : List (Move χ τ κ)}
    (untouched : ∀ move ∈ moves, move.slot ≠ slot) :
    ∀ {pool pool' : Pool ε χ ι σ ρ τ κ α}, machine.run pool moves = some pool' →
      pool'.thread slot = pool.thread slot := by
  induction moves with
  | nil =>
    intro pool pool' reached
    cases reached
    rfl
  | cons move moves ih =>
    intro pool pool' reached
    obtain ⟨next, moved, rest⟩ := Option.bind_eq_some_iff.mp reached
    have different := Ne.symm (untouched move List.mem_cons_self)
    refine (ih (fun other member => untouched other (List.mem_cons_of_mem _ member)) rest).trans ?_
    obtain ⟨_, label, input, rfl, _, _, rfl⟩ | ⟨_, input, thread, rfl, _, rfl⟩ :=
      machine.act_cases moved
    · exact machine.place_other different _ _ _ _
    · exact machine.place_other different _ _ _ _

/-- A move in the middle of a run satisfies the condition in the pool it is made in. -/
theorem meets_split {keeps : Pool ε χ ι σ ρ τ κ α → Move χ τ κ → Prop} {move : Move χ τ κ}
    {before after : List (Move χ τ κ)} :
    ∀ {pool middle : Pool ε χ ι σ ρ τ κ α}, machine.Meets keeps pool (before ++ move :: after) →
      machine.run pool before = some middle → keeps middle move := by
  induction before with
  | nil =>
    intro pool middle meets reached
    cases reached
    exact meets.1
  | cons first before ih =>
    intro pool middle meets reached
    obtain ⟨next, moved, rest⟩ := Option.bind_eq_some_iff.mp reached
    exact ih (meets.2 next moved) rest

/-- The moves of a run that all satisfy a condition that ignores the pool. -/
theorem meets_of_forall {keeps : Pool ε χ ι σ ρ τ κ α → Move χ τ κ → Prop}
    {moves : List (Move χ τ κ)} (all : ∀ move ∈ moves, ∀ pool, keeps pool move) :
    ∀ pool, machine.Meets keeps pool moves := by
  induction moves with
  | nil => exact fun _ => trivial
  | cons move moves ih =>
    exact fun pool => ⟨all move List.mem_cons_self pool, fun next _ =>
      ih (fun other member => all other (List.mem_cons_of_mem _ member)) next⟩

theorem meets_mono {keeps other : Pool ε χ ι σ ρ τ κ α → Move χ τ κ → Prop}
    (implies : ∀ pool move, keeps pool move → other pool move) {moves : List (Move χ τ κ)} :
    ∀ {pool}, machine.Meets keeps pool moves → machine.Meets other pool moves := by
  induction moves with
  | nil => exact fun _ => trivial
  | cons move moves ih =>
    exact fun holds => ⟨implies _ _ holds.1, fun next moved => ih (holds.2 next moved)⟩

/-- A condition on the moves of a run, checked by making them. -/
def checks (keeps : Pool ε χ ι σ ρ τ κ α → Move χ τ κ → Bool) :
    Pool ε χ ι σ ρ τ κ α → List (Move χ τ κ) → Bool
  | _, [] => true
  | pool, move :: moves =>
      keeps pool move &&
        match machine.act pool move with
        | none => true
        | some next => checks keeps next moves

theorem meets_of_checks {keeps : Pool ε χ ι σ ρ τ κ α → Move χ τ κ → Bool}
    {moves : List (Move χ τ κ)} :
    ∀ {pool}, machine.checks keeps pool moves = true →
      machine.Meets (fun pool move => keeps pool move = true) pool moves := by
  induction moves with
  | nil => exact fun _ => trivial
  | cons move moves ih =>
    intro pool checked
    simp only [checks, Bool.and_eq_true] at checked
    refine ⟨checked.1, fun next moved => ih ?_⟩
    have later := checked.2
    rw [moved] at later
    exact later

theorem meets_and {first second : Pool ε χ ι σ ρ τ κ α → Move χ τ κ → Prop}
    {moves : List (Move χ τ κ)} :
    ∀ {pool}, machine.Meets first pool moves → machine.Meets second pool moves →
      machine.Meets (fun pool move => first pool move ∧ second pool move) pool moves := by
  induction moves with
  | nil => exact fun _ _ => trivial
  | cons move moves ih =>
    exact fun one two => ⟨⟨one.1, two.1⟩, fun next moved => ih (one.2 next moved)
      (two.2 next moved)⟩

/-- What the moves of a run keep, each of them is made in. -/
theorem meets_invariant {keeps : Pool ε χ ι σ ρ τ κ α → Move χ τ κ → Prop}
    {invariant : Pool ε χ ι σ ρ τ κ α → Prop}
    (step : ∀ pool move pool', invariant pool → keeps pool move →
      machine.act pool move = some pool' → invariant pool') {moves : List (Move χ τ κ)} :
    ∀ {pool}, invariant pool → machine.Meets keeps pool moves →
      machine.Meets (fun pool move => invariant pool ∧ keeps pool move) pool moves := by
  induction moves with
  | nil => exact fun _ _ => trivial
  | cons move moves ih =>
    exact fun holds meets => ⟨⟨holds, meets.1⟩, fun next moved =>
      ih (step _ move next holds meets.1 moved) (meets.2 next moved)⟩

/-- A run in one slot finds the other slots free. -/
theorem meets_single {slot : τ} {moves : List (Move χ τ κ)}
    (only : ∀ move ∈ moves, move.slot = slot) {pool : Pool ε χ ι σ ρ τ κ α}
    (free : ∀ other, other ≠ slot → pool.thread other = none) :
    machine.Meets (fun pool _ => ∀ other, other ≠ slot → pool.thread other = none) pool moves := by
  have stays (pool : Pool ε χ ι σ ρ τ κ α) (move : Move χ τ κ) (pool' : Pool ε χ ι σ ρ τ κ α)
      (free : ∀ other, other ≠ slot → pool.thread other = none) (here : move.slot = slot)
      (moved : machine.act pool move = some pool') :
      ∀ other, other ≠ slot → pool'.thread other = none := by
    intro other different
    have untouched : ∀ next ∈ [move], next.slot ≠ other := by
      simpa [here] using Ne.symm different
    have ran : machine.run pool [move] = some pool' := by simp [run, moved]
    rw [machine.run_other untouched ran, free other different]
  have meets := machine.meets_of_forall (fun move member _ => only move member) pool
  exact machine.meets_mono (fun _ _ both => both.1) (machine.meets_invariant stays free meets)

/-! ### Runs under observation -/

section Observed

variable {γ : Type} (note : γ → Pool ε χ ι σ ρ τ κ α → Move χ τ κ → γ)

/-- What an observer has noted after a run. -/
def observe : γ → Pool ε χ ι σ ρ τ κ α → List (Move χ τ κ) → γ
  | noted, _, [] => noted
  | noted, pool, move :: moves =>
      match machine.act pool move with
      | none => noted
      | some next => observe (note noted pool move) next moves

/-- Every move of the run satisfies `keeps`, given what the observer has noted before it. -/
def Watched (keeps : γ → Pool ε χ ι σ ρ τ κ α → Move χ τ κ → Prop) :
    γ → Pool ε χ ι σ ρ τ κ α → List (Move χ τ κ) → Prop
  | _, _, [] => True
  | noted, pool, move :: moves =>
      keeps noted pool move ∧ ∀ next, machine.act pool move = some next →
        Watched keeps (note noted pool move) next moves

variable {note}

/-- The induction over a run under observation. -/
theorem watched_invariant {keeps : γ → Pool ε χ ι σ ρ τ κ α → Move χ τ κ → Prop}
    {invariant : γ → Pool ε χ ι σ ρ τ κ α → Prop}
    (step : ∀ noted pool move pool', invariant noted pool → keeps noted pool move →
      machine.act pool move = some pool' → invariant (note noted pool move) pool')
    {moves : List (Move χ τ κ)} :
    ∀ {noted pool pool'}, invariant noted pool → machine.Watched note keeps noted pool moves →
      machine.run pool moves = some pool' →
        invariant (machine.observe note noted pool moves) pool' := by
  induction moves with
  | nil =>
    intro noted pool pool' holds _ reached
    cases reached
    exact holds
  | cons move moves ih =>
    intro noted pool pool' holds watched reached
    obtain ⟨next, moved, rest⟩ := Option.bind_eq_some_iff.mp reached
    simp only [observe, moved]
    exact ih (step noted pool move next holds watched.1 moved) (watched.2 next moved) rest

/-- The moves of a run that all satisfy a condition that ignores the notes and the pool. -/
theorem watched_of_forall {keeps : γ → Pool ε χ ι σ ρ τ κ α → Move χ τ κ → Prop}
    {moves : List (Move χ τ κ)} (all : ∀ move ∈ moves, ∀ noted pool, keeps noted pool move) :
    ∀ {noted pool}, machine.Watched note keeps noted pool moves := by
  induction moves with
  | nil => exact trivial
  | cons move moves ih =>
    exact ⟨all move List.mem_cons_self _ _, fun next _ =>
      ih fun other member => all other (List.mem_cons_of_mem _ member)⟩

/-- A run in two parts, observed. -/
theorem observe_append {first second : List (Move χ τ κ)} :
    ∀ {noted : γ} {pool next}, machine.run pool first = some next →
      machine.observe note noted pool (first ++ second) =
        machine.observe note (machine.observe note noted pool first) next second := by
  induction first with
  | nil =>
    intro noted pool next reached
    cases reached
    rfl
  | cons move moves ih =>
    intro noted pool next reached
    obtain ⟨between, moved, rest⟩ := Option.bind_eq_some_iff.mp reached
    simp only [List.cons_append, observe, moved]
    exact ih rest

theorem watched_append {keeps : γ → Pool ε χ ι σ ρ τ κ α → Move χ τ κ → Prop}
    {first second : List (Move χ τ κ)} :
    ∀ {noted : γ} {pool next}, machine.run pool first = some next →
      machine.Watched note keeps noted pool (first ++ second) →
        machine.Watched note keeps noted pool first ∧
          machine.Watched note keeps (machine.observe note noted pool first) next second := by
  induction first with
  | nil =>
    intro noted pool next reached watched
    cases reached
    exact ⟨trivial, watched⟩
  | cons move moves ih =>
    intro noted pool next reached watched
    obtain ⟨between, moved, rest⟩ := Option.bind_eq_some_iff.mp reached
    obtain ⟨start, later⟩ := ih rest (watched.2 between moved)
    simp only [observe, moved]
    refine ⟨⟨watched.1, fun other same => ?_⟩, later⟩
    rw [moved] at same
    cases same
    exact start

/-- A condition on the moves of a run under observation, checked by making them. -/
def checksWatched (note : γ → Pool ε χ ι σ ρ τ κ α → Move χ τ κ → γ)
    (keeps : γ → Pool ε χ ι σ ρ τ κ α → Move χ τ κ → Bool) :
    γ → Pool ε χ ι σ ρ τ κ α → List (Move χ τ κ) → Bool
  | _, _, [] => true
  | noted, pool, move :: moves =>
      keeps noted pool move &&
        match machine.act pool move with
        | none => true
        | some next => checksWatched note keeps (note noted pool move) next moves

theorem watched_of_checks {keeps : γ → Pool ε χ ι σ ρ τ κ α → Move χ τ κ → Bool}
    {other : γ → Pool ε χ ι σ ρ τ κ α → Move χ τ κ → Prop}
    (implies : ∀ noted pool move, keeps noted pool move = true → other noted pool move)
    {moves : List (Move χ τ κ)} :
    ∀ {noted pool}, machine.checksWatched note keeps noted pool moves = true →
      machine.Watched note other noted pool moves := by
  induction moves with
  | nil => exact fun _ => trivial
  | cons move moves ih =>
    intro noted pool checked
    simp only [checksWatched, Bool.and_eq_true] at checked
    refine ⟨implies noted pool move checked.1, fun next moved => ih ?_⟩
    have later := checked.2
    rw [moved] at later
    exact later

/-- What an observer notes only grows when each note is above the last. -/
theorem observe_le {measure : γ → ℕ}
    (grows : ∀ noted pool move, measure noted ≤ measure (note noted pool move))
    {moves : List (Move χ τ κ)} :
    ∀ {noted : γ} {pool}, measure noted ≤ measure (machine.observe note noted pool moves) := by
  induction moves with
  | nil => exact Nat.le_refl _
  | cons move moves ih =>
    intro noted pool
    simp only [observe]
    cases machine.act pool move with
    | none => exact Nat.le_refl _
    | some next => exact Nat.le_trans (grows noted pool move) ih

end Observed

/-! ### Assertions on the programs in flight -/

/-- Every program in flight satisfies its assertion in the shared state. -/
def Pool.Attached (assertion : (slot : τ) → κ slot → Program ε χ ι ρ (α slot) → σ → Prop)
    (pool : Pool ε χ ι σ ρ τ κ α) : Prop :=
  ∀ slot thread, pool.thread slot = some thread →
    assertion slot thread.label thread.program pool.shared

/-- **The assertions after a move**: the moved program satisfies its own where it stopped, and the
others keep theirs in the new shared state. -/
theorem attached_place {assertion : (slot : τ) → κ slot → Program ε χ ι ρ (α slot) → σ → Prop}
    {slot : τ} {label : κ slot} {stop : Stop ε χ ι ρ (α slot)} {shared : σ}
    {thread : (slot : τ) → Option (Thread ε χ ι ρ (κ slot) (α slot))}
    (moved : ∀ request next, stop = .calling request next →
      assertion slot label (.call request next) shared)
    (others : ∀ other waiting, other ≠ slot → thread other = some waiting →
      assertion other waiting.label waiting.program
        (machine.place slot label stop shared thread).shared) :
    (machine.place slot label stop shared thread).Attached assertion := by
  intro other waiting busy
  by_cases same : other = slot
  · subst same
    cases stop with
    | finished result =>
      rw [place_finished_thread] at busy
      cases busy
    | calling request next =>
      rw [place_calling_thread] at busy
      cases busy
      exact moved request next rfl
  · rw [place_other machine same] at busy
    exact others other waiting same busy

/-- Any two programs in flight are compatible. -/
def Pool.Compatible (compatible : (slot : τ) → κ slot → ι → (other : τ) → κ other → ι → Prop)
    (pool : Pool ε χ ι σ ρ τ κ α) : Prop :=
  ∀ slot other thread waiting, slot ≠ other → pool.thread slot = some thread →
    pool.thread other = some waiting →
      compatible slot thread.label thread.request other waiting.label waiting.request

/-- After a move only the moved program has to be compared with the others. -/
theorem compatible_place {compatible : (slot : τ) → κ slot → ι → (other : τ) → κ other → ι → Prop}
    (symm : ∀ {slot label request other waiting call},
      compatible slot label request other waiting call →
        compatible other waiting call slot label request)
    {slot : τ} {label : κ slot} {stop : Stop ε χ ι ρ (α slot)} {shared : σ}
    {pool : Pool ε χ ι σ ρ τ κ α} (before : pool.Compatible compatible)
    (moved : ∀ request next, stop = .calling request next → ∀ other waiting, other ≠ slot →
      pool.thread other = some waiting →
        compatible slot label request other waiting.label waiting.request) :
    (machine.place slot label stop shared pool.thread).Compatible compatible := by
  have own (thread : Thread ε χ ι ρ (κ slot) (α slot))
      (busy : (machine.place slot label stop shared pool.thread).thread slot = some thread) :
      thread.label = label ∧ stop = .calling thread.request thread.next := by
    cases stop with
    | finished result =>
      rw [place_finished_thread] at busy
      cases busy
    | calling request next =>
      rw [place_calling_thread] at busy
      cases busy
      exact ⟨rfl, rfl⟩
  intro first second thread waiting different busy found
  by_cases here : first = slot
  · subst here
    rw [machine.place_other (Ne.symm different)] at found
    obtain ⟨same, stops⟩ := own thread busy
    rw [same]
    exact moved _ _ stops second waiting (Ne.symm different) found
  · rw [machine.place_other here] at busy
    by_cases there : second = slot
    · subst there
      obtain ⟨same, stops⟩ := own waiting found
      rw [same]
      exact symm (moved _ _ stops first thread here busy)
    · rw [machine.place_other there] at found
      exact before first second thread waiting different busy found

/-! ### Programs in flight that stay safe -/

/-- A property of every suspension holds of the programs in flight. -/
theorem act_everywhere
    {holds : (slot : τ) → κ slot → (request : ι) →
      (Except ε (ρ request) → Program ε χ ι ρ (α slot)) → Prop}
    (programs : ∀ slot label, (machine.program slot label).Everywhere (holds slot label))
    {pool pool' : Pool ε χ ι σ ρ τ κ α} {move : Move χ τ κ}
    (attached : pool.Attached fun slot label program _ => program.Everywhere (holds slot label))
    (moved : machine.act pool move = some pool') :
    pool'.Attached fun slot label program _ => program.Everywhere (holds slot label) := by
  obtain ⟨slot, label, input, _, _, _, rfl⟩ | ⟨slot, input, thread, _, busy, rfl⟩ :=
    machine.act_cases moved
  · refine machine.attached_place (fun request next stops => ?_)
      fun other waiting _ found => attached other waiting found
    exact Program.everywhere_settle (programs slot label) stops
  · refine machine.attached_place (fun request next stops => ?_)
      fun other waiting _ found => attached other waiting found
    exact Program.everywhere_settle ((attached slot thread busy).2 _) stops

/-- From an idle pool on, a property of every suspension holds of the programs in flight. -/
theorem run_everywhere
    {holds : (slot : τ) → κ slot → (request : ι) →
      (Except ε (ρ request) → Program ε χ ι ρ (α slot)) → Prop}
    (programs : ∀ slot label, (machine.program slot label).Everywhere (holds slot label))
    {shared : σ} {moves : List (Move χ τ κ)} {pool : Pool ε χ ι σ ρ τ κ α}
    (reached : machine.run (Pool.idle shared) moves = some pool) :
    pool.Attached fun slot label program _ => program.Everywhere (holds slot label) := by
  have meets : machine.Meets (fun _ _ => True) (Pool.idle shared) moves :=
    machine.meets_of_forall (fun _ _ _ => trivial) _
  exact machine.run_invariant
    (fun _ _ _ attached _ moved => machine.act_everywhere programs attached moved)
    moves _ _ (fun _ _ busy => by cases busy) meets reached

variable {around : (slot : τ) → κ slot → Program.Surroundings χ ι σ}
  {post : (slot : τ) → κ slot → Except ε (α slot) → σ → Prop}

/-- Every program in flight is safe in its surroundings. -/
def Pool.Secure (around : (slot : τ) → κ slot → Program.Surroundings χ ι σ)
    (post : (slot : τ) → κ slot → Except ε (α slot) → σ → Prop) (pool : Pool ε χ ι σ ρ τ κ α) :
    Prop :=
  pool.Attached fun slot label program state =>
    program.Safe machine.exec (around slot label) (post slot label) state

/-- **The programs in flight stay safe**, when a started program is, when a resumed one is met as it
relies on, and when the others are left as they rely on. -/
theorem act_secure {pool pool' : Pool ε χ ι σ ρ τ κ α} {move : Move χ τ κ}
    (secure : Pool.Secure machine around post pool) (moved : machine.act pool move = some pool')
    (starts : ∀ slot label input, move = .start slot label input → pool.thread slot = none →
      machine.admits slot label pool.shared = true →
        (machine.program slot label).Safe machine.exec (around slot label) (post slot label)
          pool.shared)
    (here : ∀ slot input thread, move = .resume slot input → pool.thread slot = some thread →
      (around slot thread.label).rely thread.request input pool.shared pool.shared)
    (there : ∀ other waiting, other ≠ move.slot → pool.thread other = some waiting →
      ∀ third input, (around other waiting.label).rely waiting.request input pool'.shared third →
        (around other waiting.label).rely waiting.request input pool.shared third) :
    Pool.Secure machine around post pool' := by
  obtain ⟨slot, label, input, rfl, free, admitted, rfl⟩ | ⟨slot, input, thread, rfl, busy, rfl⟩ :=
    machine.act_cases moved
  · refine machine.attached_place (fun request next stops => ?_)
      fun other waiting different found =>
        Program.safe_rely (there other waiting different found) (secure other waiting found)
    have stopped := Program.safe_settle input (starts slot label input rfl free admitted)
    rw [stops] at stopped
    exact stopped
  · refine machine.attached_place (fun request next stops => ?_)
      fun other waiting different found =>
        Program.safe_rely (there other waiting different found) (secure other waiting found)
    have stopped := Program.safe_settle input
      (secure slot thread busy _ input (here slot input thread rfl busy)).2
    rw [stops] at stopped
    exact stopped

/-- What a resumed program does: its call is `ok`, and its end is in the postcondition. -/
theorem secure_resume {pool : Pool ε χ ι σ ρ τ κ α} {slot : τ} (input : χ)
    {thread : Thread ε χ ι ρ (κ slot) (α slot)}
    (secure : Pool.Secure machine around post pool) (busy : pool.thread slot = some thread)
    (here : (around slot thread.label).rely thread.request input pool.shared pool.shared) :
    (around slot thread.label).ok thread.request input pool.shared ∧
      ∀ result,
        (thread.next (machine.exec thread.request input pool.shared).1).settle input =
            .finished result →
          post slot thread.label result (machine.exec thread.request input pool.shared).2 := by
  obtain ⟨ok, later⟩ := secure slot thread busy _ input here
  refine ⟨ok, fun result ends => ?_⟩
  have stopped := Program.safe_settle input later
  rw [ends] at stopped
  exact stopped

/-- What programs do in surroundings that promise nothing, those in flight still do. -/
theorem run_free {ok : (slot : τ) → κ slot → ι → χ → σ → Prop}
    (programs : ∀ slot label state, (machine.program slot label).Safe machine.exec
      (Program.free (ok slot label)) (post slot label) state)
    {shared : σ} {moves : List (Move χ τ κ)} {pool : Pool ε χ ι σ ρ τ κ α}
    (reached : machine.run (Pool.idle shared) moves = some pool) :
    Pool.Secure machine (fun slot label => Program.free (ok slot label)) post pool := by
  have meets : machine.Meets (fun _ _ => True) (Pool.idle shared) moves :=
    machine.meets_of_forall (fun _ _ _ => trivial) _
  exact machine.run_invariant
    (fun pool _ _ secure _ moved => machine.act_secure secure moved
      (fun slot label _ _ _ _ => programs slot label pool.shared) (fun _ _ _ _ _ => trivial)
      fun _ _ _ _ _ _ _ => trivial)
    moves _ _ (fun _ _ busy => by cases busy) meets reached

/-! ### The goal of a program in flight -/

/-- The call a move executes in `slot` gets a fair reply. -/
def Answers (fair : (request : ι) → Except ε (ρ request) → Prop) (slot : τ)
    (pool : Pool ε χ ι σ ρ τ κ α) (move : Move χ τ κ) : Prop :=
  ∀ input thread, move = .resume slot input → pool.thread slot = some thread →
    fair thread.request (machine.exec thread.request input pool.shared).1

/-- **A goal is met on the way**: a program that makes calm calls only until it comes to a goal
call, and does not end before, has executed that call when its slot is found at any other. -/
theorem run_until {fair : (request : ι) → Except ε (ρ request) → Prop} {calm goal : ι → Prop}
    {slot : τ} {moves : List (Move χ τ κ)} :
    ∀ {pool pool' : Pool ε χ ι σ ρ τ κ α} {thread thread' : Thread ε χ ι ρ (κ slot) (α slot)},
      pool.thread slot = some thread → thread.program.Until fair calm goal (fun _ => False) →
        machine.Meets (machine.Answers fair slot) pool moves →
          machine.run pool moves = some pool' → pool'.thread slot = some thread' →
            ¬ calm thread'.request → ¬ goal thread'.request →
              ∃ between input after middle waiting,
                moves = between ++ .resume slot input :: after ∧
                  machine.run pool between = some middle ∧
                    middle.thread slot = some waiting ∧ goal waiting.request := by
  induction moves with
  | nil =>
    intro pool pool' thread thread' waits owes _ reached busy loud elsewhere
    cases reached
    cases waits.symm.trans busy
    obtain there | ⟨quiet, _⟩ := owes
    · exact absurd there elsewhere
    · exact absurd quiet loud
  | cons move moves ih =>
    intro pool pool' thread thread' waits owes meets reached busy loud elsewhere
    obtain ⟨next, moved, rest⟩ := Option.bind_eq_some_iff.mp reached
    -- the goal is met in the run that is left, so it is met in the whole one
    have onward {waiting : Thread ε χ ι ρ (κ slot) (α slot)}
        (found : next.thread slot = some waiting)
        (owes : waiting.program.Until fair calm goal fun _ => False) :
        ∃ between input after middle waiting,
          move :: moves = between ++ .resume slot input :: after ∧
            machine.run pool between = some middle ∧
              middle.thread slot = some waiting ∧ goal waiting.request := by
      obtain ⟨between, input, after, middle, waiting, same, ran, here, there⟩ :=
        ih found owes (meets.2 next moved) rest busy loud elsewhere
      refine ⟨move :: between, input, after, middle, waiting, by rw [same]; rfl, ?_, here, there⟩
      rw [run, moved]
      exact ran
    obtain ⟨other, label, input, rfl, free, _, rfl⟩ | ⟨other, input, waiting, rfl, found, rfl⟩ :=
      machine.act_cases moved
    · refine onward ((machine.place_other (fun same => ?_) _ _ _ _).trans waits) owes
      subst same
      cases free.symm.trans waits
    by_cases same : slot = other
    · subst same
      cases waits.symm.trans found
      obtain there | ⟨_, later⟩ := owes
      · exact ⟨[], input, moves, pool, thread, rfl, rfl, waits, there⟩
      have answered := meets.1 input thread rfl waits
      obtain ⟨no_error, no_value, calls⟩ := Program.until_settle (later _ answered)
      obtain ⟨result, stops, _⟩ | ⟨request, next, stops, here⟩ := machine.act_resume moved waits
      · cases result with
        | ok value => exact (no_value value stops).elim
        | error error => exact absurd stops (no_error error)
      · exact onward here (calls request next stops)
    · exact onward ((machine.place_other same _ _ _ _).trans waits) owes

/-! ### Phases -/

section Phase

variable {ν : Type} (phase : σ → Prop) (own : τ → σ → ν)

/-- The surroundings of a slot while a phase lasts: the phase holds at every call and is kept by it,
and nobody changes what another slot owns of the state. -/
def lasting (slot : τ) : Program.Surroundings χ ι σ where
  rely _ _ state state' := phase state' ∧ own slot state' = own slot state
  ok request input state :=
    phase (machine.exec request input state).2 ∧
      ∀ other, other ≠ slot → own other (machine.exec request input state).2 = own other state

/-- A pool in which the phase has begun: it holds, and the programs in flight will keep it. -/
structure Pool.Lasting (pool : Pool ε χ ι σ ρ τ κ α) : Prop where
  holds : phase pool.shared
  secure : Pool.Secure machine (fun slot _ => machine.lasting phase own slot)
    (fun _ _ _ _ => True) pool

variable {phase own}

theorem lasting_act
    (leaves : ∀ slot label result state, phase state →
      phase (machine.leave slot label result state))
    (owned : ∀ slot label result state other,
      own other (machine.leave slot label result state) = own other state)
    {pool pool' : Pool ε χ ι σ ρ τ κ α} {move : Move χ τ κ}
    (lasting : Pool.Lasting machine phase own pool)
    (starts : ∀ slot label input, move = .start slot label input → ∀ state, phase state →
      (machine.program slot label).Safe machine.exec (machine.lasting phase own slot)
        (fun _ _ => True) state)
    (moved : machine.act pool move = some pool') : Pool.Lasting machine phase own pool' := by
  have placed : ∀ slot label stop shared thread, phase shared →
      phase (machine.place slot label stop shared thread).shared ∧
        ∀ other, own other (machine.place slot label stop shared thread).shared =
          own other shared := by
    intro slot label stop shared thread holds
    cases stop with
    | finished result => exact ⟨leaves slot label result shared holds,
        owned slot label result shared⟩
    | calling request next => exact ⟨holds, fun _ => rfl⟩
  have step : phase pool'.shared ∧
      ∀ other, other ≠ move.slot → own other pool'.shared = own other pool.shared := by
    obtain ⟨slot, label, input, rfl, _, _, rfl⟩ | ⟨slot, input, thread, rfl, busy, rfl⟩ :=
      machine.act_cases moved
    · exact ⟨(placed _ _ _ _ _ lasting.holds).1, fun other _ =>
        (placed _ _ _ _ _ lasting.holds).2 other⟩
    · have ok : (machine.lasting phase own slot).ok thread.request input pool.shared :=
        (machine.secure_resume input lasting.secure busy ⟨lasting.holds, rfl⟩).1
      exact ⟨(placed _ _ _ _ _ ok.1).1, fun other different =>
        ((placed _ _ _ _ _ ok.1).2 other).trans (ok.2 other different)⟩
  refine ⟨step.1, machine.act_secure lasting.secure moved
    (fun slot label input is_start _ _ => starts slot label input is_start _ lasting.holds)
    (fun _ _ _ _ _ => ⟨lasting.holds, rfl⟩) fun other waiting different _ third input relied => ?_⟩
  exact ⟨relied.1, relied.2.trans (step.2 other different)⟩

/-- **A phase lasts**, along any run whose starts keep it. -/
theorem lasting_run
    (leaves : ∀ slot label result state, phase state →
      phase (machine.leave slot label result state))
    (owned : ∀ slot label result state other,
      own other (machine.leave slot label result state) = own other state)
    {moves : List (Move χ τ κ)}
    (starts : ∀ slot label input, .start slot label input ∈ moves → ∀ state, phase state →
      (machine.program slot label).Safe machine.exec (machine.lasting phase own slot)
        (fun _ _ => True) state)
    {pool pool' : Pool ε χ ι σ ρ τ κ α} (lasting : Pool.Lasting machine phase own pool)
    (reached : machine.run pool moves = some pool') : Pool.Lasting machine phase own pool' := by
  have meets : machine.Meets (fun _ move => move ∈ moves) pool moves :=
    machine.meets_of_forall (fun _ member _ => member) pool
  exact machine.run_invariant
    (fun _ _ _ lasting member moved => machine.lasting_act leaves owned lasting
      (fun slot label input is_start => starts slot label input (is_start ▸ member)) moved)
    moves pool pool' lasting meets reached

end Phase

end Machine

end WaAutomation.Library
