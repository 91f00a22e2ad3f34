/-
**What a run exchanges with its surroundings, and jobs that are tried again.**

* `exchanges` lists the calls of a run with their replies, and `exchanges_bind` composes it;
* `Traces` is a postcondition on the exchanges and the result of a program under fair replies, with
  one rule for each construct, and `traces_run` reads it off a run;
* `found` executes calls in surroundings that move: every call finds the next state of a stream, so
  a run over `found` is a run between which and in which anything may happen to the state;
* `made` lists the attempts a queue makes of a job, up to the first that does not fail, and
  `made_pairwise` reduces a relation between any two exchanges of all attempts to single attempts.
-/

import WaAutomation.Library.Program

set_option linter.unusedSectionVars false

namespace WaAutomation.Library

namespace Program

/-! ### Exchanges -/

/-- A call with its reply. -/
structure Exchange (ε ι : Type) (ρ : ι → Type) where
  request : ι
  reply : Except ε (ρ request)

section Exchanges

variable {ε χ ι σ : Type} {ρ : ι → Type} {α β : Type}
  (exec : (request : ι) → χ → σ → Except ε (ρ request) × σ)

/-- The exchanges of a run, in order. -/
def exchanges : Program ε χ ι ρ α → Tape χ → σ → List (Exchange ε ι ρ)
  | .ret _, _, _ => []
  | .throw _, _, _ => []
  | .ambient next, tape, state => (next tape.now).exchanges tape state
  | .call request next, tape, state =>
      let outcome := exec request (tape.later 0) state
      ⟨request, outcome.1⟩ :: (next outcome.1).exchanges tape.advance outcome.2

theorem exchanges_bind (program : Program ε χ ι ρ α) (rest : α → Program ε χ ι ρ β) :
    ∀ (tape : Tape χ) (state : σ),
      (program >>= rest).exchanges exec tape state =
        program.exchanges exec tape state ++
          match program.run exec tape state with
          | (.ok value, tape', state') => (rest value).exchanges exec tape' state'
          | (.error _, _, _) => [] := by
  induction program with
  | ret value => exact fun _ _ => rfl
  | throw error => exact fun _ _ => rfl
  | ambient next ih => exact fun tape state => ih tape.now tape state
  | call request next ih =>
    intro tape state
    simp only [call_bind, exchanges, run, ih, List.cons_append]

/-- The exchanges are the visits with their replies. -/
theorem exchanges_visits (program : Program ε χ ι ρ α) :
    ∀ (tape : Tape χ) (state : σ), program.exchanges exec tape state =
      (program.visits exec tape state).map fun visit =>
        ⟨visit.1, (exec visit.1 visit.2.1 visit.2.2).1⟩ := by
  induction program with
  | ret value => exact fun _ _ => rfl
  | throw error => exact fun _ _ => rfl
  | ambient next ih => exact fun tape state => ih tape.now tape state
  | call request next ih =>
    intro tape state
    simp only [exchanges, visits, List.map_cons, ih]

theorem exchanges_attempt (program : Program ε χ ι ρ α) :
    ∀ (tape : Tape χ) (state : σ),
      program.attempt.exchanges exec tape state = program.exchanges exec tape state := by
  induction program with
  | ret value => exact fun _ _ => rfl
  | throw error => exact fun _ _ => rfl
  | ambient next ih => exact fun tape state => ih tape.now tape state
  | call request next ih =>
    intro tape state
    simp only [attempt, exchanges, ih]

/-- What a program returns is no exchange. -/
theorem exchanges_ret (program : Program ε χ ι ρ α) (result : α → β) (tape : Tape χ) (state : σ) :
    (program >>= fun value => .ret (result value)).exchanges exec tape state =
      program.exchanges exec tape state := by
  rw [exchanges_bind]
  obtain ⟨outcome, tape', state'⟩ := program.run exec tape state
  cases outcome <;> exact List.append_nil _

theorem exchanges_perform (request : ι) (tape : Tape χ) (state : σ) :
    (perform request : Program ε χ ι ρ (ρ request)).exchanges exec tape state =
      [⟨request, (exec request (tape.later 0) state).1⟩] := by
  unfold perform exchanges
  dsimp only
  cases (exec request (tape.later 0) state).1 <;> rfl

/-- A program goes on with the reply of its first call. -/
theorem perform_ok {request : ι} {value : ρ request} {tape : Tape χ} {state : σ}
    (replies : (exec request (tape.later 0) state).1 = .ok value)
    (rest : ρ request → Program ε χ ι ρ β) :
    (perform request >>= rest).run exec tape state =
        (rest value).run exec tape.advance (exec request (tape.later 0) state).2 ∧
      (perform request >>= rest).exchanges exec tape state =
        ⟨request, .ok value⟩ ::
          (rest value).exchanges exec tape.advance (exec request (tape.later 0) state).2 := by
  rw [run_bind, exchanges_bind, run_perform, exchanges_perform, replies]
  exact ⟨rfl, rfl⟩

/-- And ends when that is an exception. -/
theorem perform_error {request : ι} {error : ε} {tape : Tape χ} {state : σ}
    (replies : (exec request (tape.later 0) state).1 = .error error)
    (rest : ρ request → Program ε χ ι ρ β) :
    (perform request >>= rest).run exec tape state =
        (.error error, tape.advance, (exec request (tape.later 0) state).2) ∧
      (perform request >>= rest).exchanges exec tape state = [⟨request, .error error⟩] := by
  rw [run_bind, exchanges_bind, run_perform, exchanges_perform, replies]
  exact ⟨rfl, rfl⟩

/-- A program that calls nothing. -/
abbrev Silent (program : Program ε χ ι ρ α) : Prop := program.Calls fun _ => False

theorem run_silent {program : Program ε χ ι ρ α} (silent : program.Silent) (tape : Tape χ)
    (state : σ) :
    (∃ result, program.run exec tape state = (result, tape, state)) ∧
      program.exchanges exec tape state = [] := by
  induction program with
  | ret value => exact ⟨⟨_, rfl⟩, rfl⟩
  | throw error => exact ⟨⟨_, rfl⟩, rfl⟩
  | ambient next ih => exact ih tape.now (silent tape.now)
  | call request next ih => exact silent.1.elim

/-- One call, and then none. -/
theorem run_single {request : ι} {rest : ρ request → Program ε χ ι ρ β}
    (silent : ∀ value, (rest value).Silent) (tape : Tape χ) (state : σ) :
    (∃ result, (perform request >>= rest).run exec tape state =
      (result, tape.advance, (exec request (tape.later 0) state).2)) ∧
    (perform request >>= rest).exchanges exec tape state =
      [⟨request, (exec request (tape.later 0) state).1⟩] := by
  simp only [run_bind, exchanges_bind, run_perform, exchanges_perform]
  cases (exec request (tape.later 0) state).1 with
  | error error => exact ⟨⟨_, rfl⟩, rfl⟩
  | ok value =>
    obtain ⟨ran, none⟩ := run_silent exec (silent value) tape.advance
      (exec request (tape.later 0) state).2
    exact ⟨ran, by simp only [none, List.append_nil]⟩

variable {exec}

/-- What a program calls, its runs exchange. -/
theorem exchanges_calls {allowed : ι → Prop} {program : Program ε χ ι ρ α} :
    ∀ {tape : Tape χ} {state : σ}, program.Calls allowed →
      ∀ exchange ∈ program.exchanges exec tape state, allowed exchange.request := by
  induction program with
  | ret value => exact fun _ _ member => by cases member
  | throw error => exact fun _ _ member => by cases member
  | ambient next ih => exact fun {tape _} calls => ih tape.now (calls tape.now)
  | call request next ih =>
    intro tape state calls exchange member
    rcases List.mem_cons.mp member with rfl | later
    · exact calls.1
    · exact ih _ (calls.2 _) exchange later

/-- When every reply is fair, what a program is given to call, its runs exchange. -/
theorem exchanges_given {fair : (request : ι) → Except ε (ρ request) → Prop} {allowed : ι → Prop}
    {ends : α → Prop} {inv : σ → Prop}
    (replies : ∀ request input state, inv state →
      fair request (exec request input state).1 ∧ inv (exec request input state).2)
    {program : Program ε χ ι ρ α} :
    ∀ {tape : Tape χ} {state : σ}, inv state → program.Given fair allowed ends →
      ∀ exchange ∈ program.exchanges exec tape state, allowed exchange.request := by
  induction program with
  | ret value => exact fun _ _ _ member => by cases member
  | throw error => exact fun _ _ _ member => by cases member
  | ambient next ih => exact fun {tape _} holds given => ih tape.now holds (given tape.now)
  | call request next ih =>
    intro tape state holds given exchange member
    obtain ⟨is_fair, kept⟩ := replies request (tape.later 0) state holds
    rcases List.mem_cons.mp member with rfl | later
    · exact given.1
    · exact ih _ kept (given.2 _ is_fair) exchange later

end Exchanges

/-! ### Postconditions on exchanges -/

section Traces

variable {ε χ ι σ : Type} {ρ : ι → Type} {α β : Type}

/-- Whatever fair replies it gets, the exchanges of the program and its result satisfy `post`. -/
def Traces (fair : (request : ι) → Except ε (ρ request) → Prop) :
    Program ε χ ι ρ α → (List (Exchange ε ι ρ) → Except ε α → Prop) → Prop
  | .ret value, post => post [] (.ok value)
  | .throw error, post => post [] (.error error)
  | .ambient next, post => ∀ reading, (next reading).Traces fair post
  | .call request next, post => ∀ reply, fair request reply →
      (next reply).Traces fair fun trace => post (⟨request, reply⟩ :: trace)

variable {fair : (request : ι) → Except ε (ρ request) → Prop}

theorem traces_mono {program : Program ε χ ι ρ α} :
    ∀ {post post' : List (Exchange ε ι ρ) → Except ε α → Prop},
      (∀ trace result, post trace result → post' trace result) → program.Traces fair post →
        program.Traces fair post' := by
  induction program with
  | ret value => exact fun implies held => implies _ _ held
  | throw error => exact fun implies held => implies _ _ held
  | ambient next ih => exact fun implies held reading => ih reading implies (held reading)
  | call request next ih =>
    exact fun implies held reply is_fair =>
      ih reply (fun _ _ holds => implies _ _ holds) (held reply is_fair)

theorem traces_bind {program : Program ε χ ι ρ α} {rest : α → Program ε χ ι ρ β} :
    ∀ {post : List (Exchange ε ι ρ) → Except ε β → Prop},
      (program.Traces fair fun trace result => match result with
        | .ok value => (rest value).Traces fair fun later => post (trace ++ later)
        | .error error => post trace (.error error)) → (program >>= rest).Traces fair post := by
  induction program with
  | ret value => exact fun held => held
  | throw error => exact fun held => held
  | ambient next ih => exact fun held reading => ih reading (held reading)
  | call request next ih => exact fun held reply is_fair => ih reply (held reply is_fair)

theorem traces_attempt {program : Program ε χ ι ρ α} :
    ∀ {post : List (Exchange ε ι ρ) → Except ε (Except ε α) → Prop},
      (program.Traces fair fun trace result => post trace (.ok result)) →
        program.attempt.Traces fair post := by
  induction program with
  | ret value => exact fun held => held
  | throw error => exact fun held => held
  | ambient next ih => exact fun held reading => ih reading (held reading)
  | call request next ih => exact fun held reply is_fair => ih reply (held reply is_fair)

theorem traces_perform {request : ι}
    {post : List (Exchange ε ι ρ) → Except ε (ρ request) → Prop}
    (replies : ∀ reply, fair request reply → post [⟨request, reply⟩] reply) :
    (perform request : Program ε χ ι ρ (ρ request)).Traces fair post := by
  intro reply is_fair
  cases reply with
  | ok value => exact replies _ is_fair
  | error error => exact replies _ is_fair

/-- What a program calls, it exchanges. -/
theorem traces_calls {allowed : ι → Prop} {program : Program ε χ ι ρ α} :
    ∀ {post : List (Exchange ε ι ρ) → Except ε α → Prop}, program.Calls allowed →
      (∀ trace result, (∀ exchange ∈ trace, allowed exchange.request) → post trace result) →
        program.Traces fair post := by
  induction program with
  | ret value => exact fun _ holds => holds _ _ fun _ member => (by cases member)
  | throw error => exact fun _ holds => holds _ _ fun _ member => (by cases member)
  | ambient next ih => exact fun calls holds reading => ih reading (calls reading) holds
  | call request next ih =>
    intro post calls holds reply _
    refine ih reply (calls.2 reply) fun trace result all => holds _ result ?_
    exact List.forall_mem_cons.mpr ⟨calls.1, all⟩

/-- **A run satisfies the postconditions of its program**, when every reply is fair. -/
theorem traces_run {exec : (request : ι) → χ → σ → Except ε (ρ request) × σ}
    (replies : ∀ request input state, fair request (exec request input state).1)
    {program : Program ε χ ι ρ α} :
    ∀ {post : List (Exchange ε ι ρ) → Except ε α → Prop} (tape : Tape χ) (state : σ),
      program.Traces fair post →
        post (program.exchanges exec tape state) (program.run exec tape state).1 := by
  induction program with
  | ret value => exact fun _ _ held => held
  | throw error => exact fun _ _ held => held
  | ambient next ih => exact fun tape state held => ih tape.now tape state (held tape.now)
  | call request next ih =>
    exact fun tape state held => ih _ tape.advance _ (held _ (replies request _ state))

end Traces

/-! ### Surroundings that move -/

section Moving

variable {ε χ ι σ : Type} {ρ : ι → Type}

/-- A call in the next state of a stream. -/
def found (exec : (request : ι) → χ → σ → Except ε (ρ request) × σ) (request : ι) (input : χ)
    (states : ℕ → σ) : Except ε (ρ request) × (ℕ → σ) :=
  ((exec request input (states 0)).1, fun index => states (index + 1))

end Moving

end Program

/-! ### Attempts -/

section Attempts

variable {α β : Type}

/-- The attempts that are made of those that can be: up to the first that does not fail. -/
def made (failed : α → Bool) : List α → List α
  | [] => []
  | attempt :: rest => if failed attempt then attempt :: made failed rest else [attempt]

theorem made_initial (failed : α → Bool) (attempts : List α) :
    made failed attempts <+: attempts := by
  induction attempts with
  | nil => exact List.prefix_rfl
  | cons attempt rest ih =>
    unfold made
    split
    · exact (List.prefix_cons_inj attempt).mpr ih
    · exact ⟨rest, rfl⟩

/-- An attempt that is followed by another one has failed. -/
theorem made_failed (failed : α → Bool) (attempts : List α) :
    (made failed attempts).Pairwise fun first _ => failed first = true := by
  induction attempts with
  | nil => exact List.Pairwise.nil
  | cons attempt rest ih =>
    unfold made
    by_cases failure : failed attempt = true
    · rw [if_pos failure]
      exact List.pairwise_cons.mpr ⟨fun _ _ => failure, ih⟩
    · rw [if_neg failure]
      exact List.pairwise_singleton _ _

theorem made_subset (failed : α → Bool) (attempts : List α) : made failed attempts ⊆ attempts :=
  (made_initial failed attempts).subset

/-- **All attempts together**: a relation between any two exchanges, the earlier one first, holds
when it holds within every attempt, and when a failed attempt exchanges nothing that the relation
restricts. -/
theorem made_pairwise {failed : α → Bool} {exchanged : α → List β} {relation : β → β → Prop}
    {attempts : List α}
    (own : ∀ attempt ∈ made failed attempts, (exchanged attempt).Pairwise relation)
    (fails : ∀ attempt ∈ made failed attempts, failed attempt = true →
      ∀ first ∈ exchanged attempt, ∀ second, relation first second) :
    ((made failed attempts).flatMap exchanged).Pairwise relation := by
  induction attempts with
  | nil => exact List.Pairwise.nil
  | cons attempt rest ih =>
    unfold made at own fails ⊢
    by_cases failure : failed attempt = true
    · rw [if_pos failure] at own fails ⊢
      rw [List.flatMap_cons, List.pairwise_append]
      exact ⟨own attempt List.mem_cons_self,
        ih (fun other member => own other (List.mem_cons_of_mem _ member))
          fun other member => fails other (List.mem_cons_of_mem _ member),
        fun first member second _ => fails attempt List.mem_cons_self failure first member second⟩
    · rw [if_neg failure] at own ⊢
      rw [List.flatMap_singleton]
      exact own attempt List.mem_cons_self

end Attempts

end WaAutomation.Library
