/-
**Programs that suspend at calls, their runs alone, and a precondition calculus for them.**

An asynchronous function runs without interruption from one awaited call to the next. `Program` is
the tree of such a function: it returns, throws, or suspends at a `call` whose reply (a value or an
exception) picks the rest. Reading the surroundings between two calls (a clock, a random source)
does not suspend and is the separate node `ambient`.

* `Program.attempt` turns an exception into a value and keeps the calls made before;
* `Program.settle` runs a program up to its next call, with the readings of the moment;
* `Program.run` runs a whole program alone, one input for each call, and `run_bind` composes runs;
* `Program.Everywhere` says that every suspension a program can come to has a property, whatever
  the replies; `Program.Calls` is the case of a property of the call alone;
* `Program.Returns` says that every value a program can return has a property;
* `Program.Given` says that every call a program makes is allowed as long as the replies are fair,
  and `Program.Told` the same as long as the readings are real too;
* `Program.Until` says that a program makes calm calls only until it comes to a goal call;
* `Program.Safe` is a weakest precondition with interference: between two calls the state may move
  along `rely`, every call must satisfy `ok`, and the end must satisfy the postcondition.
  `safe_bind`, `safe_attempt` and `safe_mono` compose it, `safe_rely` says it is stable under the
  interference it allows, `safe_stable_bind` steps over calls that keep an invariant, and
  `safe_of_free` brings in what holds under any interference;
* `run_visits`, `run_relates` and `run_same` read off safety in surroundings without interference
  what a run does to the state, and that two runs on states with one view cannot be told apart.
-/

import Mathlib.Logic.Function.Basic
import Mathlib.Tactic.Common

set_option linter.unusedSectionVars false

namespace WaAutomation.Library

/-! ### The tree -/

/-- A program with exceptions `ε`, readings of the surroundings `χ`, calls `ι` with replies `ρ`, and
results `α`. -/
inductive Program (ε χ ι : Type) (ρ : ι → Type) (α : Type) : Type where
  | ret (value : α)
  | throw (error : ε)
  | ambient (next : χ → Program ε χ ι ρ α)
  | call (request : ι) (next : Except ε (ρ request) → Program ε χ ι ρ α)

/-- Where a program stops when it is run up to its next call. -/
inductive Stop (ε χ ι : Type) (ρ : ι → Type) (α : Type) : Type where
  | finished (result : Except ε α)
  | calling (request : ι) (next : Except ε (ρ request) → Program ε χ ι ρ α)

namespace Program

section Syntax

variable {ε χ ι : Type} {ρ : ι → Type} {α β γ : Type}

/-- Sequencing: an exception ends the whole program. -/
def bind : Program ε χ ι ρ α → (α → Program ε χ ι ρ β) → Program ε χ ι ρ β
  | .ret value, rest => rest value
  | .throw error, _ => .throw error
  | .ambient next, rest => .ambient fun reading => (next reading).bind rest
  | .call request next, rest => .call request fun reply => (next reply).bind rest

instance : Monad (Program ε χ ι ρ) where
  pure := .ret
  bind := bind

/-- The exception of a program, as a value. -/
def attempt : Program ε χ ι ρ α → Program ε χ ι ρ (Except ε α)
  | .ret value => .ret (.ok value)
  | .throw error => .ret (.error error)
  | .ambient next => .ambient fun reading => (next reading).attempt
  | .call request next => .call request fun reply => (next reply).attempt

/-- One call, its exception thrown on. -/
def perform (request : ι) : Program ε χ ι ρ (ρ request) :=
  .call request fun
    | .ok reply => .ret reply
    | .error error => .throw error

/-- The readings of the moment. -/
def read : Program ε χ ι ρ χ :=
  .ambient .ret

@[simp] theorem pure_eq (value : α) : (pure value : Program ε χ ι ρ α) = .ret value := rfl

@[simp] theorem ret_bind (value : α) (rest : α → Program ε χ ι ρ β) :
    (Program.ret value : Program ε χ ι ρ α) >>= rest = rest value := rfl

@[simp] theorem throw_bind (error : ε) (rest : α → Program ε χ ι ρ β) :
    (Program.throw error : Program ε χ ι ρ α) >>= rest = .throw error := rfl

@[simp] theorem ambient_bind (next : χ → Program ε χ ι ρ α) (rest : α → Program ε χ ι ρ β) :
    Program.ambient next >>= rest = .ambient fun reading => next reading >>= rest := rfl

@[simp] theorem call_bind (request : ι) (next : Except ε (ρ request) → Program ε χ ι ρ α)
    (rest : α → Program ε χ ι ρ β) :
    Program.call request next >>= rest = .call request fun reply => next reply >>= rest := rfl

theorem bind_assoc (program : Program ε χ ι ρ α) (first : α → Program ε χ ι ρ β)
    (second : β → Program ε χ ι ρ γ) :
    program >>= first >>= second = program >>= fun value => first value >>= second := by
  induction program with
  | ret value => rfl
  | throw error => rfl
  | ambient next ih =>
    simp only [ambient_bind]
    congr 1
    funext reading
    exact ih reading
  | call request next ih =>
    simp only [call_bind]
    congr 1
    funext reply
    exact ih reply

end Syntax

/-! ### Up to the next call -/

section Settle

variable {ε χ ι : Type} {ρ : ι → Type} {α β : Type}

/-- Run a program up to its next call, with the readings of the moment. -/
def settle (reading : χ) : Program ε χ ι ρ α → Stop ε χ ι ρ α
  | .ret value => .finished (.ok value)
  | .throw error => .finished (.error error)
  | .ambient next => (next reading).settle reading
  | .call request next => .calling request next

@[simp] theorem settle_ret (reading : χ) (value : α) :
    (Program.ret value : Program ε χ ι ρ α).settle reading = .finished (.ok value) := rfl

@[simp] theorem settle_throw (reading : χ) (error : ε) :
    (Program.throw error : Program ε χ ι ρ α).settle reading = .finished (.error error) := rfl

@[simp] theorem settle_ambient (reading : χ) (next : χ → Program ε χ ι ρ α) :
    (Program.ambient next).settle reading = (next reading).settle reading := rfl

@[simp] theorem settle_call (reading : χ) (request : ι)
    (next : Except ε (ρ request) → Program ε χ ι ρ α) :
    (Program.call request next).settle reading = .calling request next := rfl

end Settle

/-! ### Running alone -/

section Run

variable {ε χ ι σ : Type} {ρ : ι → Type} {α β : Type}

/-- The inputs of a run: the readings of the moment, and one input for each call to come. -/
structure Tape (χ : Type) where
  now : χ
  later : ℕ → χ

/-- The tape after one call. -/
def Tape.advance (tape : Tape χ) : Tape χ :=
  ⟨tape.later 0, fun index => tape.later (index + 1)⟩

variable (exec : (request : ι) → χ → σ → Except ε (ρ request) × σ)

/-- The run of a program alone. -/
def run : Program ε χ ι ρ α → Tape χ → σ → Except ε α × Tape χ × σ
  | .ret value, tape, state => (.ok value, tape, state)
  | .throw error, tape, state => (.error error, tape, state)
  | .ambient next, tape, state => (next tape.now).run tape state
  | .call request next, tape, state =>
      let outcome := exec request (tape.later 0) state
      (next outcome.1).run tape.advance outcome.2

theorem run_bind (program : Program ε χ ι ρ α) (rest : α → Program ε χ ι ρ β) :
    ∀ (tape : Tape χ) (state : σ),
      (program >>= rest).run exec tape state =
        match program.run exec tape state with
        | (.ok value, tape', state') => (rest value).run exec tape' state'
        | (.error error, tape', state') => (.error error, tape', state') := by
  induction program with
  | ret value => exact fun _ _ => rfl
  | throw error => exact fun _ _ => rfl
  | ambient next ih => exact fun tape state => ih tape.now tape state
  | call request next ih => exact fun tape state => ih _ tape.advance _

theorem run_perform (request : ι) (tape : Tape χ) (state : σ) :
    (perform request : Program ε χ ι ρ (ρ request)).run exec tape state =
      ((exec request (tape.later 0) state).1, tape.advance,
        (exec request (tape.later 0) state).2) := by
  unfold perform run
  dsimp only
  cases (exec request (tape.later 0) state).1 <;> rfl

theorem run_attempt (program : Program ε χ ι ρ α) :
    ∀ (tape : Tape χ) (state : σ),
      program.attempt.run exec tape state =
        (.ok (program.run exec tape state).1, (program.run exec tape state).2) := by
  induction program with
  | ret value => exact fun _ _ => rfl
  | throw error => exact fun _ _ => rfl
  | ambient next ih => exact fun tape state => ih tape.now tape state
  | call request next ih => exact fun tape state => ih _ tape.advance _

end Run

/-! ### Every suspension of a program -/

section Everywhere

variable {ε χ ι : Type} {ρ : ι → Type} {α β : Type}

/-- Every suspension the program can come to, whatever it is answered on the way, satisfies
`holds`. -/
def Everywhere (holds : (request : ι) → (Except ε (ρ request) → Program ε χ ι ρ α) → Prop) :
    Program ε χ ι ρ α → Prop
  | .ret _ => True
  | .throw _ => True
  | .ambient next => ∀ reading, (next reading).Everywhere holds
  | .call request next => holds request next ∧ ∀ reply, (next reply).Everywhere holds

/-- Every call the program can make satisfies `allowed`. -/
def Calls (allowed : ι → Prop) (program : Program ε χ ι ρ α) : Prop :=
  program.Everywhere fun request _ => allowed request

theorem everywhere_bind {holds : (request : ι) → (Except ε (ρ request) → Program ε χ ι ρ β) → Prop}
    {program : Program ε χ ι ρ α} {rest : α → Program ε χ ι ρ β}
    (first : program.Everywhere fun request next => holds request fun reply => next reply >>= rest)
    (second : ∀ value, (rest value).Everywhere holds) : (program >>= rest).Everywhere holds := by
  induction program with
  | ret value => exact second value
  | throw error => trivial
  | ambient next ih => exact fun reading => ih reading (first reading)
  | call request next ih => exact ⟨first.1, fun reply => ih reply (first.2 reply)⟩

theorem everywhere_mono
    {holds other : (request : ι) → (Except ε (ρ request) → Program ε χ ι ρ α) → Prop}
    (implies : ∀ request next, holds request next → other request next)
    {program : Program ε χ ι ρ α} (all : program.Everywhere holds) : program.Everywhere other := by
  induction program with
  | ret value => trivial
  | throw error => trivial
  | ambient next ih => exact fun reading => ih reading (all reading)
  | call request next ih =>
    exact ⟨implies request next all.1, fun reply => ih reply (all.2 reply)⟩

theorem everywhere_of_forall
    {holds : (request : ι) → (Except ε (ρ request) → Program ε χ ι ρ α) → Prop}
    (all : ∀ request next, holds request next) (program : Program ε χ ι ρ α) :
    program.Everywhere holds := by
  induction program with
  | ret value => trivial
  | throw error => trivial
  | ambient next ih => exact ih
  | call request next ih => exact ⟨all request next, ih⟩

/-- The property of a program that stopped at a call, read off the whole program. -/
theorem everywhere_settle
    {holds : (request : ι) → (Except ε (ρ request) → Program ε χ ι ρ α) → Prop} {reading : χ}
    {program : Program ε χ ι ρ α} (all : program.Everywhere holds) {request : ι}
    {next : Except ε (ρ request) → Program ε χ ι ρ α}
    (stops : program.settle reading = .calling request next) :
    (Program.call request next).Everywhere holds := by
  induction program with
  | ret value => cases stops
  | throw error => cases stops
  | ambient later ih => exact ih reading (all reading) stops
  | call other later ih =>
    cases stops
    exact all

variable {allowed : ι → Prop}

theorem calls_bind {program : Program ε χ ι ρ α} {rest : α → Program ε χ ι ρ β}
    (first : program.Calls allowed) (second : ∀ value, (rest value).Calls allowed) :
    (program >>= rest).Calls allowed :=
  everywhere_bind first second

theorem calls_attempt {program : Program ε χ ι ρ α} (all : program.Calls allowed) :
    program.attempt.Calls allowed := by
  induction program with
  | ret value => trivial
  | throw error => trivial
  | ambient next ih => exact fun reading => ih reading (all reading)
  | call request next ih => exact ⟨all.1, fun reply => ih reply (all.2 reply)⟩

theorem calls_perform {request : ι} (holds : allowed request) :
    (perform request : Program ε χ ι ρ (ρ request)).Calls allowed := by
  refine ⟨holds, fun reply => ?_⟩
  cases reply <;> trivial

theorem calls_mono {other : ι → Prop} (implies : ∀ request, allowed request → other request)
    {program : Program ε χ ι ρ α} (all : program.Calls allowed) : program.Calls other :=
  everywhere_mono (fun request _ => implies request) all

end Everywhere

/-! ### Results of a program -/

section Returns

variable {ε χ ι σ : Type} {ρ : ι → Type} {α β : Type}

/-- Every value the program can return, whatever it is answered on the way, satisfies `holds`. -/
def Returns (holds : α → Prop) : Program ε χ ι ρ α → Prop
  | .ret value => holds value
  | .throw _ => True
  | .ambient next => ∀ reading, (next reading).Returns holds
  | .call _ next => ∀ reply, (next reply).Returns holds

/-- The values of a program are those of what it ends in. -/
theorem returns_bind {holds : β → Prop} {rest : α → Program ε χ ι ρ β}
    (ends : ∀ value, (rest value).Returns holds) (program : Program ε χ ι ρ α) :
    (program >>= rest).Returns holds := by
  induction program with
  | ret value => exact ends value
  | throw error => trivial
  | ambient next ih => exact ih
  | call request next ih => exact ih

/-- The rest of a program is met with the values the first part returns. -/
theorem everywhere_returns_bind
    {holds : (request : ι) → (Except ε (ρ request) → Program ε χ ι ρ β) → Prop} {ends : α → Prop}
    {program : Program ε χ ι ρ α} {rest : α → Program ε χ ι ρ β}
    (first : program.Everywhere fun request next => holds request fun reply => next reply >>= rest)
    (returns : program.Returns ends)
    (second : ∀ value, ends value → (rest value).Everywhere holds) :
    (program >>= rest).Everywhere holds := by
  induction program with
  | ret value => exact second value returns
  | throw error => trivial
  | ambient next ih => exact fun reading => ih reading (first reading) (returns reading)
  | call request next ih =>
    exact ⟨first.1, fun reply => ih reply (first.2 reply) (returns reply)⟩

/-- The rest of a program that can return one value only is met with it. -/
theorem returns_only_bind {only : α} {program : Program ε χ ι ρ α}
    (rest : α → Program ε χ ι ρ β) (returns : program.Returns (· = only)) :
    program >>= rest = program >>= fun _ => rest only := by
  induction program with
  | ret value => exact congrArg rest returns
  | throw error => rfl
  | ambient next ih =>
    exact congrArg Program.ambient (funext fun reading => ih reading (returns reading))
  | call request next ih =>
    exact congrArg (Program.call request) (funext fun reply => ih reply (returns reply))

theorem returns_run {exec : (request : ι) → χ → σ → Except ε (ρ request) × σ} {holds : α → Prop}
    {program : Program ε χ ι ρ α} :
    ∀ {tape : Tape χ} {state : σ} {value : α}, program.Returns holds →
      (program.run exec tape state).1 = .ok value → holds value := by
  induction program with
  | ret value =>
    intro tape state last returns ran
    cases ran
    exact returns
  | throw error => exact fun _ ran => by cases ran
  | ambient next ih => exact fun {tape _ _} returns ran => ih tape.now (returns tape.now) ran
  | call request next ih => exact fun returns ran => ih _ (returns _) ran

end Returns

/-! ### Under fair replies -/

section Given

variable {ε χ ι : Type} {ρ : ι → Type} {α β : Type}

/-- As long as its calls get fair replies, every call the program makes is allowed, and what it
returns satisfies `ends`. -/
def Given (fair : (request : ι) → Except ε (ρ request) → Prop) (allowed : ι → Prop)
    (ends : α → Prop) : Program ε χ ι ρ α → Prop
  | .ret value => ends value
  | .throw _ => True
  | .ambient next => ∀ reading, (next reading).Given fair allowed ends
  | .call request next =>
      allowed request ∧ ∀ reply, fair request reply → (next reply).Given fair allowed ends

variable {fair : (request : ι) → Except ε (ρ request) → Prop} {allowed : ι → Prop}

theorem given_bind {ends : β → Prop} {program : Program ε χ ι ρ α} {rest : α → Program ε χ ι ρ β}
    (first : program.Given fair allowed fun value => (rest value).Given fair allowed ends) :
    (program >>= rest).Given fair allowed ends := by
  induction program with
  | ret value => exact first
  | throw error => trivial
  | ambient next ih => exact fun reading => ih reading (first reading)
  | call request next ih =>
    exact ⟨first.1, fun reply is_fair => ih reply (first.2 reply is_fair)⟩

theorem given_attempt {ends : Except ε α → Prop} {program : Program ε χ ι ρ α}
    (held : program.Given fair allowed fun value => ends (.ok value))
    (caught : ∀ error, ends (.error error)) : program.attempt.Given fair allowed ends := by
  induction program with
  | ret value => exact held
  | throw error => exact caught error
  | ambient next ih => exact fun reading => ih reading (held reading)
  | call request next ih =>
    exact ⟨held.1, fun reply is_fair => ih reply (held.2 reply is_fair)⟩

theorem given_perform {request : ι} {ends : ρ request → Prop} (holds : allowed request)
    (replies : ∀ value, fair request (.ok value) → ends value) :
    (perform request : Program ε χ ι ρ (ρ request)).Given fair allowed ends := by
  refine ⟨holds, fun reply is_fair => ?_⟩
  cases reply with
  | ok value => exact replies value is_fair
  | error error => trivial

theorem given_mono {ends ends' : α → Prop} (implies : ∀ value, ends value → ends' value)
    {program : Program ε χ ι ρ α} (held : program.Given fair allowed ends) :
    program.Given fair allowed ends' := by
  induction program with
  | ret value => exact implies value held
  | throw error => trivial
  | ambient next ih => exact fun reading => ih reading (held reading)
  | call request next ih =>
    exact ⟨held.1, fun reply is_fair => ih reply (held.2 reply is_fair)⟩

/-- What is allowed may be more. -/
theorem given_allows {allowed' : ι → Prop} (implies : ∀ request, allowed request → allowed' request)
    {ends : α → Prop} {program : Program ε χ ι ρ α} (held : program.Given fair allowed ends) :
    program.Given fair allowed' ends := by
  induction program with
  | ret value => exact held
  | throw error => trivial
  | ambient next ih => exact fun reading => ih reading (held reading)
  | call request next ih =>
    exact ⟨implies request held.1, fun reply is_fair => ih reply (held.2 reply is_fair)⟩

/-- The rest is met with a value the first part may end in. -/
theorem given_then {ends : α → Prop} {ends' : β → Prop} {program : Program ε χ ι ρ α}
    {rest : α → Program ε χ ι ρ β} (first : program.Given fair allowed ends)
    (later : ∀ value, ends value → (rest value).Given fair allowed ends') :
    (program >>= rest).Given fair allowed ends' :=
  given_bind (given_mono later first)

/-- The same of a program that stopped at a call. -/
theorem given_settle {ends : α → Prop} {reading : χ} {program : Program ε χ ι ρ α}
    (held : program.Given fair allowed ends) {request : ι}
    {next : Except ε (ρ request) → Program ε χ ι ρ α}
    (stops : program.settle reading = .calling request next) :
    (Program.call request next).Given fair allowed ends := by
  induction program with
  | ret value => cases stops
  | throw error => cases stops
  | ambient later ih => exact ih reading (held reading) stops
  | call other later ih =>
    cases stops
    exact held

/-- A program all of whose calls are allowed needs no fair replies. -/
theorem given_calls {ends : α → Prop} (all : ∀ value, ends value) {program : Program ε χ ι ρ α}
    (calls : program.Calls allowed) : program.Given fair allowed ends := by
  induction program with
  | ret value => exact all value
  | throw error => trivial
  | ambient next ih => exact fun reading => ih reading (calls reading)
  | call request next ih => exact ⟨calls.1, fun reply _ => ih reply (calls.2 reply)⟩

/-- What the first part finds out allows the calls of the rest. -/
theorem given_earned {kept : ι → Prop} {ends : α → Prop} {program : Program ε χ ι ρ α}
    {rest : α → Program ε χ ι ρ β} (earns : program.Given fair allowed ends)
    (calls : (program >>= rest).Calls kept)
    (earned : ∀ value, ends value → ∀ request, kept request → allowed request) :
    (program >>= rest).Given fair allowed fun _ => True := by
  induction program with
  | ret value =>
    exact given_allows (earned value earns) (given_calls (fun _ => trivial) calls)
  | throw error => trivial
  | ambient next ih => exact fun reading => ih reading (earns reading) (calls reading)
  | call request next ih =>
    exact ⟨earns.1, fun reply is_fair => ih reply (earns.2 reply is_fair) (calls.2 reply)⟩

end Given

/-! ### Real readings -/

section Told

variable {ε χ ι : Type} {ρ : ι → Type} {α β : Type}

/-- The same as long as the surroundings are read as they really were. -/
def Told (real : χ → Prop) (fair : (request : ι) → Except ε (ρ request) → Prop) (allowed : ι → Prop)
    (ends : α → Prop) : Program ε χ ι ρ α → Prop
  | .ret value => ends value
  | .throw _ => True
  | .ambient next => ∀ reading, real reading → (next reading).Told real fair allowed ends
  | .call request next =>
      allowed request ∧ ∀ reply, fair request reply → (next reply).Told real fair allowed ends

variable {real : χ → Prop} {fair : (request : ι) → Except ε (ρ request) → Prop} {allowed : ι → Prop}

theorem told_given {ends : α → Prop} {program : Program ε χ ι ρ α}
    (given : program.Given fair allowed ends) : program.Told real fair allowed ends := by
  induction program with
  | ret value => exact given
  | throw error => trivial
  | ambient next ih => exact fun reading _ => ih reading (given reading)
  | call request next ih =>
    exact ⟨given.1, fun reply is_fair => ih reply (given.2 reply is_fair)⟩

theorem told_bind {ends : β → Prop} {program : Program ε χ ι ρ α} {rest : α → Program ε χ ι ρ β}
    (first : program.Told real fair allowed fun value => (rest value).Told real fair allowed ends) :
    (program >>= rest).Told real fair allowed ends := by
  induction program with
  | ret value => exact first
  | throw error => trivial
  | ambient next ih => exact fun reading is_real => ih reading (first reading is_real)
  | call request next ih =>
    exact ⟨first.1, fun reply is_fair => ih reply (first.2 reply is_fair)⟩

theorem told_mono {ends ends' : α → Prop} (implies : ∀ value, ends value → ends' value)
    {program : Program ε χ ι ρ α} (held : program.Told real fair allowed ends) :
    program.Told real fair allowed ends' := by
  induction program with
  | ret value => exact implies value held
  | throw error => trivial
  | ambient next ih => exact fun reading is_real => ih reading (held reading is_real)
  | call request next ih =>
    exact ⟨held.1, fun reply is_fair => ih reply (held.2 reply is_fair)⟩

/-- The rest is met with a value the first part may end in. -/
theorem told_then {ends : α → Prop} {ends' : β → Prop} {program : Program ε χ ι ρ α}
    {rest : α → Program ε χ ι ρ β} (first : program.Told real fair allowed ends)
    (later : ∀ value, ends value → (rest value).Told real fair allowed ends') :
    (program >>= rest).Told real fair allowed ends' :=
  told_bind (told_mono later first)

/-- The same of a program that stopped at a call. -/
theorem told_settle {ends : α → Prop} {reading : χ} (is_real : real reading)
    {program : Program ε χ ι ρ α} (held : program.Told real fair allowed ends) {request : ι}
    {next : Except ε (ρ request) → Program ε χ ι ρ α}
    (stops : program.settle reading = .calling request next) :
    (Program.call request next).Told real fair allowed ends := by
  induction program with
  | ret value => cases stops
  | throw error => cases stops
  | ambient later ih => exact ih reading (held reading is_real) stops
  | call other later ih =>
    cases stops
    exact held

/-- What a program that ran to its end returned. -/
theorem told_finished {ends : α → Prop} {reading : χ} (is_real : real reading)
    {program : Program ε χ ι ρ α} (held : program.Told real fair allowed ends) {value : α}
    (stops : program.settle reading = .finished (.ok value)) : ends value := by
  induction program with
  | ret other =>
    cases stops
    exact held
  | throw error => cases stops
  | ambient later ih => exact ih reading (held reading is_real) stops
  | call other later ih => cases stops

end Told

/-! ### Up to a goal -/

section Until

variable {ε χ ι : Type} {ρ : ι → Type} {α β : Type}

/-- As long as its calls get fair replies, the program makes calm calls only until it comes to a
goal call, does not throw before, and if it returns before, a value of `ends`. -/
def Until (fair : (request : ι) → Except ε (ρ request) → Prop) (calm goal : ι → Prop)
    (ends : α → Prop) : Program ε χ ι ρ α → Prop
  | .ret value => ends value
  | .throw _ => False
  | .ambient next => ∀ reading, (next reading).Until fair calm goal ends
  | .call request next =>
      goal request ∨
        calm request ∧ ∀ reply, fair request reply → (next reply).Until fair calm goal ends

variable {fair : (request : ι) → Except ε (ρ request) → Prop} {calm goal : ι → Prop}

theorem until_bind {ends : β → Prop} {program : Program ε χ ι ρ α} {rest : α → Program ε χ ι ρ β}
    (first : program.Until fair calm goal fun value => (rest value).Until fair calm goal ends) :
    (program >>= rest).Until fair calm goal ends := by
  induction program with
  | ret value => exact first
  | throw error => exact first
  | ambient next ih => exact fun reading => ih reading (first reading)
  | call request next ih =>
    obtain there | ⟨quiet, later⟩ := first
    · exact .inl there
    · exact .inr ⟨quiet, fun reply is_fair => ih reply (later reply is_fair)⟩

theorem until_mono {ends ends' : α → Prop} (implies : ∀ value, ends value → ends' value)
    {program : Program ε χ ι ρ α} (held : program.Until fair calm goal ends) :
    program.Until fair calm goal ends' := by
  induction program with
  | ret value => exact implies value held
  | throw error => exact held
  | ambient next ih => exact fun reading => ih reading (held reading)
  | call request next ih =>
    exact held.imp_right fun quiet =>
      ⟨quiet.1, fun reply is_fair => ih reply (quiet.2 reply is_fair)⟩

theorem until_settle {ends : α → Prop} {reading : χ} {program : Program ε χ ι ρ α}
    (held : program.Until fair calm goal ends) :
    (∀ error, program.settle reading ≠ .finished (.error error)) ∧
    (∀ value, program.settle reading = .finished (.ok value) → ends value) ∧
    ∀ request next, program.settle reading = .calling request next →
      (Program.call request next).Until fair calm goal ends := by
  induction program with
  | ret value =>
    refine ⟨fun _ wrong => (by cases wrong), fun _ same => ?_, fun _ _ wrong => (by cases wrong)⟩
    cases same
    exact held
  | throw error => exact held.elim
  | ambient next ih => exact ih reading (held reading)
  | call request next ih =>
    refine ⟨fun _ wrong => (by cases wrong), fun _ wrong => (by cases wrong), fun _ _ same => ?_⟩
    cases same
    exact held

end Until

/-! ### Weakest preconditions under interference -/

section Safe

variable {ε χ ι σ : Type} {ρ : ι → Type} {α β : Type}

/-- The surroundings of a program: how the state may move while the program waits at a call (and
what inputs the call may then be given), and what is demanded of each call in the state it is made
in. -/
structure Surroundings (χ ι σ : Type) where
  rely : ι → χ → σ → σ → Prop
  ok : ι → χ → σ → Prop

variable (exec : (request : ι) → χ → σ → Except ε (ρ request) × σ) (around : Surroundings χ ι σ)

/-- The weakest precondition: every call the program makes is `ok`, and it ends in `post`, however
the state moves along `rely` before each of its calls. -/
def Safe (post : Except ε α → σ → Prop) : Program ε χ ι ρ α → σ → Prop
  | .ret value, state => post (.ok value) state
  | .throw error, state => post (.error error) state
  | .ambient next, state => ∀ reading, (next reading).Safe post state
  | .call request next, state => ∀ state' input, around.rely request input state state' →
      around.ok request input state' ∧
        (next (exec request input state').1).Safe post (exec request input state').2

variable {exec around} {post : Except ε α → σ → Prop}

theorem safe_mono {post' : Except ε α → σ → Prop}
    (implies : ∀ result state, post result state → post' result state)
    {program : Program ε χ ι ρ α} :
    ∀ {state : σ}, program.Safe exec around post state → program.Safe exec around post' state := by
  induction program with
  | ret value => exact fun holds => implies _ _ holds
  | throw error => exact fun holds => implies _ _ holds
  | ambient next ih => exact fun holds reading => ih reading (holds reading)
  | call request next ih =>
    exact fun holds state' input moved =>
      ⟨(holds state' input moved).1, ih _ (holds state' input moved).2⟩

theorem safe_bind {post' : Except ε β → σ → Prop} {program : Program ε χ ι ρ α}
    {rest : α → Program ε χ ι ρ β} :
    ∀ {state : σ}, program.Safe exec around
        (fun result state' => match result with
          | .ok value => (rest value).Safe exec around post' state'
          | .error error => post' (.error error) state') state →
      (program >>= rest).Safe exec around post' state := by
  induction program with
  | ret value => exact fun holds => holds
  | throw error => exact fun holds => holds
  | ambient next ih => exact fun holds reading => ih reading (holds reading)
  | call request next ih =>
    exact fun holds state' input moved =>
      ⟨(holds state' input moved).1, ih _ (holds state' input moved).2⟩

theorem safe_attempt {post' : Except ε (Except ε α) → σ → Prop} {program : Program ε χ ι ρ α} :
    ∀ {state : σ},
      program.Safe exec around (fun result state' => post' (.ok result) state') state →
        program.attempt.Safe exec around post' state := by
  induction program with
  | ret value => exact fun holds => holds
  | throw error => exact fun holds => holds
  | ambient next ih => exact fun holds reading => ih reading (holds reading)
  | call request next ih =>
    exact fun holds state' input moved =>
      ⟨(holds state' input moved).1, ih _ (holds state' input moved).2⟩

theorem safe_perform {request : ι} {post : Except ε (ρ request) → σ → Prop} {state : σ}
    (holds : ∀ state' input, around.rely request input state state' →
      around.ok request input state' ∧
        post (exec request input state').1 (exec request input state').2) :
    (perform request : Program ε χ ι ρ (ρ request)).Safe exec around post state := by
  intro state' input moved
  refine ⟨(holds state' input moved).1, ?_⟩
  have after := (holds state' input moved).2
  cases reply : (exec request input state').1 with
  | ok value =>
    rw [reply] at after
    exact after
  | error error =>
    rw [reply] at after
    exact after

/-- A suspended program stays safe under the interference it allows. -/
theorem safe_rely {request : ι} {next : Except ε (ρ request) → Program ε χ ι ρ α} {state state' : σ}
    (trans : ∀ third input, around.rely request input state' third →
      around.rely request input state third)
    (holds : (Program.call request next).Safe exec around post state) :
    (Program.call request next).Safe exec around post state' :=
  fun third input moved => holds third input (trans third input moved)

/-- Safety of a program, read off where it stops. -/
theorem safe_settle {program : Program ε χ ι ρ α} {state : σ} (reading : χ) :
    program.Safe exec around post state →
      match program.settle reading with
      | .finished result => post result state
      | .calling request next => (Program.call request next).Safe exec around post state := by
  induction program with
  | ret value => exact fun holds => holds
  | throw error => exact fun holds => holds
  | ambient next ih => exact fun holds => ih reading (holds reading)
  | call request next ih => exact fun holds => holds

/-- What safety says about a run alone: it ends in the postcondition. -/
theorem safe_run {program : Program ε χ ι ρ α}
    (alone : ∀ request input state, around.rely request input state state) :
    ∀ {state : σ} (tape : Tape χ), program.Safe exec around post state →
      post (program.run exec tape state).1 (program.run exec tape state).2.2 := by
  induction program with
  | ret value => exact fun _ holds => holds
  | throw error => exact fun _ holds => holds
  | ambient next ih => exact fun tape holds => ih tape.now tape (holds tape.now)
  | call request next ih =>
    exact fun {state} tape holds => ih _ tape.advance (holds state _ (alone request _ state)).2

/-- What a program calls, as safety in surroundings that promise nothing. -/
theorem safe_calls {allowed : ι → Prop} {program : Program ε χ ι ρ α} :
    ∀ {state : σ}, program.Calls allowed →
      program.Safe exec ⟨fun _ _ _ _ => True, fun request _ _ => allowed request⟩
        (fun _ _ => True) state := by
  induction program with
  | ret value => exact fun _ => trivial
  | throw error => exact fun _ => trivial
  | ambient next ih => exact fun calls reading => ih reading (calls reading)
  | call request next ih => exact fun calls _ _ _ => ⟨calls.1, ih _ (calls.2 _)⟩

/-! ### Invariants of quiet calls -/

/-- The quiet calls are allowed and keep the invariant, and so does the interference before them. -/
def Stable (exec : (request : ι) → χ → σ → Except ε (ρ request) × σ)
    (around : Surroundings χ ι σ) (quiet : ι → Prop) (inv : σ → Prop) : Prop :=
  ∀ request, quiet request → ∀ state state' input, inv state →
    around.rely request input state state' →
      around.ok request input state' ∧ inv (exec request input state').2

variable {quiet : ι → Prop} {inv : σ → Prop}

/-- A program of quiet calls keeps the invariant. -/
theorem safe_stable (stable : Stable exec around quiet inv) {program : Program ε χ ι ρ α} :
    ∀ {state : σ}, program.Calls quiet → inv state →
      program.Safe exec around (fun _ state' => inv state') state := by
  induction program with
  | ret value => exact fun _ holds => holds
  | throw error => exact fun _ holds => holds
  | ambient next ih => exact fun calls holds reading => ih reading (calls reading) holds
  | call request next ih =>
    intro state calls holds state' input moved
    obtain ⟨ok, kept⟩ := stable request calls.1 state state' input holds moved
    exact ⟨ok, ih _ (calls.2 _) kept⟩

/-- Quiet calls first: the rest is met with the invariant. -/
theorem safe_stable_bind (stable : Stable exec around quiet inv) {post : Except ε β → σ → Prop}
    {program : Program ε χ ι ρ α} {rest : α → Program ε χ ι ρ β} {state : σ}
    (calls : program.Calls quiet) (holds : inv state)
    (fails : ∀ error state', inv state' → post (.error error) state')
    (continues : ∀ value state', inv state' → (rest value).Safe exec around post state') :
    (program >>= rest).Safe exec around post state := by
  refine safe_bind (safe_mono (fun result state' kept => ?_) (safe_stable stable calls holds))
  cases result with
  | ok value => exact continues value state' kept
  | error error => exact fails error state' kept

/-- Quiet calls whose exception is caught. -/
theorem safe_stable_attempt_bind (stable : Stable exec around quiet inv)
    {post : Except ε β → σ → Prop} {program : Program ε χ ι ρ α}
    {rest : Except ε α → Program ε χ ι ρ β} {state : σ} (calls : program.Calls quiet)
    (holds : inv state)
    (continues : ∀ result state', inv state' → (rest result).Safe exec around post state') :
    (program.attempt >>= rest).Safe exec around post state :=
  safe_bind (safe_attempt (safe_mono (fun result state' kept => continues result state' kept)
    (safe_stable stable calls holds)))

/-- The quiet calls are allowed, and neither they nor the interference before them move what `view`
shows of the state. -/
def Frames {ν : Type} (exec : (request : ι) → χ → σ → Except ε (ρ request) × σ)
    (around : Surroundings χ ι σ) (view : σ → ν) (quiet : ι → Prop) : Prop :=
  ∀ request, quiet request → ∀ state state' input, around.rely request input state state' →
    around.ok request input state' ∧ view (exec request input state').2 = view state

theorem stable_of_frames {ν : Type} {view : σ → ν} (frames : Frames exec around view quiet)
    (state : σ) : Stable exec around quiet fun state' => view state' = view state :=
  fun request calm first second input same moved =>
    ⟨(frames request calm first second input moved).1,
      (frames request calm first second input moved).2.trans same⟩

/-- Quiet calls first: the rest is met with the same view. -/
theorem safe_frame_bind {ν : Type} {view : σ → ν} (frames : Frames exec around view quiet)
    {post : Except ε β → σ → Prop} {program : Program ε χ ι ρ α} {rest : α → Program ε χ ι ρ β}
    {state : σ} (calls : program.Calls quiet)
    (fails : ∀ error state', view state' = view state → post (.error error) state')
    (continues : ∀ value state', view state' = view state →
      (rest value).Safe exec around post state') :
    (program >>= rest).Safe exec around post state :=
  safe_stable_bind (stable_of_frames frames state) calls rfl fails continues

/-! ### Surroundings that promise nothing -/

/-- Surroundings that promise nothing. -/
def free (ok : ι → χ → σ → Prop) : Surroundings χ ι σ := ⟨fun _ _ _ _ => True, ok⟩

/-- What holds without any promise holds in all surroundings, and of every state. -/
theorem safe_of_free {ok : ι → χ → σ → Prop}
    (implies : ∀ request input state state', around.rely request input state state' →
      ok request input state' → around.ok request input state') {program : Program ε χ ι ρ α} :
    ∀ {state state' : σ}, program.Safe exec (free ok) post state →
      program.Safe exec around (fun _ _ => True) state' := by
  induction program with
  | ret value => exact fun _ => trivial
  | throw error => exact fun _ => trivial
  | ambient next ih => exact fun holds reading => ih reading (holds reading)
  | call request next ih =>
    intro state state' holds third input moved
    obtain ⟨ok, rest⟩ := holds third input trivial
    exact ⟨implies request input state' third moved ok, ih _ rest⟩

/-- A program of allowed calls is safe wherever these are. -/
theorem safe_of_calls {allowed : ι → Prop}
    (implies : ∀ request input state, allowed request → around.ok request input state)
    {program : Program ε χ ι ρ α} {state : σ} (calls : program.Calls allowed) :
    program.Safe exec around (fun _ _ => True) state := by
  have anywhere : program.Safe exec (free fun request _ _ => allowed request) (fun _ _ => True)
      state := safe_calls calls
  exact safe_of_free (fun request input _ state' _ holds => implies request input state' holds)
    anywhere

/-! ### Alone -/

/-- The surroundings of a program nobody interferes with, on admissible inputs. -/
def alone (admits : χ → Prop) (ok : ι → χ → σ → Prop) : Surroundings χ ι σ :=
  ⟨fun _ input state state' => state' = state ∧ admits input, ok⟩

/-- Every call of the tape has an admissible input. -/
def Tape.Admits (admits : χ → Prop) (tape : Tape χ) : Prop := ∀ call, admits (tape.later call)

theorem Tape.admits_advance {admits : χ → Prop} {tape : Tape χ} (all : tape.Admits admits) :
    tape.advance.Admits admits :=
  fun call => all (call + 1)

variable {admits : χ → Prop} {ok : ι → χ → σ → Prop}

/-- The calls of a run, each with its input and the state it is made in. -/
def visits (exec : (request : ι) → χ → σ → Except ε (ρ request) × σ) :
    Program ε χ ι ρ α → Tape χ → σ → List (ι × χ × σ)
  | .ret _, _, _ => []
  | .throw _, _, _ => []
  | .ambient next, tape, state => (next tape.now).visits exec tape state
  | .call request next, tape, state =>
      let outcome := exec request (tape.later 0) state
      (request, tape.later 0, state) :: (next outcome.1).visits exec tape.advance outcome.2

/-- What every call that is `good` does to the state, a run of good calls does. -/
theorem run_visits (good : ι × χ × σ → Prop) (relation : σ → σ → Prop)
    (refl : ∀ state, relation state state)
    (trans : ∀ {first second third}, relation first second → relation second third →
      relation first third)
    (steps : ∀ request input state, ok request input state → good (request, input, state) →
      relation state (exec request input state).2) {program : Program ε χ ι ρ α} :
    ∀ {state : σ} {tape : Tape χ}, tape.Admits admits →
      program.Safe exec (alone admits ok) post state →
        (∀ visit ∈ program.visits exec tape state, good visit) →
          relation state (program.run exec tape state).2.2 := by
  induction program with
  | ret value => exact fun _ _ _ => refl _
  | throw error => exact fun _ _ _ => refl _
  | ambient next ih =>
    exact fun {_ tape} all holds visited => ih tape.now all (holds tape.now) visited
  | call request next ih =>
    intro state tape all holds visited
    obtain ⟨fine, later⟩ := holds state (tape.later 0) ⟨rfl, all 0⟩
    obtain ⟨here, there⟩ := List.forall_mem_cons.mp visited
    exact trans (steps request _ state fine here) (ih _ (Tape.admits_advance all) later there)

/-- What every call does to the state, a run does. -/
theorem run_relates (relation : σ → σ → Prop) (refl : ∀ state, relation state state)
    (trans : ∀ {first second third}, relation first second → relation second third →
      relation first third)
    (steps : ∀ request input state, ok request input state →
      relation state (exec request input state).2) {program : Program ε χ ι ρ α} {state : σ}
    {tape : Tape χ} (all : tape.Admits admits)
    (holds : program.Safe exec (alone admits ok) post state) :
    relation state (program.run exec tape state).2.2 :=
  run_visits (fun _ => True) relation refl trans
    (fun request input state fine _ => steps request input state fine) all holds fun _ _ => trivial

/-- **Two runs on states with one view**: when the reply of every call and the view it leaves depend
on the view it finds, so do the result of the program and the view it leaves. -/
theorem run_same {ν : Type} (view : σ → ν) (reply : (request : ι) → χ → ν → Except ε (ρ request))
    (leaves : ι → χ → ν → ν)
    (reflects : ∀ request input state, ok request input state →
      (exec request input state).1 = reply request input (view state) ∧
        view (exec request input state).2 = leaves request input (view state))
    {program : Program ε χ ι ρ α} :
    ∀ {state state' : σ} {tape : Tape χ}, tape.Admits admits →
      program.Safe exec (alone admits ok) post state →
      program.Safe exec (alone admits ok) post state' → view state = view state' →
        (program.run exec tape state).1 = (program.run exec tape state').1 ∧
          view (program.run exec tape state).2.2 = view (program.run exec tape state').2.2 := by
  induction program with
  | ret value => exact fun _ _ _ same => ⟨rfl, same⟩
  | throw error => exact fun _ _ _ same => ⟨rfl, same⟩
  | ambient next ih =>
    exact fun {_ _ tape} all holds holds' same =>
      ih tape.now all (holds tape.now) (holds' tape.now) same
  | call request next ih =>
    intro state state' tape all holds holds' same
    obtain ⟨fine, later⟩ := holds state (tape.later 0) ⟨rfl, all 0⟩
    obtain ⟨fine', later'⟩ := holds' state' (tape.later 0) ⟨rfl, all 0⟩
    obtain ⟨reply_here, view_here⟩ := reflects request _ state fine
    obtain ⟨reply_there, view_there⟩ := reflects request _ state' fine'
    have replies : (exec request (tape.later 0) state).1 =
        (exec request (tape.later 0) state').1 := by
      rw [reply_here, reply_there, same]
    have views : view (exec request (tape.later 0) state).2 =
        view (exec request (tape.later 0) state').2 := by
      rw [view_here, view_there, same]
    simp only [run]
    rw [replies] at later ⊢
    exact ih _ (Tape.admits_advance all) later later' views

end Safe

end Program

end WaAutomation.Library
