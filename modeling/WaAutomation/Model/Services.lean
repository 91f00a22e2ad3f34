/-
**Service calls over one store.**

`services` is the machine of any number of calls of some service functions, interleaved between
their repository calls, with nothing else; `services_act` is the inversion of one move, for programs
that are `Shaped`. A `JobAttempt` is a run of a job whose every call may find any store, whatever
else happened before it. `given_run` and `told_run` are about all runs of programs that only do what
the rows they are shown allow.
-/

import WaAutomation.Library.Machine
import WaAutomation.Library.Retry
import WaAutomation.Model.Calls

set_option linter.unusedSectionVars false

namespace WaAutomation

open Library

section Services

variable {κ α : Type} (program : κ → Svc α)

def services : Machine Err Input Call Store Resp Nat (fun _ => κ) fun _ => α where
  exec := exec
  program _ request := program request
  admits _ _ _ := true
  leave _ _ _ store := store

/-- The store with the calls in flight. -/
abbrev Calling (κ α : Type) :=
  Machine.Pool Err Input Call Store Resp Nat (fun _ => κ) fun _ => α

variable {program}

/-- The store is what the call left. -/
theorem services_shared (slot : Nat) (request : κ) (stop : Stop Err Input Call Resp α)
    (store : Store) (thread : Nat → Option (Machine.Thread Err Input Call Resp κ α)) :
    ((services program).place slot request stop store thread).shared = store := by
  cases stop <;> rfl

end Services

/-! ### Where a call in flight goes on -/

section Shaped

variable {α β : Type}

/-- Every suspension of the program stands at a call of a kind, and goes on from its reply in a way
the call allows. -/
def Shaped (stands : Call → Prop)
    (goes : (call : Call) → Except Err (Resp call) → Input → Stop Err Input Call Resp α → Prop)
    (program : Svc α) : Prop :=
  program.Everywhere fun call next =>
    stands call ∧ ∀ reply reading, goes call reply reading ((next reply).settle reading)

/-- Where a program of quiet calls stops: at an exception, at a quiet call, or where the rest
stops. -/
theorem settle_quiet {quiet : Call → Prop} {program : Svc β} {rest : β → Svc α} {reading : Input}
    {good : Stop Err Input Call Resp α → Prop} (calls : program.Calls quiet)
    (fails : ∀ error, good (.finished (.error error)))
    (goes : ∀ call next, quiet call → good (.calling call next))
    (continues : ∀ value, good ((rest value).settle reading)) :
    good ((program >>= rest).settle reading) := by
  induction program with
  | ret value => exact continues value
  | throw error => exact fails error
  | ambient next ih => exact ih reading (calls reading)
  | call call next ih => exact goes call _ calls.1

/-- Quiet calls first, when a quiet call may be followed by an exception, by a quiet call, or by
what the rest begins with. -/
theorem shaped_quiet {stands quiet : Call → Prop}
    {goes : (call : Call) → Except Err (Resp call) → Input → Stop Err Input Call Resp α → Prop}
    {program : Svc β} {rest : β → Svc α} (calls : program.Calls quiet)
    (stand : ∀ call, quiet call → stands call)
    (fails : ∀ call reply reading error, quiet call →
      goes call reply reading (.finished (.error error)))
    (next : ∀ call reply reading other next, quiet call → quiet other →
      goes call reply reading (.calling other next))
    (continues : ∀ call reply reading value, quiet call →
      goes call reply reading ((rest value).settle reading))
    (later : ∀ value, Shaped stands goes (rest value)) : Shaped stands goes (program >>= rest) := by
  induction program with
  | ret value => exact later value
  | throw error => trivial
  | ambient after ih => exact fun reading => ih reading (calls reading)
  | call call after ih =>
    refine ⟨⟨stand call calls.1, fun reply reading => ?_⟩, fun reply => ih reply (calls.2 reply)⟩
    exact settle_quiet (calls.2 reply) (fun error => fails call reply reading error calls.1)
      (fun other rest => next call reply reading other rest calls.1)
      fun value => continues call reply reading value calls.1

/-- One call first. -/
theorem shaped_call {stands : Call → Prop}
    {goes : (call : Call) → Except Err (Resp call) → Input → Stop Err Input Call Resp α → Prop}
    {call : Call} {rest : Resp call → Svc α} (stand : stands call)
    (fails : ∀ error reading, goes call (.error error) reading (.finished (.error error)))
    (continues : ∀ value reading, goes call (.ok value) reading ((rest value).settle reading))
    (later : ∀ value, Shaped stands goes (rest value)) :
    Shaped stands goes (Svc.call call >>= rest) := by
  refine ⟨⟨stand, fun reply reading => ?_⟩, fun reply => ?_⟩
  · cases reply with
    | error error => exact fails error reading
    | ok value => exact continues value reading
  · cases reply with
    | error error => trivial
    | ok value => exact later value

/-- The clock first. -/
theorem shaped_now {stands : Call → Prop}
    {goes : (call : Call) → Except Err (Resp call) → Input → Stop Err Input Call Resp α → Prop}
    {rest : Time → Svc α} (later : ∀ now, Shaped stands goes (rest now)) :
    Shaped stands goes (Svc.now >>= rest) :=
  fun reading => later reading.now

end Shaped

/-! ### One move -/

section Moves

variable {κ α : Type} {program : κ → Svc α} {stands : κ → Call → Prop}
  {goes : κ → (call : Call) → Except Err (Resp call) → Input → Stop Err Input Call Resp α → Prop}

/-- The calls in flight are where their programs let them be. -/
def Calling.Shaped (stands : κ → Call → Prop)
    (goes : κ → (call : Call) → Except Err (Resp call) → Input → Stop Err Input Call Resp α → Prop)
    (pool : Calling κ α) : Prop :=
  pool.Attached fun _ request program _ => WaAutomation.Shaped (stands request)
    (goes request) program

/-- **What one move does**: a call starts, or what it waits at is executed and it goes on. -/
theorem services_act {pool pool' : Calling κ α} {move : Machine.Move Input Nat fun _ => κ}
    (shaped : pool.Shaped stands goes) (moved : (services program).act pool move = some pool') :
    (∃ slot request input, move = .start slot request input ∧ pool.thread slot = none ∧
      pool' = (services program).place slot request ((program request).settle input) pool.shared
        pool.thread) ∨
    (∃ slot input thread stop, move = .resume slot input ∧ pool.thread slot = some thread ∧
      stands thread.label thread.request ∧
      goes thread.label thread.request (exec thread.request input pool.shared).1 input stop ∧
      stop = (thread.next (exec thread.request input pool.shared).1).settle input ∧
      pool' = (services program).place slot thread.label stop
        (exec thread.request input pool.shared).2 pool.thread) := by
  obtain ⟨slot, request, input, rfl, free, _, rfl⟩ | ⟨slot, input, thread, rfl, busy, rfl⟩ :=
    (services program).act_cases moved
  · exact .inl ⟨slot, request, input, rfl, free, rfl⟩
  · have here := (shaped slot thread busy).1
    exact .inr ⟨slot, input, thread, _, rfl, busy, here.1, here.2 _ input, rfl, rfl⟩

/-- How a call in flight ends. -/
theorem services_ends {pool : Calling κ α} {slot : Nat} {request : κ} {input : Input}
    {result : Except Err α} (shaped : pool.Shaped stands goes)
    (ends : (services program).Ends pool slot request input result) :
    ∃ thread, pool.thread slot = some thread ∧ thread.label = request ∧
      stands request thread.request ∧
      goes request thread.request (exec thread.request input pool.shared).1 input
        (.finished result) := by
  obtain ⟨thread, busy, rfl, finishes⟩ := ends
  have here := (shaped slot thread busy).1
  have ended := here.2 (exec thread.request input pool.shared).1 input
  refine ⟨thread, busy, rfl, here.1, ?_⟩
  rw [show (thread.next (exec thread.request input pool.shared).1).settle input = .finished result
    from finishes] at ended
  exact ended

end Moves

/-! ### Invariants of the store -/

section Kept

variable {κ α : Type} {program : κ → Svc α}

/-- The call a move executes satisfies `keeps` in the store it finds. -/
def Executes (keeps : Call → Input → Store → Prop) (pool : Calling κ α)
    (move : Machine.Move Input Nat fun _ => κ) : Prop :=
  ∀ slot input thread, move = .resume slot input → pool.thread slot = some thread →
    keeps thread.request input pool.shared

theorem executes_start {keeps : Call → Input → Store → Prop} {pool : Calling κ α} {slot : Nat}
    {request : κ} {input : Input} : Executes keeps pool (.start slot request input) :=
  fun _ _ _ same => (by cases same)

theorem executes_resume {keeps : Call → Input → Store → Prop} {pool : Calling κ α} {slot : Nat}
    {input : Input} {thread : Machine.Thread Err Input Call Resp κ α}
    (busy : pool.thread slot = some thread) (holds : keeps thread.request input pool.shared) :
    Executes keeps pool (.resume slot input) := by
  intro other reading waiting same found
  cases same
  rw [busy] at found
  cases found
  exact holds

/-- **What every call keeps, a run keeps.** -/
theorem kept_run {allowed : Call → Prop} {keeps : Call → Input → Store → Prop}
    {invariant : Store → Prop} (programs : ∀ request, (program request).Calls allowed)
    (step : ∀ call input store, allowed call → keeps call input store → invariant store →
      invariant (exec call input store).2)
    {store : Store} {moves : List (Machine.Move Input Nat fun _ => κ)} {pool : Calling κ α}
    (begins : invariant store)
    (meets : (services program).Meets (Executes keeps) (Machine.Pool.idle store) moves)
    (reached : (services program).run (Machine.Pool.idle store) moves = some pool) :
    invariant pool.shared := by
  have kept (before : List (Machine.Move Input Nat fun _ => κ)) (pool : Calling κ α)
      (move : Machine.Move Input Nat fun _ => κ) (pool' : Calling κ α)
      (here : (services program).run (Machine.Pool.idle store) before = some pool)
      (holds : invariant pool.shared) (met : Executes keeps pool move)
      (moved : (services program).act pool move = some pool') : invariant pool'.shared := by
    have attached := (services program).run_everywhere (fun _ request => programs request) here
    obtain ⟨slot, request, input, rfl, _, _, rfl⟩ | ⟨slot, input, thread, rfl, busy, rfl⟩ :=
      (services program).act_cases moved
    · rw [services_shared]
      exact holds
    · rw [services_shared]
      exact step _ _ _ (attached slot thread busy).1 (met slot input thread rfl busy) holds
  show (fun pool : Calling κ α => invariant pool.shared) pool
  exact (services program).run_reached begins kept meets reached

end Kept

/-! ### Attempts of a job -/

abbrev Exchange := Program.Exchange Err Call Resp

/-- What an attempt is made with: the inputs of its calls, and the stores they find. -/
structure JobAttempt where
  tape : Program.Tape Input
  stores : Nat → Store

section Attempts

variable {α : Type} (program : Svc α) (attempt : JobAttempt)

/-- The attempt throws, so the queue makes another one. -/
def JobAttempt.fails : Bool :=
  match (program.run (Program.found exec) attempt.tape attempt.stores).1 with
  | .ok _ => false
  | .error _ => true

def JobAttempt.exchanged : List Exchange :=
  program.exchanges (Program.found exec) attempt.tape attempt.stores

end Attempts

/-- The rows a reply shows are stored, and match. -/
def Shows (stored : (table : Table) → Row table → Prop) (call : Call)
    (reply : Except Err (Resp call)) : Prop :=
  match call, reply with
  | .find table matching, .ok rows => ∀ row ∈ rows, stored table row ∧ matching row = true
  | .findAutomations matching, .ok rows =>
      ∀ loaded ∈ rows, stored .automations loaded.1 ∧ matching loaded.1 = true
  | _, _ => True

theorem exec_shows {stored : (table : Table) → Row table → Prop} {store : Store}
    (all : ∀ table, ∀ row ∈ store.db table, stored table row) (call : Call) (input : Input) :
    Shows stored call (exec call input store).1 := by
  cases call with
  | find table matching =>
    obtain ⟨error, failed⟩ | found := exec_find table matching input store
    · rw [failed]
      trivial
    · rw [found]
      intro row member
      exact (List.mem_filter.mp member).imp_left (all table row)
  | findAutomations matching =>
    obtain ⟨error, failed⟩ | found := exec_findAutomations matching input store
    · rw [failed]
      trivial
    · rw [found]
      intro loaded member
      obtain ⟨row, found, rfl⟩ := List.mem_map.mp member
      exact (List.mem_filter.mp found).imp_left (all .automations row)
  | _ => trivial

/-- The request a move starts, if it starts one, is good. -/
def Starts {κ : Type} (good : κ → Prop) (move : Machine.Move Input Nat fun _ => κ) : Prop :=
  ∀ slot request input, move = .start slot request input → good request

/-- **What good requests do with the rows they are shown, a run of them keeps.** -/
theorem given_run {κ α : Type} {program : κ → Svc α} {good : κ → Prop}
    {stored : (table : Table) → Row table → Prop} {allowed : Call → Prop} {invariant : Store → Prop}
    (programs : ∀ request, good request →
      (program request).Given (Shows stored) allowed fun _ => True)
    (shown : ∀ store, invariant store → ∀ table, ∀ row ∈ store.db table, stored table row)
    (step : ∀ call input store, allowed call → invariant store →
      invariant (exec call input store).2)
    {store : Store} {moves : List (Machine.Move Input Nat fun _ => κ)} {pool : Calling κ α}
    (begins : invariant store)
    (starts : ∀ move ∈ moves, Starts good move)
    (reached : (services program).run (Machine.Pool.idle store) moves = some pool) :
    invariant pool.shared := by
  let holds (pool : Calling κ α) : Prop := invariant pool.shared ∧
    pool.Attached fun _ _ program _ => program.Given (Shows stored) allowed fun _ => True
  have kept (pool : Calling κ α) (move : Machine.Move Input Nat fun _ => κ) (pool' : Calling κ α)
      (here : holds pool) (met : Starts good move)
      (moved : (services program).act pool move = some pool') : holds pool' := by
    obtain ⟨kept, attached⟩ := here
    obtain ⟨slot, request, input, rfl, _, _, rfl⟩ | ⟨slot, input, thread, rfl, busy, rfl⟩ :=
      (services program).act_cases moved
    · refine ⟨by rw [services_shared]; exact kept, ?_⟩
      refine (services program).attached_place (fun _ _ stops => ?_) fun other waiting _ found =>
        attached other waiting found
      exact Program.given_settle (programs request (met slot request input rfl)) stops
    · have waits := attached slot thread busy
      refine ⟨by rw [services_shared]; exact step _ _ _ waits.1 kept, ?_⟩
      refine (services program).attached_place (fun _ _ stops => ?_) fun other waiting _ found =>
        attached other waiting found
      exact Program.given_settle (waits.2 _ (exec_shows (shown _ kept) thread.request input)) stops
  have meets : (services program).Meets (fun _ => Starts good) (Machine.Pool.idle store) moves :=
    (services program).meets_of_forall (fun move member _ => starts move member) _
  exact ((services program).run_invariant kept moves _ pool
    ⟨begins, fun _ _ none => (by cases none)⟩ meets reached).1

section Told

variable {κ α : Type} (program : κ → Svc α) (start : Store)
  (moves : List (Machine.Move Input Nat fun _ => κ))

/-- The row was stored at some time of the run. -/
def Stored (table : Table) (row : Row table) : Prop :=
  ∃ before after pool, moves = before ++ after ∧
    (services program).run (Machine.Pool.idle start) before = some pool ∧
    row ∈ pool.shared.db table

/-- Some move of the run was made with the input. -/
def Inputs (input : Input) : Prop := ∃ move ∈ moves, move.input = input

variable {program start moves}

/-- **What holds of programs that are shown rows of the run and read inputs of the run, holds of
every request in flight.** -/
theorem told_run {allowed : κ → Call → Prop} {ends : κ → α → Prop}
    (programs : ∀ request, (program request).Told (Inputs moves)
      (Shows (Stored program start moves)) (allowed request) (ends request))
    {pool : Calling κ α}
    (reached : (services program).run (Machine.Pool.idle start) moves = some pool) :
    pool.Attached fun _ request rest _ => rest.Told (Inputs moves)
      (Shows (Stored program start moves)) (allowed request) (ends request) := by
  let covered (past : List (Machine.Move Input Nat fun _ => κ)) (pool : Calling κ α) : Prop :=
    (services program).run (Machine.Pool.idle start) past = some pool ∧
      pool.Attached fun _ request rest _ => rest.Told (Inputs moves)
        (Shows (Stored program start moves)) (allowed request) (ends request)
  have begins : covered [] (Machine.Pool.idle start) := ⟨rfl, fun _ _ none => by cases none⟩
  have step (past : List (Machine.Move Input Nat fun _ => κ)) (pool : Calling κ α)
      (move : Machine.Move Input Nat fun _ => κ) (pool' : Calling κ α) (held : covered past pool)
      (made : ∃ after, moves = past ++ move :: after)
      (moved : (services program).act pool move = some pool') :
      covered (past ++ [move]) pool' := by
    obtain ⟨here, attached⟩ := held
    obtain ⟨after, split⟩ := made
    refine ⟨by rw [Machine.run_append, here, Option.bind_some, Machine.run, moved]; rfl, ?_⟩
    have shown (table : Table) (row : Row table) (listed : row ∈ pool.shared.db table) :
        Stored program start moves table row := ⟨past, move :: after, pool, split, here, listed⟩
    have real : Inputs moves move.input :=
      ⟨move, split ▸ List.mem_append_right _ List.mem_cons_self, rfl⟩
    obtain ⟨slot, request, input, rfl, _, _, rfl⟩ | ⟨slot, input, thread, rfl, busy, rfl⟩ :=
      (services program).act_cases moved
    · exact (services program).attached_place
        (fun _ _ stops => Program.told_settle real (programs request) stops)
        fun other waiting _ found => attached other waiting found
    · refine (services program).attached_place (fun _ _ stops => ?_)
        fun other waiting _ found => attached other waiting found
      exact Program.told_settle real
        ((attached slot thread busy).2 _ (exec_shows shown thread.request input)) stops
  exact ((services program).run_history begins step
    (fun before move after split => ⟨after, by rw [List.nil_append]; exact split⟩) reached).2

/-- **What the requests of a run do with the rows they are shown and the inputs they read, the run
keeps.** -/
theorem told_kept {stored : (table : Table) → Row table → Prop} {real : Input → Prop}
    {allowed : κ → Call → Prop} {ends : κ → α → Prop} {invariant : Store → Prop}
    (programs : ∀ slot request input, Machine.Move.start slot request input ∈ moves →
      (program request).Told real (Shows stored) (allowed request) (ends request))
    (shown : ∀ store, invariant store → ∀ table, ∀ row ∈ store.db table, stored table row)
    (step : ∀ request call input store, allowed request call → invariant store →
      invariant (exec call input store).2)
    (readings : ∀ move ∈ moves, real move.input) (begins : invariant start) {pool : Calling κ α}
    (reached : (services program).run (Machine.Pool.idle start) moves = some pool) :
    invariant pool.shared ∧ pool.Attached fun _ request rest _ =>
      rest.Told real (Shows stored) (allowed request) (ends request) := by
  let holds (pool : Calling κ α) : Prop :=
    invariant pool.shared ∧ pool.Attached fun _ request rest _ =>
      rest.Told real (Shows stored) (allowed request) (ends request)
  have kept (pool : Calling κ α) (move : Machine.Move Input Nat fun _ => κ)
      (pool' : Calling κ α) (here : holds pool) (made : move ∈ moves)
      (moved : (services program).act pool move = some pool') : holds pool' := by
    obtain ⟨kept, attached⟩ := here
    obtain ⟨slot, request, input, rfl, _, _, rfl⟩ | ⟨slot, input, thread, rfl, busy, rfl⟩ :=
      (services program).act_cases moved
    · refine ⟨by rw [services_shared]; exact kept, ?_⟩
      exact (services program).attached_place
        (fun _ _ stops => Program.told_settle (readings _ made)
          (programs slot request input made) stops)
        fun other waiting _ found => attached other waiting found
    · have waits := attached slot thread busy
      refine ⟨by rw [services_shared]; exact step _ _ _ _ waits.1 kept, ?_⟩
      refine (services program).attached_place (fun _ _ stops => ?_)
        fun other waiting _ found => attached other waiting found
      exact Program.told_settle (readings _ made)
        (waits.2 _ (exec_shows (shown _ kept) thread.request input)) stops
  have starts : holds (Machine.Pool.idle start) := ⟨begins, fun _ _ none => by cases none⟩
  exact (services program).run_invariant kept moves _ pool starts
    ((services program).meets_of_forall (fun _ member _ => member) _) reached

/-- What a request that ends returns. -/
theorem told_ends {stored : (table : Table) → Row table → Prop} {real : Input → Prop}
    {allowed : κ → Call → Prop} {ends : κ → α → Prop} {pool : Calling κ α}
    (attached : pool.Attached fun _ request rest _ =>
      rest.Told real (Shows stored) (allowed request) (ends request))
    (shown : ∀ table, ∀ row ∈ pool.shared.db table, stored table row) {slot : Nat} {request : κ}
    {input : Input} {value : α} (is_real : real input)
    (finishes : (services program).Ends pool slot request input (.ok value)) :
    ends request value := by
  obtain ⟨thread, busy, rfl, stops⟩ := finishes
  exact Program.told_finished is_real
    ((attached slot thread busy).2 _ (exec_shows shown thread.request input)) stops

end Told

/-- A run of a program in stores whose rows are `stored` exchanges allowed calls only. -/
theorem exchanged_given {α : Type} {stored : (table : Table) → Row table → Prop}
    {allowed : Call → Prop} {ends : α → Prop} {program : Svc α}
    (given : program.Given (Shows stored) allowed ends) {tape : Program.Tape Input}
    {stores : Nat → Store}
    (all : ∀ index table, ∀ row ∈ (stores index).db table, stored table row) :
    ∀ exchange ∈ program.exchanges (Program.found exec) tape stores, allowed exchange.request := by
  have replies (call : Call) (input : Input) (stores : Nat → Store)
      (all : ∀ index table, ∀ row ∈ (stores index).db table, stored table row) :
      Shows stored call (Program.found exec call input stores).1 ∧
        ∀ index table, ∀ row ∈ ((Program.found exec call input stores).2 index).db table,
          stored table row :=
    ⟨exec_shows (all 0) call input, fun index => all (index + 1)⟩
  exact Program.exchanges_given replies all given

/-- OpenWA accepts a message. -/
def accepted : Exchange → Bool
  | ⟨.openwa _, .ok _⟩ => true
  | _ => false

theorem unaccepted_of {exchange : Exchange} (other : ∀ call, exchange.request ≠ .openwa call) :
    accepted exchange = false := by
  obtain ⟨request, reply⟩ := exchange
  cases request with
  | openwa call => exact absurd rfl (other call)
  | _ => rfl

/-- What the service makes of OpenWA's answer. -/
def OpenwaService.answer (method : OpenwaMethod) :
    Except (Option Nat × String) OpenwaResponse → Except Err OpenwaResponse
  | .ok response => .ok response
  | .error (status, message) => .error (failure method (.axios status message))

/-- A call of OpenWA is one call, accepted or not. -/
theorem OpenwaService.call_run (creds : OpenwaCredentials) (method : OpenwaMethod)
    (session : SessionRef) (recipient : Option RecipientRef) (tape : Program.Tape Input)
    (stores : Nat → Store) :
    (call creds method session recipient).run (Program.found exec) tape stores =
        (answer method (tape.later 0).openwa, tape.advance, fun index => stores (index + 1)) ∧
      (call creds method session recipient).exchanges (Program.found exec) tape stores =
        [⟨.openwa ⟨creds, method, session, recipient⟩,
          (exec (.openwa ⟨creds, method, session, recipient⟩) (tape.later 0) (stores 0)).1⟩] := by
  simp only [call, Svc.call, Program.run_bind, Program.run_attempt,
    Program.run_perform, Program.exchanges_bind, Program.exchanges_attempt,
    Program.exchanges_perform, Program.found, exec, Call.storage, perform, Store.openwa]
  cases (tape.later 0).openwa with
  | ok response => exact ⟨rfl, rfl⟩
  | error error => exact ⟨rfl, rfl⟩

/-- The credentials cost one call. -/
theorem WorkspacesService.getOpenwaCredentials_run (h : Helpers) (workspaceId : Option Uuid)
    (tape : Program.Tape Input) (stores : Nat → Store) :
    (∃ result, (getOpenwaCredentials h workspaceId).run (Program.found exec) tape stores =
      (result, tape.advance, fun index => stores (index + 1))) ∧
    ∃ reply, (getOpenwaCredentials h workspaceId).exchanges (Program.found exec) tape stores =
      [⟨.find .workspaces fun workspace => Svc.whereIs workspaceId workspace.id, reply⟩] := by
  obtain ⟨rest, same, silent⟩ : ∃ rest, getOpenwaCredentials h workspaceId =
      Program.perform (.find .workspaces fun workspace =>
        Svc.whereIs workspaceId workspace.id) >>= rest ∧ ∀ rows, (rest rows).Silent := by
    refine ⟨_, Program.bind_assoc _ _ _, fun rows => ?_⟩
    cases head : rows.head? with
    | none => trivial
    | some workspace =>
      simp only [Program.pure_eq, Program.ret_bind]
      exact Program.calls_bind (calls_lift _) fun _ => trivial
  rw [same]
  obtain ⟨ran, single⟩ := Program.run_single (Program.found exec) silent tape stores
  exact ⟨ran, _, single⟩

/-- A session costs one call. -/
theorem SessionsService.getById_run (id : Uuid) (tape : Program.Tape Input) (stores : Nat → Store) :
    ∃ result, (getById id).run (Program.found exec) tape stores =
      (result, tape.advance, fun index => stores (index + 1)) := by
  obtain ⟨rest, same, silent⟩ : ∃ rest, getById id =
      Program.perform (.find .sessions fun session => session.id == id) >>= rest ∧
        ∀ rows, (rest rows).Silent := by
    refine ⟨_, Program.bind_assoc _ _ _, fun rows => ?_⟩
    cases head : rows.head? with
    | none => trivial
    | some session => trivial
  rw [same]
  exact (Program.run_single (Program.found exec) silent tape stores).1

end WaAutomation
