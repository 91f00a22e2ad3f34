/-
**Noninterference between the programs of a machine.**

The slots of a machine are divided: one's own, and those of others. An observer in one's own slots
sees a `look` of the shared state, the programs in these slots, and of a reply no more than `hear`
leaves of it.

* `Program.Discreet` says of a program that its calls are allowed as long as the replies are fair,
  and that it hears no more of a reply than it may; `discreet_bind`, `discreet_call_bind` and their
  like compose it;
* `Machine.Unwinding` collects what is to be shown of single calls: those of others change nothing
  in sight, and one's own depend on what is in sight only;
* `run_purge` is the theorem: taking the moves of others out of a run changes nothing for the
  observer, and the run is still possible.
-/

import WaAutomation.Library.Machine

set_option linter.unusedSectionVars false

namespace WaAutomation.Library

/-! ### Programs that hear part of a reply -/

namespace Program

section Discreet

variable {ε χ ι : Type} {ρ : ι → Type} {α β : Type}

/-- As long as its calls get fair replies, every call the program makes is allowed, what it does
next depends only on what it hears of the reply, and what it returns satisfies `ends`. -/
def Discreet (fair : (request : ι) → Except ε (ρ request) → Prop)
    (hear : (request : ι) → Except ε (ρ request) → Except ε (ρ request)) (allowed : ι → Prop)
    (ends : α → Prop) : Program ε χ ι ρ α → Prop
  | .ret value => ends value
  | .throw _ => True
  | .ambient next => ∀ reading, (next reading).Discreet fair hear allowed ends
  | .call request next =>
      allowed request ∧ (∀ reply, next (hear request reply) = next reply) ∧
        ∀ reply, fair request reply → (next reply).Discreet fair hear allowed ends

variable {fair : (request : ι) → Except ε (ρ request) → Prop}
  {hear : (request : ι) → Except ε (ρ request) → Except ε (ρ request)} {allowed : ι → Prop}

theorem discreet_bind {ends : β → Prop} {program : Program ε χ ι ρ α}
    {rest : α → Program ε χ ι ρ β}
    (first : program.Discreet fair hear allowed fun value =>
      (rest value).Discreet fair hear allowed ends) :
    (program >>= rest).Discreet fair hear allowed ends := by
  induction program with
  | ret value => exact first
  | throw error => trivial
  | ambient next ih => exact fun reading => ih reading (first reading)
  | call request next ih =>
    obtain ⟨holds, deaf, later⟩ := first
    exact ⟨holds, fun reply => congrArg (· >>= rest) (deaf reply),
      fun reply is_fair => ih reply (later reply is_fair)⟩

theorem discreet_attempt {ends : Except ε α → Prop} {program : Program ε χ ι ρ α}
    (held : program.Discreet fair hear allowed fun value => ends (.ok value))
    (caught : ∀ error, ends (.error error)) :
    program.attempt.Discreet fair hear allowed ends := by
  induction program with
  | ret value => exact held
  | throw error => exact caught error
  | ambient next ih => exact fun reading => ih reading (held reading)
  | call request next ih =>
    obtain ⟨holds, deaf, later⟩ := held
    exact ⟨holds, fun reply => congrArg attempt (deaf reply),
      fun reply is_fair => ih reply (later reply is_fair)⟩

theorem discreet_mono {ends ends' : α → Prop} (implies : ∀ value, ends value → ends' value)
    {program : Program ε χ ι ρ α} (held : program.Discreet fair hear allowed ends) :
    program.Discreet fair hear allowed ends' := by
  induction program with
  | ret value => exact implies value held
  | throw error => trivial
  | ambient next ih => exact fun reading => ih reading (held reading)
  | call request next ih =>
    exact ⟨held.1, held.2.1, fun reply is_fair => ih reply (held.2.2 reply is_fair)⟩

/-- The rest is met with a value the first part may end in. -/
theorem discreet_then {ends : α → Prop} {ends' : β → Prop} {program : Program ε χ ι ρ α}
    {rest : α → Program ε χ ι ρ β} (first : program.Discreet fair hear allowed ends)
    (later : ∀ value, ends value → (rest value).Discreet fair hear allowed ends') :
    (program >>= rest).Discreet fair hear allowed ends' :=
  discreet_bind (discreet_mono later first)

/-- A call whose reply may be heard in full. -/
theorem discreet_perform {request : ι} {ends : ρ request → Prop} (holds : allowed request)
    (open_reply : ∀ reply, hear request reply = reply)
    (replies : ∀ value, fair request (.ok value) → ends value) :
    (perform request : Program ε χ ι ρ (ρ request)).Discreet fair hear allowed ends := by
  refine ⟨holds, fun reply => by rw [open_reply], fun reply is_fair => ?_⟩
  cases reply with
  | ok value => exact replies value is_fair
  | error error => trivial

/-- A call whose value the rest does not use. -/
theorem discreet_ignore_bind {request : ι} {rest : ρ request → Program ε χ ι ρ β}
    {ends : β → Prop} (holds : allowed request)
    (muffled : ∀ error, hear request (.error error) = .error error)
    (still_ok : ∀ value, ∃ value', hear request (.ok value) = .ok value')
    (unused : ∀ value value', rest value = rest value')
    (later : ∀ value, (rest value).Discreet fair hear allowed ends) :
    ((perform request : Program ε χ ι ρ (ρ request)) >>= rest).Discreet fair hear allowed ends := by
  refine ⟨holds, fun reply => ?_, fun reply _ => ?_⟩
  · cases reply with
    | error error => rw [muffled]
    | ok value =>
      obtain ⟨value', same⟩ := still_ok value
      rw [same]
      exact unused value' value
  · cases reply with
    | error error => trivial
    | ok value => exact later value

/-- The same of a program that stopped at a call. -/
theorem discreet_settle {ends : α → Prop} {reading : χ} {program : Program ε χ ι ρ α}
    (held : program.Discreet fair hear allowed ends) {request : ι}
    {next : Except ε (ρ request) → Program ε χ ι ρ α}
    (stops : program.settle reading = .calling request next) :
    (Program.call request next).Discreet fair hear allowed ends := by
  induction program with
  | ret value => cases stops
  | throw error => cases stops
  | ambient later ih => exact ih reading (held reading) stops
  | call other later ih =>
    cases stops
    exact held

end Discreet

end Program

/-! ### Machines -/

namespace Machine

variable {ε χ ι σ ν τ : Type} {ρ : ι → Type} {κ α : τ → Type} [DecidableEq τ]

/-- The conditions on single calls, starts and ends. `mine` are the observer's slots, `look` is what
the observer sees of the shared state, `invariant` what every move keeps, `allowed` the calls a
program in a slot may make, and `admitted` the inputs it is given. -/
structure Unwinding (machine : Machine ε χ ι σ ρ τ κ α) (mine : τ → Prop) (look : σ → ν)
    (fair : (request : ι) → Except ε (ρ request) → Prop)
    (hear : (request : ι) → Except ε (ρ request) → Except ε (ρ request)) (invariant : σ → Prop)
    (allowed : τ → ι → Prop) (admitted : τ → χ → Prop) : Prop where
  programs : ∀ slot label shared, machine.admits slot label shared = true →
    (machine.program slot label).Discreet fair hear (allowed slot) fun _ => True
  keeps : ∀ slot request input shared, invariant shared → allowed slot request →
    admitted slot input → fair request (machine.exec request input shared).1 ∧
      invariant (machine.exec request input shared).2
  keeps_leave : ∀ slot label result shared, invariant shared →
    invariant (machine.leave slot label result shared)
  hidden : ∀ slot request input shared, ¬ mine slot → invariant shared → allowed slot request →
    admitted slot input → look (machine.exec request input shared).2 = look shared
  hidden_leave : ∀ slot label result shared, ¬ mine slot →
    look (machine.leave slot label result shared) = look shared
  own : ∀ slot request input shared shared', mine slot → invariant shared → invariant shared' →
    look shared = look shared' → allowed slot request → admitted slot input →
      hear request (machine.exec request input shared).1 =
          hear request (machine.exec request input shared').1 ∧
        look (machine.exec request input shared).2 = look (machine.exec request input shared').2
  own_admits : ∀ slot label shared shared', mine slot → look shared = look shared' →
    machine.admits slot label shared = machine.admits slot label shared'
  own_leave : ∀ slot label result shared shared', mine slot → look shared = look shared' →
    look (machine.leave slot label result shared) = look (machine.leave slot label result shared')

/-- The moves made in one's own slots. -/
def purge (mine : τ → Prop) [DecidablePred mine] (moves : List (Move χ τ κ)) : List (Move χ τ κ) :=
  moves.filter fun move => decide (mine move.slot)

variable {machine : Machine ε χ ι σ ρ τ κ α} {mine : τ → Prop} {look : σ → ν}
  {fair : (request : ι) → Except ε (ρ request) → Prop}
  {hear : (request : ι) → Except ε (ρ request) → Except ε (ρ request)} {invariant : σ → Prop}
  {allowed : τ → ι → Prop} {admitted : τ → χ → Prop}

/-- The observer cannot tell the pools apart. -/
structure Alike (mine : τ → Prop) (look : σ → ν) (pool pool' : Pool ε χ ι σ ρ τ κ α) : Prop where
  shared : look pool.shared = look pool'.shared
  thread : ∀ slot, mine slot → pool.thread slot = pool'.thread slot

/-- A pool a run of discreet programs may come to. -/
structure Orderly (fair : (request : ι) → Except ε (ρ request) → Prop)
    (hear : (request : ι) → Except ε (ρ request) → Except ε (ρ request)) (invariant : σ → Prop)
    (allowed : τ → ι → Prop) (pool : Pool ε χ ι σ ρ τ κ α) : Prop where
  shared : invariant pool.shared
  discreet : pool.Attached fun slot _ program _ =>
    program.Discreet fair hear (allowed slot) fun _ => True

theorem orderly_idle {shared : σ} (holds : invariant shared) :
    Orderly fair hear invariant allowed (Pool.idle shared : Pool ε χ ι σ ρ τ κ α) :=
  ⟨holds, fun _ _ busy => by cases busy⟩

variable (unwinding : machine.Unwinding mine look fair hear invariant allowed admitted)

include unwinding

/-- Where a program stopped, in an orderly pool. -/
theorem orderly_place {slot : τ} {label : κ slot} {program : Program ε χ ι ρ (α slot)} {input : χ}
    {shared : σ} {thread : (slot : τ) → Option (Thread ε χ ι ρ (κ slot) (α slot))}
    (holds : invariant shared)
    (discreet : program.Discreet fair hear (allowed slot) fun _ => True)
    (others : ∀ other waiting, thread other = some waiting →
      waiting.program.Discreet fair hear (allowed other) fun _ => True) :
    Orderly fair hear invariant allowed
      (machine.place slot label (program.settle input) shared thread) := by
  constructor
  · cases program.settle input with
    | finished result => exact unwinding.keeps_leave slot label result shared holds
    | calling request next => exact holds
  · exact machine.attached_place (fun request next stops => Program.discreet_settle discreet stops)
      fun other waiting _ busy => others other waiting busy

/-- **Every move leaves an orderly pool.** -/
theorem orderly_act {pool pool' : Pool ε χ ι σ ρ τ κ α} {move : Move χ τ κ}
    (orderly : Orderly fair hear invariant allowed pool) (input : admitted move.slot move.input)
    (moved : machine.act pool move = some pool') :
    Orderly fair hear invariant allowed pool' := by
  obtain ⟨slot, label, reading, rfl, _, admits, rfl⟩ | ⟨slot, reading, thread, rfl, busy, rfl⟩ :=
    machine.act_cases moved
  · exact orderly_place unwinding orderly.shared (unwinding.programs slot label _ admits)
      orderly.discreet
  · obtain ⟨holds, _, later⟩ := orderly.discreet slot thread busy
    obtain ⟨is_fair, kept⟩ := unwinding.keeps slot thread.request reading pool.shared
      orderly.shared holds input
    exact orderly_place unwinding kept (later _ is_fair) orderly.discreet

/-- What ends or waits in a slot of others is out of sight. -/
theorem alike_place_hidden {pool : Pool ε χ ι σ ρ τ κ α} {slot : τ} (foreign : ¬ mine slot)
    (label : κ slot) (stop : Stop ε χ ι ρ (α slot)) {shared : σ}
    (same : look shared = look pool.shared) :
    Alike mine look (machine.place slot label stop shared pool.thread) pool := by
  constructor
  · cases stop with
    | finished result => exact (unwinding.hidden_leave slot label result shared foreign).trans same
    | calling request next => exact same
  · intro other own
    have different : other ≠ slot := fun equal => foreign (equal ▸ own)
    exact machine.place_other different label stop shared pool.thread

/-- **A move of others is out of sight.** -/
theorem act_hidden {pool pool' : Pool ε χ ι σ ρ τ κ α} {move : Move χ τ κ}
    (orderly : Orderly fair hear invariant allowed pool) (input : admitted move.slot move.input)
    (foreign : ¬ mine move.slot) (moved : machine.act pool move = some pool') :
    Alike mine look pool' pool := by
  obtain ⟨slot, label, reading, rfl, _, _, rfl⟩ | ⟨slot, reading, thread, rfl, busy, rfl⟩ :=
    machine.act_cases moved
  · exact alike_place_hidden unwinding foreign label _ rfl
  · have holds := (orderly.discreet slot thread busy).1
    exact alike_place_hidden unwinding foreign thread.label _
      (unwinding.hidden slot thread.request reading pool.shared foreign orderly.shared holds input)

/-- Pools that are alike stay so when one program stops in them at the same place. -/
theorem alike_place_own {pool pool' : Pool ε χ ι σ ρ τ κ α} (alike : Alike mine look pool pool')
    {slot : τ} (own : mine slot) (label : κ slot) (stop : Stop ε χ ι ρ (α slot))
    {shared shared' : σ} (same : look shared = look shared') :
    Alike mine look (machine.place slot label stop shared pool.thread)
      (machine.place slot label stop shared' pool'.thread) := by
  constructor
  · cases stop with
    | finished result => exact unwinding.own_leave slot label result shared shared' own same
    | calling request next => exact same
  · intro other here
    by_cases equal : other = slot
    · subst equal
      cases stop with
      | finished result => rw [place_finished_thread, place_finished_thread]
      | calling request next => rw [place_calling_thread, place_calling_thread]
    · rw [machine.place_other equal, machine.place_other equal]
      exact alike.thread other here

/-- **One's own move depends on what is in sight.** -/
theorem act_own {pool pool' next : Pool ε χ ι σ ρ τ κ α} {move : Move χ τ κ}
    (alike : Alike mine look pool pool') (orderly : Orderly fair hear invariant allowed pool)
    (orderly' : Orderly fair hear invariant allowed pool')
    (input : admitted move.slot move.input) (own : mine move.slot)
    (moved : machine.act pool move = some next) :
    ∃ next', machine.act pool' move = some next' ∧ Alike mine look next next' := by
  obtain ⟨slot, label, reading, rfl, free, admits, rfl⟩ | ⟨slot, reading, thread, rfl, busy, rfl⟩ :=
    machine.act_cases moved
  · have free' : pool'.thread slot = none := (alike.thread slot own).symm.trans free
    rw [unwinding.own_admits slot label _ _ own alike.shared] at admits
    have moved' : machine.act pool' (.start slot label reading) =
        some (machine.place slot label ((machine.program slot label).settle reading) pool'.shared
          pool'.thread) := by
      simp only [act, free', admits, if_true]
    exact ⟨_, moved', alike_place_own unwinding alike own label _ alike.shared⟩
  · have busy' : pool'.thread slot = some thread := (alike.thread slot own).symm.trans busy
    obtain ⟨holds, deaf, _⟩ := orderly.discreet slot thread busy
    obtain ⟨heard, seen⟩ := unwinding.own slot thread.request reading _ _ own orderly.shared
      orderly'.shared alike.shared holds input
    -- the program goes on in the same way, since it hears the same
    have goes_on : thread.next (machine.exec thread.request reading pool.shared).1 =
        thread.next (machine.exec thread.request reading pool'.shared).1 := by
      rw [← deaf, heard, deaf]
    have moved' : machine.act pool' (.resume slot reading) =
        some (machine.place slot thread.label
          ((thread.next (machine.exec thread.request reading pool'.shared).1).settle reading)
          (machine.exec thread.request reading pool'.shared).2 pool'.thread) := by
      simp only [act, busy']
    refine ⟨_, moved', ?_⟩
    rw [goes_on]
    exact alike_place_own unwinding alike own thread.label _ seen

/-- **The moves of others make no difference.** A run from a pool, and the run of one's own moves
alone from a pool that looks the same, end in pools that look the same. -/
theorem run_purge [DecidablePred mine] {moves : List (Move χ τ κ)}
    (inputs : ∀ move ∈ moves, admitted move.slot move.input) :
    ∀ {pool pool' last : Pool ε χ ι σ ρ τ κ α}, Alike mine look pool pool' →
      Orderly fair hear invariant allowed pool → Orderly fair hear invariant allowed pool' →
        machine.run pool moves = some last →
          ∃ last', machine.run pool' (purge mine moves) = some last' ∧
            Alike mine look last last' := by
  induction moves with
  | nil =>
    intro pool pool' last alike _ _ reached
    cases reached
    exact ⟨pool', rfl, alike⟩
  | cons move moves ih =>
    intro pool pool' last alike orderly orderly' reached
    obtain ⟨next, moved, rest⟩ := Option.bind_eq_some_iff.mp reached
    have input := inputs move List.mem_cons_self
    have inputs' : ∀ other ∈ moves, admitted other.slot other.input :=
      fun other member => inputs other (List.mem_cons_of_mem _ member)
    have orderly_next := orderly_act unwinding orderly input moved
    by_cases own : mine move.slot
    · obtain ⟨next', moved', alike'⟩ := act_own unwinding alike orderly orderly' input own moved
      obtain ⟨last', ran, same⟩ := ih inputs' alike' orderly_next
        (orderly_act unwinding orderly' input moved') rest
      refine ⟨last', ?_, same⟩
      simp only [purge, List.filter_cons, own, decide_true, if_true, run, moved', Option.bind_some]
      exact ran
    · have hidden := act_hidden unwinding orderly input own moved
      have alike' : Alike mine look next pool' :=
        ⟨hidden.shared.trans alike.shared, fun slot here =>
          (hidden.thread slot here).trans (alike.thread slot here)⟩
      obtain ⟨last', ran, same⟩ := ih inputs' alike' orderly_next orderly' rest
      refine ⟨last', ?_, same⟩
      simp only [purge, List.filter_cons, own, decide_false, Bool.false_eq_true, if_false]
      exact ran

end Machine

end WaAutomation.Library
