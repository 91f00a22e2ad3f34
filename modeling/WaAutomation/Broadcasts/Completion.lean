/-
**Completion: what becomes of a broadcast that is done.**

`update` and `send` refuse a broadcast that is done, but `cancel` does not look at the status, and a
run does not either: a second job of the broadcast, left from an earlier `send`, sends it again.

* `refusing_lasts`: a request other than `cancel` that has not loaded its row keeps the outcome;
* `completion_lasts`: with no run of the broadcast and no cancellation, the outcome stays;
* `completion_lost`: cancelling the broadcast after its run changes the status, with every request
  and every run alone.
-/

import WaAutomation.Broadcasts.Ownership

set_option linter.unusedSectionVars false

namespace WaAutomation

open Library Program

namespace Completion

/-- The outcome of a broadcast: status, counters and times. -/
def outcome (row : Broadcast) : BroadcastStatus × Nat × Nat × Option Time × Option Time :=
  (row.status, row.sentCount, row.failedCount, row.startedAt, row.finishedAt)

/-- The outcome of a broadcast is what it was, and no job of it was enqueued. -/
structure Kept (id : Uuid) (before after : Store) : Prop where
  stored : ∀ old ∈ before.broadcasts, old.id = id →
    ∃ row ∈ after.broadcasts, row.id = id ∧ outcome row = outcome old
  outcome : ∀ row ∈ after.broadcasts, row.id = id →
    ∃ old ∈ before.broadcasts, old.id = id ∧ outcome row = outcome old
  jobs : ((after.jobsOf id).map QueuedJob.id).Sublist ((before.jobsOf id).map QueuedJob.id)

/-- The broadcast is done, as it was before. -/
structure Done (id : Uuid) (before store : Store) : Prop where
  rows : ∀ row : Broadcast, row.id = id → (row ∈ store.broadcasts ↔ row ∈ before.broadcasts)
  status : ∀ row ∈ store.broadcasts, row.id = id → row.status = .done
  jobs : ((store.jobsOf id).map QueuedJob.id).Sublist ((before.jobsOf id).map QueuedJob.id)

section Phase

variable {h : Helpers} {id : Uuid} {before store store' : Store}

theorem kept_of_done (done : Done id before store) : Kept id before store :=
  ⟨fun old member same => ⟨old, (done.rows old same).mpr member, same, rfl⟩,
    fun row member same => ⟨row, (done.rows row same).mp member, same, rfl⟩, done.jobs⟩

theorem done_untouched (untouched : Ownership.Untouched id store store')
    (done : Done id before store) : Done id before store' := by
  refine ⟨fun row same => (untouched.rows row same).trans (done.rows row same),
    fun row member same => done.status row ((untouched.rows row same).mp member) same, ?_⟩
  rw [untouched.jobs]
  exact done.jobs

theorem done_leaves (h : Helpers) (slot : Slot) (label : slot.Label)
    (result : Except Err slot.Result) (state : Store) (done : Done id before state) :
    Done id before ((system h).leave slot label result state) := by
  cases slot with
  | worker => exact ⟨done.rows, done.status, (settleJob_jobsOf _ _ _ _).trans done.jobs⟩
  | call number => exact done

/-- The surroundings of a slot once the broadcast is done. Nobody owns anything. -/
abbrev around (h : Helpers) (id : Uuid) (before : Store) (slot : Slot) :
    Surroundings Input Call Store :=
  (system h).lasting (Done id before) (fun _ _ => ()) slot

theorem stable_reads (slot : Slot) :
    Stable exec (around h id before slot) (fun made => made.reads = true) (Done id before) := by
  rintro made reads _ state input _ ⟨done, _⟩
  have kept : Done id before (exec made input state).2 := by
    rw [exec_reads reads]
    exact done
  exact ⟨⟨kept, fun _ _ => rfl⟩, kept⟩

/-- The request cancels. -/
def cancels : Request → Bool
  | .cancel _ _ _ => true
  | _ => false

/-- **A request that finds the broadcast done refuses it**, unless it cancels. -/
theorem refusing_lasts (h : Helpers) (before : Store) (number : Nat) {request : Request}
    (names : request.names = some id) (spares : request.spares = true)
    (refusing : cancels request = false) :
    (request.program h).Everywhere
        (Ownership.Poised (around h id before (.call number)) (Done id before)) ∧
      ∀ store, Done id before store →
        (request.program h).Safe exec (around h id before (.call number))
        (fun _ _ => True) store := by
  refine Ownership.request_poised h (stable_reads _) names fun broadcast _ done member same => ?_
  rw [done.status broadcast member same]
  cases request with
  | cancel _ _ _ => cases refusing
  | remove _ _ _ => cases spares
  | create _ _ _ => cases names
  | removeSession _ _ _ => cases names
  | elsewhere _ => cases names
  | _ => rfl

/-- What is about other broadcasts keeps the outcome of this one. -/
theorem elsewhere_lasts {slot : Slot} {label : slot.Label}
    (elsewhere : Ownership.Elsewhere id slot label) {program : Svc slot.Result}
    {post : Except Err slot.Result → Store → Prop}
    (safe : program.Safe exec (free (Ownership.touches slot label)) post store) :
    program.Safe exec (around h id before slot) (fun _ _ => True) store' :=
  Ownership.elsewhere_lasting (fun _ _ untouched done => done_untouched untouched done) elsewhere
    (fun _ _ _ _ _ _ => rfl) safe

end Phase

/-- A call of a request in flight after which it neither saves the broadcast nor enqueues it. -/
def harmless : Request → Call → Bool
  | .cancel _ _ _, _ => false
  | _, made => !made.writes .broadcasts && !made.enqueues

theorem harmless_quiet {request : Request} {made : Call} (quiet : harmless request made = true) :
    cancels request = false ∧ made.writes .broadcasts = false ∧ made.enqueues = false := by
  cases request with
  | cancel _ _ _ => cases quiet
  | _ =>
    simp only [harmless, Bool.and_eq_true, Bool.not_eq_true'] at quiet
    exact ⟨rfl, quiet⟩

/-- What is in flight when the broadcast is done: no run of it, no cancellation of it, and no other
request that is about to save or to enqueue it. -/
structure Calm (id : Uuid) (pool : Pool) : Prop where
  worker : ∀ thread, pool.thread .worker = some thread → thread.label.data.broadcastId ≠ id
  calls : ∀ number thread, pool.thread (.call number) = some thread →
    thread.label.spares = true ∧
      (thread.label.names = some id → harmless thread.label thread.request = true)

/-- No request that creates or removes a broadcast is started. -/
def served : Move → Bool := starts Request.spares

/-- No attempt of a job of the broadcast is started, and no cancellation of it. -/
def undisturbed (id : Uuid) : Move → Bool
  | .start .worker attempt _ => attempt.data.broadcastId != id
  | .start (.call _) request _ => !(cancels request && request.names == some id)
  | _ => true

section System

variable {h : Helpers} {id : Uuid} {before : Store}

/-- What each program in flight does once the broadcast is done. -/
theorem calm_secure {store : Store} {moves : List Move} {pool : Pool}
    (reached : (system h).run (idle store) moves = some pool) (calm : Calm id pool) (slot : Slot)
    (thread : Machine.Thread Err Input Call Resp slot.Label slot.Result)
    (busy : pool.thread slot = some thread) (done : Done id before pool.shared) :
    thread.program.Safe exec (around h id before slot) (fun _ _ => True) pool.shared := by
  have touches := Ownership.touches_run reached slot thread busy
  cases slot with
  | worker =>
    have elsewhere : Ownership.Elsewhere id .worker thread.label := calm.worker thread busy
    exact elsewhere_lasts elsewhere touches
  | call number =>
    obtain ⟨spares, calls⟩ := calm.calls number thread busy
    by_cases names : thread.label.names = some id
    · obtain ⟨refusing, unsaved, unqueued⟩ := harmless_quiet (calls names)
      have poised := Ownership.poised_run
        (fun request => request.names = some id ∧ request.spares = true ∧ cancels request = false)
        (fun number _ kind => (refusing_lasts h before number kind.1 kind.2.1 kind.2.2).1)
          reached busy
        ⟨names, spares, refusing⟩
      rcases poised with writes | enqueues | lasts
      · cases unsaved.symm.trans writes
      · cases unqueued.symm.trans enqueues
      · exact lasts pool.shared done
    · exact elsewhere_lasts (Ownership.elsewhere_of_spares names spares) touches

theorem starts_lasting {slot : Slot} {label : slot.Label} {input : Input}
    (is_served : served (.start slot label input) = true)
    (quiet : undisturbed id (.start slot label input) = true) (state : Store)
    (done : Done id before state) :
    ((system h).program slot label).Safe exec (around h id before slot)
    (fun _ _ => True) state := by
  cases slot with
  | worker =>
    have elsewhere : label.data.broadcastId ≠ id := by simpa [undisturbed] using quiet
    have elsewhere : Ownership.Elsewhere id .worker label := elsewhere
    exact elsewhere_lasts elsewhere (Ownership.process_own h label.data state)
  | call number =>
    by_cases names : label.names = some id
    · have refusing : cancels label = false := by simpa [undisturbed, names] using quiet
      exact (refusing_lasts h before number names is_served refusing).2 state done
    · exact elsewhere_lasts (Ownership.elsewhere_of_spares names is_served)
        (Ownership.program_does h label state)

end System

/-- Where a broadcast is done while no run of it is in flight and no request is about to save or to
enqueue it, its outcome stays, and no job of it is enqueued, as long as no attempt of another job of
it begins and it is not cancelled. -/
theorem completion_lasts (h : Helpers) (id : Uuid) (store : Store) (moves : List Move) (pool : Pool)
    (reached : (system h).run (idle store) moves = some pool)
    (done : ∀ row ∈ pool.shared.broadcasts, row.id = id → row.status = .done) (calm : Calm id pool)
    (later : List Move) (pool' : Pool) (reached' : (system h).run pool later = some pool')
    (all_served : ∀ move ∈ later, served move = true)
    (quiet : ∀ move ∈ later, undisturbed id move = true) : Kept id pool.shared pool'.shared := by
  have begun : Done id pool.shared pool.shared := ⟨fun _ _ => Iff.rfl, done, List.Sublist.refl _⟩
  have lasting : Machine.Pool.Lasting (system h) (Done id pool.shared) (fun _ _ => ()) pool :=
    ⟨begun, fun slot thread busy => calm_secure reached calm slot thread busy begun⟩
  obtain ⟨kept, _⟩ := (system h).lasting_run (done_leaves h) (fun _ _ _ _ _ => rfl)
    (fun slot label input member state done =>
      starts_lasting (all_served _ member) (quiet _ member) state done) lasting reached'
  exact kept_of_done kept

/-! ### Two runs of the small workspace -/

/-- A broadcast that is sent, and its job run to the end. -/
def finishing : List Move := Example.send ++ [Example.begin_ 0] ++ Example.works 20

/-- The stored row of the finished broadcast is done. -/
theorem finishing_done (row : Broadcast)
    (member : row ∈ (Example.reach Example.store finishing rfl).shared.broadcasts) :
    row.status = .done := by
  obtain rfl := List.mem_singleton.mp member
  rfl

/-- A send that is refused. -/
def sendAgain : List Move := Example.alone (.send "b" (some "w") "u") 3

theorem completion_lasts_example :
    ∃ pool', (system Example.helpers).run (Example.reach Example.store finishing rfl) sendAgain =
        some pool' ∧
      Kept "b" (Example.reach Example.store finishing rfl).shared pool'.shared := by
  have rest (slot : Slot) : (Example.reach Example.store finishing rfl).thread slot = none :=
    Example.at_rest (Example.reached rfl) (by decide) rfl slot
  have calm : Calm "b" (Example.reach Example.store finishing rfl) := by
    refine ⟨fun thread busy => ?_, fun number thread busy => ?_⟩
    · cases (rest .worker).symm.trans busy
    · cases (rest (.call number)).symm.trans busy
  exact ⟨_, rfl, completion_lasts Example.helpers "b" Example.store finishing _
    (Example.reached rfl) (fun row member _ => finishing_done row member) calm sendAgain _ rfl
    (by decide) (by decide)⟩

/-- The status changes when the broadcast is cancelled. -/
theorem completion_lost :
    ¬∀ (h : Helpers) (id : Uuid) (store : Store) (moves : List Move) (pool : Pool),
      (system h).run (idle store) moves = some pool →
      (∀ row ∈ pool.shared.broadcasts, row.id = id → row.status = .done) →
      ∀ (later : List Move) (pool' : Pool), (system h).run pool later = some pool' →
      (∀ move ∈ later, served move = true) → Kept id pool.shared pool'.shared := by
  intro claim
  have kept := claim Example.helpers "b" Example.store finishing
    (Example.reach Example.store finishing rfl) (Example.reached rfl)
    (fun row member _ => finishing_done row member) Example.cancel _ rfl (by decide)
  obtain ⟨old, member, _, same⟩ := kept.outcome _ (List.mem_singleton.mpr rfl) rfl
  exact absurd ((congrArg Prod.fst same).trans (finishing_done old member)) (by decide)

end Completion

end WaAutomation
