/-
**The broadcast system: service calls and one worker over one store.**

`system` has a worker slot, which runs one attempt of one job of the `wa-broadcasts` queue at a
time, and any number of slots for service calls. Between two repository, queue or OpenWA calls of
one program the others may make theirs.

A job leaves the queue when an attempt of it returns, or when its last attempt throws
(`Store.settleJob`).

* `Store.broadcast`, `Store.recipients`, `Store.sends` and `Store.jobsOf` are the parts of the store
  the properties below are about; the lemmas here say how each call moves them.
* `exec_save_broadcast` and `exec_save_recipient` are the outcomes of the two saves, `safe_sendText`
  is the rule of a message to a recipient, and `place_shared` reads off a move what it did to the
  store.
-/

import WaAutomation.Library.Machine
import WaAutomation.Model.Writes

set_option linter.unusedSectionVars false

namespace WaAutomation

open Library

/-! ### Requests -/

/-- A service call. `elsewhere` stands for the calls of other modules, which leave broadcasts, their
recipients and the queue alone. -/
inductive Request where
  | create (workspaceId : Option Uuid) (userId : Uuid) (dto : CreateBroadcastDto)
  | update (id : Uuid) (workspaceId : Option Uuid) (userId : Uuid) (dto : UpdateBroadcastDto)
  | remove (id : Uuid) (workspaceId : Option Uuid) (userId : Uuid)
  | send (id : Uuid) (workspaceId : Option Uuid) (userId : Uuid)
  | cancel (id : Uuid) (workspaceId : Option Uuid) (userId : Uuid)
  | status (id : Uuid) (workspaceId : Option Uuid) (userId : Uuid)
  | report (id : Uuid) (workspaceId : Option Uuid) (userId : Uuid)
  | removeSession (id : Uuid) (workspaceId : Option Uuid) (userId : Uuid)
  | elsewhere (change : Db → Db)

/-- The requests other than `create` and `remove`: broadcasts and recipients neither come nor go. -/
def Request.spares : Request → Bool
  | .create _ _ _ => false
  | .remove _ _ _ => false
  | _ => true

inductive Reply where
  | broadcast (value : Broadcast)
  | message (value : String)
  | send (value : SendReply)
  | status (value : BroadcastStatusReply)
  | report (value : BroadcastReport)
  | nothing

def Request.program (h : Helpers) : Request → Svc Reply
  | .create workspaceId userId dto => do
      return .broadcast (← BroadcastsService.create h workspaceId userId dto)
  | .update id workspaceId userId dto => do
      return .broadcast (← BroadcastsService.update id workspaceId userId dto)
  | .remove id workspaceId userId => do
      return .message (← BroadcastsService.remove id workspaceId userId)
  | .send id workspaceId userId => do
      return .send (← BroadcastsService.send id workspaceId userId)
  | .cancel id workspaceId userId => do
      return .message (← BroadcastsService.cancel id workspaceId userId)
  | .status id workspaceId userId => do
      return .status (← BroadcastsService.status id workspaceId userId)
  | .report id workspaceId userId => do
      return .report (← BroadcastsService.report id workspaceId userId)
  | .removeSession id workspaceId userId => do
      return .message (← SessionsService.remove h id workspaceId userId)
  | .elsewhere change => do
      let _ ← Svc.call (.elsewhere change)
      return .nothing

/-! ### The queue -/

/-- One attempt of a job. -/
structure Attempt where
  jobId : Nat
  data : BroadcastJob
  deriving DecidableEq, Repr

/-- The data of a job of `wa-broadcasts`. -/
def Job.broadcast? : Job → Option BroadcastJob
  | .broadcast data => some data
  | _ => none

/-- The job an attempt is of. -/
def Attempt.of (attempt : Attempt) (job : QueuedJob) : Bool :=
  job.id == attempt.jobId && job.job.broadcast? == some attempt.data

/-- A job after an attempt that failed: to be tried again, unless it was the last one. -/
def QueuedJob.retry (job : QueuedJob) : Option QueuedJob :=
  if job.attemptsMade + 1 < job.attempts then some { job with attemptsMade := job.attemptsMade + 1 }
  else none

/-- A job after an attempt of the job `jobId`. -/
def QueuedJob.settle (jobId : Nat) (returned : Bool) (job : QueuedJob) : Option QueuedJob :=
  if job.id = jobId then (if returned then none else job.retry) else some job

namespace Store

/-- The queue after an attempt of a job. -/
def settleJob (store : Store) (jobId : Nat) (returned : Bool) : Store :=
  { store with jobs := store.jobs.filterMap (QueuedJob.settle jobId returned) }

/-- The broadcast rows. -/
def broadcasts (store : Store) : List Broadcast := store.db .broadcasts

/-- The stored row of a broadcast. -/
def broadcast (store : Store) (id : Uuid) : Option Broadcast :=
  (store.db .broadcasts).find? fun broadcast => broadcast.id == id

/-- The recipient rows. -/
def recipients (store : Store) : List BroadcastRecipient := store.db .recipients

/-- The jobs of a broadcast that are waiting, delayed or active. -/
def jobsOf (store : Store) (id : Uuid) : List QueuedJob :=
  store.jobs.filter fun job => job.job.broadcast? == some ⟨id⟩

end Store

/-- The message to a broadcast recipient an effect is, with OpenWA's verdict. -/
def Effect.send : Effect → Option (RecipientRef × Bool)
  | .openwa call accepted => call.recipient.map fun recipient => (recipient, accepted)
  | _ => none

/-- The messages sent to broadcast recipients, in order. -/
def Store.sends (store : Store) : List (RecipientRef × Bool) := store.journal.filterMap Effect.send

/-! ### The system -/

inductive Slot where
  | worker
  | call (number : Nat)
  deriving DecidableEq, Repr

@[reducible] def Slot.Label : Slot → Type
  | .worker => Attempt
  | .call _ => Request

@[reducible] def Slot.Result : Slot → Type
  | .worker => RunResult
  | .call _ => Reply

def system (h : Helpers) : Machine Err Input Call Store Resp Slot Slot.Label Slot.Result where
  exec := exec
  program
    | .worker, attempt => BroadcastProcessor.process h attempt.data
    | .call _, request => request.program h
  admits
    | .worker, attempt, store => store.jobs.any attempt.of
    | .call _, _, _ => true
  leave
    | .worker, attempt, result, store => store.settleJob attempt.jobId result.isOk
    | .call _, _, _, store => store

/-- The store with the programs in flight. -/
abbrev Pool := Machine.Pool Err Input Call Store Resp Slot Slot.Label Slot.Result

abbrev Move := Machine.Move Input Slot Slot.Label

/-- Nothing in flight. -/
abbrev idle (store : Store) : Pool := Machine.Pool.idle store

/-- The call reaches the database. -/
def Call.database (call : Call) : Bool := call.storage && !call.enqueues

/-- The database call a move executes does not fail. -/
def databaseHolds (pool : Pool) : Move → Bool
  | .start _ _ _ => true
  | .resume slot input =>
      match pool.thread slot with
      | none => true
      | some thread =>
          !thread.request.database || (exec thread.request input pool.shared).1.isOk

theorem isOk_reply {α : Type} {result : Except Err α} (answered : result.isOk = true) :
    ∃ reply, result = .ok reply := by
  cases result with
  | ok reply => exact ⟨reply, rfl⟩
  | error error => cases answered

/-- The requests a run starts. -/
def starts (allowed : Request → Bool) : Move → Bool
  | .start (.call _) request _ => allowed request
  | _ => true

/-! ### How calls move the parts of the store -/

/-- The recipient a call sends a message to. -/
def Call.serves : Call → Option RecipientRef
  | .openwa call => call.recipient
  | _ => none

theorem exec_recipients (call : Call) (input : Input) (store : Store)
    (kept : call.writes .recipients = false) :
    (exec call input store).2.recipients = store.recipients :=
  exec_other call input store kept

theorem exec_broadcasts (call : Call) (input : Input) (store : Store)
    (kept : call.writes .broadcasts = false) :
    (exec call input store).2.broadcasts = store.broadcasts :=
  exec_other call input store kept

/-- What the status check of the loop answers, when it does not fail. -/
theorem exec_findStatus (id : Uuid) (input : Input) (store : Store) :
    (∃ error, exec (.findStatus id) input store = (.error error, store)) ∨
      exec (.findStatus id) input store =
        (.ok ((store.broadcast id).map Broadcast.status), store) := by
  obtain ⟨_, _, _, failed⟩ | performed := exec_cases (.findStatus id) input store
  · exact .inl ⟨_, failed⟩
  · exact .inr performed

theorem exec_openwa (call : OpenwaCall) (input : Input) (store : Store) :
    exec (.openwa call) input store = store.openwa input call := by
  obtain ⟨_, _, storage, _⟩ | performed := exec_cases (.openwa call) input store
  · cases storage
  · exact performed

theorem sends_note (store : Store) (effect : Effect) :
    (store.note effect).sends = store.sends ++ effect.send.toList := by
  unfold Store.sends Store.note
  simp only [List.filterMap_append, List.filterMap_cons, List.filterMap_nil]
  cases effect.send <;> rfl

/-- A call that serves no recipient keeps the sent messages. -/
theorem exec_sends (call : Call) (input : Input) (store : Store) (kept : call.serves = none) :
    (exec call input store).2.sends = store.sends := by
  by_cases shows : call.shows = true
  · cases call with
    | openwa call =>
      rw [exec_openwa]
      unfold Store.openwa
      have silent : call.recipient = none := kept
      split
      · rw [sends_note, Effect.send, silent]
        exact List.append_nil _
      · rw [sends_note, Effect.send, silent]
        exact List.append_nil _
    | emit event =>
      obtain ⟨_, _, storage, _⟩ | performed := exec_cases (.emit event) input store
      · cases storage
      · rw [performed]
        exact (sends_note store _).trans (List.append_nil _)
    | sleep ms =>
      obtain ⟨_, _, storage, _⟩ | performed := exec_cases (.sleep ms) input store
      · cases storage
      · rw [performed]
        exact (sends_note store _).trans (List.append_nil _)
    | _ => cases shows
  · unfold Store.sends
    rw [exec_journal call input store (Bool.eq_false_iff.mpr shows)]

/-- What a message to a recipient does. -/
theorem exec_serve (call : OpenwaCall) {recipient : RecipientRef}
    (serves : call.recipient = recipient) (input : Input) (store : Store) :
    ∃ accepted, (exec (.openwa call) input store).2.sends = store.sends ++ [(recipient, accepted)] ∧
      (exec (.openwa call) input store).2.db = store.db ∧
      (exec (.openwa call) input store).2.jobs = store.jobs ∧
      (accepted = true → ∃ response, (exec (.openwa call) input store).1 = .ok response) ∧
      (accepted = false → ∃ error, (exec (.openwa call) input store).1 = .error error) := by
  rw [exec_openwa]
  unfold Store.openwa
  split
  · refine ⟨true, ?_, rfl, rfl, fun _ => ⟨_, rfl⟩, fun wrong => by cases wrong⟩
    rw [sends_note, Effect.send, serves]
    rfl
  · refine ⟨false, ?_, rfl, rfl, (fun wrong => by cases wrong), fun _ => ⟨_, rfl⟩⟩
    rw [sends_note, Effect.send, serves]
    rfl

/-! ### Saves -/

/-- An update of a broadcast changes its name, its template and its delay only. -/
def Edited (broadcast row : Broadcast) : Prop :=
  row = { broadcast with name := row.name, template := row.template, delayMs := row.delayMs }

theorem assign_over {broadcast stored row : Broadcast} {dto : UpdateBroadcastDto}
    (onto : (BroadcastsService.assign broadcast dto).onto stored = some row) :
    Edited broadcast row := by
  simp only [BroadcastsService.assign] at onto
  split at onto
  · cases onto
    rfl
  · cases onto

theorem assign_anew {broadcast row : Broadcast} {dto : UpdateBroadcastDto}
    (anew : (BroadcastsService.assign broadcast dto).anew = some row) : Edited broadcast row := by
  simp only [BroadcastsService.assign] at anew
  split at anew
  · cases anew
    rfl
  · cases anew

theorem assign_writes {broadcast row : Broadcast} {dto : UpdateBroadcastDto}
    (writes : (BroadcastsService.assign broadcast dto).writes row) : Edited broadcast row := by
  obtain ⟨stored, onto⟩ | anew := writes
  · exact assign_over onto
  · exact assign_anew anew

theorem assign_row (broadcast : Broadcast) (dto : UpdateBroadcastDto) :
    Edited broadcast (BroadcastsService.assign broadcast dto).row := by
  cases onto : (BroadcastsService.assign broadcast dto).onto broadcast with
  | none =>
    have kept : (BroadcastsService.assign broadcast dto).row = broadcast :=
      congrArg (fun row => row.getD broadcast) onto
    rw [kept]
    rfl
  | some row =>
    have written : (BroadcastsService.assign broadcast dto).row = row :=
      congrArg (fun row => row.getD broadcast) onto
    rw [written]
    exact assign_over onto

/-- **A save of a broadcast**: an error that changes nothing, or the stored row is one the entity
writes. -/
theorem exec_save_broadcast (entity : Entity Broadcast)
    (keyed : ∀ row, entity.writes row → row.id = entity.row.id) (input : Input) (store : Store) :
    (∃ error, exec (.save .broadcasts entity) input store = (.error error, store)) ∨
    (∃ row, entity.writes row ∧ (exec (.save .broadcasts entity) input store).1 = .ok () ∧
      ∀ other, other ∈ (exec (.save .broadcasts entity) input store).2.broadcasts ↔
        other ∈ store.broadcasts ∧ other.id ≠ row.id ∨ other = row) := by
  obtain ⟨message, _, _, failed⟩ | performed := exec_cases (.save .broadcasts entity) input store
  · exact .inl ⟨_, failed⟩
  rw [performed]
  show (∃ error, store.save .broadcasts entity = _) ∨ ∃ row, entity.writes row ∧
    (store.save .broadcasts entity).1 = _ ∧
      ∀ other, other ∈ (store.save .broadcasts entity).2.broadcasts ↔ _
  obtain failed | ⟨stored, row, found, onto, _, saved⟩ | ⟨row, missing, anew, _, saved⟩ :=
    store.save_cases .broadcasts entity
  · exact .inl failed
  · right
    have writes : entity.writes row := .inl ⟨stored, onto⟩
    have key := List.find?_some found
    simp only [Db.sameKey, Row.key, Prod.mk.injEq, and_true, decide_eq_true_eq] at key
    refine ⟨row, writes, by rw [saved], fun other => ?_⟩
    rw [saved]
    show other ∈ (store.db.put .broadcasts row) .broadcasts ↔ _
    rw [Db.put, Db.set_same, Rows.mem_put]
    simp only [Row.key, Prod.mk.injEq, and_true, ne_eq]
    have present : ∃ old ∈ store.db .broadcasts, old.id = row.id :=
      ⟨stored, List.mem_of_find?_eq_some found, key.symm.trans (keyed row writes).symm⟩
    constructor
    · rintro (kept | ⟨is_row, _⟩)
      · exact .inl kept
      · exact .inr is_row
    · rintro (kept | is_row)
      · exact .inl kept
      · exact .inr ⟨is_row, present⟩
  · right
    have writes : entity.writes row := .inr anew
    refine ⟨row, writes, by rw [saved], fun other => ?_⟩
    rw [saved]
    show other ∈ (store.db.push .broadcasts row) .broadcasts ↔ _
    rw [Db.push, Db.set_same, List.mem_append, List.mem_singleton]
    constructor
    · rintro (kept | is_row)
      · refine .inl ⟨kept, fun same => ?_⟩
        have absent := List.find?_eq_none.mp missing other kept
        simp only [Db.sameKey, Row.key, Prod.mk.injEq, and_true, decide_eq_true_eq] at absent
        exact absent ((keyed row writes).symm.trans same.symm)
      · exact .inr is_row
    · rintro (⟨kept, _⟩ | is_row)
      · exact .inl kept
      · exact .inr is_row

/-- **A save of a recipient**: an error that changes nothing, or its row is written over the stored
one, or, when it is gone and its broadcast is not, inserted again. -/
theorem exec_save_recipient (recipient : BroadcastRecipient) (input : Input) (store : Store) :
    (∃ error, exec (.save .recipients (.whole recipient)) input store = (.error error, store)) ∨
    ((exec (.save .recipients (.whole recipient)) input store).1 = .ok () ∧
      (∃ parent ∈ store.broadcasts, parent.id = recipient.broadcastId) ∧
      ((∃ old ∈ store.recipients, old.id = recipient.id) ∧
          (exec (.save .recipients (.whole recipient)) input store).2.recipients =
            Rows.put BroadcastRecipient.id recipient store.recipients ∨
        (∀ old ∈ store.recipients, old.id ≠ recipient.id) ∧
          (exec (.save .recipients (.whole recipient)) input store).2.recipients =
            store.recipients ++ [recipient])) := by
  obtain ⟨message, _, _, failed⟩ | performed :=
    exec_cases (.save .recipients (.whole recipient)) input store
  · exact .inl ⟨_, failed⟩
  rw [performed]
  show (∃ error, store.save .recipients (.whole recipient) = _) ∨
    ((store.save .recipients (.whole recipient)).1 = _ ∧ _ ∧
      (_ ∧ (store.save .recipients (.whole recipient)).2.recipients = _ ∨
        _ ∧ (store.save .recipients (.whole recipient)).2.recipients = _))
  have parent (checked : store.db.check .recipients recipient = .ok ()) :
      ∃ parent ∈ store.broadcasts, parent.id = recipient.broadcastId := by
    have exists_parent := (Db.check_ok checked).2
    simp only [Db.parents, Db.has, Row.key, List.any_eq_true, beq_iff_eq] at exists_parent
    exact exists_parent
  obtain failed | ⟨stored, row, found, onto, checked, saved⟩ | ⟨row, missing, anew,
      checked, saved⟩ :=
    store.save_cases .recipients (.whole recipient)
  · exact .inl failed
  · right
    obtain rfl := Option.some.inj onto
    refine ⟨by rw [saved], parent checked, .inl ⟨⟨stored, List.mem_of_find?_eq_some found, ?_⟩, ?_⟩⟩
    · have key := List.find?_some found
      simp only [Db.sameKey, Row.key, Prod.mk.injEq, and_true, decide_eq_true_eq] at key
      exact key.symm
    · rw [saved]
      show (store.db.put .recipients recipient) .recipients = _
      simp only [Db.put, Db.set_same, Rows.put, Row.key, Prod.mk.injEq, and_true]
      rfl
  · right
    obtain rfl := Option.some.inj anew
    refine ⟨by rw [saved], parent checked, .inr ⟨fun old member same => ?_, ?_⟩⟩
    · have absent := List.find?_eq_none.mp missing old member
      simp only [Db.sameKey, Row.key, Prod.mk.injEq, and_true, decide_eq_true_eq] at absent
      exact absent same.symm
    · rw [saved]
      show (store.db.push .recipients recipient) .recipients = _
      exact Db.set_same _ _ _

/-! ### What a move does to the store -/

@[simp] theorem settleJob_db (store : Store) (jobId : Nat) (returned : Bool) :
    (store.settleJob jobId returned).db = store.db := rfl

@[simp] theorem settleJob_recipients (store : Store) (jobId : Nat) (returned : Bool) :
    (store.settleJob jobId returned).recipients = store.recipients := rfl

@[simp] theorem settleJob_broadcasts (store : Store) (jobId : Nat) (returned : Bool) :
    (store.settleJob jobId returned).broadcasts = store.broadcasts := rfl

@[simp] theorem settleJob_sends (store : Store) (jobId : Nat) (returned : Bool) :
    (store.settleJob jobId returned).sends = store.sends := rfl

/-- A job that stays in the queue is the job it was. -/
theorem settle_same {jobId : Nat} {returned : Bool} {job job' : QueuedJob}
    (stays : job.settle jobId returned = some job') : job'.id = job.id ∧ job'.job = job.job := by
  unfold QueuedJob.settle at stays
  split at stays
  · split at stays
    · cases stays
    · unfold QueuedJob.retry at stays
      split at stays
      · cases stays
        exact ⟨rfl, rfl⟩
      · cases stays
  · cases stays
    exact ⟨rfl, rfl⟩

/-- The jobs of a kind do not get more when one is settled. -/
theorem settleJob_ids (store : Store) (jobId : Nat) (returned : Bool) (kind : Job → Bool) :
    (((store.settleJob jobId returned).jobs.filter fun job => kind job.job).map
      QueuedJob.id).Sublist
      ((store.jobs.filter fun job => kind job.job).map QueuedJob.id) := by
  show (((store.jobs.filterMap (QueuedJob.settle jobId returned)).filter _).map _).Sublist _
  induction store.jobs with
  | nil => exact List.Sublist.refl _
  | cons job jobs ih =>
    cases stays : job.settle jobId returned with
    | none =>
      rw [List.filterMap_cons_none stays]
      exact ih.trans (((List.sublist_cons_self _ _).filter _).map _)
    | some job' =>
      obtain ⟨same_id, same_job⟩ := settle_same stays
      rw [List.filterMap_cons_some stays, List.filter_cons, List.filter_cons, same_job]
      split
      · rw [List.map_cons, List.map_cons, same_id]
        exact ih.cons_cons _
      · exact ih

/-- The queue does not gain a job of a broadcast when one is settled. -/
theorem settleJob_jobsOf (store : Store) (jobId : Nat) (returned : Bool) (id : Uuid) :
    (((store.settleJob jobId returned).jobsOf id).map QueuedJob.id).Sublist
      ((store.jobsOf id).map QueuedJob.id) :=
  settleJob_ids store jobId returned fun job => job.broadcast? == some ⟨id⟩

/-- The store a move leaves is the one its call left, up to the queue. -/
theorem place_shared (h : Helpers) (slot : Slot) (label : slot.Label)
    (stop : Stop Err Input Call Resp slot.Result) (shared : Store)
    (thread : (slot : Slot) →
      Option (Machine.Thread Err Input Call Resp slot.Label slot.Result)) :
    ((system h).place slot label stop shared thread).shared = shared ∨
      ∃ jobId returned, ((system h).place slot label stop shared thread).shared =
        shared.settleJob jobId returned := by
  cases stop with
  | calling request next => exact .inl rfl
  | finished result =>
    cases slot with
    | worker => exact .inr ⟨label.jobId, result.isOk, rfl⟩
    | call number => exact .inl rfl

/-- The store after the call a move executes, before the queue learns of an end. -/
def called (pool : Pool) : Move → Store
  | .start _ _ _ => pool.shared
  | .resume slot input =>
      match pool.thread slot with
      | none => pool.shared
      | some thread => (exec thread.request input pool.shared).2

theorem called_resume {pool : Pool} {slot : Slot} {input : Input}
    {thread : Machine.Thread Err Input Call Resp slot.Label slot.Result}
    (busy : pool.thread slot = some thread) :
    called pool (.resume slot input) = (exec thread.request input pool.shared).2 := by
  simp only [called, busy]

theorem act_called {h : Helpers} {pool pool' : Pool} {move : Move}
    (moved : (system h).act pool move = some pool') :
    pool'.shared = called pool move ∨
      ∃ jobId returned, pool'.shared = (called pool move).settleJob jobId returned := by
  obtain ⟨slot, label, input, rfl, _, _, rfl⟩ | ⟨slot, input, thread, rfl, busy, rfl⟩ :=
    (system h).act_cases moved
  · exact place_shared h slot label _ pool.shared pool.thread
  · rw [called_resume busy]
    exact place_shared h slot thread.label _ _ pool.thread

/-- A request leaves the store its last call left. -/
theorem act_request {h : Helpers} {pool pool' : Pool} {number : Nat} {input : Input}
    {thread : Machine.Thread Err Input Call Resp Request Reply}
    (moved : (system h).act pool (.resume (.call number) input) = some pool')
    (busy : pool.thread (.call number) = some thread) :
    pool'.shared = (exec thread.request input pool.shared).2 := by
  simp only [Machine.act, busy, Option.some.injEq] at moved
  subst moved
  cases (thread.next ((system h).exec thread.request input pool.shared).1).settle input <;> rfl

/-- The tables a move leaves are those its call left. -/
theorem act_db {h : Helpers} {pool pool' : Pool} {move : Move}
    (moved : (system h).act pool move = some pool') : pool'.shared.db = (called pool move).db := by
  obtain same | ⟨_, _, same⟩ := act_called moved
  · rw [same]
  · rw [same]
    rfl

/-- The program in a slot the move is not made in goes on waiting. -/
theorem act_waiting {h : Helpers} {pool pool' : Pool} {move : Move} {other : Slot}
    (moved : (system h).act pool move = some pool') (different : other ≠ move.slot) :
    pool'.thread other = pool.thread other := by
  obtain ⟨slot, label, input, rfl, _, _, rfl⟩ | ⟨slot, input, thread, rfl, busy, rfl⟩ :=
    (system h).act_cases moved
  · exact (system h).place_other different _ _ _ _
  · exact (system h).place_other different _ _ _ _

/-! ### The calls of a request -/

/-- The calls a request makes beside reads. -/
def Request.makes : Request → Call → Prop
  | .create _ _ _, call => ∃ draft recipients, call = .insertBroadcast draft recipients
  | .update _ _ _ _, call => ∃ entity, call = .save .broadcasts entity
  | .remove _ _ _, call => ∃ row, call = .remove .broadcasts row
  | .send _ _ _, call =>
      (∃ entity, call = .save .broadcasts entity) ∨
        ∃ data attempts delay, call = .add (.broadcast data) attempts delay
  | .cancel _ _ _, call => ∃ entity, call = .save .broadcasts entity
  | .removeSession _ _ _, call =>
      (∃ creds method session, call = .openwa ⟨creds, method, session, none⟩) ∨
        ∃ row, call = .remove .sessions row
  | .elsewhere _, call => ∃ change, call = .elsewhere change
  | _, _ => False

theorem Request.program_calls (h : Helpers) (request : Request) :
    (request.program h).Calls fun call => call.reads = true ∨ request.makes call := by
  have reads {α : Type} {program : Svc α} (reads : Reads program) :
      program.Calls fun call => call.reads = true ∨ request.makes call :=
    calls_of_reads reads fun _ => .inl
  cases request with
  | create workspaceId userId dto =>
    refine Program.calls_bind (Program.calls_bind
      (reads (WorkspacesService.assertRole_reads _ _ _)) fun _ => Program.calls_bind
      (reads (SessionsService.findOne_reads _ _ _)) fun session => Program.calls_bind
      (reads (ContactsService.resolvePhones_reads _ _)) fun contacts => ?_) fun _ => trivial
    dsimp only
    split
    · trivial
    · exact calls_call (.inr ⟨_, _, rfl⟩)
  | update id workspaceId userId dto =>
    refine Program.calls_bind (Program.calls_bind
      (reads (WorkspacesService.assertRole_reads _ _ _)) fun _ => Program.calls_bind
      (reads (BroadcastsService.findOne_reads _ _ _)) fun broadcast => ?_) fun _ => trivial
    split
    · trivial
    · exact Program.calls_bind (calls_call (.inr ⟨_, rfl⟩)) fun _ => trivial
  | remove id workspaceId userId =>
    exact Program.calls_bind (Program.calls_bind
      (reads (WorkspacesService.assertRole_reads _ _ _)) fun _ => Program.calls_bind
      (reads (BroadcastsService.findOne_reads _ _ _)) fun broadcast => Program.calls_bind
      (calls_call (.inr ⟨_, rfl⟩)) fun _ => trivial) fun _ => trivial
  | send id workspaceId userId =>
    refine Program.calls_bind (Program.calls_bind
      (reads (WorkspacesService.assertRole_reads _ _ _)) fun _ => Program.calls_bind
      (reads (BroadcastsService.findOne_reads _ _ _)) fun broadcast => ?_) fun _ => trivial
    split
    · trivial
    · refine Program.calls_bind (calls_call (.inr (.inl ⟨_, rfl⟩))) fun _ =>
        Program.calls_bind calls_now fun now => Program.calls_bind
          (calls_call (.inr (.inr ⟨_, _, _, rfl⟩))) fun _ => trivial
  | cancel id workspaceId userId =>
    exact Program.calls_bind (Program.calls_bind
      (reads (WorkspacesService.assertRole_reads _ _ _)) fun _ => Program.calls_bind
      (reads (BroadcastsService.findOne_reads _ _ _)) fun broadcast => Program.calls_bind
      (calls_call (.inr ⟨_, rfl⟩)) fun _ => trivial) fun _ => trivial
  | status id workspaceId userId =>
    exact Program.calls_bind (Program.calls_bind
      (reads (BroadcastsService.findOne_reads _ _ _)) fun _ => trivial) fun _ => trivial
  | report id workspaceId userId =>
    exact Program.calls_bind (Program.calls_bind
      (reads (BroadcastsService.findOne_reads _ _ _)) fun _ => Program.calls_bind
      (calls_call (.inl rfl)) fun _ => trivial) fun _ => trivial
  | removeSession id workspaceId userId =>
    exact Program.calls_bind (Program.calls_bind
      (reads (WorkspacesService.assertRole_reads _ _ _)) fun _ => Program.calls_bind
      (reads (SessionsService.findOne_reads _ _ _)) fun session => Program.calls_bind
      (reads (WorkspacesService.getOpenwaCredentials_reads _ _)) fun creds => Program.calls_bind
      (Program.calls_attempt (OpenwaService.call_calls (.inr (.inl ⟨_, _, _, rfl⟩)))) fun _ =>
        Program.calls_bind (calls_call (.inr (.inr ⟨_, rfl⟩))) fun _ => trivial) fun _ => trivial
  | elsewhere change => exact Program.calls_bind (calls_call (.inr ⟨_, rfl⟩)) fun _ => trivial

/-! ### The message to a recipient -/

section Rules

variable {around : Program.Surroundings Input Call Store}

/-- The rule of `sendText`: the message is in the journal with its verdict, and the verdict decides
how the call ends. -/
theorem safe_sendText {creds : OpenwaCredentials} {session : SessionRef} {phone message : String}
    {recipient : RecipientRef} {post : Except Err OpenwaResponse → Store → Prop} {store : Store}
    (holds : ∀ store' input,
      around.rely (.openwa ⟨creds, .sendText (toChatId phone) message, session, some recipient⟩)
        input
          store store' →
        around.ok (.openwa ⟨creds, .sendText (toChatId phone) message, session, some recipient⟩)
          input
            store' ∧
          ∀ accepted store'', store''.sends = store'.sends ++ [(recipient, accepted)] →
            store''.db = store'.db →
              (accepted = true → ∀ res, post (.ok res) store'') ∧
              (accepted = false → ∀ err, post (.error err) store'')) :
    (OpenwaService.sendText creds session phone message (some recipient)).Safe exec around post
      store := by
  unfold OpenwaService.sendText OpenwaService.call
  refine Program.safe_bind (Program.safe_attempt (Program.safe_perform
    fun store' input moved => ?_))
  obtain ⟨ok, after⟩ := holds store' input moved
  refine ⟨ok, ?_⟩
  obtain ⟨accepted, sends, db, _, answered, refused⟩ := exec_serve
    ⟨creds, .sendText (toChatId phone) message, session, some recipient⟩ rfl input store'
  have ends := after accepted _ sends db
  cases accepted with
  | true =>
    obtain ⟨response, reply⟩ := answered rfl
    rw [reply]
    exact ends.1 rfl response
  | false =>
    obtain ⟨error, reply⟩ := refused rfl
    rw [reply]
    exact ends.2 rfl _

/-- The reply of a service call, put into the type of all replies. -/
theorem safe_reply {α β : Type} {program : Svc α} {reply : α → β}
    {post : Except Err β → Store → Prop} {store : Store}
    (holds : program.Safe exec around (fun result store' => post (result.map reply) store') store) :
    (program >>= fun value => Program.ret (reply value)).Safe exec around post store := by
  refine Program.safe_bind (Program.safe_mono (fun result store' ends => ?_) holds)
  cases result with
  | ok value => exact ends
  | error error => exact ends

/-- The lookup of a broadcast by its id and its workspace. -/
def pinned (id : Uuid) (workspaceId : Option Uuid) (broadcast : Broadcast) : Bool :=
  broadcast.id == id && Svc.whereIs workspaceId broadcast.workspaceId

/-- The answer of the lookup. -/
def found : Option Broadcast → Svc Broadcast
  | none => .throw (.notFound "Broadcast not found")
  | some broadcast => return broadcast

theorem findOne_bind {β : Type} (id : Uuid) (workspaceId : Option Uuid) (userId : Uuid)
    (rest : Broadcast → Svc β) :
    BroadcastsService.findOne id workspaceId userId >>= rest =
      WorkspacesService.assertMember workspaceId userId >>= fun _ =>
        Svc.findOne .broadcasts (pinned id workspaceId) >>= fun row => found row >>= rest := by
  unfold BroadcastsService.findOne
  simp only [Program.bind_assoc]
  rfl

/-- The rule of the lookup: the rest is met with the invariant, and with a row that is stored at
that moment. -/
theorem safe_pinned_bind {quiet : Call → Prop} {inv : Store → Prop}
    (stable : Program.Stable exec around quiet inv)
    (reads : ∀ call : Call, call.reads = true → quiet call) {β : Type} {id : Uuid}
    {workspaceId : Option Uuid} {rest : Broadcast → Svc β} {post : Except Err β → Store → Prop}
    {store : Store} (holds : inv store)
    (fails : ∀ error store', inv store' → post (.error error) store')
    (continues : ∀ broadcast store', inv store' → broadcast ∈ store'.broadcasts →
      broadcast.id = id → (rest broadcast).Safe exec around post store') :
    (Svc.findOne .broadcasts (pinned id workspaceId) >>= fun row => found row >>= rest).Safe exec
      around post store := by
  refine safe_findOne_bind stable (reads _ rfl) holds fails fun store' kept => ?_
  cases row : (store'.db .broadcasts).find? (pinned id workspaceId) with
  | none => exact fails _ store' kept
  | some broadcast =>
    have hit := List.find?_some row
    simp only [pinned, Bool.and_eq_true, beq_iff_eq] at hit
    exact continues broadcast store' kept (List.mem_of_find?_eq_some row) hit.1

/-- The rule of loading a broadcast. -/
theorem safe_load_bind {quiet : Call → Prop} {inv : Store → Prop}
    (stable : Program.Stable exec around quiet inv)
    (reads : ∀ call : Call, call.reads = true → quiet call) {β : Type} {id : Uuid}
    {workspaceId : Option Uuid} {userId : Uuid} {rest : Broadcast → Svc β}
    {post : Except Err β → Store → Prop} {store : Store} (holds : inv store)
    (fails : ∀ error store', inv store' → post (.error error) store')
    (continues : ∀ broadcast store', inv store' → broadcast ∈ store'.broadcasts →
      broadcast.id = id → (rest broadcast).Safe exec around post store') :
    (BroadcastsService.findOne id workspaceId userId >>= rest).Safe exec around post store := by
  rw [findOne_bind]
  exact Program.safe_stable_bind stable
    (calls_of_reads (WorkspacesService.assertMember_reads _ _) reads) holds fails
    fun _ _ kept => safe_pinned_bind stable reads kept fails continues

/-- The rule of a service call that checks the role first. -/
theorem safe_managed_bind {quiet : Call → Prop} {inv : Store → Prop}
    (stable : Program.Stable exec around quiet inv)
    (reads : ∀ call : Call, call.reads = true → quiet call) {β : Type} {id : Uuid}
    {workspaceId : Option Uuid} {userId : Uuid} {roles : List String} {rest : Broadcast → Svc β}
    {post : Except Err β → Store → Prop} {store : Store} (holds : inv store)
    (fails : ∀ error store', inv store' → post (.error error) store')
    (continues : ∀ broadcast store', inv store' → broadcast ∈ store'.broadcasts →
      broadcast.id = id → (rest broadcast).Safe exec around post store') :
    (WorkspacesService.assertRole workspaceId userId roles >>= fun _ =>
      BroadcastsService.findOne id workspaceId userId >>= rest).Safe exec around post store :=
  Program.safe_stable_bind stable
    (calls_of_reads (WorkspacesService.assertRole_reads _ _ _) reads) holds fails
    fun _ _ kept => safe_load_bind stable reads kept fails continues

end Rules

/-! ### A small workspace -/

namespace Example

def broadcast : Broadcast :=
  ⟨"b", "w", "s", "news", "hello", .draft, 3000, 2, 0, 0, none, none, none, 0⟩

def recipient (id : Uuid) : BroadcastRecipient := ⟨id, "b", "62" ++ id, [], .pending, none, none⟩

/-- A workspace with one owner, one session and one broadcast to two recipients. -/
def db : Db
  | .users => [⟨"u", "Ann", "ann@example.com", "", true⟩]
  | .workspaces => [⟨"w", "shop", "u", "http://openwa", "key", true⟩]
  | .members => [⟨"w", "u", "owner"⟩]
  | .sessions => [⟨"s", "w", "line", "line", none, .connected, none⟩]
  | .broadcasts => [broadcast]
  | .recipients => [recipient "1", recipient "2"]
  | _ => []

def store : Store := ⟨db, [], 0, [], fun _ _ => none⟩

/-- Start a request and run it alone to its end. -/
def alone (request : Request) (calls : Nat) : List Move :=
  .start (.call 0) request fine :: List.replicate calls (.resume (.call 0) fine)

/-- Some calls of the worker, each with an id of its own for a row it may insert. -/
def works (calls : Nat) : List Move :=
  (List.range calls).map fun index =>
    .resume .worker { fine with ids := fun _ => String.ofList (List.replicate index 'i') }

/-- Start the worker on a job of the broadcast. -/
def begin_ (jobId : Nat) : Move := .start .worker ⟨jobId, ⟨"b"⟩⟩ fine

def send : List Move := alone (.send "b" (some "w") "u") 5

def cancel : List Move := alone (.cancel "b" (some "w") "u") 4

section Reached

variable {start : Store} {moves : List Move} {pool : Pool}

/-- The pool a run reaches. -/
def reach (start : Store) (moves : List Move)
    (ran : ((system helpers).run (idle start) moves).isSome = true) : Pool :=
  Option.get _ ran

theorem reached (ran : ((system helpers).run (idle start) moves).isSome = true) :
    (system helpers).run (idle start) moves = some (reach start moves ran) :=
  (Option.some_get ran).symm

/-- What is checked of the end of a run holds of the pool it reaches. -/
theorem at_end (reached : (system helpers).run (idle start) moves = some pool) (shows : Pool → Bool)
    (checked : ((system helpers).run (idle start) moves).all shows = true) : shows pool = true := by
  rw [reached] at checked
  exact checked

/-- The slots a run does not use stay free. -/
theorem others_free (reached : (system helpers).run (idle start) moves = some pool)
    (only : ∀ move ∈ moves, move.slot = .worker ∨ move.slot = .call 0) {number : Nat}
    (other : number ≠ 0) : pool.thread (.call number) = none := by
  refine (system helpers).run_other (fun move member same => ?_) reached
  rcases only move member with worker | zero
  · cases same.symm.trans worker
  · exact other (Slot.call.inj (same.symm.trans zero))

/-- Nothing is in flight when the two slots a run uses are free. -/
theorem at_rest (reached : (system helpers).run (idle start) moves = some pool)
    (only : ∀ move ∈ moves, move.slot = .worker ∨ move.slot = .call 0)
    (free : ((system helpers).run (idle start) moves).all (fun pool =>
      (pool.thread .worker).isNone && (pool.thread (.call 0)).isNone) = true) (slot : Slot) :
    pool.thread slot = none := by
  have here := at_end reached _ free
  simp only [Bool.and_eq_true, Option.isNone_iff_eq_none] at here
  cases slot with
  | worker => exact here.1
  | call number =>
    by_cases zero : number = 0
    · rw [zero]
      exact here.2
    · exact others_free reached only zero

end Reached

end Example

end WaAutomation
