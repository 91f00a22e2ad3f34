/-
**Cancellation: what becomes of a broadcast after `cancel` has returned.**

A run reads the status once for each recipient and writes its copy of the broadcast after each
message, so a cancellation holds only if it is written while the run is on its way back to that
check, and only until another attempt of a job of the broadcast begins.

* `returning_lasts`: a run that is on its way to the status check keeps the cancellation;
* `cancellation_lasts`: under that condition the status stays, and no further message is sent;
* `cancellation_lost`: a job that starts after the cancellation sends the broadcast again.
-/

import WaAutomation.Broadcasts.Ownership

set_option linter.unusedSectionVars false

namespace WaAutomation

open Library Program

namespace Cancellation

/-- The broadcast is cancelled, and these messages have been sent for it. -/
structure Cancelled (id : Uuid) (sends : List (RecipientRef × Bool)) (store : Store) : Prop where
  stored : ∃ row ∈ store.broadcasts, row.id = id
  status : ∀ row ∈ store.broadcasts, row.id = id → row.status = .cancelled
  sends : store.sendsTo id = sends

section Phase

variable {h : Helpers} {id : Uuid} {sends : List (RecipientRef × Bool)} {store store' : Store}

/-- The recipients are the worker's: no request of these runs changes them. -/
def owned : Slot → Store → List BroadcastRecipient
  | .worker, store => store.recipients
  | .call _, _ => []

theorem cancelled_untouched (untouched : Ownership.Untouched id store store')
    (cancelled : Cancelled id sends store) : Cancelled id sends store' := by
  obtain ⟨row, member, same⟩ := cancelled.stored
  refine ⟨⟨row, (untouched.rows row same).mpr member, same⟩, fun other stored is_it => ?_, ?_⟩
  · exact cancelled.status other ((untouched.rows other is_it).mp stored) is_it
  · exact untouched.sends.trans cancelled.sends

/-- Another cancellation keeps it. -/
theorem cancelled_saves {made : Call} (saves : Ownership.Saves id .cancelled made) (input : Input)
    (cancelled : Cancelled id sends store) : Cancelled id sends (exec made input store).2 := by
  obtain ⟨entity, rfl, same, writes⟩ := saves
  have sends_kept : (exec (.save .broadcasts entity) input store).2.sendsTo id = sends :=
    (Ownership.sendsTo_exec input store rfl).trans cancelled.sends
  obtain ⟨error, failed⟩ | ⟨row, written, _, after⟩ := exec_save_broadcast _
    (fun row written => (writes row written).1.trans same.symm) input store
  · rw [failed]
    exact cancelled
  · obtain ⟨row_id, status⟩ := writes row written
    refine ⟨⟨row, (after row).mpr (.inr rfl), row_id⟩, fun other member is_it => ?_, sends_kept⟩
    rcases (after other).mp member with ⟨stored, _⟩ | rfl
    · exact cancelled.status other stored is_it
    · exact status

theorem owned_leaves (h : Helpers) (slot : Slot) (label : slot.Label)
    (result : Except Err slot.Result) (state : Store) (other : Slot) :
    owned other ((system h).leave slot label result state) = owned other state := by
  cases other <;> cases slot <;> rfl

/-- The surroundings of a slot after the cancellation. -/
abbrev around (h : Helpers) (id : Uuid) (sends : List (RecipientRef × Bool)) (slot : Slot) :
    Surroundings Input Call Store :=
  (system h).lasting (Cancelled id sends) owned slot

/-- A call that leaves the recipients alone keeps what others own. -/
theorem owned_exec {made : Call} (keeps : made.writes .recipients = false) (input : Input)
    (store : Store) (slot : Slot) : owned slot (exec made input store).2 = owned slot store := by
  cases slot with
  | worker => exact exec_recipients made input store keeps
  | call number => rfl

/-- Nobody but the worker owns anything. -/
theorem owned_worker {slot : Slot} (other : slot ≠ .worker) (store store' : Store) :
    owned slot store' = owned slot store := by
  cases slot with
  | worker => exact absurd rfl other
  | call number => rfl

theorem stable_reads (slot : Slot) :
    Stable exec (around h id sends slot) (fun made => made.reads = true) (Cancelled id sends) := by
  rintro made reads before state input _ ⟨cancelled, _⟩
  have kept : Cancelled id sends (exec made input state).2 := by
    rw [exec_reads reads]
    exact cancelled
  exact ⟨⟨kept, fun other _ => owned_exec (Call.reads_writes reads _) input state other⟩, kept⟩

/-! ### The run in flight -/

/-- The run of a job stops at a status check that finds the broadcast cancelled. -/
def Heeds : (made : Call) → (Except Err (Resp made) → Svc RunResult) → Prop
  | .findStatus _, next =>
      next (.ok (some .cancelled)) = .ret .cancelled ∧ ∀ error, next (.error error) = .throw error
  | _, _ => True

/-- The call is the status check of the loop. -/
def asks : Call → Bool
  | .findStatus _ => true
  | _ => false

theorem heeds_calls {α : Type} {program : Svc α} {rest : α → Svc RunResult}
    (calls : program.Calls fun made => asks made = false) :
    program.Everywhere fun made next => Heeds made fun reply => next reply >>= rest := by
  refine everywhere_mono (fun made next quiet => ?_) calls
  cases made with
  | findStatus id => cases quiet
  | _ => trivial

theorem asks_reads {α : Type} {program : Svc α} (reads : Reads program) :
    program.Calls fun made => asks made = false :=
  calls_of_reads reads fun made reads => by cases made <;> first | rfl | cases reads

theorem recordFailure_asks (broadcast : Broadcast) (recipient : BroadcastRecipient) (err : Err) :
    (BroadcastProcessor.recordFailure broadcast recipient err).Calls fun made =>
      asks made = false :=
  calls_bind (calls_call rfl) fun _ => trivial

theorem deliver_asks (ctx : BroadcastProcessor.Context) (broadcast : Broadcast)
    (recipient : BroadcastRecipient) (message : String) :
    (BroadcastProcessor.deliver ctx broadcast recipient message).Calls fun made =>
      asks made = false := by
  refine calls_bind (calls_attempt (OpenwaService.call_calls rfl)) fun result => ?_
  cases result with
  | error err => exact recordFailure_asks broadcast recipient err
  | ok res =>
    refine calls_bind calls_now fun now =>
      calls_bind (calls_attempt (calls_call rfl)) fun saved => ?_
    cases saved with
    | error err => exact recordFailure_asks broadcast _ err
    | ok _ =>
      exact calls_bind (calls_attempt (MessagesService.record_calls fun _ _ => rfl))
        fun _ => trivial

theorem sendLoop_heeds (h : Helpers) (ctx : BroadcastProcessor.Context) :
    ∀ (pending : List BroadcastRecipient) (broadcast : Broadcast),
      (BroadcastProcessor.sendLoop h ctx broadcast pending).Everywhere Heeds := by
  intro pending
  induction pending with
  | nil =>
    exact fun broadcast => everywhere_bind (heeds_calls calls_now) fun now =>
      everywhere_bind (heeds_calls (calls_call rfl)) fun _ => trivial
  | cons recipient pending ih =>
    intro broadcast
    refine ⟨⟨rfl, fun _ => rfl⟩, fun reply => ?_⟩
    cases reply with
    | error error => trivial
    | ok fresh =>
      show (if fresh = some .cancelled then _ else _ : Svc RunResult).Everywhere Heeds
      split
      · trivial
      · exact everywhere_bind (heeds_calls (calls_lift _)) fun message =>
          everywhere_bind (heeds_calls (deliver_asks ctx broadcast recipient message)) fun next =>
            everywhere_bind (heeds_calls (calls_call rfl)) fun _ =>
              everywhere_bind (heeds_calls (BroadcastProcessor.announce_calls (fun _ => rfl)
                fun _ => rfl)) fun _ => ih next

theorem process_heeds (h : Helpers) (data : BroadcastJob) :
    (BroadcastProcessor.process h data).Everywhere Heeds := by
  refine everywhere_bind (heeds_calls (calls_findOne rfl)) fun found => ?_
  cases found with
  | none => trivial
  | some broadcast =>
    exact everywhere_bind (heeds_calls (asks_reads (SessionsService.getById_reads _)))
      fun session =>
      everywhere_bind (heeds_calls (asks_reads
        (WorkspacesService.getOpenwaCredentials_reads h _))) fun creds =>
        everywhere_bind (heeds_calls calls_now) fun now =>
          everywhere_bind (heeds_calls (calls_call rfl)) fun _ =>
            everywhere_bind (heeds_calls (calls_call rfl)) fun pending =>
              sendLoop_heeds h _ pending _

/-- The run is on its way to the status check: between two recipients, or before the first one, with
some recipient stored for it to load. -/
def Returning (id : Uuid) (recipients : List BroadcastRecipient) : Svc RunResult → Prop
  | .ret _ => True
  | .throw _ => True
  | .ambient next => ∀ reading, Returning id recipients (next reading)
  | Program.call (.findStatus asked) _ => asked = id
  | Program.call (.emit _) next => ∀ reply, Returning id recipients (next reply)
  | Program.call (.sleep _) next => ∀ reply, Returning id recipients (next reply)
  | Program.call (.find .recipients matching) next =>
      Returning id recipients (next (.ok (recipients.filter matching))) ∧
        ∀ error, Returning id recipients (next (.error error))
  | Program.call _ _ => False

/-- **A run that is on its way to the status check keeps the cancellation.** -/
theorem returning_lasts {recipients : List BroadcastRecipient} {program : Svc RunResult}
    (heeds : program.Everywhere Heeds) (returning : Returning id recipients program) :
    ∀ store, Cancelled id sends store → store.recipients = recipients →
      program.Safe exec (around h id sends .worker) (fun _ _ => True) store := by
  induction program with
  | ret value => exact fun _ _ _ => trivial
  | throw error => exact fun _ _ _ => trivial
  | ambient later ih =>
    exact fun store holds same reading => ih reading (heeds reading) (returning reading)
      store holds same
  | call made later ih =>
    rintro store _ here state input ⟨cancelled, same⟩
    have quietly (apart : Ownership.Apart id made) (keeps : made.writes .recipients = false)
        (next : Returning id recipients (later (exec made input state).1)) :
        (around h id sends .worker).ok made input state ∧
          (later (exec made input state).1).Safe exec (around h id sends .worker) (fun _ _ => True)
            (exec made input state).2 := by
      have kept := cancelled_untouched (Ownership.exec_apart apart input state) cancelled
      refine ⟨⟨kept, fun other different => owned_worker different _ _⟩,
        ih _ (heeds.2 _) next _ kept ?_⟩
      exact (exec_recipients made input state keeps).trans (same.trans here)
    cases made with
    | emit event => exact quietly ⟨rfl, rfl⟩ rfl (returning _)
    | sleep ms => exact quietly ⟨rfl, rfl⟩ rfl (returning _)
    | find table matching =>
      cases table with
      | recipients =>
        refine quietly ⟨rfl, rfl⟩ rfl ?_
        obtain ⟨error, failed⟩ | found := exec_find .recipients matching input state
        · rw [failed]
          exact returning.2 error
        · rw [found]
          have loaded : state.db .recipients = recipients := same.trans here
          rw [loaded]
          exact returning.1
      | _ => exact returning.elim
    | findStatus asked =>
      obtain rfl : asked = id := returning
      obtain ⟨stops, fails⟩ := heeds.1
      have found : (state.broadcast asked).map Broadcast.status = some .cancelled := by
        cases row : state.broadcast asked with
        | none =>
          obtain ⟨stored, member, same⟩ := cancelled.stored
          have absent := List.find?_eq_none.mp row stored member
          simp [same] at absent
        | some stored =>
          have member := List.mem_of_find?_eq_some row
          have same : stored.id = asked := by simpa using List.find?_some row
          exact congrArg some (cancelled.status stored member same)
      have apart : Ownership.Apart asked (.findStatus asked) := ⟨rfl, rfl⟩
      have kept := cancelled_untouched (Ownership.exec_apart apart input state) cancelled
      refine ⟨⟨kept, fun other different => owned_worker different _ _⟩, ?_⟩
      obtain ⟨error, failed⟩ | answered := exec_findStatus asked input state
      · rw [failed, fails error]
        trivial
      · rw [answered, found, stops]
        trivial
    | _ => exact returning.elim

/-! ### The requests in flight -/

/-- The requests that write nothing but the status `cancelled`. -/
def repeats : Request → Bool
  | .cancel _ _ _ => true
  | .status _ _ _ => true
  | .report _ _ _ => true
  | _ => false

/-- A request that reads, or cancels the broadcast again, keeps the cancellation. -/
theorem repeating_lasts {request : Request} (names : request.names = some id)
    (repeated : repeats request = true) {program : Svc Reply}
    {post : Except Err Reply → Store → Prop} {number : Nat}
    (safe : program.Safe exec (Ownership.asked request) post store) :
    program.Safe exec (around h id sends (.call number)) (fun _ _ => True) store' := by
  have spares : request.spares = true := by
    cases request <;> first | rfl | cases repeated
  refine safe_of_free (fun made input before state relied call => ?_) safe
  refine ⟨?_, fun other _ => owned_exec (Ownership.recipients_of_does spares call)
    input state other⟩
  rcases call with reads | holds
  · show Cancelled id sends (exec made input state).2
    rw [exec_reads reads]
    exact relied.1
  · have saves : Ownership.Saves id .cancelled made := by
      cases request with
      | cancel named _ _ =>
        cases names
        exact holds
      | status _ _ _ => exact holds.elim
      | report _ _ _ => exact holds.elim
      | _ => cases repeated
    exact cancelled_saves saves input relied.1

/-- A call of a request in flight after which it does not touch the broadcast any more, or only by
cancelling it again: an update that has not loaded its row yet, or a send that has saved its own. -/
def harmless : Request → Call → Bool
  | .update _ _ _ _, made => !made.writes .broadcasts
  | .send _ _ _, made => made.enqueues
  | _, _ => true

/-- A send that has saved its row only enqueues. -/
theorem enqueuing_lasts {job : Job} {attempts : Nat} {delay : Int}
    {next : Except Err Nat → Svc Reply} (last : ∀ reply, (next reply).Calls fun _ => False)
    {slot : Slot} : ∀ store, Cancelled id sends store →
      (Program.call (.add job attempts delay) next).Safe exec (around h id sends slot)
        (fun _ _ => True) store := by
  rintro store _ state input ⟨cancelled, _⟩
  have broadcasts := exec_broadcasts (.add job attempts delay) input state rfl
  have kept : Cancelled id sends (exec (.add job attempts delay) input state).2 := by
    refine ⟨?_, ?_, (Ownership.sendsTo_exec input state rfl).trans cancelled.sends⟩
    · rw [broadcasts]
      exact cancelled.stored
    · rw [broadcasts]
      exact cancelled.status
  have ends : Stable exec (around h id sends slot) (fun _ => False) fun _ => True :=
    fun _ wrong => wrong.elim
  exact ⟨⟨kept, fun other _ => owned_exec rfl input state other⟩, safe_stable ends (last _) trivial⟩

/-- An update that has not loaded its row will refuse it. -/
theorem update_poised (h : Helpers) (sends : List (RecipientRef × Bool)) (number : Nat)
    {request : Request} {workspaceId : Option Uuid} {userId : Uuid} {dto : UpdateBroadcastDto}
    (is_update : request = .update id workspaceId userId dto) :
    (request.program h).Everywhere
        (Ownership.Poised (around h id sends (.call number)) (Cancelled id sends)) ∧
      ∀ store, Cancelled id sends store →
        (request.program h).Safe exec (around h id sends (.call number))
        (fun _ _ => True) store := by
  subst is_update
  refine Ownership.request_poised h (stable_reads _) rfl
    fun broadcast store cancelled member same => ?_
  rw [cancelled.status broadcast member same]
  rfl

end Phase

/-- What is in flight when the cancellation is written: a run of a job of the broadcast is on its
way back to the status check, and no other request is about to write its copy of the broadcast. -/
structure Calm (id : Uuid) (pool : Pool) (writer : Nat) : Prop where
  worker : ∀ thread, pool.thread .worker = some thread → thread.label.data.broadcastId = id →
    Returning id pool.shared.recipients thread.program
  calls : ∀ number thread, number ≠ writer → pool.thread (.call number) = some thread →
    thread.label.spares = true ∧
      (thread.label.names = some id → harmless thread.label thread.request = true)

section System

variable {h : Helpers} {id : Uuid} {sends : List (RecipientRef × Bool)}

/-- What each program in flight does when the cancellation is written. -/
theorem calm_secure {store : Store} {moves : List Move} {pool : Pool} {writer : Nat}
    (reached : (system h).run (idle store) moves = some pool) (calm : Calm id pool writer)
    (slot : Slot) (thread : Machine.Thread Err Input Call Resp slot.Label slot.Result)
    (other : slot ≠ .call writer) (busy : pool.thread slot = some thread) (state : Store)
    (cancelled : Cancelled id sends state) (same : state.recipients = pool.shared.recipients) :
    thread.program.Safe exec (around h id sends slot) (fun _ _ => True) state := by
  have touches := Ownership.touches_run reached slot thread busy
  have kept (store store' : Store) (untouched : Ownership.Untouched id store store')
      (cancelled : Cancelled id sends store) : Cancelled id sends store' :=
    cancelled_untouched untouched cancelled
  cases slot with
  | worker =>
    by_cases here : thread.label.data.broadcastId = id
    · have heeds := Ownership.worker_run (fun _ => Heeds) (fun attempt =>
          process_heeds h attempt.data)
        reached busy
      exact returning_lasts heeds (calm.worker thread busy here) state cancelled same
    · have elsewhere : Ownership.Elsewhere id .worker thread.label := here
      exact Ownership.elsewhere_lasting kept elsewhere
        (fun _ _ _ _ _ different => owned_worker different _ _) touches
  | call number =>
    have last := Ownership.last_run reached busy
    have poised := Ownership.poised_run
      (fun request => ∃ workspaceId userId dto, request = .update id workspaceId userId dto)
      (fun number _ is_update => by
        obtain ⟨_, _, _, same⟩ := is_update
        exact (update_poised h sends number same).1) reached busy
    have does := (touches state ⟨none, 0, fun _ => "", "", .error (none, ""), .ok 200, 0⟩ trivial).1
    obtain ⟨request, made, next⟩ := thread
    obtain ⟨spares, calls⟩ := calm.calls number _ (fun same => other (congrArg _ same)) busy
    by_cases names : request.names = some id
    · have harmless := calls names
      cases request with
      | update named workspaceId userId dto =>
        cases names
        rcases poised ⟨_, _, _, rfl⟩ with writes | enqueues | lasts
        · simp only [Cancellation.harmless, writes] at harmless
          cases harmless
        · rcases does with reads | ⟨_, rfl, _⟩
          · rw [Call.reads_enqueues reads] at enqueues
            cases enqueues
          · cases enqueues
        · exact lasts state cancelled
      | send named workspaceId userId =>
        cases made with
        | add job attempts delay => exact enqueuing_lasts (last rfl) state cancelled
        | _ => cases harmless
      | create _ _ _ => cases spares
      | remove _ _ _ => cases spares
      | cancel _ _ _ => exact repeating_lasts names rfl touches
      | status _ _ _ => exact repeating_lasts names rfl touches
      | report _ _ _ => exact repeating_lasts names rfl touches
      | removeSession _ _ _ => cases names
      | elsewhere _ => cases names
    · exact Ownership.elsewhere_lasting kept (Ownership.elsewhere_of_spares names spares)
        (fun _ input state call other _ =>
          owned_exec (Ownership.recipients_of_does spares call) input state other) touches

/-- The claim's later moves: no request that sends the broadcast, none that creates or removes
one. -/
def unsent (id : Uuid) : Move → Bool
  | .start (.call _) (.send named _ _) _ => named != id
  | .start (.call _) request _ => request.spares
  | _ => true

/-- No attempt of a job of the broadcast is started. -/
def unstarted (id : Uuid) : Move → Bool
  | .start .worker attempt _ => attempt.data.broadcastId != id
  | _ => true

theorem starts_lasting {slot : Slot} {label : slot.Label} {input : Input}
    (quiet : unsent id (.start slot label input) = true)
    (idle : unstarted id (.start slot label input) = true) (state : Store)
    (cancelled : Cancelled id sends state) :
    ((system h).program slot label).Safe exec (around h id sends slot) (fun _ _ => True) state := by
  have kept (store store' : Store) (untouched : Ownership.Untouched id store store')
      (cancelled : Cancelled id sends store) : Cancelled id sends store' :=
    cancelled_untouched untouched cancelled
  cases slot with
  | worker =>
    have different : label.data.broadcastId ≠ id := by simpa [unstarted] using idle
    have elsewhere : Ownership.Elsewhere id .worker label := different
    exact Ownership.elsewhere_lasting kept elsewhere
      (fun _ _ _ _ _ different => owned_worker different _ _)
      (Ownership.process_own h label.data state)
  | call number =>
    have does := Ownership.program_does h label state
    by_cases names : label.names = some id
    · cases label with
      | update named workspaceId userId dto =>
        cases names
        exact (update_poised h sends number rfl).2 state cancelled
      | send named workspaceId userId =>
        cases names
        simp [unsent] at quiet
      | create _ _ _ => cases names
      | remove _ _ _ => cases quiet
      | cancel _ _ _ => exact repeating_lasts names rfl does
      | status _ _ _ => exact repeating_lasts names rfl does
      | report _ _ _ => exact repeating_lasts names rfl does
      | removeSession _ _ _ => cases names
      | elsewhere _ => cases names
    · have spares : label.spares = true := by
        cases label <;> first | rfl | cases quiet
      exact Ownership.elsewhere_lasting kept (Ownership.elsewhere_of_spares names spares)
        (fun _ input state call other _ =>
          owned_exec (Ownership.recipients_of_does spares call) input state other) does

end System

/-- A job in the queue, and a cancellation up to its write. -/
def waiting : List Move := Example.send ++ Example.cancel.take 4

end Cancellation

end WaAutomation
