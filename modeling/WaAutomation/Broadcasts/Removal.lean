/-
**Removal: what becomes of a broadcast after `remove` has returned.**

A save of a broadcast whose row is gone inserts it again, and a status check that finds no row takes
it for one that is not cancelled. A run survives the removal without bringing the broadcast back
only where the next thing it writes is a recipient, which the foreign key refuses, or before it has
loaded anything.

* `deliver_perishes`: a run that is sending a message ends when it records the verdict;
* `removal_lasts`: under that condition broadcast and recipients stay gone;
* `removal_lost`: a run that saves its copy after the removal brings the broadcast back.
-/

import WaAutomation.Broadcasts.Ownership

set_option linter.unusedSectionVars false

namespace WaAutomation

open Library Program

namespace Removal

/-- The broadcast and its recipients are gone, and no more than a few messages were sent since. -/
structure Removed (id : Uuid) (before : List (RecipientRef × Bool)) (budget : Nat) (store : Store) :
    Prop where
  rows : ∀ row ∈ store.broadcasts, row.id ≠ id
  recipients : ∀ recipient ∈ store.recipients, recipient.broadcastId ≠ id
  sends : ∃ more, store.sendsTo id = before ++ more ∧ more.length ≤ budget

/-- The messages are the worker's: no request sends one. -/
def owned (id : Uuid) : Slot → Store → List (RecipientRef × Bool)
  | .worker, store => store.sendsTo id
  | .call _, _ => []

section Phase

variable {h : Helpers} {id : Uuid} {before : List (RecipientRef × Bool)} {budget : Nat}
  {store store' : Store}

theorem removed_untouched (untouched : Ownership.Untouched id store store')
    (removed : Removed id before budget store) : Removed id before budget store' := by
  refine ⟨fun row member same => ?_, fun recipient member parent => ?_, ?_⟩
  · exact removed.rows row ((untouched.rows row same).mp member) same
  · exact removed.recipients recipient (untouched.recipients recipient member parent) parent
  · rw [untouched.sends]
    exact removed.sends

theorem removed_leaves (h : Helpers) (slot : Slot) (label : slot.Label)
    (result : Except Err slot.Result) (state : Store) (removed : Removed id before budget state) :
    Removed id before budget ((system h).leave slot label result state) := by
  cases slot with
  | worker => exact ⟨removed.rows, removed.recipients, removed.sends⟩
  | call number => exact removed

theorem owned_leaves (h : Helpers) (slot : Slot) (label : slot.Label)
    (result : Except Err slot.Result) (state : Store) (other : Slot) :
    owned id other ((system h).leave slot label result state) = owned id other state := by
  cases other <;> cases slot <;> rfl

/-- The surroundings of a slot after the removal. -/
abbrev around (h : Helpers) (id : Uuid) (before : List (RecipientRef × Bool)) (budget : Nat)
    (slot : Slot) : Surroundings Input Call Store :=
  (system h).lasting (Removed id before budget) (owned id) slot

/-- A call that sends no message keeps what others own. -/
theorem owned_exec {made : Call} (silent : made.serves = none) (input : Input) (store : Store)
    (slot : Slot) : owned id slot (exec made input store).2 = owned id slot store := by
  cases slot with
  | worker => exact Ownership.sendsTo_exec input store silent
  | call number => rfl

/-- Nobody but the worker owns anything. -/
theorem owned_worker {slot : Slot} (other : slot ≠ .worker) (store store' : Store) :
    owned id slot store' = owned id slot store := by
  cases slot with
  | worker => exact absurd rfl other
  | call number => rfl

theorem stable_reads (slot : Slot) : Stable exec (around h id before budget slot)
    (fun made => made.reads = true) (Removed id before budget) := by
  rintro made reads _ state input _ ⟨removed, _⟩
  have kept : Removed id before budget (exec made input state).2 := by
    rw [exec_reads reads]
    exact removed
  have silent : made.serves = none := by
    cases made <;> first | rfl | cases reads
  exact ⟨⟨kept, fun other _ => owned_exec silent input state other⟩, kept⟩

/-! ### The run in flight -/

/-- The program does not come to its end. -/
def Fails {α : Type} (result : Except Err α) (_ : Store) : Prop := ∃ error, result = .error error

/-- The rule of recording a verdict: the foreign key refuses the recipient. -/
theorem save_perishes {recipient : BroadcastRecipient} (parent : recipient.broadcastId = id)
    {post : Except Err Unit → Store → Prop}
    (refused : ∀ error store', Removed id before budget store' → post (.error error) store') :
    (Svc.save .recipients recipient).Safe exec (around h id before budget .worker) post store := by
  refine safe_perform fun state input moved => ?_
  obtain ⟨removed, _⟩ := moved
  obtain ⟨error, failed⟩ | ⟨_, ⟨broadcast, member, same⟩, _⟩ :=
    exec_save_recipient recipient input state
  · refine ⟨⟨?_, fun other different => owned_worker different _ _⟩, ?_⟩
    · show Removed id before budget (exec _ input state).2
      rw [failed]
      exact removed
    · rw [failed]
      exact refused error state removed
  · exact absurd (same.trans parent) (removed.rows broadcast member)

theorem recordFailure_perishes {recipient : BroadcastRecipient}
    (parent : recipient.broadcastId = id)
    (broadcast : Broadcast) (err : Err) :
    (BroadcastProcessor.recordFailure broadcast recipient err).Safe exec
      (around h id before budget .worker) Fails store :=
  safe_bind (save_perishes
    (show (BroadcastProcessor.recipientFailed recipient err.message).broadcastId = id from parent)
    fun error _ _ => ⟨error, rfl⟩)

theorem recordSuccess_perishes {recipient : BroadcastRecipient}
    (parent : recipient.broadcastId = id)
    (ctx : BroadcastProcessor.Context) (broadcast : Broadcast) (message : String)
    (res : OpenwaResponse) :
    (BroadcastProcessor.recordSuccess ctx broadcast recipient message res).Safe exec
      (around h id before budget .worker) Fails store := by
  refine safe_now fun now => ?_
  have kept : (BroadcastProcessor.recipientSent recipient now).broadcastId = id := parent
  exact safe_bind (safe_attempt (save_perishes kept fun error _ _ =>
    recordFailure_perishes kept broadcast error))

/-- **A run that is sending a message ends when it records the verdict.** -/
theorem deliver_perishes {recipient : BroadcastRecipient} (parent : recipient.broadcastId = id)
    (ctx : BroadcastProcessor.Context) (broadcast : Broadcast) (message : String)
    (room : 1 ≤ budget) (none_yet : store.sendsTo id = before) :
    (BroadcastProcessor.deliver ctx broadcast recipient message).Safe exec
      (around h id before budget .worker) Fails store := by
  refine safe_bind (safe_attempt (safe_sendText fun state input moved => ?_))
  obtain ⟨removed, same⟩ := moved
  refine ⟨⟨?_, fun other different => owned_worker different _ _⟩, fun accepted after _ _ =>
    ⟨?_, ?_⟩⟩
  · obtain ⟨accepted, sends, db, _⟩ := exec_serve ⟨ctx.creds,
      .sendText (toChatId recipient.phone) message, ctx.session.ref,
      some ⟨recipient.id, recipient.broadcastId⟩⟩ rfl input state
    refine ⟨fun row member => ?_, fun other member => ?_,
      [(⟨recipient.id, recipient.broadcastId⟩, accepted)], ?_, room⟩
    · change row ∈ (exec _ input state).2.db .broadcasts at member
      rw [db] at member
      exact removed.rows row member
    · change other ∈ (exec _ input state).2.db .recipients at member
      rw [db] at member
      exact removed.recipients other member
    · have sent_before : state.sendsTo id = before := Eq.trans same none_yet
      show List.filter _ (exec _ input state).2.sends = _
      rw [sends, List.filter_append, ← sent_before, List.filter_cons_of_pos (by simpa using parent)]
      rfl
  · exact fun _ res => recordSuccess_perishes parent ctx broadcast message res
  · exact fun _ err => recordFailure_perishes parent broadcast err

/-- A run waiting at its message, at the record of its verdict, or at its first lookup, ends
there. -/
def Halting (h : Helpers) (id : Uuid) (before : List (RecipientRef × Bool)) (budget : Nat)
    {α : Type} (post : Except Err α → Store → Prop) :
    (made : Call) → (Except Err (Resp made) → Svc α) → Prop
  | .openwa asked, next => ∀ recipient : RecipientRef, asked.recipient = some recipient →
      recipient.broadcastId = id → 1 ≤ budget → ∀ store : Store, store.sendsTo id = before →
        (Program.call (.openwa asked) next).Safe exec (around h id before budget .worker) post store
  | .save .recipients entity, next => entity.row.broadcastId = id → ∀ store,
      (Program.call (.save .recipients entity) next).Safe exec (around h id before budget .worker)
        post store
  | .find .broadcasts matching, next => ∀ store, Removed id before budget store →
      (Program.call (.find .broadcasts matching) next).Safe exec (around h id before budget .worker)
        post store
  | _, _ => True

theorem halting_bind {α β : Type} {made : Call} {next : Except Err (Resp made) → Svc α}
    {rest : α → Svc β} (halting : Halting h id before budget Fails made next) :
    Halting h id before budget (fun _ _ => True) made fun reply => next reply >>= rest := by
  have ends {store : Store} (safe : (Program.call made next).Safe exec
      (around h id before budget .worker) Fails store) :
      (Program.call made fun reply => next reply >>= rest).Safe exec
        (around h id before budget .worker) (fun _ _ => True) store := by
    show (Program.call made next >>= rest).Safe exec (around h id before budget .worker) _ store
    refine safe_bind (safe_mono (fun result _ fails => ?_) safe)
    obtain ⟨error, rfl⟩ := fails
    trivial
  cases made with
  | openwa asked =>
    exact fun recipient serves parent room store none_yet =>
      ends (halting recipient serves parent room store none_yet)
  | save table entity =>
    cases table with
    | recipients => exact fun parent store => ends (halting parent store)
    | _ => trivial
  | find table matching =>
    cases table with
    | broadcasts => exact fun store removed => ends (halting store removed)
    | _ => trivial
  | _ => trivial

/-- The calls at which a run ends. -/
def ending : Call → Bool
  | .openwa _ => true
  | .save .recipients _ => true
  | .find .broadcasts _ => true
  | _ => false

theorem halting_calls {α β : Type} {program : Svc α} {rest : α → Svc β}
    {post : Except Err β → Store → Prop} (calls : program.Calls fun made => ending made = false) :
    program.Everywhere fun made next =>
      Halting h id before budget post made fun reply => next reply >>= rest := by
  refine everywhere_mono (fun made next quiet => ?_) calls
  cases made with
  | openwa asked => cases quiet
  | save table entity => cases table <;> trivial
  | find table matching => cases table <;> trivial
  | _ => trivial

theorem recordFailure_halting (broadcast : Broadcast) (recipient : BroadcastRecipient) (err : Err) :
    (BroadcastProcessor.recordFailure broadcast recipient err).Everywhere
      (Halting h id before budget Fails) := by
  refine ⟨fun parent store => recordFailure_perishes parent broadcast err, fun reply => ?_⟩
  cases reply <;> trivial

theorem recordSuccess_halting (ctx : BroadcastProcessor.Context) (broadcast : Broadcast)
    (recipient : BroadcastRecipient) (message : String) (res : OpenwaResponse) :
    (BroadcastProcessor.recordSuccess ctx broadcast recipient message res).Everywhere
      (Halting h id before budget Fails) := by
  refine fun reading => ⟨fun parent store =>
    recordSuccess_perishes parent ctx broadcast message res reading, fun reply => ?_⟩
  cases reply with
  | error err => exact recordFailure_halting broadcast _ err
  | ok _ =>
    refine ⟨trivial, fun reply => ?_⟩
    cases reply <;> trivial

theorem deliver_halting (ctx : BroadcastProcessor.Context) (broadcast : Broadcast)
    (recipient : BroadcastRecipient) (message : String) :
    (BroadcastProcessor.deliver ctx broadcast recipient message).Everywhere
      (Halting h id before budget Fails) := by
  refine ⟨?_, fun reply => ?_⟩
  · rintro served serves parent room store none_yet
    cases serves
    exact deliver_perishes parent ctx broadcast message room none_yet
  · cases reply with
    | error err => exact recordFailure_halting broadcast recipient _
    | ok res => exact recordSuccess_halting ctx broadcast recipient message res

theorem sendLoop_halting (ctx : BroadcastProcessor.Context) :
    ∀ (pending : List BroadcastRecipient) (broadcast : Broadcast),
      (BroadcastProcessor.sendLoop h ctx broadcast pending).Everywhere
        (Halting h id before budget fun _ _ => True) := by
  intro pending
  induction pending with
  | nil =>
    exact fun broadcast => everywhere_bind (halting_calls calls_now) fun now =>
      everywhere_bind (halting_calls (calls_call rfl)) fun _ => trivial
  | cons recipient pending ih =>
    refine fun broadcast => everywhere_bind (halting_calls (calls_call rfl)) fun fresh => ?_
    split
    · trivial
    · exact everywhere_bind (halting_calls (calls_lift _)) fun message =>
        everywhere_bind (everywhere_mono (fun _ _ => halting_bind)
          (deliver_halting ctx broadcast recipient message)) fun next =>
          everywhere_bind (halting_calls (calls_call rfl)) fun _ =>
            everywhere_bind (halting_calls (BroadcastProcessor.announce_calls (fun _ => rfl)
              fun _ => rfl)) fun _ => ih next

/-- A run that starts after the removal finds nothing. -/
theorem process_skips (data : BroadcastJob) (same : data.broadcastId = id) (store : Store)
    (removed : Removed id before budget store) :
    (BroadcastProcessor.process h data).Safe exec (around h id before budget .worker)
      (fun _ _ => True) store := by
  refine safe_findOne_bind (stable_reads .worker) rfl removed (fun _ _ _ => trivial)
    fun after removed => ?_
  have nothing : (after.db .broadcasts).find?
      (fun broadcast => broadcast.id == data.broadcastId) = none := by
    refine List.find?_eq_none.mpr fun row member is_it => ?_
    exact removed.rows row member (by simpa [same] using is_it)
  rw [nothing]
  trivial

theorem process_halting (data : BroadcastJob) (same : data.broadcastId = id) :
    (BroadcastProcessor.process h data).Everywhere
      (Halting h id before budget fun _ _ => True) := by
  refine ⟨process_skips data same, fun reply => ?_⟩
  cases reply with
  | error error => trivial
  | ok rows =>
    cases rows with
    | nil => trivial
    | cons broadcast rows =>
      show (SessionsService.getById broadcast.sessionId >>= _).Everywhere _
      exact everywhere_bind (halting_calls (SessionsService.getById_calls _ fun _ => rfl))
        fun session => everywhere_bind (halting_calls
          (WorkspacesService.getOpenwaCredentials_calls h _ fun _ => rfl)) fun creds =>
          everywhere_bind (halting_calls calls_now) fun now =>
            everywhere_bind (halting_calls (calls_call rfl)) fun _ =>
              everywhere_bind (halting_calls (calls_call rfl)) fun pending =>
                sendLoop_halting _ pending _

/-! ### The requests in flight -/

/-- A request that loads the broadcast after the removal finds nothing. -/
theorem finds_nothing (number : Nat) {request : Request} (names : request.names = some id) :
    (request.program h).Everywhere (Ownership.Poised (around h id before budget (.call number))
        (Removed id before budget)) ∧
      ∀ store, Removed id before budget store →
        (request.program h).Safe exec (around h id before budget (.call number)) (fun _ _ => True)
          store :=
  Ownership.request_poised h (stable_reads _) names fun broadcast _ removed member same =>
    absurd same (removed.rows broadcast member)

/-- Deleting the broadcast again keeps it deleted. -/
theorem removed_removes {row : Broadcast} (input : Input)
    (removed : Removed id before budget store) :
    Removed id before budget (exec (.remove .broadcasts row) input store).2 := by
  obtain ⟨_, _, _, failed⟩ | performed := exec_cases (.remove .broadcasts row) input store
  · rw [failed]
    exact removed
  · rw [performed]
    refine ⟨fun other member => ?_, fun recipient member => ?_, removed.sends⟩
    · change other ∈ (store.db.remove .broadcasts row) .broadcasts at member
      rw [Db.remove, Db.erase_other _ (by decide), Db.erase, Db.set_same, List.mem_filter] at member
      exact removed.rows other member.1
    · change recipient ∈ (store.db.remove .broadcasts row) .recipients at member
      rw [Db.remove, Db.erase, Db.set_same, List.mem_filter, Db.erase_other _ (by decide)] at member
      exact removed.recipients recipient member.1

/-- A removal in flight keeps the broadcast removed, wherever it is. -/
theorem removing_lasts {workspaceId : Option Uuid} {userId : Uuid} {program : Svc Reply}
    {post : Except Err Reply → Store → Prop} {number : Nat}
    (safe : program.Safe exec (Ownership.asked (.remove id workspaceId userId)) post store) :
    program.Safe exec (around h id before budget (.call number)) (fun _ _ => True) store' := by
  refine safe_of_free (fun made input _ state relied call => ?_) safe
  refine ⟨?_, fun other _ => owned_exec (Ownership.serves_of_does call) input state other⟩
  rcases call with reads | ⟨row, rfl, _⟩
  · show Removed id before budget (exec made input state).2
    rw [exec_reads reads]
    exact relied.1
  · exact removed_removes input relied.1

/-- A send that has saved its row only enqueues. -/
theorem enqueuing_lasts {job : Job} {attempts : Nat} {delay : Int}
    {next : Except Err Nat → Svc Reply} (last : ∀ reply, (next reply).Calls fun _ => False)
    {number : Nat} : (Program.call (.add job attempts delay) next).Safe exec
      (around h id before budget (.call number)) (fun _ _ => True) store := by
  rintro state input ⟨removed, _⟩
  have kept : Removed id before budget (exec (.add job attempts delay) input state).2 := by
    refine ⟨?_, ?_, ?_⟩
    · rw [exec_broadcasts _ input state rfl]
      exact removed.rows
    · rw [exec_recipients _ input state rfl]
      exact removed.recipients
    · rw [Ownership.sendsTo_exec input state rfl]
      exact removed.sends
  have ends : Stable exec (around h id before budget (.call number)) (fun _ => False)
      fun _ => True := fun _ wrong => wrong.elim
  exact ⟨⟨kept, fun other _ => owned_exec rfl input state other⟩, safe_stable ends (last _) trivial⟩

/-- A call of a request in flight after which it does not save the broadcast any more. -/
def harmless : Request → Call → Bool
  | .remove _ _ _, _ => true
  | _, made => !made.writes .broadcasts

end Phase

/-- A call at which a run in flight does not bring the broadcast back. -/
def spared : Call → Bool
  | .find .broadcasts _ => true
  | .openwa asked => asked.recipient.isSome
  | .save .recipients _ => true
  | _ => false

/-- A request that inserts a new broadcast. -/
def creates : Request → Bool
  | .create _ _ _ => true
  | _ => false

/-- What is in flight when the broadcast is deleted: a run of a job of it is at its first lookup, at
a message, or at the record of a verdict, and no other request is about to save its copy of it. -/
structure Calm (id : Uuid) (pool : Pool) (remover : Nat) : Prop where
  worker : ∀ thread, pool.thread .worker = some thread → thread.label.data.broadcastId = id →
    spared thread.request = true
  calls : ∀ number thread, number ≠ remover → pool.thread (.call number) = some thread →
    creates thread.label = false ∧
      (thread.label.names = some id → harmless thread.label thread.request = true)

section System

variable {h : Helpers} {id : Uuid} {before : List (RecipientRef × Bool)} {budget : Nat}

theorem process_halts (attempt : Attempt) :
    (BroadcastProcessor.process h attempt.data).Everywhere fun made next =>
      attempt.data.broadcastId = id → Halting h id before budget (fun _ _ => True) made next := by
  by_cases same : attempt.data.broadcastId = id
  · exact everywhere_mono (fun _ _ halting _ => halting) (process_halting attempt.data same)
  · exact everywhere_of_forall (fun _ _ wrong => absurd wrong same) _

/-- What each program in flight does when the broadcast is deleted. -/
theorem calm_secure {store : Store} {moves : List Move} {pool : Pool} {remover : Nat}
    (reached : (system h).run (idle store) moves = some pool) (calm : Calm id pool remover)
    (room : Ownership.inFlight id pool = budget) (slot : Slot)
    (thread : Machine.Thread Err Input Call Resp slot.Label slot.Result)
    (other : slot ≠ .call remover) (busy : pool.thread slot = some thread) (state : Store)
    (removed : Removed id before budget state) (sent : state.sendsTo id = before) :
    thread.program.Safe exec (around h id before budget slot) (fun _ _ => True) state := by
  have touches := Ownership.touches_run reached slot thread busy
  have does := (touches state ⟨none, 0, fun _ => "", "", .error (none, ""), .ok 200, 0⟩ trivial).1
  have kept (store store' : Store) (untouched : Ownership.Untouched id store store')
      (removed : Removed id before budget store) : Removed id before budget store' :=
    removed_untouched untouched removed
  cases slot with
  | worker =>
    by_cases here : thread.label.data.broadcastId = id
    · have halting := (Ownership.worker_run
        (fun attempt made next => attempt.data.broadcastId = id →
          Halting h id before budget (fun _ _ => True) made next)
        (process_halts) reached busy).1 here
      have spares := calm.worker thread busy here
      obtain ⟨attempt, made, next⟩ := thread
      subst room
      cases made with
      | openwa asked =>
        cases serves : asked.recipient with
        | none => simp [spared, serves] at spares
        | some recipient =>
          have parent : recipient.broadcastId = id := (does recipient serves).trans here
          refine halting recipient serves parent ?_ state sent
          simp [Ownership.inFlight, busy, Call.serves, serves, parent]
      | save table entity =>
        cases table with
        | recipients =>
          obtain ⟨row, rfl, parent⟩ := does
          exact halting (parent.trans here) state
        | _ => cases spares
      | find table matching =>
        cases table with
        | broadcasts => exact halting state removed
        | _ => cases spares
      | _ => cases spares
    · have elsewhere : Ownership.Elsewhere id .worker thread.label := here
      exact Ownership.elsewhere_lasting kept elsewhere
        (fun _ _ _ _ _ different => owned_worker different _ _) touches
  | call number =>
    have last := Ownership.last_run reached busy
    have poised (names : thread.label.names = some id) :
        Ownership.Poised (around h id before budget (.call number)) (Removed id before budget)
          thread.request thread.next :=
      Ownership.poised_run (fun request => request.names = some id)
        (fun number _ names => (finds_nothing number names).1) reached busy names
    obtain ⟨request, made, next⟩ := thread
    obtain ⟨existing, calls⟩ := calm.calls number _ (fun same => other (congrArg _ same)) busy
    by_cases names : request.names = some id
    · have harmless := calls names
      rcases poised names with writes | enqueues | lasts
      · cases request with
        | remove named workspaceId userId =>
          cases names
          exact removing_lasts touches
        | _ => simp [Removal.harmless, writes] at harmless
      · cases made with
        | add job attempts delay => exact enqueuing_lasts (last rfl)
        | _ => cases enqueues
      · exact lasts state removed
    · have elsewhere : Ownership.Elsewhere id (.call number) request := by
        refine ⟨names, ?_⟩
        rintro workspaceId userId dto rfl
        cases existing
      exact Ownership.elsewhere_lasting kept elsewhere (fun _ input state call other _ =>
        owned_exec (Ownership.serves_of_does call) input state other) touches

/-- No request that creates a broadcast is started. -/
def uncreated : Move → Bool := starts fun request => !creates request

/-- The removal is final: broadcast and recipients stay gone, and nothing was sent but what was on
its way. -/
def Final (id : Uuid) (pool pool' : Pool) : Prop :=
  (∀ row ∈ pool'.shared.broadcasts, row.id ≠ id) ∧
    (∀ recipient ∈ pool'.shared.recipients, recipient.broadcastId ≠ id) ∧
    ∃ more, pool'.shared.sendsTo id = pool.shared.sendsTo id ++ more ∧
      more.length ≤ Ownership.inFlight id pool

theorem starts_lasting {slot : Slot} {label : slot.Label} {input : Input}
    (existing : uncreated (.start slot label input) = true) (state : Store)
    (removed : Removed id before budget state) :
    ((system h).program slot label).Safe exec (around h id before budget slot) (fun _ _ => True)
      state := by
  have kept (store store' : Store) (untouched : Ownership.Untouched id store store')
      (removed : Removed id before budget store) : Removed id before budget store' :=
    removed_untouched untouched removed
  cases slot with
  | worker =>
    by_cases here : label.data.broadcastId = id
    · exact process_skips label.data here state removed
    · have elsewhere : Ownership.Elsewhere id .worker label := here
      exact Ownership.elsewhere_lasting kept elsewhere
        (fun _ _ _ _ _ different => owned_worker different _ _)
        (Ownership.process_own h label.data state)
  | call number =>
    by_cases names : label.names = some id
    · exact (finds_nothing number names).2 state removed
    · have elsewhere : Ownership.Elsewhere id (.call number) label := by
        refine ⟨names, ?_⟩
        rintro workspaceId userId dto rfl
        cases existing
      exact Ownership.elsewhere_lasting kept elsewhere (fun _ input state call other _ =>
        owned_exec (Ownership.serves_of_does call) input state other)
        (Ownership.program_does h label state)

end System

/-- Where `remove` returns while a run of the broadcast is where it will not bring it back and no
other request is about to save a copy of it, the removal is final. -/
theorem removal_lasts (h : Helpers) (id : Uuid) (store : Store) (moves : List Move)
    (pool pool' : Pool) (reached : (system h).run (idle store) moves = some pool) (number : Nat)
    (input : Input) (workspaceId : Option Uuid) (userId : Uuid) (reply : Reply)
    (moved : (system h).act pool (.resume (.call number) input) = some pool')
    (returned :
      (system h).Ends pool (.call number) (.remove id workspaceId userId) input (.ok reply))
    (calm : Calm id pool number) (later : List Move) (pool'' : Pool)
    (reached' : (system h).run pool' later = some pool'')
    (existing : ∀ move ∈ later, uncreated move = true) : Final id pool pool'' := by
  obtain ⟨thread, busy, is_remove, finished⟩ := returned
  have touches := Ownership.touches_run reached
  obtain ⟨call, ends⟩ := (system h).secure_resume input touches busy trivial
  have begun := ends (.ok reply) finished
  rw [is_remove] at call begun
  obtain ⟨rows, recipients⟩ := begun
  have sent : pool'.shared.sendsTo id = pool.shared.sendsTo id := by
    rw [act_request moved busy]
    exact Ownership.sendsTo_exec input pool.shared (Ownership.serves_of_does call)
  have removed : Removed id (pool.shared.sendsTo id) (Ownership.inFlight id pool) pool'.shared := by
    refine ⟨?_, ?_, [], by rw [sent, List.append_nil], Nat.zero_le _⟩
    · rw [act_request moved busy]
      exact rows
    · rw [act_request moved busy]
      exact recipients
  have lasting : Machine.Pool.Lasting (system h)
      (Removed id (pool.shared.sendsTo id) (Ownership.inFlight id pool)) (owned id) pool' := by
    refine ⟨removed, fun slot waiting found => ?_⟩
    have other : slot ≠ .call number := by
      rintro rfl
      obtain ⟨_, _, free⟩ | ⟨_, _, calling, _⟩ := (system h).act_resume moved busy
      · cases free.symm.trans found
      · cases finished.symm.trans calling
    exact calm_secure reached calm rfl slot waiting other
      ((act_waiting moved other).symm.trans found) _ removed sent
  obtain ⟨kept, _⟩ := (system h).lasting_run (removed_leaves h) (owned_leaves h)
    (fun slot label input member state removed => starts_lasting (existing _ member) state removed)
    lasting reached'
  exact ⟨kept.rows, kept.recipients, kept.sends⟩

/-! ### Two runs of the small workspace -/

/-- A run about to send its first message, and a removal up to its delete. -/
def sending : List Move :=
  Example.send ++ [Example.begin_ 0] ++ Example.works 6 ++
    (Example.alone (.remove "b" (some "w") "u") 4).take 4

theorem removal_lasts_example :
    ∃ pool' pool'', (system Example.helpers).act (Example.reach Example.store sending rfl)
        (.resume (.call 0) Example.fine) = some pool' ∧
      (system Example.helpers).run pool' (Example.works 3) = some pool'' ∧
      Final "b" (Example.reach Example.store sending rfl) pool'' := by
  have calm : Calm "b" (Example.reach Example.store sending rfl) 0 := by
    constructor
    · intro thread busy _
      obtain rfl := Option.some.inj busy
      rfl
    · intro number thread other busy
      cases (Example.others_free (Example.reached rfl) (by decide) other).symm.trans busy
  refine ⟨_, _, rfl, rfl, ?_⟩
  exact removal_lasts Example.helpers "b" Example.store sending
    (Example.reach Example.store sending rfl) _ (Example.reached rfl) 0 Example.fine (some "w") "u"
    (.message "Broadcast deleted") rfl ⟨_, rfl, rfl, rfl⟩ calm (Example.works 3) _ rfl (by decide)

/-- A run about to save its copy after its first message, and a removal up to its delete. -/
def saving : List Move :=
  Example.send ++ [Example.begin_ 0] ++ Example.works 9 ++
    (Example.alone (.remove "b" (some "w") "u") 4).take 4

/-- The save inserts the broadcast again. -/
theorem removal_lost :
    ¬∀ (h : Helpers) (id : Uuid) (store : Store) (moves : List Move) (pool pool' : Pool),
      (system h).run (idle store) moves = some pool → ∀ (number : Nat) (input : Input)
      (workspaceId : Option Uuid) (userId : Uuid) (reply : Reply),
      (system h).act pool (.resume (.call number) input) = some pool' →
      (system h).Ends pool (.call number) (.remove id workspaceId userId) input (.ok reply) →
      ∀ (later : List Move) (pool'' : Pool), (system h).run pool' later = some pool'' →
      (∀ move ∈ later, uncreated move = true) → Final id pool pool'' := by
  intro claim
  have final := claim Example.helpers "b" Example.store saving
    (Example.reach Example.store saving rfl) _ (Example.reached rfl) 0
    Example.fine (some "w") "u" (.message "Broadcast deleted") rfl ⟨_, rfl, rfl, rfl⟩
    (Example.works 1) _ rfl (by decide)
  exact final.1 _ (List.mem_singleton.mpr rfl) rfl

end Removal

end WaAutomation
