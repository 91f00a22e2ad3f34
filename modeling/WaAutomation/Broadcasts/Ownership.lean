/-
**Ownership: which broadcast a program touches.**

Whatever happens between its calls, a run of a job saves, serves and messages only the broadcast the
job names (`process_own`), and a request only the broadcast in its path (`program_does`). A call
that is apart from a broadcast leaves it alone (`exec_apart`), so every program about another
broadcast keeps what is said about this one.

* `Settled` is what a run that returns leaves: its broadcast is neither queued nor sending;
* `Poised` describes a request that has not written yet: it loads the broadcast first, so it will
  act on the row of that moment (`request_poised`).
-/

import WaAutomation.Broadcasts.System

set_option linter.unusedSectionVars false

namespace WaAutomation

open Library Program

/-- The messages sent to the recipients of a broadcast. -/
def Store.sendsTo (store : Store) (id : Uuid) : List (RecipientRef × Bool) :=
  store.sends.filter fun send => send.1.broadcastId == id

/-- The broadcast a request is about. -/
def Request.names : Request → Option Uuid
  | .update id _ _ _ => some id
  | .remove id _ _ => some id
  | .send id _ _ => some id
  | .cancel id _ _ => some id
  | .status id _ _ => some id
  | .report id _ _ => some id
  | _ => none

namespace Ownership

/-! ### Calls apart from a broadcast -/

/-- The call leaves a broadcast alone. -/
def Apart (id : Uuid) : Call → Prop
  | .save .broadcasts entity =>
      entity.row.id ≠ id ∧ ∀ row, entity.writes row → row.id = entity.row.id
  | .save .recipients entity => ∃ row : BroadcastRecipient, entity = .whole row ∧
      row.broadcastId ≠ id
  | .remove .broadcasts row => row.id ≠ id
  | .add job _ _ => job.broadcast? ≠ some ⟨id⟩
  | .openwa asked => ∀ recipient, asked.recipient = some recipient → recipient.broadcastId ≠ id
  | request => request.writes .broadcasts = false ∧ request.writes .recipients = false

/-- What is left alone: the rows, the messages and the jobs of a broadcast; it gets no
recipients. -/
structure Untouched (id : Uuid) (store store' : Store) : Prop where
  rows : ∀ row : Broadcast, row.id = id → (row ∈ store'.broadcasts ↔ row ∈ store.broadcasts)
  recipients : ∀ recipient ∈ store'.recipients, recipient.broadcastId = id →
    recipient ∈ store.recipients
  sends : store'.sendsTo id = store.sendsTo id
  jobs : store'.jobsOf id = store.jobsOf id

theorem untouched_of_same {id : Uuid} {store store' : Store}
    (broadcasts : store'.broadcasts = store.broadcasts)
    (recipients : store'.recipients = store.recipients)
    (sends : store'.sendsTo id = store.sendsTo id)
    (jobs : store'.jobsOf id = store.jobsOf id) : Untouched id store store' := by
  refine ⟨fun row _ => ?_, fun recipient member _ => ?_, sends, jobs⟩
  · rw [broadcasts]
  · rwa [recipients] at member

theorem sendsTo_exec {id : Uuid} {call : Call} (input : Input) (store : Store)
    (silent : call.serves = none) : (exec call input store).2.sendsTo id = store.sendsTo id :=
  congrArg (List.filter _) (exec_sends call input store silent)

theorem jobsOf_exec {id : Uuid} {call : Call} (input : Input) (store : Store)
    (quiet : call.enqueues = false) : (exec call input store).2.jobsOf id = store.jobsOf id :=
  congrArg (List.filter _) (exec_queue call input store quiet).1

/-- The `save` of another broadcast. -/
theorem save_apart {id : Uuid} {entity : Entity Broadcast} (different : entity.row.id ≠ id)
    (keyed : ∀ row, entity.writes row → row.id = entity.row.id) (input : Input) (store : Store) :
    Untouched id store (exec (.save .broadcasts entity) input store).2 := by
  refine ⟨fun row same => ?_, fun recipient member _ => ?_, sendsTo_exec input store rfl,
    jobsOf_exec input store rfl⟩
  · obtain ⟨error, failed⟩ | ⟨written, writes, _, after⟩ := exec_save_broadcast _ keyed input store
    · rw [failed]
    · rw [after row]
      have elsewhere : row.id ≠ written.id := fun equal =>
        different ((keyed written writes).symm.trans (equal.symm.trans same))
      constructor
      · rintro (⟨member, _⟩ | rfl)
        · exact member
        · exact absurd rfl elsewhere
      · exact fun member => .inl ⟨member, elsewhere⟩
  · rwa [exec_recipients (.save .broadcasts entity) input store rfl] at member

/-- The `save` of a recipient of another broadcast. -/
theorem save_recipient_apart {id : Uuid} {row : BroadcastRecipient}
    (different : row.broadcastId ≠ id) (input : Input) (store : Store) :
    Untouched id store (exec (.save .recipients (.whole row)) input store).2 := by
  refine ⟨fun other _ => ?_, fun recipient member parent => ?_, sendsTo_exec input store rfl,
    jobsOf_exec input store rfl⟩
  · rw [exec_broadcasts (.save .recipients (.whole row)) input store rfl]
  · obtain ⟨error, failed⟩ | ⟨_, _, ⟨_, put⟩ | ⟨_, push⟩⟩ := exec_save_recipient row input store
    · rwa [failed] at member
    · rw [put] at member
      rcases Rows.mem_put.mp member with ⟨stored, _⟩ | ⟨rfl, _⟩
      · exact stored
      · exact absurd parent different
    · rw [push] at member
      rcases List.mem_append.mp member with stored | last
      · exact stored
      · rw [List.mem_singleton] at last
        exact absurd (last ▸ parent) different

/-- The removal of another broadcast. -/
theorem remove_apart {id : Uuid} {row : Broadcast} (apart : row.id ≠ id) (input : Input)
    (store : Store) : Untouched id store (exec (.remove .broadcasts row) input store).2 := by
  obtain ⟨_, _, _, failed⟩ | performed := exec_cases (.remove .broadcasts row) input store
  · rw [failed]
    exact untouched_of_same rfl rfl rfl rfl
  rw [performed]
  refine ⟨fun other same => ?_, fun recipient member _ => ?_, rfl, rfl⟩
  · show other ∈ (store.db.remove .broadcasts row) .broadcasts ↔ _
    rw [Db.remove, Db.erase_other _ (by decide), Db.erase, Db.set_same, List.mem_filter]
    refine ⟨fun kept => kept.1, fun member => ⟨member, ?_⟩⟩
    have different : row.id ≠ other.id := fun equal => apart (equal.trans same)
    simp only [Db.sameKey, Row.key, Prod.mk.injEq, and_true, different, decide_false,
      Bool.not_false]
  · change recipient ∈ (store.db.remove .broadcasts row) .recipients at member
    rw [Db.remove, Db.erase, Db.set_same, Db.erase_other _ (by decide)] at member
    exact (List.mem_filter.mp member).1

/-- A job of another broadcast, or of another queue. -/
theorem add_apart {id : Uuid} {job : Job} {attempts : Nat} {delay : Int}
    (different : job.broadcast? ≠ some ⟨id⟩) (input : Input) (store : Store) :
    Untouched id store (exec (.add job attempts delay) input store).2 := by
  refine untouched_of_same (exec_broadcasts _ input store rfl) (exec_recipients _ input store rfl)
    (sendsTo_exec input store rfl) ?_
  obtain ⟨_, _, _, failed⟩ | performed := exec_cases (.add job attempts delay) input store
  · rw [failed]
  · rw [performed]
    show (store.jobs ++ [_]).filter _ = store.jobs.filter _
    rw [List.filter_append, List.filter_cons_of_neg, List.filter_nil, List.append_nil]
    simpa using different

/-- A message that serves no recipient of the broadcast. -/
theorem openwa_apart {id : Uuid} {call : OpenwaCall}
    (apart : ∀ recipient, call.recipient = some recipient → recipient.broadcastId ≠ id)
    (input : Input) (store : Store) : Untouched id store (exec (.openwa call) input store).2 := by
  refine untouched_of_same (exec_broadcasts _ input store rfl) (exec_recipients _ input store rfl)
    ?_ (jobsOf_exec input store rfl)
  cases serves : call.recipient with
  | none => exact sendsTo_exec input store serves
  | some recipient =>
    obtain ⟨accepted, sends, _⟩ := exec_serve call serves input store
    have different := apart recipient serves
    unfold Store.sendsTo
    rw [sends, List.filter_append, List.filter_cons_of_neg, List.filter_nil, List.append_nil]
    simpa using different

/-- **A call that is apart from a broadcast leaves it alone.** -/
theorem exec_apart {id : Uuid} {call : Call} (apart : Apart id call) (input : Input)
    (store : Store) :
    Untouched id store (exec call input store).2 := by
  have still (broadcasts : call.writes .broadcasts = false)
      (recipients : call.writes .recipients = false) (silent : call.serves = none)
      (quiet : call.enqueues = false) : Untouched id store (exec call input store).2 :=
    untouched_of_same (exec_broadcasts call input store broadcasts)
      (exec_recipients call input store recipients) (sendsTo_exec input store silent)
      (jobsOf_exec input store quiet)
  cases call with
  | save table entity =>
    cases table with
    | broadcasts => exact save_apart apart.1 apart.2 input store
    | recipients =>
      obtain ⟨row, rfl, different⟩ := apart
      exact save_recipient_apart different input store
    | _ => exact still rfl rfl rfl rfl
  | remove table row =>
    cases table with
    | broadcasts => exact remove_apart apart input store
    | _ => exact still apart.1 apart.2 rfl rfl
  | add job attempts delay => exact add_apart apart input store
  | openwa call => exact openwa_apart apart input store
  | _ => exact still apart.1 apart.2 rfl rfl

/-! ### Runs -/

/-- The calls of a run of a job of the broadcast. -/
def Own (id : Uuid) : Call → Prop
  | .save .broadcasts entity => ∃ row : Broadcast, entity = .whole row ∧ row.id = id
  | .save .recipients entity => ∃ row : BroadcastRecipient, entity = .whole row ∧
      row.broadcastId = id
  | .openwa asked => ∀ recipient, asked.recipient = some recipient → recipient.broadcastId = id
  | request => request.writes .broadcasts = false ∧ request.writes .recipients = false ∧
      request.enqueues = false

theorem own_reads {id : Uuid} {call : Call} (reads : call.reads = true) : Own id call := by
  cases call <;> first | exact ⟨rfl, rfl, rfl⟩ | cases reads

theorem apart_of_own {id other : Uuid} (different : id ≠ other) {call : Call} (own : Own id call) :
    Apart other call := by
  cases call with
  | save table entity =>
    cases table with
    | broadcasts =>
      obtain ⟨row, rfl, rfl⟩ := own
      exact ⟨different, fun written writes => congrArg Broadcast.id (Entity.writes_whole writes)⟩
    | recipients =>
      obtain ⟨row, rfl, rfl⟩ := own
      exact ⟨row, rfl, different⟩
    | _ => exact ⟨own.1, own.2.1⟩
  | remove table row =>
    cases table with
    | broadcasts => cases own.1
    | _ => exact ⟨own.1, own.2.1⟩
  | add job attempts delay => cases own.2.2
  | openwa asked =>
    exact fun recipient serves equal => different ((own recipient serves).symm.trans equal)
  | _ => exact ⟨own.1, own.2.1⟩

/-- The row a save of a whole entity leaves. -/
theorem saved_row {row : Broadcast} {input : Input} {store : Store}
    (saved : (exec (.save .broadcasts (.whole row)) input store).1 = .ok ()) :
    (exec (.save .broadcasts (.whole row)) input store).2.broadcast row.id = some row := by
  obtain ⟨error, failed⟩ | ⟨written, writes, _, after⟩ := exec_save_broadcast
    (.whole row) (fun other writes => congrArg _ (Entity.writes_whole writes)) input store
  · rw [failed] at saved
    cases saved
  · obtain rfl := Entity.writes_whole writes
    unfold Store.broadcast
    cases found : ((exec (.save .broadcasts (.whole written)) input store).2.db .broadcasts).find?
        fun broadcast => broadcast.id == written.id with
    | none =>
      have absent := List.find?_eq_none.mp found written ((after written).mpr (.inr rfl))
      simp at absent
    | some other =>
      rcases (after other).mp (List.mem_of_find?_eq_some found) with ⟨_, different⟩ | rfl
      · exact absurd (by simpa using List.find?_some found) different
      · rfl

/-- The statuses of a broadcast that is waiting for a run or in one. -/
def underWay : List BroadcastStatus := [.queued, .sending]

/-- A run that returned leaves its broadcast neither queued nor sending. -/
def Settled (id : Uuid) (result : Except Err RunResult) (store : Store) : Prop :=
  ∀ value, result = .ok value → ∀ row, store.broadcast id = some row → row.status ∉ underWay

theorem settled_error {id : Uuid} (error : Err) (store : Store) :
    Settled id (.error error) store :=
  fun _ wrong => by cases wrong

/-- The surroundings of a run that is promised nothing. -/
abbrev anywhere (id : Uuid) : Surroundings Input Call Store := free fun call _ _ => Own id call

theorem stable_own (id : Uuid) : Stable exec (anywhere id) (Own id) fun _ => True :=
  fun _ own _ _ _ _ _ => ⟨own, trivial⟩

theorem recordFailure_own {id : Uuid} {broadcast : Broadcast} {recipient : BroadcastRecipient}
    (same : broadcast.id = id) (parent : recipient.broadcastId = id) (err : Err) (store : Store) :
    (BroadcastProcessor.recordFailure broadcast recipient err).Safe exec (anywhere id)
      (fun result _ => ∀ next, result = .ok next → next.id = id) store := by
  refine safe_stable_bind (stable_own id) (calls_call ⟨_, rfl, parent⟩) trivial
    (fun _ _ _ _ wrong => by cases wrong) fun _ _ _ => ?_
  rintro next done
  cases done
  exact same

theorem deliver_own {id : Uuid} (ctx : BroadcastProcessor.Context) {broadcast : Broadcast}
    {recipient : BroadcastRecipient} (same : broadcast.id = id)
    (parent : recipient.broadcastId = id)
    (message : String) (store : Store) :
    (BroadcastProcessor.deliver ctx broadcast recipient message).Safe exec (anywhere id)
      (fun result _ => ∀ next, result = .ok next → next.id = id) store := by
  refine safe_bind (safe_attempt (safe_sendText fun store' input _ =>
    ⟨?_, fun _ after _ _ => ⟨?_, ?_⟩⟩))
  · intro served serves
    cases serves
    exact parent
  · intro _ res
    refine safe_now fun now => safe_stable_attempt_bind (stable_own id)
      (calls_call ⟨_, rfl, parent⟩)
      trivial fun result later _ => ?_
    cases result with
    | error err =>
      exact recordFailure_own same
        (show (BroadcastProcessor.recipientSent recipient now).broadcastId = id from parent)
          err later
    | ok _ =>
      refine safe_stable_attempt_bind (stable_own id)
        (MessagesService.record_calls fun _ _ => ⟨rfl, rfl, rfl⟩) trivial fun _ _ _ => ?_
      rintro next done
      cases done
      exact same
  · exact fun _ err => recordFailure_own same parent err after

theorem sendLoop_own (h : Helpers) (ctx : BroadcastProcessor.Context) (id : Uuid) :
    ∀ (pending : List BroadcastRecipient) (broadcast : Broadcast) (store : Store),
      broadcast.id = id → (∀ recipient ∈ pending, recipient.broadcastId = id) →
        (BroadcastProcessor.sendLoop h ctx broadcast pending).Safe exec (anywhere id) (Settled id)
          store := by
  intro pending
  induction pending with
  | nil =>
    rintro broadcast store rfl _
    refine safe_now fun now => safe_bind (safe_perform fun store' input _ => ⟨⟨_, rfl, rfl⟩, ?_⟩)
    cases outcome : (exec (.save .broadcasts (.whole
        { broadcast with status := .done, finishedAt := some now })) input store').1 with
    | error error => exact settled_error error _
    | ok _ =>
      intro value _ row found
      have is_row := (saved_row outcome).symm.trans found
      cases is_row
      exact (show BroadcastStatus.done ∉ underWay by decide)
  | cons recipient pending ih =>
    rintro broadcast store rfl parents
    refine safe_bind (safe_perform fun store' input _ => ⟨⟨rfl, rfl, rfl⟩, ?_⟩)
    obtain ⟨error, failed⟩ | answered := exec_findStatus broadcast.id input store'
    · rw [failed]
      exact settled_error error store'
    · rw [answered]
      dsimp only
      by_cases cancelled : (store'.broadcast broadcast.id).map Broadcast.status =
          some BroadcastStatus.cancelled
      · rw [if_pos cancelled]
        rintro value _ row found
        rw [show store'.broadcast broadcast.id = some row from found] at cancelled
        rw [Option.some.inj cancelled]
        decide
      · rw [if_neg cancelled]
        refine safe_lift (fun error _ => settled_error error _) fun message _ => ?_
        refine safe_bind (safe_mono (fun result later kept => ?_)
          (deliver_own ctx rfl (parents recipient List.mem_cons_self) message _))
        cases result with
        | error error => exact settled_error error later
        | ok next =>
          refine safe_stable_bind (stable_own broadcast.id) (calls_call ⟨_, rfl, kept next rfl⟩)
            trivial (fun error after _ => settled_error error after) fun _ after _ => ?_
          refine safe_stable_bind (stable_own broadcast.id)
            (BroadcastProcessor.announce_calls (fun _ => ⟨rfl, rfl, rfl⟩) fun _ => ⟨rfl, rfl, rfl⟩)
            trivial (fun error after _ => settled_error error after) fun _ last _ => ?_
          exact ih next last (kept next rfl) fun other member =>
            parents other (List.mem_cons_of_mem _ member)

/-- **A run touches the broadcast of its job only**, and settles it if it returns. -/
theorem process_own (h : Helpers) (data : BroadcastJob) (store : Store) :
    (BroadcastProcessor.process h data).Safe exec (anywhere data.broadcastId)
      (Settled data.broadcastId) store := by
  have failed (error : Err) (after : Store) (_ : True) :
      Settled data.broadcastId (.error error) after := settled_error error after
  have lookups {α : Type} {program : Svc α} (reads : Reads program) :
      program.Calls (Own data.broadcastId) := calls_of_reads reads fun _ => own_reads
  refine safe_findOne_bind (stable_own data.broadcastId) (own_reads rfl) trivial failed
    fun after _ => ?_
  cases found : (after.db .broadcasts).find? fun broadcast => broadcast.id == data.broadcastId with
  | none =>
    rintro value _ row stored
    cases found.symm.trans stored
  | some broadcast =>
    have is_job : broadcast.id = data.broadcastId := by simpa using List.find?_some found
    refine safe_stable_bind (stable_own data.broadcastId)
      (lookups (SessionsService.getById_reads _))
      trivial failed fun session _ _ => ?_
    refine safe_stable_bind (stable_own data.broadcastId)
      (lookups (WorkspacesService.getOpenwaCredentials_reads h _)) trivial failed
        fun creds _ _ => ?_
    refine safe_now fun now => safe_stable_bind (stable_own data.broadcastId)
      (calls_call ⟨_, rfl, is_job⟩) trivial failed fun _ begun _ => ?_
    refine safe_find_bind (stable_own data.broadcastId) (own_reads rfl) trivial failed
      fun last _ => ?_
    refine sendLoop_own h _ data.broadcastId _ _ last is_job fun recipient member => ?_
    have matches_ := (List.mem_filter.mp member).2
    simp only [Bool.and_eq_true, beq_iff_eq] at matches_
    exact matches_.1.trans is_job

/-! ### Requests -/

/-- The call saves a copy of the broadcast, with a status. -/
def Saves (id : Uuid) (status : BroadcastStatus) (call : Call) : Prop :=
  ∃ entity, call = .save .broadcasts entity ∧ entity.row.id = id ∧
    ∀ row, entity.writes row → row.id = id ∧ row.status = status

/-- The calls of a request beside lookups. -/
def does : Request → Call → Prop
  | .create _ _ _, made => ∃ draft recipients, made = .insertBroadcast draft recipients
  | .update id _ _ _, made => Saves id .draft made
  | .remove id _ _, made => ∃ row : Broadcast, made = .remove .broadcasts row ∧ row.id = id
  | .send id _ _, made =>
      Saves id .queued made ∨ ∃ attempts delay, made = .add (.broadcast ⟨id⟩) attempts delay
  | .cancel id _ _, made => Saves id .cancelled made
  | .removeSession _ _ _, made =>
      (∃ creds method session, made = .openwa ⟨creds, method, session, none⟩) ∨
        ∃ row, made = .remove .sessions row
  | .elsewhere _, made => ∃ change, made = .elsewhere change
  | _, _ => False

/-- The surroundings of a request that is promised nothing. -/
abbrev asked (request : Request) : Surroundings Input Call Store :=
  free fun made _ _ => made.reads = true ∨ does request made

theorem stable_asked (request : Request) :
    Stable exec (asked request) (fun made => made.reads = true) fun _ => True :=
  fun _ reads _ _ _ _ _ => ⟨.inl reads, trivial⟩

theorem saves_whole {row : Broadcast} :
    Saves row.id row.status (.save .broadcasts (.whole row)) := by
  refine ⟨.whole row, rfl, rfl, fun written writes => ?_⟩
  rw [Entity.writes_whole writes]
  exact ⟨rfl, rfl⟩

theorem saves_assign (broadcast : Broadcast) (dto : UpdateBroadcastDto) :
    Saves broadcast.id broadcast.status
      (.save .broadcasts (BroadcastsService.assign broadcast dto)) := by
  refine ⟨_, rfl, by rw [assign_row broadcast dto], fun written writes => ?_⟩
  rw [assign_writes writes]
  exact ⟨rfl, rfl⟩

/-- What a request that returned leaves: a cancelled broadcast, or none. -/
def Finished : Request → Except Err Reply → Store → Prop
  | .cancel id _ _, .ok _, store =>
      (∃ row ∈ store.broadcasts, row.id = id) ∧
        ∀ row ∈ store.broadcasts, row.id = id → row.status = .cancelled
  | .remove id _ _, .ok _, store =>
      (∀ row ∈ store.broadcasts, row.id ≠ id) ∧
        ∀ recipient ∈ store.recipients, recipient.broadcastId ≠ id
  | _, _, _ => True

/-- What deleting a broadcast leaves of it. -/
theorem removed_broadcast (store : Store) (row : Broadcast) :
    (∀ other ∈ (store.db.remove .broadcasts row) .broadcasts, other.id ≠ row.id) ∧
      ∀ recipient ∈ (store.db.remove .broadcasts row) .recipients,
        recipient.broadcastId ≠ row.id := by
  refine ⟨fun other member => ?_, fun recipient member => ?_⟩
  · rw [Db.remove, Db.erase_other _ (by decide), Db.erase, Db.set_same, List.mem_filter] at member
    have kept := member.2
    simp only [Db.sameKey, Row.key, Prod.mk.injEq, and_true, Bool.not_eq_eq_eq_not, Bool.not_true,
      decide_eq_false_iff_not] at kept
    exact fun same => kept same.symm
  · rw [Db.remove, Db.erase, Db.set_same, List.mem_filter] at member
    simpa using member.2

/-- **A request touches the broadcast it names only.** -/
theorem program_does (h : Helpers) (request : Request) (store : Store) :
    (request.program h).Safe exec (asked request) (Finished request) store := by
  have by_calls (calls : ∀ made, request.makes made → does request made)
      (finished : ∀ result after, Finished request result after) :
      (request.program h).Safe exec (asked request) (Finished request) store :=
    safe_mono (fun result after _ => finished result after) (safe_calls (calls_mono
      (fun made holds => holds.imp_right (calls made)) (request.program_calls h)))
  cases request with
  | update id workspaceId userId dto =>
    refine safe_reply (safe_managed_bind (stable_asked _) (fun _ reads => reads) trivial
      (fun _ _ _ => trivial) fun broadcast after _ _ same => ?_)
    subst same
    split
    · trivial
    · rename_i draft
      refine safe_bind (safe_perform fun store' input _ => ⟨.inr ?_, ?_⟩)
      · have saves := saves_assign broadcast dto
        rw [not_not.mp draft] at saves
        exact saves
      · cases (exec _ input store').1 <;> trivial
  | remove id workspaceId userId =>
    refine safe_reply (safe_managed_bind (stable_asked _) (fun _ reads => reads) trivial
      (fun _ _ _ => trivial) fun broadcast after _ _ same => ?_)
    subst same
    refine safe_bind (safe_perform fun store' input _ => ⟨.inr ⟨broadcast, rfl, rfl⟩, ?_⟩)
    obtain ⟨message, _, _, failed⟩ | performed :=
      exec_cases (.remove .broadcasts broadcast) input store'
    · rw [failed]
      trivial
    · rw [performed]
      exact removed_broadcast store' broadcast
  | send id workspaceId userId =>
    refine safe_reply (safe_managed_bind (stable_asked _) (fun _ reads => reads) trivial
      (fun _ _ _ => trivial) fun broadcast after _ _ same => ?_)
    subst same
    split
    · trivial
    · refine safe_bind (safe_perform fun store' input _ => ⟨.inr (.inl saves_whole), ?_⟩)
      cases (exec _ input store').1 with
      | error error => trivial
      | ok _ =>
        refine safe_now fun now => safe_bind (safe_perform fun last input _ =>
          ⟨.inr (.inr ⟨_, _, rfl⟩), ?_⟩)
        cases (exec _ input last).1 <;> trivial
  | cancel id workspaceId userId =>
    refine safe_reply (safe_managed_bind (stable_asked _) (fun _ reads => reads) trivial
      (fun _ _ _ => trivial) fun broadcast after _ _ same => ?_)
    subst same
    refine safe_bind (safe_perform fun store' input _ => ⟨.inr saves_whole, ?_⟩)
    obtain ⟨error, failed⟩ | ⟨written, writes, ok, after⟩ := exec_save_broadcast
      (.whole { broadcast with status := .cancelled })
      (fun other writes => congrArg _ (Entity.writes_whole writes)) input store'
    · rw [failed]
      trivial
    · rw [ok]
      obtain rfl := Entity.writes_whole writes
      refine ⟨⟨_, (after _).mpr (.inr rfl), rfl⟩, fun row member same => ?_⟩
      rcases (after row).mp member with ⟨_, different⟩ | rfl
      · exact absurd same different
      · rfl
  | _ => exact by_calls (fun _ made => made) fun _ _ => trivial

/-- A request that does not create keeps apart from every broadcast it does not name. -/
theorem apart_of_does {request : Request} {id : Uuid} (different : request.names ≠ some id)
    (existing : ∀ workspaceId userId dto, request ≠ .create workspaceId userId dto) {made : Call}
    (call : made.reads = true ∨ does request made) : Apart id made := by
  have saves {named : Uuid} {status : BroadcastStatus} (other : named ≠ id)
      (holds : Saves named status made) : Apart id made := by
    obtain ⟨entity, rfl, same, writes⟩ := holds
    exact ⟨fun equal => other (same.symm.trans equal), fun row written =>
      (writes row written).1.trans same.symm⟩
  have others {named : Uuid} (names : request.names = some named) : named ≠ id :=
    fun equal => different (names.trans (congrArg some equal))
  rcases call with reads | holds
  · cases made <;> first | exact ⟨rfl, rfl⟩ | cases reads
  · cases request with
    | create workspaceId userId dto => exact absurd rfl (existing workspaceId userId dto)
    | update named _ _ _ => exact saves (others rfl) holds
    | remove named _ _ =>
      obtain ⟨row, rfl, rfl⟩ := holds
      exact others rfl
    | send named _ _ =>
      rcases holds with holds | ⟨attempts, delay, rfl⟩
      · exact saves (others rfl) holds
      · intro same
        exact others rfl (congrArg BroadcastJob.broadcastId (Option.some.inj same))
    | cancel named _ _ => exact saves (others rfl) holds
    | status _ _ _ => exact holds.elim
    | report _ _ _ => exact holds.elim
    | removeSession _ _ _ =>
      obtain ⟨creds, method, session, rfl⟩ | ⟨row, rfl⟩ := holds
      · exact fun recipient wrong => by cases wrong
      · exact ⟨rfl, rfl⟩
    | elsewhere _ =>
      obtain ⟨change, rfl⟩ := holds
      exact ⟨rfl, rfl⟩

/-- Whatever the queue answers, nothing follows it. -/
def Last {α : Type} (made : Call) (next : Except Err (Resp made) → Svc α) : Prop :=
  made.enqueues = true → ∀ reply, (next reply).Calls fun _ => False

/-- A job is enqueued last. -/
theorem program_last (h : Helpers) (request : Request) : (request.program h).Everywhere Last := by
  have never {α β : Type} {program : Svc α} {rest : α → Svc β} {allowed : Call → Prop}
      (calls : program.Calls allowed) (quiet : ∀ made, allowed made → made.enqueues = false) :
      program.Everywhere fun made next => Last made fun reply => next reply >>= rest := by
    refine everywhere_mono (fun made next holds enqueues => ?_) calls
    rw [quiet made holds] at enqueues
    cases enqueues
  have quiet_reads (made : Call) : made.reads = true → made.enqueues = false := Call.reads_enqueues
  have others (quiet : ∀ made, request.makes made → made.enqueues = false) :
      (request.program h).Everywhere Last := by
    refine everywhere_mono (fun made next holds enqueues => ?_) (request.program_calls h)
    rw [holds.elim (quiet_reads made) (quiet made)] at enqueues
    cases enqueues
  cases request with
  | send id workspaceId userId =>
    simp only [Request.program, BroadcastsService.send, Program.bind_assoc]
    refine everywhere_bind (never (WorkspacesService.assertRole_reads _ _ _) quiet_reads) fun _ =>
      everywhere_bind (never (BroadcastsService.findOne_reads _ _ _) quiet_reads)
        fun broadcast => ?_
    split
    · trivial
    · refine ⟨(fun wrong => by cases wrong), fun reply => ?_⟩
      cases reply with
      | error error => trivial
      | ok _ =>
        refine fun now => ⟨fun _ reply => ?_, fun reply => ?_⟩
        · cases reply <;> trivial
        · cases reply <;> trivial
  | create _ _ _ =>
    refine others fun made holds => ?_
    obtain ⟨_, _, rfl⟩ := holds
    rfl
  | removeSession _ _ _ =>
    refine others fun made holds => ?_
    obtain ⟨_, _, _, rfl⟩ | ⟨_, rfl⟩ := holds
    · rfl
    · rfl
  | status _ _ _ => exact others fun _ wrong => wrong.elim
  | report _ _ _ => exact others fun _ wrong => wrong.elim
  | _ =>
    refine others fun made holds => ?_
    obtain ⟨_, rfl⟩ := holds
    rfl

/-! ### The system -/

/-- What the program in a slot may call. -/
def touches : (slot : Slot) → slot.Label → Call → Input → Store → Prop
  | .worker, attempt => fun made _ _ => Own attempt.data.broadcastId made
  | .call _, request => fun made _ _ => made.reads = true ∨ does request made

/-- What it leaves when it ends. -/
def leaves : (slot : Slot) → slot.Label → Except Err slot.Result → Store → Prop
  | .worker, attempt => Settled attempt.data.broadcastId
  | .call _, request => Finished request

/-- In every state of every run, the programs in flight touch their own broadcast only. -/
theorem touches_run {h : Helpers} {store : Store} {moves : List Move} {pool : Pool}
    (reached : (system h).run (idle store) moves = some pool) :
    Machine.Pool.Secure (system h) (fun slot label => free (touches slot label)) leaves pool := by
  refine (system h).run_free (fun slot label state => ?_) reached
  cases slot with
  | worker => exact process_own h label.data state
  | call number => exact program_does h label state

/-- One property for the suspensions of the worker, one for those of the requests. -/
def Suspended (worker : Attempt → (made : Call) → (Except Err (Resp made) → Svc RunResult) → Prop)
    (request : Nat → Request → (made : Call) → (Except Err (Resp made) → Svc Reply) → Prop) :
    (slot : Slot) → slot.Label → (made : Call) → (Except Err (Resp made) → Svc slot.Result) → Prop
  | .worker => worker
  | .call number => request number

/-- What holds at every suspension of a run holds of the one in flight. -/
theorem worker_run {h : Helpers} (holds : Attempt → (made : Call) →
      (Except Err (Resp made) → Svc RunResult) → Prop)
    (runs : ∀ attempt, (BroadcastProcessor.process h attempt.data).Everywhere (holds attempt))
    {store : Store} {moves : List Move} {pool : Pool}
    (reached : (system h).run (idle store) moves = some pool)
    {thread : Machine.Thread Err Input Call Resp Attempt RunResult}
    (busy : pool.thread .worker = some thread) :
    thread.program.Everywhere (holds thread.label) := by
  have programs (slot : Slot) (label : slot.Label) :
      ((system h).program slot label).Everywhere
        (Suspended holds (fun _ _ _ _ => True) slot label) := by
    cases slot with
    | worker => exact runs label
    | call number => exact everywhere_of_forall (fun _ _ => trivial) _
  exact (system h).run_everywhere programs reached .worker thread busy

/-- What holds at every suspension of the requests holds of those in flight. -/
theorem call_run {h : Helpers} (holds : Nat → Request → (made : Call) →
      (Except Err (Resp made) → Svc Reply) → Prop)
    (requests : ∀ number (request : Request), (request.program h).Everywhere (holds number request))
    {store : Store} {moves : List Move} {pool : Pool}
    (reached : (system h).run (idle store) moves = some pool) {number : Nat}
    {thread : Machine.Thread Err Input Call Resp Request Reply}
    (busy : pool.thread (.call number) = some thread) :
    thread.program.Everywhere (holds number thread.label) := by
  have programs (slot : Slot) (label : slot.Label) :
      ((system h).program slot label).Everywhere
        (Suspended (fun _ _ _ => True) holds slot label) := by
    cases slot with
    | worker => exact everywhere_of_forall (fun _ _ => trivial) _
    | call number => exact requests number label
  exact (system h).run_everywhere programs reached (.call number) thread busy

/-- The program in a slot is about other broadcasts. -/
def Elsewhere (id : Uuid) : (slot : Slot) → slot.Label → Prop
  | .worker, attempt => attempt.data.broadcastId ≠ id
  | .call _, request => request.names ≠ some id ∧
      ∀ workspaceId userId dto, request ≠ .create workspaceId userId dto

theorem elsewhere_of_spares {id : Uuid} {number : Nat} {request : Request}
    (different : request.names ≠ some id) (spares : request.spares = true) :
    Elsewhere id (.call number) request := by
  refine ⟨different, ?_⟩
  rintro workspaceId userId dto rfl
  cases spares

theorem apart_of_touches {id : Uuid} {slot : Slot} {label : slot.Label}
    (elsewhere : Elsewhere id slot label) {made : Call} {input : Input} {store : Store}
    (call : touches slot label made input store) : Apart id made := by
  cases slot with
  | worker => exact apart_of_own elsewhere call
  | call number => exact apart_of_does elsewhere.1 elsewhere.2 call

/-- **What is about other broadcasts keeps a phase of this one.** -/
theorem elsewhere_lasting {ν : Type} {h : Helpers} {phase : Store → Prop} {own : Slot → Store → ν}
    {id : Uuid} (kept : ∀ store store', Untouched id store store' → phase store → phase store')
    {slot : Slot} {label : slot.Label} (elsewhere : Elsewhere id slot label)
    (owned : ∀ made input store, touches slot label made input store → ∀ other, other ≠ slot →
      own other (exec made input store).2 = own other store)
    {program : Svc slot.Result} {post : Except Err slot.Result → Store → Prop}
    {store store' : Store} (safe : program.Safe exec (free (touches slot label)) post store) :
    program.Safe exec ((system h).lasting phase own slot) (fun _ _ => True) store' := by
  refine safe_of_free (fun made input _ state relied call => ?_) safe
  exact ⟨kept state _ (exec_apart (apart_of_touches elsewhere call) input state) relied.1,
    owned made input state call⟩

/-- The messages of a broadcast that are on their way. -/
def inFlight (id : Uuid) (pool : Pool) : Nat :=
  match pool.thread .worker with
  | none => 0
  | some thread =>
      if thread.request.serves.any fun recipient => recipient.broadcastId == id then 1 else 0

/-- No request sends a message to a recipient. -/
theorem serves_of_does {request : Request} {made : Call}
    (call : made.reads = true ∨ does request made) : made.serves = none := by
  rcases call with reads | holds
  · cases made <;> first | rfl | cases reads
  · cases request with
    | create _ _ _ =>
      obtain ⟨_, _, rfl⟩ := holds
      rfl
    | remove _ _ _ =>
      obtain ⟨_, rfl, _⟩ := holds
      rfl
    | send _ _ _ =>
      obtain ⟨_, rfl, _⟩ | ⟨_, _, rfl⟩ := holds
      · rfl
      · rfl
    | removeSession _ _ _ =>
      obtain ⟨_, _, _, rfl⟩ | ⟨_, rfl⟩ := holds
      · rfl
      · rfl
    | elsewhere _ =>
      obtain ⟨_, rfl⟩ := holds
      rfl
    | status _ _ _ => exact holds.elim
    | report _ _ _ => exact holds.elim
    | _ =>
      obtain ⟨_, rfl, _⟩ := holds
      rfl

/-- A request that neither creates nor removes leaves the recipients alone. -/
theorem recipients_of_does {request : Request} (spares : request.spares = true) {made : Call}
    (call : made.reads = true ∨ does request made) : made.writes .recipients = false := by
  rcases call with reads | holds
  · exact Call.reads_writes reads _
  · cases request with
    | create _ _ _ => cases spares
    | remove _ _ _ => cases spares
    | send _ _ _ =>
      obtain ⟨_, rfl, _⟩ | ⟨_, _, rfl⟩ := holds
      · rfl
      · rfl
    | removeSession _ _ _ =>
      obtain ⟨_, _, _, rfl⟩ | ⟨_, rfl⟩ := holds
      · rfl
      · rfl
    | elsewhere _ =>
      obtain ⟨_, rfl⟩ := holds
      rfl
    | status _ _ _ => exact holds.elim
    | report _ _ _ => exact holds.elim
    | _ =>
      obtain ⟨_, rfl, _⟩ := holds
      rfl

/-- The last call of a send in flight. -/
theorem last_run {h : Helpers} {store : Store} {moves : List Move} {pool : Pool}
    (reached : (system h).run (idle store) moves = some pool) {number : Nat}
    {thread : Machine.Thread Err Input Call Resp Request Reply}
    (busy : pool.thread (.call number) = some thread) : Last thread.request thread.next :=
  (call_run (fun _ _ => Last) (fun _ request => program_last h request) reached busy).1

/-! ### Requests that have not written yet -/

section Poised

variable {around : Surroundings Input Call Store} {phase : Store → Prop}

/-- The program waits at a write or at the queue, or, met by the phase, it will keep it. -/
def Poised {α : Type} (around : Surroundings Input Call Store) (phase : Store → Prop)
    (request : Call) (next : Except Err (Resp request) → Svc α) : Prop :=
  request.writes .broadcasts = true ∨ request.enqueues = true ∨ ∀ store, phase store →
    (Program.call request next).Safe exec around (fun _ _ => True) store

/-- Lookups are poised when what follows them is, and keeps the phase. -/
theorem poised_reads {α β : Type}
    (stable : Stable exec around (fun made => made.reads = true) phase) {program : Svc α}
    {rest : α → Svc β} (reads : Reads program)
    (safe : ∀ value store, phase store →
      (rest value).Safe exec around (fun _ _ => True) store)
    (later : ∀ value, (rest value).Everywhere (Poised around phase)) :
    (program >>= rest).Everywhere (Poised around phase) := by
  induction program with
  | ret value => exact later value
  | throw error => trivial
  | ambient next ih => exact fun reading => ih reading (reads reading)
  | call request next ih =>
    refine ⟨.inr (.inr fun store holds => ?_), fun reply => ih reply (reads.2 reply)⟩
    exact safe_stable_bind stable reads holds (fun _ _ _ => trivial) fun value after =>
      safe value after

/-- A request that loads a broadcast is poised when it keeps the phase with any row it can load
there. -/
theorem poised_load {α : Type}
    (stable : Stable exec around (fun made => made.reads = true) phase) {id : Uuid}
    {workspaceId : Option Uuid} {userId : Uuid} {rest : Broadcast → Svc α}
    (safe : ∀ broadcast store, phase store → broadcast ∈ store.broadcasts → broadcast.id = id →
      (rest broadcast).Safe exec around (fun _ _ => True) store)
    (later : ∀ broadcast, (rest broadcast).Everywhere (Poised around phase)) :
    (BroadcastsService.findOne id workspaceId userId >>= rest).Everywhere
      (Poised around phase) := by
  rw [findOne_bind]
  have loads (store : Store) (holds : phase store) :
      (Svc.findOne .broadcasts (pinned id workspaceId) >>= fun row => found row >>= rest).Safe exec
        around (fun _ _ => True) store :=
    safe_pinned_bind stable (fun _ reads => reads) holds (fun _ _ _ => trivial) safe
  refine poised_reads stable (WorkspacesService.assertMember_reads _ _) (fun _ => loads) fun _ => ?_
  refine ⟨.inr (.inr loads), fun reply => ?_⟩
  cases reply with
  | error error => trivial
  | ok rows =>
    show (found rows.head? >>= rest).Everywhere (Poised around phase)
    cases rows.head? with
    | none => trivial
    | some broadcast => exact later broadcast

/-- So is one that checks the role first. -/
theorem poised_managed {α : Type}
    (stable : Stable exec around (fun made => made.reads = true) phase) {id : Uuid}
    {workspaceId : Option Uuid} {userId : Uuid} {rest : Broadcast → Svc α}
    (safe : ∀ broadcast store, phase store → broadcast ∈ store.broadcasts → broadcast.id = id →
      (rest broadcast).Safe exec around (fun _ _ => True) store)
    (later : ∀ broadcast, (rest broadcast).Everywhere (Poised around phase)) :
    (WorkspacesService.assertRole workspaceId userId managers >>= fun _ =>
      BroadcastsService.findOne id workspaceId userId >>= rest).Everywhere (Poised around phase) :=
  poised_reads stable (WorkspacesService.assertRole_reads _ _ _)
    (fun _ _ holds => safe_load_bind stable (fun _ reads => reads) holds (fun _ _ _ =>
      trivial) safe)
    fun _ => poised_load stable safe later

/-- The request does nothing to a broadcast it finds in this status. -/
def refuses : Request → BroadcastStatus → Bool
  | .update _ _ _ _, status => status != .draft
  | .send _ _ _, status => decide (status ∉ sendable)
  | .status _ _ _, _ => true
  | .report _ _ _, _ => true
  | _, _ => false

/-- **A request that would refuse every row it can load in the phase** keeps the phase, unless it
has loaded its row before. -/
theorem request_poised (h : Helpers)
    (stable : Stable exec around (fun made => made.reads = true) phase)
    {request : Request} {id : Uuid}
    (names : request.names = some id)
    (refused : ∀ broadcast store, phase store → broadcast ∈ store.broadcasts → broadcast.id = id →
      refuses request broadcast.status = true) :
    (request.program h).Everywhere (Poised around phase) ∧
      ∀ store, phase store → (request.program h).Safe exec around (fun _ _ => True) store := by
  have managed {α : Type} {workspaceId : Option Uuid} {userId : Uuid} {rest : Broadcast → Svc α}
      (safe : ∀ broadcast store, phase store → broadcast ∈ store.broadcasts → broadcast.id = id →
        (rest broadcast).Safe exec around (fun _ _ => True) store)
      (later : ∀ broadcast, (rest broadcast).Everywhere (Poised around phase)) :
      (WorkspacesService.assertRole workspaceId userId managers >>= fun _ =>
          BroadcastsService.findOne id workspaceId userId >>= rest).Everywhere
          (Poised around phase) ∧
        ∀ store, phase store →
          (WorkspacesService.assertRole workspaceId userId managers >>= fun _ =>
          BroadcastsService.findOne id workspaceId userId >>= rest).Safe exec around
            (fun _ _ => True) store :=
    ⟨poised_managed stable safe later, fun _ holds =>
      safe_managed_bind stable (fun _ reads => reads) holds (fun _ _ _ => trivial) safe⟩
  cases request with
  | update named workspaceId userId dto =>
    cases names
    simp only [Request.program, BroadcastsService.update, Program.bind_assoc]
    refine managed (fun broadcast store holds member same => ?_) fun broadcast => ?_
    · have draft := refused broadcast store holds member same
      simp only [refuses, bne_iff_ne] at draft
      rw [if_pos draft]
      trivial
    · split
      · trivial
      · refine ⟨.inl rfl, fun reply => ?_⟩
        cases reply <;> trivial
  | remove named workspaceId userId =>
    cases names
    simp only [Request.program, BroadcastsService.remove, Program.bind_assoc]
    refine managed (fun broadcast store holds member same => ?_) fun broadcast => ?_
    · cases refused broadcast store holds member same
    · refine ⟨.inl rfl, fun reply => ?_⟩
      cases reply <;> trivial
  | send named workspaceId userId =>
    cases names
    simp only [Request.program, BroadcastsService.send, Program.bind_assoc]
    refine managed (fun broadcast store holds member same => ?_) fun broadcast => ?_
    · have unsendable := refused broadcast store holds member same
      simp only [refuses, decide_eq_true_eq] at unsendable
      rw [if_pos unsendable]
      trivial
    · split
      · trivial
      · refine ⟨.inl rfl, fun reply => ?_⟩
        cases reply with
        | error error => trivial
        | ok _ =>
          refine fun now => ⟨.inr (.inl rfl), fun reply => ?_⟩
          cases reply <;> trivial
  | cancel named workspaceId userId =>
    cases names
    simp only [Request.program, BroadcastsService.cancel, Program.bind_assoc]
    refine managed (fun broadcast store holds member same => ?_) fun broadcast => ?_
    · cases refused broadcast store holds member same
    · refine ⟨.inl rfl, fun reply => ?_⟩
      cases reply <;> trivial
  | status named workspaceId userId =>
    cases names
    simp only [Request.program, BroadcastsService.status, Program.bind_assoc]
    exact ⟨poised_load stable (fun _ _ _ _ _ => trivial) fun _ => trivial, fun _ holds =>
      safe_load_bind stable (fun _ reads => reads) holds (fun _ _ _ => trivial) fun _ _ _ _ _ =>
        trivial⟩
  | report named workspaceId userId =>
    cases names
    simp only [Request.program, BroadcastsService.report, Program.bind_assoc]
    have lists (broadcast : Broadcast) (store : Store) (holds : phase store) :
        (Svc.find .recipients (fun recipient => recipient.broadcastId == id) >>= fun recipients =>
          pure (BroadcastReport.mk broadcast recipients) >>= fun report =>
            pure (Reply.report report)).Safe exec around (fun _ _ => True) store :=
      safe_stable_bind stable (calls_call rfl) holds (fun _ _ _ => trivial) fun _ _ _ => trivial
    refine ⟨poised_load stable (fun broadcast store holds _ _ => lists broadcast store holds)
      fun broadcast => ⟨.inr (.inr (lists broadcast)), fun reply => ?_⟩, fun _ holds =>
        safe_load_bind stable (fun _ reads => reads) holds (fun _ _ _ => trivial)
          fun broadcast store holds _ _ => lists broadcast store holds⟩
    cases reply <;> trivial
  | _ => cases names

/-- The requests of a kind that is poised are so in every state of every run. -/
theorem poised_run {h : Helpers} {around : Slot → Surroundings Input Call Store}
    {phase : Store → Prop} (kind : Request → Prop)
    (poised : ∀ number (request : Request), kind request →
      (request.program h).Everywhere (Poised (around (.call number)) phase))
    {store : Store} {moves : List Move} {pool : Pool}
    (reached : (system h).run (idle store) moves = some pool) {number : Nat}
    {thread : Machine.Thread Err Input Call Resp Request Reply}
    (busy : pool.thread (.call number) = some thread) (is_kind : kind thread.label) :
    Poised (around (.call number)) phase thread.request thread.next := by
  refine (call_run (fun number request made next => kind request →
    Poised (around (.call number)) phase made next) (fun number request => ?_) reached
      busy).1 is_kind
  by_cases of_kind : kind request
  · exact everywhere_mono (fun _ _ poised _ => poised) (poised number request of_kind)
  · exact everywhere_of_forall (fun _ _ wrong => absurd wrong of_kind) _

end Poised

end Ownership

end WaAutomation
