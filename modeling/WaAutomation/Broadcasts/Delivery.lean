/-
**Delivery: what is sent to a recipient, and what its row says about it.**

A ledger is the recipient rows with the messages sent to them. It is `Consistent` when nothing that
was accepted is recorded pending or failed, and nothing was sent after an accepted message. Two
readings are carried through one proof: `strict`, where no database call fails, a pending recipient
was never sent anything and nobody is sent two messages; otherwise the write of a rejection may
fail, and a pending recipient may have been sent messages that were all rejected.

* `sendLoop_safe` is the induction over the pending recipients of a run, `process_safe` the whole
  run, under any interference that leaves the ledger alone;
* `request_quiet` says that no service call but `create` and `remove` touches the ledger;
* `delivering_act` puts both together for one move of the system.
-/

import WaAutomation.Broadcasts.System
import WaAutomation.Model.Calls

set_option linter.unusedSectionVars false

namespace WaAutomation

open Library Program

namespace Delivery

/-! ### The ledger -/

/-- The verdicts on the messages sent to a recipient, in order. -/
def verdicts (sends : List (RecipientRef × Bool)) (id : Uuid) : List Bool :=
  (sends.filter fun send => send.1.id == id).map Prod.snd

theorem verdicts_append (sends : List (RecipientRef × Bool)) (recipient : RecipientRef)
    (accepted : Bool) (id : Uuid) :
    verdicts (sends ++ [(recipient, accepted)]) id =
      if recipient.id = id then verdicts sends id ++ [accepted] else verdicts sends id := by
  unfold verdicts
  rw [List.filter_append, List.map_append]
  by_cases same : recipient.id = id <;> simp [same]

/-- What may have been sent to a recipient that is still pending. -/
def Unserved (strict : Prop) (verdicts : List Bool) : Prop :=
  true ∉ verdicts ∧ (strict → verdicts = [])

/-- What may have been sent to anybody. -/
def Served (strict : Prop) (verdicts : List Bool) : Prop :=
  true ∉ verdicts.dropLast ∧ (strict → verdicts.length ≤ 1)

theorem served_append {strict : Prop} {verdicts : List Bool} (unserved : Unserved strict verdicts)
    (accepted : Bool) : Served strict (verdicts ++ [accepted]) := by
  refine ⟨?_, fun holds => ?_⟩
  · rw [List.dropLast_concat]
    exact unserved.1
  · rw [unserved.2 holds]
    exact le_refl 1

theorem unserved_refused {strict : Prop} {verdicts : List Bool} (lax : ¬strict)
    (unserved : Unserved strict verdicts) : Unserved strict (verdicts ++ [false]) := by
  refine ⟨fun member => ?_, fun holds => absurd holds lax⟩
  rcases List.mem_append.mp member with earlier | last
  · exact unserved.1 earlier
  · simp at last

structure Consistent (strict : Prop) (recipients : List BroadcastRecipient)
    (sends : List (RecipientRef × Bool)) : Prop where
  keys : (recipients.map BroadcastRecipient.id).Nodup
  pending : ∀ recipient ∈ recipients, recipient.status = .pending →
    Unserved strict (verdicts sends recipient.id)
  failed : ∀ recipient ∈ recipients, recipient.status = .failed →
    true ∉ verdicts sends recipient.id
  served : ∀ id, Served strict (verdicts sends id)

/-- What holds of a ledger between any two calls, also while a verdict is being recorded. -/
structure Sound (strict : Prop) (recipients : List BroadcastRecipient)
    (sends : List (RecipientRef × Bool)) : Prop where
  served : ∀ id, Served strict (verdicts sends id)
  failed : ∀ recipient ∈ recipients, recipient.status = .failed →
    true ∉ verdicts sends recipient.id

theorem consistent_sound {strict : Prop} {recipients : List BroadcastRecipient}
    {sends : List (RecipientRef × Bool)} (consistent : Consistent strict recipients sends) :
    Sound strict recipients sends :=
  ⟨consistent.served, consistent.failed⟩

/-- A ledger before anything was sent. -/
theorem consistent_fresh {strict : Prop} {recipients : List BroadcastRecipient}
    (keys : (recipients.map BroadcastRecipient.id).Nodup) : Consistent strict recipients [] :=
  ⟨keys, fun _ _ _ => ⟨List.not_mem_nil, fun _ => rfl⟩, fun _ _ _ => List.not_mem_nil,
    fun _ => ⟨List.not_mem_nil, fun _ => Nat.zero_le 1⟩⟩

/-- What one call may do to a recipient row: nothing, or record the verdict on the message it was
just sent. -/
def Settles (sends : List (RecipientRef × Bool)) (before after : BroadcastRecipient) : Prop :=
  after.id = before.id ∧ after.broadcastId = before.broadcastId ∧
    (after.status = before.status ∨
      before.status = .pending ∧ ∃ accepted,
        (verdicts sends before.id).getLast? = some accepted ∧
          after.status = if accepted then .sent else .failed)

theorem settles_refl (sends : List (RecipientRef × Bool)) (recipient : BroadcastRecipient) :
    Settles sends recipient recipient :=
  ⟨rfl, rfl, .inl rfl⟩

/-- A ledger whose pending recipient was sent a message, before the verdict is recorded. -/
structure Offered (strict : Prop) (recipients : List BroadcastRecipient)
    (sends : List (RecipientRef × Bool)) (recipient : BroadcastRecipient) (accepted : Bool) :
    Prop where
  keys : (recipients.map BroadcastRecipient.id).Nodup
  member : recipient ∈ recipients
  status : recipient.status = .pending
  last : ∃ earlier, Unserved strict earlier ∧ verdicts sends recipient.id = earlier ++ [accepted]
  pending : ∀ other ∈ recipients, other.id ≠ recipient.id → other.status = .pending →
    Unserved strict (verdicts sends other.id)
  failed : ∀ other ∈ recipients, other.id ≠ recipient.id → other.status = .failed →
    true ∉ verdicts sends other.id
  served : ∀ id, Served strict (verdicts sends id)

/-- A message to a pending recipient. -/
theorem offered_append {strict : Prop} {recipients : List BroadcastRecipient}
    {sends : List (RecipientRef × Bool)} {recipient : BroadcastRecipient}
    (consistent : Consistent strict recipients sends) (member : recipient ∈ recipients)
    (status : recipient.status = .pending) (accepted : Bool) :
    Offered strict recipients
      (sends ++ [(⟨recipient.id, recipient.broadcastId⟩, accepted)]) recipient accepted := by
  have unserved := consistent.pending recipient member status
  refine ⟨consistent.keys, member, status, ⟨_, unserved, ?_⟩, fun other at_other different => ?_,
    fun other at_other different => ?_, fun id => ?_⟩
  · rw [verdicts_append, if_pos rfl]
  · rw [verdicts_append, if_neg (Ne.symm different)]
    exact consistent.pending other at_other
  · rw [verdicts_append, if_neg (Ne.symm different)]
    exact consistent.failed other at_other
  · rw [verdicts_append]
    by_cases same : recipient.id = id
    · rw [if_pos same, ← same]
      exact served_append unserved accepted
    · rw [if_neg same]
      exact consistent.served id

theorem offered_sound {strict : Prop} {recipients : List BroadcastRecipient}
    {sends : List (RecipientRef × Bool)} {recipient : BroadcastRecipient} {accepted : Bool}
    (offered : Offered strict recipients sends recipient accepted) :
    Sound strict recipients sends := by
  refine ⟨offered.served, fun other member is_failed => ?_⟩
  by_cases same : other.id = recipient.id
  · have is_recipient := Rows.unique offered.keys member offered.member same
    rw [is_recipient, offered.status] at is_failed
    cases is_failed
  · exact offered.failed other member same is_failed

/-- Recording the verdict. -/
theorem consistent_put {strict : Prop} {recipients : List BroadcastRecipient}
    {sends : List (RecipientRef × Bool)} {recipient row : BroadcastRecipient} {accepted : Bool}
    (offered : Offered strict recipients sends recipient accepted) (same : row.id = recipient.id)
    (status : row.status = if accepted then .sent else .failed) :
    Consistent strict (Rows.put BroadcastRecipient.id row recipients) sends := by
  refine ⟨?_, fun other member is_pending => ?_, fun other member is_failed => ?_, offered.served⟩
  · rw [Rows.keys_put]
    exact offered.keys
  · rcases Rows.mem_put.mp member with ⟨stored, different⟩ | ⟨rfl, _⟩
    · exact offered.pending other stored (same ▸ different) is_pending
    · rw [status] at is_pending
      cases accepted <;> cases is_pending
  · rcases Rows.mem_put.mp member with ⟨stored, different⟩ | ⟨rfl, _⟩
    · exact offered.failed other stored (same ▸ different) is_failed
    · rw [status] at is_failed
      cases accepted with
      | true => cases is_failed
      | false =>
        obtain ⟨earlier, unserved, last⟩ := offered.last
        rw [same, last]
        intro accepted_once
        rcases List.mem_append.mp accepted_once with before | now
        · exact unserved.1 before
        · simp at now

/-- A verdict that could not be recorded: only rejections may be lost. -/
theorem consistent_refused {strict : Prop} (lax : ¬strict) {recipients : List BroadcastRecipient}
    {sends : List (RecipientRef × Bool)} {recipient : BroadcastRecipient}
    (offered : Offered strict recipients sends recipient false) :
    Consistent strict recipients sends := by
  obtain ⟨earlier, unserved, last⟩ := offered.last
  refine ⟨offered.keys, fun other member is_pending => ?_, fun other member is_failed => ?_,
    offered.served⟩
  · by_cases same : other.id = recipient.id
    · rw [same, last]
      exact unserved_refused lax unserved
    · exact offered.pending other member same is_pending
  · exact (offered_sound offered).failed other member is_failed

theorem settles_put {strict : Prop} {recipients : List BroadcastRecipient}
    {sends : List (RecipientRef × Bool)} {recipient row : BroadcastRecipient} {accepted : Bool}
    (offered : Offered strict recipients sends recipient accepted) (same : row.id = recipient.id)
    (parent : row.broadcastId = recipient.broadcastId)
    (status : row.status = if accepted then .sent else .failed) :
    List.Forall₂ (Settles sends) recipients (Rows.put BroadcastRecipient.id row recipients) := by
  refine Rows.forall₂_put (settles_refl sends) fun old member at_row => ?_
  have is_recipient : old = recipient :=
    Rows.unique offered.keys member offered.member (at_row.trans same)
  subst is_recipient
  obtain ⟨earlier, _, last⟩ := offered.last
  exact ⟨same, parent, .inr ⟨offered.status, accepted, by rw [last, List.getLast?_concat], status⟩⟩

/-! ### The run of a job -/

/-- The writes of recipients that must not fail. -/
def Spares (strict : Prop) : Call → Input → Store → Prop
  | .save .recipients entity, input, store =>
      strict ∨ entity.row.status = .sent →
        ∃ reply, (exec (.save .recipients entity) input store).1 = .ok reply
  | _, _, _ => True

/-- The others leave the ledger alone, and every call of the run is a step of it. -/
def around (strict : Prop) : Surroundings Input Call Store where
  rely request input store store' :=
    (store'.recipients, store'.sends) = (store.recipients, store.sends) ∧
      Sound strict store'.recipients store'.sends ∧ Spares strict request input store'
  ok request input store :=
    List.Forall₂ (Settles (exec request input store).2.sends) store.recipients
        (exec request input store).2.recipients ∧
      Sound strict (exec request input store).2.recipients (exec request input store).2.sends

/-- The end of a run: a consistent ledger, without pending recipients if it ran through. -/
def post (strict : Prop) (broadcastId : Uuid) (result : Except Err RunResult) (store : Store) :
    Prop :=
  Consistent strict store.recipients store.sends ∧
    ∀ sent failed, result = .ok (.done sent failed) → ∀ recipient ∈ store.recipients,
      recipient.broadcastId = broadcastId → recipient.status ≠ .pending

/-- A call that leaves the ledger alone. -/
def Quiet (call : Call) : Prop := call.writes .recipients = false ∧ call.serves = none

theorem quiet_view {call : Call} (quiet : Quiet call) (input : Input) (store : Store) :
    ((exec call input store).2.recipients, (exec call input store).2.sends) =
      (store.recipients, store.sends) := by
  rw [exec_recipients call input store quiet.1, exec_sends call input store quiet.2]

theorem frames (strict : Prop) :
    Frames exec (around strict) (fun store => (store.recipients, store.sends)) Quiet := by
  intro request quiet store store' input moved
  obtain ⟨same, sound, _⟩ := moved
  have kept := quiet_view quiet input store'
  obtain ⟨recipients, sends⟩ := Prod.mk.inj kept
  refine ⟨⟨?_, ?_⟩, kept.trans same⟩
  · rw [recipients]
    exact List.forall₂_same.mpr fun recipient _ => settles_refl _ recipient
  · rw [recipients, sends]
    exact sound

theorem quiet_reads {call : Call} (reads : call.reads = true) : Quiet call := by
  refine ⟨Call.reads_writes reads .recipients, ?_⟩
  cases call <;> first | rfl | cases reads

/-- The rule of recording a verdict. -/
theorem save_safe {strict : Prop} {store : Store} {recipient : BroadcastRecipient} {accepted : Bool}
    (offered : Offered strict store.recipients store.sends recipient accepted)
    (row : BroadcastRecipient) (same : row.id = recipient.id)
    (parent : row.broadcastId = recipient.broadcastId)
    (status : row.status = if accepted then .sent else .failed)
    {result : Except Err Unit → Store → Prop}
    (saved : ∀ store', Consistent strict store'.recipients store'.sends →
      store'.recipients = Rows.put BroadcastRecipient.id row store.recipients →
        result (.ok ()) store')
    (lost : ∀ error store', accepted = false → Consistent strict store'.recipients store'.sends →
      result (.error error) store') :
    (Svc.save .recipients row).Safe exec (around strict) result store := by
  refine safe_perform fun store' input moved => ?_
  obtain ⟨view, sound, spares⟩ := moved
  obtain ⟨recipients, sends⟩ := Prod.mk.inj view
  rw [← recipients, ← sends] at offered
  have sends' := exec_sends (.save .recipients (.whole row)) input store' rfl
  obtain ⟨error, failed⟩ | ⟨ok, _, written⟩ := exec_save_recipient row input store'
  · -- The write fails: it was a rejection, and the row stays as it was.
    have lax : ¬(strict ∨ row.status = .sent) := by
      intro must
      obtain ⟨reply, replied⟩ := spares must
      rw [failed] at replied
      cases replied
    have refused : accepted = false := by
      cases accepted with
      | true => exact absurd (.inr status) lax
      | false => rfl
    subst refused
    rw [failed]
    refine ⟨⟨?_, ?_⟩, lost error store' rfl ?_⟩
    · rw [failed]
      exact List.forall₂_same.mpr fun other _ => settles_refl _ other
    · rw [failed]
      exact sound
    · exact consistent_refused (fun holds => lax (.inl holds)) offered
  · obtain ⟨_, put⟩ | ⟨absent, _⟩ := written
    · have consistent := consistent_put offered same status
      rw [ok]
      refine ⟨⟨?_, ?_⟩, saved _ ?_ ?_⟩
      · rw [put, sends']
        exact settles_put offered same parent status
      · rw [put, sends']
        exact consistent_sound consistent
      · rw [put, sends']
        exact consistent
      · rw [put, recipients]
    · exact absurd same.symm (absent recipient offered.member)

/-- What delivering to a recipient leaves: a consistent ledger and, if the loop goes on, its row no
longer pending. -/
def Recorded (strict : Prop) (recipients : List BroadcastRecipient) (recipient : BroadcastRecipient)
    (result : Except Err Broadcast) (store : Store) : Prop :=
  Consistent strict store.recipients store.sends ∧
    ∀ broadcast, result = .ok broadcast → ∃ row : BroadcastRecipient,
      row.id = recipient.id ∧ row.status ≠ .pending ∧
        store.recipients = Rows.put BroadcastRecipient.id row recipients

theorem recordFailure_safe {strict : Prop} {store : Store} {recipient : BroadcastRecipient}
    (offered : Offered strict store.recipients store.sends recipient false) (broadcast : Broadcast)
    (err : Err) :
    (BroadcastProcessor.recordFailure broadcast recipient err).Safe exec (around strict)
      (Recorded strict store.recipients recipient) store := by
  refine safe_bind (save_safe offered (BroadcastProcessor.recipientFailed recipient err.message)
    rfl rfl rfl ?_ ?_)
  · intro after consistent put
    exact ⟨consistent, fun _ _ => ⟨BroadcastProcessor.recipientFailed recipient err.message, rfl,
      (fun wrong => by cases wrong), put⟩⟩
  · intro error after _ consistent
    exact ⟨consistent, fun _ wrong => by cases wrong⟩

theorem recordSuccess_safe {strict : Prop} {store : Store} {recipient : BroadcastRecipient}
    (offered : Offered strict store.recipients store.sends recipient true)
    (ctx : BroadcastProcessor.Context) (broadcast : Broadcast) (message : String)
    (res : OpenwaResponse) :
    (BroadcastProcessor.recordSuccess ctx broadcast recipient message res).Safe exec (around strict)
      (Recorded strict store.recipients recipient) store := by
  refine safe_now fun now => ?_
  refine safe_bind (safe_attempt (save_safe offered
    (BroadcastProcessor.recipientSent recipient now) rfl rfl rfl ?_ fun _ _ wrong =>
      by cases wrong))
  intro after consistent put
  refine safe_stable_attempt_bind (stable_of_frames (frames strict) after)
    (MessagesService.record_calls fun _ _ => ⟨rfl, rfl⟩) rfl fun _ later same => ?_
  obtain ⟨recipients, sends⟩ := Prod.mk.inj same
  refine ⟨?_, fun _ _ => ⟨BroadcastProcessor.recipientSent recipient now, rfl,
    (fun wrong => by cases wrong), recipients.trans put⟩⟩
  rw [recipients, sends]
  exact consistent

/-- One recipient: it is sent one message, and the verdict is recorded, or lost after a
rejection. -/
theorem deliver_safe {strict : Prop} (ctx : BroadcastProcessor.Context) (broadcast : Broadcast)
    {recipient : BroadcastRecipient} (message : String) {store : Store}
    (consistent : Consistent strict store.recipients store.sends)
    (member : recipient ∈ store.recipients) (status : recipient.status = .pending) :
    (BroadcastProcessor.deliver ctx broadcast recipient message).Safe exec (around strict)
      (Recorded strict store.recipients recipient) store := by
  refine safe_bind (safe_attempt (safe_sendText fun store' input moved => ?_))
  obtain ⟨recipients, sends⟩ := Prod.mk.inj moved.1
  rw [← recipients, ← sends] at consistent
  rw [← recipients] at member ⊢
  have offer (accepted : Bool) : Offered strict store'.recipients
      (store'.sends ++ [(⟨recipient.id, recipient.broadcastId⟩, accepted)]) recipient accepted :=
    offered_append consistent member status accepted
  refine ⟨?_, fun accepted store'' sends'' db'' => ?_⟩
  · obtain ⟨accepted, after, db, _⟩ := exec_serve ⟨ctx.creds,
      .sendText (toChatId recipient.phone) message, ctx.session.ref,
      some ⟨recipient.id, recipient.broadcastId⟩⟩ rfl input store'
    have kept := congrFun db .recipients
    refine ⟨?_, ?_⟩
    · unfold Store.recipients
      rw [kept]
      exact List.forall₂_same.mpr fun other _ => settles_refl _ other
    · unfold Store.recipients
      rw [kept, after]
      exact offered_sound (offer accepted)
  · have recipients'' : store''.recipients = store'.recipients := congrFun db'' .recipients
    have offered := offer accepted
    rw [← recipients'', ← sends''] at offered
    rw [← recipients'']
    constructor
    · rintro rfl res
      exact recordSuccess_safe offered ctx broadcast message res
    · rintro rfl err
      exact recordFailure_safe offered broadcast err

/-- The pending recipients a run has still to serve. -/
structure Outstanding (broadcastId : Uuid) (recipients pending : List BroadcastRecipient) :
    Prop where
  keys : (pending.map BroadcastRecipient.id).Nodup
  stored : ∀ recipient ∈ pending, recipient ∈ recipients ∧ recipient.status = .pending
  all : ∀ recipient ∈ recipients, recipient.broadcastId = broadcastId →
    recipient.status = .pending → recipient ∈ pending

/-- What is outstanding after the first recipient was served. -/
theorem outstanding_tail {broadcastId : Uuid} {recipients pending : List BroadcastRecipient}
    {recipient row : BroadcastRecipient}
    (outstanding : Outstanding broadcastId recipients (recipient :: pending))
    (same : row.id = recipient.id) (status : row.status ≠ .pending) :
    Outstanding broadcastId (Rows.put BroadcastRecipient.id row recipients) pending := by
  have keys := List.nodup_cons.mp outstanding.keys
  refine ⟨keys.2, fun other member => ?_, fun other member parent is_pending => ?_⟩
  · obtain ⟨stored, is_pending⟩ := outstanding.stored other (List.mem_cons_of_mem _ member)
    refine ⟨Rows.mem_put.mpr (.inl ⟨stored, fun equal => ?_⟩), is_pending⟩
    exact keys.1 (List.mem_map.mpr ⟨other, member, equal.trans same⟩)
  · rcases Rows.mem_put.mp member with ⟨stored, different⟩ | ⟨rfl, _⟩
    · rcases List.mem_cons.mp (outstanding.all other stored parent is_pending) with rfl | later
      · exact absurd same.symm different
      · exact later
    · exact absurd is_pending status

/-- Every way to leave a run early leaves the ledger consistent. -/
theorem stopped {strict : Prop} {broadcastId : Uuid} {store after : Store}
    (consistent : Consistent strict store.recipients store.sends)
    (same : (after.recipients, after.sends) = (store.recipients, store.sends))
    {result : Except Err RunResult} (early : ∀ sent failed, result ≠ .ok (.done sent failed)) :
    post strict broadcastId result after := by
  obtain ⟨recipients, sends⟩ := Prod.mk.inj same
  refine ⟨?_, fun sent failed wrong => absurd wrong (early sent failed)⟩
  rw [recipients, sends]
  exact consistent

/-- The loop, by induction on the recipients still to be served. -/
theorem sendLoop_safe {strict : Prop} (h : Helpers) (ctx : BroadcastProcessor.Context)
    (broadcastId : Uuid) :
    ∀ (pending : List BroadcastRecipient) (broadcast : Broadcast) (store : Store),
      Consistent strict store.recipients store.sends →
      Outstanding broadcastId store.recipients pending →
        (BroadcastProcessor.sendLoop h ctx broadcast pending).Safe exec (around strict)
          (post strict broadcastId) store := by
  intro pending
  induction pending with
  | nil =>
    intro broadcast store consistent outstanding
    refine safe_now fun now => safe_frame_bind (frames strict) (calls_call ⟨rfl, rfl⟩) ?_ ?_
    · exact fun error after same => stopped consistent same fun _ _ wrong => by cases wrong
    · intro _ after same
      obtain ⟨recipients, sends⟩ := Prod.mk.inj same
      refine ⟨?_, fun _ _ _ recipient member parent is_pending => ?_⟩
      · rw [recipients, sends]
        exact consistent
      · rw [recipients] at member
        exact absurd (outstanding.all recipient member parent is_pending) List.not_mem_nil
  | cons recipient pending ih =>
    intro broadcast store consistent outstanding
    refine safe_frame_bind (frames strict) (calls_call ⟨rfl, rfl⟩) ?_ ?_
    · exact fun error after same => stopped consistent same fun _ _ wrong => by cases wrong
    intro fresh after same
    obtain ⟨recipients, sends⟩ := Prod.mk.inj same
    rw [← recipients, ← sends] at consistent
    rw [← recipients] at outstanding
    by_cases cancelled : fresh = some .cancelled
    · rw [if_pos cancelled]
      exact stopped consistent rfl fun _ _ wrong => by cases wrong
    rw [if_neg cancelled]
    refine safe_lift (fun error _ => stopped consistent rfl fun _ _ wrong => by cases wrong)
      fun message _ => ?_
    obtain ⟨member, is_pending⟩ := outstanding.stored recipient List.mem_cons_self
    refine safe_bind (safe_mono (fun result later recorded => ?_)
      (deliver_safe ctx broadcast message consistent member is_pending))
    obtain ⟨consistent, progress⟩ := recorded
    cases result with
    | error error => exact stopped consistent rfl fun _ _ wrong => by cases wrong
    | ok next =>
      obtain ⟨row, same_id, status, put⟩ := progress next rfl
      have left := outstanding_tail outstanding same_id status
      rw [← put] at left
      -- Saving the counters, the event and the pause leave the ledger alone.
      refine safe_frame_bind (frames strict) (calls_call ⟨rfl, rfl⟩) ?_ ?_
      · exact fun error last same => stopped consistent same fun _ _ wrong => by cases wrong
      intro _ last same_last
      refine safe_frame_bind (frames strict)
        (BroadcastProcessor.announce_calls (fun _ => ⟨rfl, rfl⟩) fun _ => ⟨rfl, rfl⟩) ?_ ?_
      · exact fun error end_ same => stopped consistent (same.trans same_last)
          fun _ _ wrong => by cases wrong
      intro _ end_ same_end
      obtain ⟨recipients', sends'⟩ := Prod.mk.inj (same_end.trans same_last)
      refine ih next end_ ?_ ?_
      · rw [recipients', sends']
        exact consistent
      · rw [recipients']
        exact left

/-- **A whole run** keeps the ledger consistent, and leaves nobody pending if it runs through. -/
theorem process_safe {strict : Prop} (h : Helpers) (data : BroadcastJob) (store : Store)
    (consistent : Consistent strict store.recipients store.sends) :
    (BroadcastProcessor.process h data).Safe exec (around strict) (post strict data.broadcastId)
      store := by
  refine safe_findOne_bind (stable_of_frames (frames strict) store) (quiet_reads rfl) rfl ?_
    fun after same => ?_
  · exact fun error after same => stopped consistent same fun _ _ wrong => by cases wrong
  cases found : (after.db .broadcasts).find? fun broadcast => broadcast.id == data.broadcastId with
  | none => exact stopped consistent same fun _ _ wrong => by cases wrong
  | some broadcast =>
    have is_job : broadcast.id = data.broadcastId := by simpa using List.find?_some found
    have reads {α : Type} {program : Svc α} (reads : Reads program) : program.Calls Quiet :=
      calls_of_reads reads fun call => quiet_reads
    refine safe_frame_bind (frames strict) (reads (SessionsService.getById_reads _)) ?_ ?_
    · exact fun error next same_next => stopped consistent (same_next.trans same)
        fun _ _ wrong => by cases wrong
    intro session next same_next
    have same := same_next.trans same
    refine safe_frame_bind (frames strict)
      (reads (WorkspacesService.getOpenwaCredentials_reads h _)) ?_ ?_
    · exact fun error next same_next => stopped consistent (same_next.trans same)
        fun _ _ wrong => by cases wrong
    intro creds next same_next
    have same := same_next.trans same
    refine safe_now fun now => safe_frame_bind (frames strict) (calls_call ⟨rfl, rfl⟩) ?_ ?_
    · exact fun error next same_next => stopped consistent (same_next.trans same)
        fun _ _ wrong => by cases wrong
    intro _ next same_next
    have same := same_next.trans same
    refine safe_find_bind (stable_of_frames (frames strict) next) (quiet_reads rfl) rfl ?_
      fun last same_last => ?_
    · exact fun error last same_last => stopped consistent (same_last.trans same)
        fun _ _ wrong => by cases wrong
    obtain ⟨recipients, sends⟩ := Prod.mk.inj (same_last.trans same)
    rw [← recipients, ← sends] at consistent
    -- The pending recipients are those of the broadcast the job names.
    refine sendLoop_safe h _ data.broadcastId _ _ last consistent ⟨?_, fun recipient member => ?_,
      fun recipient member parent is_pending => ?_⟩
    · exact consistent.keys.sublist (List.filter_sublist.map _)
    · obtain ⟨stored, matches_⟩ := List.mem_filter.mp member
      simp only [Bool.and_eq_true, beq_iff_eq] at matches_
      exact ⟨stored, matches_.2⟩
    · refine List.mem_filter.mpr ⟨member, ?_⟩
      simp only [Bool.and_eq_true, beq_iff_eq]
      exact ⟨parent.trans is_job.symm, is_pending⟩

/-! ### The system -/

theorem request_quiet (h : Helpers) {request : Request} (spares : Request.spares request = true) :
    (request.program h).Calls Quiet := by
  refine calls_mono (fun call made => ?_) (request.program_calls h)
  rcases made with reads | makes
  · exact quiet_reads reads
  · cases request with
    | create _ _ _ => cases spares
    | remove _ _ _ => cases spares
    | update _ _ _ _ =>
      obtain ⟨entity, rfl⟩ := makes
      exact ⟨rfl, rfl⟩
    | send _ _ _ =>
      obtain ⟨entity, rfl⟩ | ⟨data, attempts, delay, rfl⟩ := makes
      · exact ⟨rfl, rfl⟩
      · exact ⟨rfl, rfl⟩
    | cancel _ _ _ =>
      obtain ⟨entity, rfl⟩ := makes
      exact ⟨rfl, rfl⟩
    | status _ _ _ => cases makes
    | report _ _ _ => cases makes
    | removeSession _ _ _ =>
      obtain ⟨creds, method, session, rfl⟩ | ⟨row, rfl⟩ := makes
      · exact ⟨rfl, rfl⟩
      · exact ⟨rfl, rfl⟩
    | elsewhere _ =>
      obtain ⟨change, rfl⟩ := makes
      exact ⟨rfl, rfl⟩

/-- What the worker relies on, and what a request does. -/
def slotAround (strict : Prop) : (slot : Slot) → slot.Label → Surroundings Input Call Store
  | .worker, _ => around strict
  | .call _, _ => ⟨fun _ _ _ _ => True, fun request _ _ => Quiet request⟩

def slotPost (strict : Prop) :
    (slot : Slot) → slot.Label → Except Err slot.Result → Store → Prop
  | .worker, attempt => post strict attempt.data.broadcastId
  | .call _, _ => fun _ _ => True

/-- The invariant of a pool: the ledger is consistent whenever no run is in flight, and a run in
flight will leave it so. -/
structure Delivering (h : Helpers) (strict : Prop) (pool : Pool) : Prop where
  sound : Sound strict pool.shared.recipients pool.shared.sends
  rest : pool.thread .worker = none → Consistent strict pool.shared.recipients pool.shared.sends
  secure : Machine.Pool.Secure (system h) (slotAround strict) (slotPost strict) pool

/-- The moves considered: requests that leave the ledger alone, and calls of the run that do not
fail where they must not. -/
def Keeps (strict : Prop) (pool : Pool) : Move → Prop
  | .start .worker _ _ => True
  | .start (.call _) request _ => Request.spares request = true
  | .resume slot input =>
      ∀ thread, pool.thread slot = some thread → Spares strict thread.request input pool.shared

theorem ledger_called {h : Helpers} {pool pool' : Pool} {move : Move}
    (moved : (system h).act pool move = some pool') :
    (pool'.shared.recipients, pool'.shared.sends) =
      ((called pool move).recipients, (called pool move).sends) := by
  obtain same | ⟨_, _, same⟩ := act_called moved
  · rw [same]
  · rw [same]
    rfl

/-- A move of a request leaves the ledger alone. -/
theorem ledger_request {h : Helpers} {strict : Prop} {pool : Pool} {move : Move}
    (delivering : Delivering h strict pool) (request : move.slot ≠ .worker) :
    ((called pool move).recipients, (called pool move).sends) =
      (pool.shared.recipients, pool.shared.sends) := by
  cases move with
  | start slot label input => rfl
  | resume slot input =>
    cases slot with
    | worker => exact absurd rfl request
    | call number =>
      cases busy : pool.thread (.call number) with
      | none => simp only [called, busy]
      | some thread =>
        rw [called_resume busy]
        have quiet : Quiet thread.request :=
          (delivering.secure (.call number) thread busy pool.shared input trivial).1
        exact quiet_view quiet input pool.shared

/-- A resumed run is met as it relies on. -/
theorem relied {h : Helpers} {strict : Prop} {pool : Pool} {input : Input}
    (delivering : Delivering h strict pool) (keeps : Keeps strict pool (.resume .worker input))
    {thread : Machine.Thread Err Input Call Resp Attempt RunResult}
    (busy : pool.thread .worker = some thread) :
    (around strict).rely thread.request input pool.shared pool.shared :=
  ⟨rfl, delivering.sound, keeps thread busy⟩

/-- **A move of the system is a step of the ledger.** -/
theorem settles_act {h : Helpers} {strict : Prop} {pool pool' : Pool} {move : Move}
    (delivering : Delivering h strict pool) (keeps : Keeps strict pool move)
    (moved : (system h).act pool move = some pool') :
    List.Forall₂ (Settles pool'.shared.sends) pool.shared.recipients pool'.shared.recipients ∧
      Sound strict pool'.shared.recipients pool'.shared.sends := by
  obtain ⟨recipients, sends⟩ := Prod.mk.inj (ledger_called moved)
  rw [recipients, sends]
  by_cases worker : move.slot = .worker
  · obtain ⟨slot, label, input, rfl, _⟩ | ⟨slot, input, thread, rfl, busy, _⟩ :=
      (system h).act_cases moved
    · exact ⟨List.forall₂_same.mpr fun recipient _ => settles_refl _ recipient, delivering.sound⟩
    · cases worker
      rw [called_resume busy]
      exact ((system h).secure_resume input delivering.secure busy (relied delivering keeps busy)).1
  · obtain ⟨recipients', sends'⟩ := Prod.mk.inj (ledger_request delivering worker)
    rw [recipients', sends']
    exact ⟨List.forall₂_same.mpr fun recipient _ => settles_refl _ recipient, delivering.sound⟩

/-- What the worker leaves when its run ends. -/
theorem post_act {h : Helpers} {strict : Prop} {pool pool' : Pool} {attempt : Attempt}
    {input : Input} {result : Except Err RunResult} (delivering : Delivering h strict pool)
    (keeps : Keeps strict pool (.resume .worker input))
    (moved : (system h).act pool (.resume .worker input) = some pool')
    (ends : (system h).Ends pool .worker attempt input result) :
    post strict attempt.data.broadcastId result pool'.shared := by
  obtain ⟨thread, busy, rfl, finished⟩ := ends
  have left := ((system h).secure_resume input delivering.secure busy
    (relied delivering keeps busy)).2 result finished
  obtain ⟨recipients, sends⟩ := Prod.mk.inj (ledger_called moved)
  rw [called_resume busy] at recipients sends
  unfold post
  rw [recipients, sends]
  exact left

/-- The worker's slot is free after a move only if it was before, or a run ended. -/
theorem rest_act {h : Helpers} {strict : Prop} {pool pool' : Pool} {move : Move}
    (delivering : Delivering h strict pool) (keeps : Keeps strict pool move)
    (moved : (system h).act pool move = some pool') (free : pool'.thread .worker = none) :
    Consistent strict pool'.shared.recipients pool'.shared.sends := by
  obtain ⟨recipients, sends⟩ := Prod.mk.inj (ledger_called moved)
  by_cases worker : move.slot = .worker
  · obtain ⟨slot, label, input, rfl, idle_before, _, _⟩ | ⟨slot, input, thread, rfl, busy, _⟩ :=
      (system h).act_cases moved
    · cases worker
      rw [recipients, sends]
      exact delivering.rest idle_before
    · cases worker
      obtain ⟨result, stop, _⟩ | ⟨request, next, _, still⟩ := (system h).act_resume moved busy
      · exact (post_act delivering keeps moved ⟨thread, busy, rfl, stop⟩).1
      · cases still.symm.trans free
  · obtain ⟨recipients', sends'⟩ := Prod.mk.inj (ledger_request delivering worker)
    rw [recipients, sends, recipients', sends']
    exact delivering.rest ((act_waiting moved (Ne.symm worker)).symm.trans free)

/-- **The step of the invariant.** -/
theorem delivering_act {h : Helpers} {strict : Prop} {pool pool' : Pool} {move : Move}
    (delivering : Delivering h strict pool) (keeps : Keeps strict pool move)
    (moved : (system h).act pool move = some pool') : Delivering h strict pool' := by
  refine ⟨(settles_act delivering keeps moved).2, rest_act delivering keeps moved, ?_⟩
  refine (system h).act_secure delivering.secure moved (fun slot label input is_start free _ => ?_)
    (fun slot input thread is_resume busy => ?_) fun other waiting different busy third input => ?_
  · cases slot with
    | worker => exact process_safe h label.data pool.shared (delivering.rest free)
    | call number =>
      subst is_start
      exact safe_calls (request_quiet h keeps)
  · cases slot with
    | worker =>
      subst is_resume
      exact relied delivering keeps busy
    | call number => trivial
  · cases other with
    | worker =>
      rintro ⟨same, sound, spares⟩
      refine ⟨same.trans ((ledger_called moved).trans ?_), sound, spares⟩
      exact ledger_request delivering (Ne.symm different)
    | call number => exact fun _ => trivial

/-- The invariant holds all along a run whose moves keep to the conditions. -/
theorem delivering_run {h : Helpers} {strict : Prop} {store : Store} {moves : List Move}
    {pool : Pool} (keys : (store.recipients.map BroadcastRecipient.id).Nodup)
    (fresh : store.sends = [])
    (meets : (system h).Meets (Keeps strict) (idle store) moves)
    (reached : (system h).run (idle store) moves = some pool) : Delivering h strict pool := by
  refine (system h).run_invariant (fun _ _ _ delivering keeps moved =>
    delivering_act delivering keeps moved) moves (idle store) pool ?_ meets reached
  have start : Consistent strict store.recipients store.sends := by
    rw [fresh]
    exact consistent_fresh keys
  exact ⟨consistent_sound start, fun _ => start, fun _ _ busy => by cases busy⟩

/-! ### Without failing database calls -/

/-- The moves of a run in which no database call fails. -/
def reliable (pool : Pool) (move : Move) : Bool :=
  databaseHolds pool move && starts Request.spares move

theorem keeps_of_reliable {pool : Pool} {move : Move} (holds : reliable pool move = true) :
    Keeps True pool move := by
  simp only [reliable, Bool.and_eq_true] at holds
  cases move with
  | start slot label input =>
    cases slot with
    | worker => trivial
    | call number => exact holds.2
  | resume slot input =>
    intro thread busy
    have answered := holds.1
    simp only [databaseHolds, busy] at answered
    obtain ⟨label, request, next⟩ := thread
    cases request with
    | save table entity =>
      cases table with
      | recipients =>
        intro _
        cases outcome : (exec (.save .recipients entity) input pool.shared).1 with
        | ok reply => exact ⟨reply, rfl⟩
        | error error =>
          simp only [outcome] at answered
          cases answered
      | _ => trivial
    | _ => trivial

/-- In every state of every run without failing database calls, nobody was sent two messages; every
move leaves a recipient's status, or takes it from pending to the verdict on the one message it was
sent; and a run that returns `done` leaves nobody pending. -/
theorem at_most_once_and_none_lost (h : Helpers) (store : Store)
    (keys : (store.recipients.map BroadcastRecipient.id).Nodup) (fresh : store.sends = [])
    (moves : List Move) (pool : Pool) (reached : (system h).run (idle store) moves = some pool)
    (meets : (system h).Meets (fun pool move => reliable pool move = true) (idle store) moves)
    (move : Move) (pool' : Pool) (moved : (system h).act pool move = some pool')
    (holds : reliable pool move = true) :
    (∀ id, (verdicts pool'.shared.sends id).length ≤ 1) ∧
    List.Forall₂ (fun before after => after.id = before.id ∧
        after.broadcastId = before.broadcastId ∧
        (after.status = before.status ∨
          before.status = .pending ∧ after.status = .sent ∧
            verdicts pool'.shared.sends before.id = [true] ∨
          before.status = .pending ∧ after.status = .failed ∧
            verdicts pool'.shared.sends before.id = [false]))
      pool.shared.recipients pool'.shared.recipients ∧
    ∀ attempt input sent failed, move = .resume .worker input →
      (system h).Ends pool .worker attempt input (.ok (.done sent failed)) →
        ∀ recipient ∈ pool'.shared.recipients,
          recipient.broadcastId = attempt.data.broadcastId → recipient.status ≠ .pending := by
  have delivering : Delivering h True pool := delivering_run keys fresh
    ((system h).meets_mono (fun _ _ => keeps_of_reliable) meets) reached
  have keeps := keeps_of_reliable holds
  obtain ⟨settles, sound⟩ := settles_act delivering keeps moved
  refine ⟨fun id => (sound.served id).2 trivial, settles.imp fun before after step => ?_, ?_⟩
  · obtain ⟨same, parent, kept | ⟨pending, accepted, last, status⟩⟩ := step
    · exact ⟨same, parent, .inl kept⟩
    · have once := (sound.served before.id).2 trivial
      have only : verdicts pool'.shared.sends before.id = [accepted] := by
        match is : verdicts pool'.shared.sends before.id with
        | [] =>
          rw [is] at last
          cases last
        | [verdict] =>
          rw [is] at last
          exact congrArg (fun verdict => [verdict]) (Option.some.inj last)
        | _ :: _ :: _ =>
          rw [is] at once
          simp at once
      refine ⟨same, parent, .inr ?_⟩
      cases accepted with
      | true => exact .inl ⟨pending, status, only⟩
      | false => exact .inr ⟨pending, status, only⟩
  · rintro attempt input sent failed rfl ends
    exact (post_act delivering keeps moved ends).2 sent failed rfl

/-- The run of a job of the small workspace, up to its last call. -/
theorem at_most_once_and_none_lost_example :
    ∃ pool pool' : Pool,
      (system Example.helpers).run (idle Example.store)
          (Example.send ++ [Example.begin_ 0] ++ Example.works 19) = some pool ∧
        (system Example.helpers).act pool (.resume .worker Example.fine) = some pool' ∧
        (∀ id, (verdicts pool'.shared.sends id).length ≤ 1) := by
  obtain ⟨pool, reached⟩ := Option.isSome_iff_exists.mp (show ((system Example.helpers).run
    (idle Example.store) (Example.send ++ [Example.begin_ 0] ++ Example.works 19)).isSome from rfl)
  obtain ⟨pool', moved⟩ := Option.isSome_iff_exists.mp (show (((system Example.helpers).run
    (idle Example.store) (Example.send ++ [Example.begin_ 0] ++ Example.works 19)).bind
      fun pool => (system Example.helpers).act pool (.resume .worker Example.fine)).isSome from rfl)
  have holds : ((system Example.helpers).run (idle Example.store)
      (Example.send ++ [Example.begin_ 0] ++ Example.works 19)).all
        (fun pool => reliable pool (.resume .worker Example.fine)) = true := rfl
  rw [reached] at moved holds
  exact ⟨pool, pool', reached, moved, (at_most_once_and_none_lost Example.helpers Example.store
    (by decide) rfl _ pool reached
    ((system Example.helpers).meets_of_checks rfl) (.resume .worker Example.fine) pool' moved
    holds).1⟩

end Delivery

end WaAutomation
