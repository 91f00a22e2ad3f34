/-
**Counters: what a broadcast row says about its recipients.**

The rows of a store `Agree` with the recipients when `total` is the number of recipients and
`sentCount` and `failedCount` count the statuses; one broadcast, the one a run is working on, may be
out of focus: its row lags behind while the run has recorded a recipient and not yet saved its copy.

* `count_put` is how recording one verdict moves the counts;
* `sendLoop_agrees` and `process_agrees` carry the agreement of the run's copy through a run. The
  write of a recipient may fail; the write of the copy must not fail while it is ahead of the row
  (`Spares`);
* `counting_act` is the step of the system: a request keeps the agreement when the copy it writes
  has the counters of the stored row.
-/

import WaAutomation.Broadcasts.Delivery
import Mathlib.Algebra.Order.Field.Rat
import Mathlib.Tactic.Linarith

set_option linter.unusedSectionVars false

namespace WaAutomation

open Library Program

namespace Counters

/-! ### Counts -/

/-- The number of recipients of a broadcast. -/
def size (recipients : List BroadcastRecipient) (id : Uuid) : Nat :=
  recipients.countP fun recipient => recipient.broadcastId == id

/-- The number of recipients of a broadcast with a status. -/
def count (status : RecipientStatus) (recipients : List BroadcastRecipient) (id : Uuid) : Nat :=
  recipients.countP fun recipient => recipient.broadcastId == id && recipient.status == status

theorem count_le_size (recipients : List BroadcastRecipient) (id : Uuid) :
    count .sent recipients id + count .failed recipients id ≤ size recipients id := by
  unfold count size
  induction recipients with
  | nil => exact le_refl 0
  | cons recipient rest ih =>
    simp only [List.countP_cons]
    by_cases parent : recipient.broadcastId = id
    · cases status : recipient.status <;> simp [parent] <;> omega
    · simpa [parent] using ih

section Put

variable {recipients : List BroadcastRecipient} {recipient row : BroadcastRecipient}

theorem size_put (keys : (recipients.map BroadcastRecipient.id).Nodup)
    (member : recipient ∈ recipients)
    (same : row.id = recipient.id) (parent : row.broadcastId = recipient.broadcastId) (id : Uuid) :
    size (Rows.put BroadcastRecipient.id row recipients) id = size recipients id := by
  have moved := Rows.count_put keys member same.symm fun recipient => recipient.broadcastId == id
  unfold size
  rw [parent] at moved
  omega

/-- Recording a verdict on a pending recipient adds one to one count of its broadcast. -/
theorem count_put (keys : (recipients.map BroadcastRecipient.id).Nodup)
    (member : recipient ∈ recipients) (pending : recipient.status = .pending)
    (same : row.id = recipient.id) (parent : row.broadcastId = recipient.broadcastId)
    {status : RecipientStatus} (counted : status ≠ .pending) (id : Uuid) :
    count status (Rows.put BroadcastRecipient.id row recipients) id =
      count status recipients id +
        if recipient.broadcastId = id ∧ row.status = status then 1 else 0 := by
  have moved := Rows.count_put keys member same.symm fun recipient =>
    recipient.broadcastId == id && recipient.status == status
  unfold count
  have not_before : (recipient.broadcastId == id && recipient.status == status) = false := by
    rw [pending]
    simp [Ne.symm counted]
  rw [not_before, parent] at moved
  simpa using moved

end Put

/-! ### Agreement -/

/-- The counters of a row count the recipients. -/
def Exact (recipients : List BroadcastRecipient) (row : Broadcast) : Prop :=
  row.sentCount = count .sent recipients row.id ∧
    row.failedCount = count .failed recipients row.id

/-- The rows agree with the recipients, up to the counters of the broadcast in focus. -/
structure Agree (focus : Option Uuid) (store : Store) : Prop where
  keys : (store.recipients.map BroadcastRecipient.id).Nodup
  totals : ∀ row ∈ store.broadcasts, row.total = size store.recipients row.id
  counts : ∀ row ∈ store.broadcasts, focus ≠ some row.id → Exact store.recipients row

theorem agree_focus {store : Store} (agree : Agree none store) (focus : Option Uuid) :
    Agree focus store :=
  ⟨agree.keys, agree.totals, fun row member _ => agree.counts row member fun wrong =>
    by cases wrong⟩

theorem agree_of_same {focus : Option Uuid} {store store' : Store}
    (recipients : store'.recipients = store.recipients)
    (broadcasts : store'.broadcasts = store.broadcasts) (agree : Agree focus store) :
    Agree focus store' := by
  refine ⟨?_, ?_, ?_⟩
  · rw [recipients]
    exact agree.keys
  · rw [recipients, broadcasts]
    exact agree.totals
  · rw [recipients, broadcasts]
    exact agree.counts

/-- Writing an exact row over the one in focus. -/
theorem agree_written {store store' : Store} {row : Broadcast} (agree : Agree (some row.id) store)
    (total : row.total = size store.recipients row.id) (exact_ : Exact store.recipients row)
    (recipients : store'.recipients = store.recipients)
    (written : ∀ other, other ∈ store'.broadcasts ↔
      other ∈ store.broadcasts ∧ other.id ≠ row.id ∨ other = row) : Agree none store' := by
  refine ⟨?_, fun other member => ?_, fun other member _ => ?_⟩
  · rw [recipients]
    exact agree.keys
  · rw [recipients]
    rcases (written other).mp member with ⟨stored, _⟩ | rfl
    · exact agree.totals other stored
    · exact total
  · rw [recipients]
    rcases (written other).mp member with ⟨stored, different⟩ | rfl
    · exact agree.counts other stored fun same => different (Option.some.inj same).symm
    · exact exact_

/-- Recording a verdict puts its broadcast in focus. -/
theorem agree_recorded {store store' : Store} {recipient row : BroadcastRecipient}
    (agree : Agree none store) (member : recipient ∈ store.recipients)
    (pending : recipient.status = .pending) (same : row.id = recipient.id)
    (parent : row.broadcastId = recipient.broadcastId)
    (put : store'.recipients = Rows.put BroadcastRecipient.id row store.recipients)
    (broadcasts : store'.broadcasts = store.broadcasts) :
    Agree (some recipient.broadcastId) store' := by
  refine ⟨?_, fun other stored => ?_, fun other stored different => ?_⟩
  · rw [put, Rows.keys_put]
    exact agree.keys
  · rw [broadcasts] at stored
    rw [put, size_put agree.keys member same parent]
    exact agree.totals other stored
  · rw [broadcasts] at stored
    obtain ⟨sent, failed⟩ := agree.counts other stored fun wrong => by cases wrong
    have elsewhere : ∀ status, ¬(recipient.broadcastId = other.id ∧ row.status = status) :=
      fun _ both => different (congrArg some both.1)
    refine ⟨?_, ?_⟩
    · rw [put, count_put agree.keys member pending same parent (by decide), if_neg (elsewhere _)]
      exact sent
    · rw [put, count_put agree.keys member pending same parent (by decide), if_neg (elsewhere _)]
      exact failed

/-- The copy of a broadcast a run keeps in memory is exact. -/
structure Copy (id : Uuid) (store : Store) (broadcast : Broadcast) : Prop where
  same : broadcast.id = id
  total : broadcast.total = size store.recipients id
  sent : broadcast.sentCount = count .sent store.recipients id
  failed : broadcast.failedCount = count .failed store.recipients id

theorem copy_exact {id : Uuid} {store : Store} {broadcast : Broadcast}
    (copy : Copy id store broadcast) : Exact store.recipients broadcast := by
  obtain ⟨rfl, _, sent, failed⟩ := copy
  exact ⟨sent, failed⟩

theorem copy_of_same {id : Uuid} {store store' : Store} {broadcast : Broadcast}
    (recipients : store'.recipients = store.recipients) (copy : Copy id store broadcast) :
    Copy id store' broadcast := by
  refine ⟨copy.same, ?_, ?_, ?_⟩
  · rw [recipients]
    exact copy.total
  · rw [recipients]
    exact copy.sent
  · rw [recipients]
    exact copy.failed

/-! ### The run of a job -/

/-- The writes of the run's copy that must not fail: those that are ahead of the stored row. -/
def Spares : Call → Input → Store → Prop
  | .save .broadcasts entity, input, store =>
      (∃ stored ∈ store.broadcasts, stored.id = entity.row.id ∧
        (stored.sentCount ≠ entity.row.sentCount ∨ stored.failedCount ≠ entity.row.failedCount)) →
      ∃ reply, (exec (.save .broadcasts entity) input store).1 = .ok reply
  | _, _, _ => True

/-- The others leave the recipients and the counters alone, and every call of the run keeps the
agreement, with its broadcast in focus. -/
def around (id : Uuid) : Surroundings Input Call Store where
  rely request input store store' :=
    store'.recipients = store.recipients ∧ Agree (some id) store' ∧
      (Agree none store → Agree none store') ∧ Spares request input store'
  ok request input store :=
    Agree (some id) (exec request input store).2 ∧
      ∀ other, size (exec request input store).2.recipients other = size store.recipients other

/-- A call that leaves broadcasts and recipients alone. -/
def Quiet (call : Call) : Prop :=
  call.writes .recipients = false ∧ call.writes .broadcasts = false

theorem quiet_reads (call : Call) (reads : call.reads = true) : Quiet call :=
  ⟨Call.reads_writes reads _, Call.reads_writes reads _⟩

/-- The agreement is stable under quiet calls, and so are the recipients. -/
theorem stable_agree (id : Uuid) (recipients : List BroadcastRecipient) :
    Stable exec (around id) Quiet fun store =>
      Agree none store ∧ store.recipients = recipients := by
  rintro request ⟨keeps, leaves⟩ store store' input ⟨agree, here⟩ ⟨same, _, kept, _⟩
  have recipients' := exec_recipients request input store' keeps
  have agree' := agree_of_same recipients' (exec_broadcasts request input store' leaves)
    (kept agree)
  refine ⟨⟨agree_focus agree' _, fun other => by rw [recipients']⟩, agree', ?_⟩
  rw [recipients', same, here]

/-- So is the agreement with the run's broadcast in focus. -/
theorem stable_focus (id : Uuid) (recipients : List BroadcastRecipient) :
    Stable exec (around id) Quiet fun store =>
      Agree (some id) store ∧ store.recipients = recipients := by
  rintro request ⟨keeps, leaves⟩ store store' input ⟨_, here⟩ ⟨same, agree, _, _⟩
  have recipients' := exec_recipients request input store' keeps
  have agree' := agree_of_same recipients' (exec_broadcasts request input store' leaves) agree
  refine ⟨⟨agree', fun other => by rw [recipients']⟩, agree', ?_⟩
  rw [recipients', same, here]

/-- The rule of saving the run's copy. -/
theorem saveCopy_agrees {id : Uuid} {store : Store} {broadcast : Broadcast}
    (copy : Copy id store broadcast)
    {result : Except Err Unit → Store → Prop}
    (saved : ∀ store', Agree none store' → store'.recipients = store.recipients →
      result (.ok ()) store')
    (lost : ∀ error store', Agree none store' → store'.recipients = store.recipients →
      result (.error error) store') :
    (Svc.save .broadcasts broadcast).Safe exec (around id) result store := by
  refine safe_perform fun store' input moved => ?_
  obtain ⟨recipients, agree', _, spares⟩ := moved
  have copy' := copy_of_same recipients copy
  have total : broadcast.total = size store'.recipients broadcast.id := by
    rw [copy'.same]
    exact copy'.total
  have recipients' := exec_recipients (.save .broadcasts (.whole broadcast)) input store' rfl
  obtain ⟨error, failed⟩ | ⟨row, writes, ok, written⟩ := exec_save_broadcast
    (.whole broadcast) (fun row writes => congrArg _ (Entity.writes_whole writes))
    input store'
  · -- The save fails: the row was not behind, so it agrees as it is.
    have agree_none : Agree none store' := by
      refine ⟨agree'.keys, agree'.totals, fun row member _ => ?_⟩
      by_cases here : row.id = broadcast.id
      · by_contra behind
        have must : ∃ stored ∈ store'.broadcasts, stored.id = broadcast.id ∧
            (stored.sentCount ≠ broadcast.sentCount ∨
              stored.failedCount ≠ broadcast.failedCount) := by
          refine ⟨row, member, here, ?_⟩
          by_contra level
          obtain ⟨sent, failed⟩ := not_or.mp level
          refine behind ⟨?_, ?_⟩
          · rw [not_not.mp sent, here]
            exact (copy_exact copy').1
          · rw [not_not.mp failed, here]
            exact (copy_exact copy').2
        obtain ⟨reply, replied⟩ := spares must
        change (exec (.save .broadcasts (.whole broadcast)) input store').1 = _ at replied
        rw [failed] at replied
        cases replied
      · exact agree'.counts row member fun same =>
          here ((Option.some.inj same).symm.trans copy'.same.symm)
    refine ⟨⟨?_, fun other => by rw [recipients']⟩, ?_⟩
    · rw [failed]
      exact agree'
    · rw [failed]
      exact lost error store' agree_none recipients
  · obtain rfl := Entity.writes_whole writes
    have after : Agree none (exec (.save .broadcasts (.whole row)) input store').2 :=
      agree_written (copy'.same ▸ agree') total (copy_exact copy') recipients' written
    refine ⟨⟨agree_focus after _, fun other => by rw [recipients']⟩, ?_⟩
    rw [ok]
    exact saved _ after (recipients'.trans recipients)

/-- The recipients a run has still to serve. -/
structure Outstanding (id : Uuid) (recipients pending : List BroadcastRecipient) : Prop where
  keys : (pending.map BroadcastRecipient.id).Nodup
  stored : ∀ recipient ∈ pending,
    recipient ∈ recipients ∧ recipient.status = .pending ∧ recipient.broadcastId = id

theorem outstanding_tail {id : Uuid} {recipients pending : List BroadcastRecipient}
    {recipient row : BroadcastRecipient}
    (outstanding : Outstanding id recipients (recipient :: pending))
    (same : row.id = recipient.id) :
    Outstanding id (Rows.put BroadcastRecipient.id row recipients) pending := by
  have keys := List.nodup_cons.mp outstanding.keys
  refine ⟨keys.2, fun other member => ?_⟩
  obtain ⟨stored, rest⟩ := outstanding.stored other (List.mem_cons_of_mem _ member)
  refine ⟨Rows.mem_put.mpr (.inl ⟨stored, fun equal => ?_⟩), rest⟩
  exact keys.1 (List.mem_map.mpr ⟨other, member, equal.trans same⟩)

/-- What serving a recipient leaves: the copy is exact and ahead of the row, or nothing moved. -/
def Recorded (id : Uuid) (recipients : List BroadcastRecipient) (recipient : BroadcastRecipient)
    (result : Except Err Broadcast) (store : Store) : Prop :=
  match result with
  | .ok next => Agree (some id) store ∧ Copy id store next ∧ ∃ row : BroadcastRecipient,
      row.id = recipient.id ∧ store.recipients = Rows.put BroadcastRecipient.id row recipients
  | .error _ => Agree none store

/-- The rule of recording a verdict. -/
theorem saveRecipient_agrees {id : Uuid} {store : Store} {recipient row : BroadcastRecipient}
    (agree : Agree none store) (member : recipient ∈ store.recipients)
    (pending : recipient.status = .pending) (parent : recipient.broadcastId = id)
    (same : row.id = recipient.id) (same_parent : row.broadcastId = recipient.broadcastId)
    {result : Except Err Unit → Store → Prop}
    (saved : ∀ store', Agree (some id) store' →
      store'.recipients = Rows.put BroadcastRecipient.id row store.recipients →
        result (.ok ()) store')
    (lost : ∀ error store', Agree none store' → store'.recipients = store.recipients →
      result (.error error) store') :
    (Svc.save .recipients row).Safe exec (around id) result store := by
  refine safe_perform fun store' input moved => ?_
  obtain ⟨recipients, _, kept, _⟩ := moved
  have agree' := kept agree
  rw [← recipients] at member
  have broadcasts := exec_broadcasts (.save .recipients (.whole row)) input store' rfl
  obtain ⟨error, failed⟩ | ⟨ok, _, ⟨_, put⟩ | ⟨absent, _⟩⟩ := exec_save_recipient row input store'
  · refine ⟨⟨?_, ?_⟩, ?_⟩
    · rw [failed]
      exact agree_focus agree' _
    · rw [failed]
      exact fun _ => rfl
    · rw [failed]
      exact lost error store' agree' recipients
  · have after : Agree (some id) (exec (.save .recipients (.whole row)) input store').2 :=
      parent ▸ agree_recorded agree' member pending same same_parent put broadcasts
    refine ⟨⟨after, fun other => ?_⟩, ?_⟩
    · rw [put]
      exact size_put agree'.keys member same same_parent other
    · rw [ok]
      exact saved _ after (put.trans (by rw [recipients]))
  · exact absurd same.symm (absent recipient member)

/-- The copy after a verdict was recorded. -/
theorem copy_recorded {id : Uuid} {store store' : Store} {broadcast next : Broadcast}
    {recipient : BroadcastRecipient} (row : BroadcastRecipient)
    (keys : (store.recipients.map BroadcastRecipient.id).Nodup)
    (member : recipient ∈ store.recipients) (pending : recipient.status = .pending)
    (parent : recipient.broadcastId = id) (same : row.id = recipient.id)
    (same_parent : row.broadcastId = recipient.broadcastId)
    (put : store'.recipients = Rows.put BroadcastRecipient.id row store.recipients)
    (copy : Copy id store broadcast) (next_id : next.id = broadcast.id)
    (next_total : next.total = broadcast.total)
    (next_sent : next.sentCount = broadcast.sentCount + if row.status = .sent then 1 else 0)
    (next_failed :
      next.failedCount = broadcast.failedCount + if row.status = .failed then 1 else 0) :
    Copy id store' next := by
  refine ⟨next_id.trans copy.same, ?_, ?_, ?_⟩
  · rw [put, size_put keys member same same_parent, next_total]
    exact copy.total
  · rw [put, count_put keys member pending same same_parent (by decide), next_sent, copy.sent]
    simp only [parent, true_and]
  · rw [put, count_put keys member pending same same_parent (by decide), next_failed, copy.failed]
    simp only [parent, true_and]

section Deliver

variable {id : Uuid} {store : Store} {recipient : BroadcastRecipient} {broadcast : Broadcast}

theorem recordFailure_agrees (agree : Agree none store) (copy : Copy id store broadcast)
    (member : recipient ∈ store.recipients) (pending : recipient.status = .pending)
    (parent : recipient.broadcastId = id) (carried : BroadcastRecipient)
    (same : carried.id = recipient.id) (same_parent : carried.broadcastId = recipient.broadcastId)
    (err : Err) :
    (BroadcastProcessor.recordFailure broadcast carried err).Safe exec (around id)
      (Recorded id store.recipients recipient) store := by
  refine safe_bind (saveRecipient_agrees agree member pending parent
    (show (BroadcastProcessor.recipientFailed carried err.message).id = recipient.id from same)
    same_parent (fun after focus put => ?_) fun error after agree' _ => agree')
  refine ⟨focus, ?_, BroadcastProcessor.recipientFailed carried err.message, same, put⟩
  exact copy_recorded (BroadcastProcessor.recipientFailed carried err.message) agree.keys member
    pending parent same same_parent put copy rfl rfl rfl rfl

theorem recordSuccess_agrees (agree : Agree none store) (copy : Copy id store broadcast)
    (member : recipient ∈ store.recipients) (pending : recipient.status = .pending)
    (parent : recipient.broadcastId = id) (ctx : BroadcastProcessor.Context) (message : String)
    (res : OpenwaResponse) :
    (BroadcastProcessor.recordSuccess ctx broadcast recipient message res).Safe exec (around id)
      (Recorded id store.recipients recipient) store := by
  refine safe_now fun now => safe_bind (safe_attempt (saveRecipient_agrees agree member pending
    parent (show (BroadcastProcessor.recipientSent recipient now).id = recipient.id from rfl) rfl
    (fun after focus put => ?_) fun error after agree' recipients => ?_))
  · refine safe_stable_attempt_bind (stable_focus id after.recipients)
      (MessagesService.record_calls fun _ _ => ⟨rfl, rfl⟩) ⟨focus, rfl⟩ ?_
    rintro _ later ⟨focus', recipients⟩
    refine ⟨focus', ?_, BroadcastProcessor.recipientSent recipient now, rfl, recipients.trans put⟩
    exact copy_of_same recipients (copy_recorded (BroadcastProcessor.recipientSent recipient now)
      agree.keys member pending parent rfl rfl put copy rfl rfl rfl rfl)
  · -- The accepted message could not be recorded: the handler records it as failed.
    rw [← recipients] at member ⊢
    exact recordFailure_agrees agree' (copy_of_same recipients copy) member pending parent
      (BroadcastProcessor.recipientSent recipient now) rfl rfl error

theorem deliver_agrees (agree : Agree none store) (copy : Copy id store broadcast)
    (member : recipient ∈ store.recipients) (pending : recipient.status = .pending)
    (parent : recipient.broadcastId = id) (ctx : BroadcastProcessor.Context) (message : String) :
    (BroadcastProcessor.deliver ctx broadcast recipient message).Safe exec (around id)
      (Recorded id store.recipients recipient) store := by
  refine safe_bind (safe_attempt (safe_sendText fun store' input moved => ?_))
  obtain ⟨recipients, focus, kept, _⟩ := moved
  obtain ⟨accepted, _, db, _⟩ :=
    exec_serve ⟨ctx.creds, .sendText (toChatId recipient.phone) message,
    ctx.session.ref, some ⟨recipient.id, recipient.broadcastId⟩⟩ rfl input store'
  refine ⟨⟨agree_of_same (congrFun db _) (congrFun db _) focus, fun other => ?_⟩,
    fun accepted after _ db' => ?_⟩
  · exact congrArg (fun recipients => size recipients other) (congrFun db .recipients)
  · have recipients' : after.recipients = store.recipients :=
      (congrFun db' .recipients).trans recipients
    have agree' := agree_of_same (congrFun db' .recipients) (congrFun db' .broadcasts) (kept agree)
    have copy' := copy_of_same recipients' copy
    rw [← recipients'] at member ⊢
    exact ⟨fun _ res => recordSuccess_agrees agree' copy' member pending parent ctx message res,
      fun _ err => recordFailure_agrees agree' copy' member pending parent recipient rfl rfl err⟩

end Deliver

/-- The end of a run: the rows agree again. -/
def post (_ : Except Err RunResult) (store : Store) : Prop := Agree none store

/-- The loop, by induction on the recipients still to be served. -/
theorem sendLoop_agrees (h : Helpers) (ctx : BroadcastProcessor.Context) (id : Uuid) :
    ∀ (pending : List BroadcastRecipient) (broadcast : Broadcast) (store : Store),
      Agree none store → Copy id store broadcast → Outstanding id store.recipients pending →
        (BroadcastProcessor.sendLoop h ctx broadcast pending).Safe exec (around id) post store := by
  intro pending
  induction pending with
  | nil =>
    intro broadcast store agree copy _
    refine safe_now fun now => safe_bind (saveCopy_agrees
      (⟨copy.same, copy.total, copy.sent, copy.failed⟩ : Copy id store
        { broadcast with status := .done, finishedAt := some now })
      (fun after agree' _ => ?_) fun error after agree' _ => agree')
    exact agree'
  | cons recipient pending ih =>
    intro broadcast store agree copy outstanding
    refine safe_stable_bind (stable_agree id store.recipients)
      (calls_call ⟨rfl, rfl⟩) ⟨agree, rfl⟩ (fun _ _ kept => kept.1) ?_
    rintro fresh after ⟨agree', recipients⟩
    by_cases cancelled : fresh = some .cancelled
    · rw [if_pos cancelled]
      exact agree'
    rw [if_neg cancelled]
    refine safe_lift (fun error _ => agree') fun message _ => ?_
    have copy' := copy_of_same recipients copy
    rw [← recipients] at outstanding
    obtain ⟨member, is_pending, parent⟩ := outstanding.stored recipient List.mem_cons_self
    refine safe_bind (safe_mono (fun result later recorded => ?_)
      (deliver_agrees agree' copy' member is_pending parent ctx message))
    cases result with
    | error error => exact recorded
    | ok next =>
      obtain ⟨focus, next_copy, row, same_id, put⟩ := recorded
      have left := outstanding_tail outstanding same_id
      rw [← put] at left
      refine safe_bind (saveCopy_agrees next_copy (fun last agree'' recipients' => ?_)
        fun error last agree'' _ => agree'')
      refine safe_stable_bind (stable_agree id last.recipients)
        (BroadcastProcessor.announce_calls (fun _ => ⟨rfl, rfl⟩) fun _ => ⟨rfl, rfl⟩) ⟨agree'', rfl⟩
        (fun _ _ kept => kept.1) ?_
      rintro _ end_ ⟨agree_end, recipients_end⟩
      have recipients_later := recipients_end.trans recipients'
      refine ih next end_ agree_end (copy_of_same recipients_later next_copy) ?_
      rw [recipients_later]
      exact left

/-- **A whole run** leaves the rows in agreement with the recipients, however it ends. -/
theorem process_agrees (h : Helpers) (data : BroadcastJob) (store : Store)
    (agree : Agree none store) :
    (BroadcastProcessor.process h data).Safe exec (around data.broadcastId) post store := by
  have reads {α : Type} {program : Svc α} (reads : Reads program) : program.Calls Quiet :=
    calls_of_reads reads quiet_reads
  refine safe_findOne_bind (stable_agree data.broadcastId store.recipients)
    (quiet_reads _ rfl) ⟨agree, rfl⟩ (fun _ _ kept => kept.1) ?_
  rintro after ⟨agree', recipients⟩
  cases found : (after.db .broadcasts).find? fun broadcast => broadcast.id == data.broadcastId with
  | none => exact agree'
  | some broadcast =>
    have is_job : broadcast.id = data.broadcastId := by simpa using List.find?_some found
    have stored : broadcast ∈ after.broadcasts := List.mem_of_find?_eq_some found
    have exact_ := agree'.counts broadcast stored fun wrong => by cases wrong
    have copy : Copy data.broadcastId after broadcast := by
      refine ⟨is_job, ?_, ?_, ?_⟩
      · rw [← is_job]
        exact agree'.totals broadcast stored
      · rw [← is_job]
        exact exact_.1
      · rw [← is_job]
        exact exact_.2
    refine safe_stable_bind (stable_agree data.broadcastId after.recipients)
      (reads (SessionsService.getById_reads _)) ⟨agree', rfl⟩ (fun _ _ kept => kept.1) ?_
    rintro session next ⟨agree', recipients'⟩
    refine safe_stable_bind (stable_agree data.broadcastId after.recipients)
      (reads (WorkspacesService.getOpenwaCredentials_reads h _)) ⟨agree', recipients'⟩
      (fun _ _ kept => kept.1) ?_
    rintro creds next ⟨agree', recipients'⟩
    have copy' := copy_of_same recipients' copy
    refine safe_now fun now => safe_bind (saveCopy_agrees
      (⟨copy'.same, copy'.total, copy'.sent, copy'.failed⟩ : Copy data.broadcastId next
        { broadcast with status := .sending, startedAt := some now })
      (fun begun agree'' recipients'' => ?_) fun error begun agree'' _ => agree'')
    refine safe_find_bind (stable_agree data.broadcastId begun.recipients)
      (quiet_reads _ rfl) ⟨agree'', rfl⟩ (fun _ _ kept => kept.1) ?_
    rintro last ⟨agree_last, recipients_last⟩
    have copy_last := copy_of_same (recipients_last.trans recipients'') copy'
    refine sendLoop_agrees h _ data.broadcastId _ _ last agree_last
      ⟨copy_last.same, copy_last.total, copy_last.sent, copy_last.failed⟩
        ⟨?_, fun recipient member => ?_⟩
    · exact agree_last.keys.sublist (List.filter_sublist.map _)
    · obtain ⟨stored, matches_⟩ := List.mem_filter.mp member
      simp only [Bool.and_eq_true, beq_iff_eq] at matches_
      exact ⟨stored, matches_.2, matches_.1.trans is_job⟩

/-! ### Requests -/

/-- The rows a service call may write have the counters of its copy and the right total. -/
def Loyal (store : Store) (entity : Entity Broadcast) : Prop :=
  ∀ row, entity.writes row → row.id = entity.row.id ∧ row.sentCount = entity.row.sentCount ∧
    row.failedCount = entity.row.failedCount ∧ row.total = size store.recipients row.id

/-- The totals are right. -/
def Totals (store : Store) : Prop :=
  ∀ row ∈ store.broadcasts, row.total = size store.recipients row.id

def requestAround : Surroundings Input Call Store where
  rely _ _ store store' :=
    (∀ id, size store'.recipients id = size store.recipients id) ∧ Totals store'
  ok request _ store :=
    request.writes .recipients = false ∧ (request.writes .broadcasts = true →
      ∃ entity, request = .save .broadcasts entity ∧ Loyal store entity)

theorem stable_totals : Stable exec requestAround Quiet Totals := by
  rintro request ⟨keeps, leaves⟩ store store' input _ ⟨_, totals⟩
  refine ⟨⟨keeps, fun wrong => ?_⟩, ?_⟩
  · rw [leaves] at wrong
    cases wrong
  · unfold Totals
    rw [exec_recipients request input store' keeps, exec_broadcasts request input store' leaves]
    exact totals

/-- The rule of the save of a service call. -/
theorem request_save {store : Store} {broadcast : Broadcast} {entity : Entity Broadcast}
    (total : broadcast.total = size store.recipients broadcast.id)
    (row : entity.row.id = broadcast.id ∧ entity.row.sentCount = broadcast.sentCount ∧
      entity.row.failedCount = broadcast.failedCount)
    (writes : ∀ row, entity.writes row → row.id = broadcast.id ∧
      row.sentCount = broadcast.sentCount ∧ row.failedCount = broadcast.failedCount ∧
        row.total = broadcast.total) :
    (Svc.call (.save .broadcasts entity)).Safe exec requestAround (fun _ _ => True) store := by
  refine safe_perform fun store' input moved => ⟨⟨rfl, fun _ => ⟨entity, rfl, ?_⟩⟩, trivial⟩
  intro written writes_it
  obtain ⟨same, sent, failed, total'⟩ := writes written writes_it
  refine ⟨same.trans row.1.symm, sent.trans row.2.1.symm, failed.trans row.2.2.symm, ?_⟩
  rw [total', total, same]
  exact (moved.1 broadcast.id).symm

/-- A service call other than `create` and `remove` saves copies with a right total. -/
theorem request_loyal (h : Helpers) {request : Request}
    (spares : Request.spares request = true) (store : Store) (totals : Totals store) :
    (request.program h).Safe exec requestAround (fun _ _ => True) store := by
  have quiet {α : Type} {program : Svc α} (calls : program.Calls Quiet) :
      program.Safe exec requestAround (fun _ _ => True) store :=
    safe_mono (fun _ _ _ => trivial) (safe_stable stable_totals calls totals)
  have others (makes : ∀ call, request.makes call → Quiet call) :
      (request.program h).Safe exec requestAround (fun _ _ => True) store :=
    quiet (calls_mono (fun call made => made.elim (quiet_reads call) (makes call))
      (request.program_calls h))
  cases request with
  | create _ _ _ => cases spares
  | remove _ _ _ => cases spares
  | update id workspaceId userId dto =>
    refine safe_reply (safe_managed_bind stable_totals quiet_reads totals
      (fun _ _ _ => trivial) fun broadcast store' totals' stored _ => ?_)
    split
    · trivial
    · refine safe_bind (safe_mono (fun result after _ => ?_)
        (request_save (totals' broadcast stored) ?_ fun row writes => ?_))
      · cases result <;> trivial
      · rw [assign_row broadcast dto]
        exact ⟨rfl, rfl, rfl⟩
      · rw [assign_writes writes]
        exact ⟨rfl, rfl, rfl, rfl⟩
  | send id workspaceId userId =>
    refine safe_reply (safe_managed_bind stable_totals quiet_reads totals
      (fun _ _ _ => trivial) fun broadcast store' totals' stored _ => ?_)
    split
    · trivial
    · refine safe_bind (safe_mono (fun result after _ => ?_)
        (request_save (totals' broadcast stored) ⟨rfl, rfl, rfl⟩ fun row writes => ?_))
      · cases result with
        | error error => trivial
        | ok _ =>
          refine safe_now fun now => safe_bind (safe_perform fun store' input moved =>
            ⟨⟨rfl, fun wrong => by cases wrong⟩, ?_⟩)
          cases (exec _ input store').1 <;> trivial
      · rw [Entity.writes_whole writes]
        exact ⟨rfl, rfl, rfl, rfl⟩
  | cancel id workspaceId userId =>
    refine safe_reply (safe_managed_bind stable_totals quiet_reads totals
      (fun _ _ _ => trivial) fun broadcast store' totals' stored _ => ?_)
    refine safe_bind (safe_mono (fun result after _ => ?_)
      (request_save (totals' broadcast stored) ⟨rfl, rfl, rfl⟩ fun row writes => ?_))
    · cases result <;> trivial
    · rw [Entity.writes_whole writes]
      exact ⟨rfl, rfl, rfl, rfl⟩
  | status _ _ _ => exact others fun _ wrong => by cases wrong
  | report _ _ _ => exact others fun _ wrong => by cases wrong
  | removeSession _ _ _ =>
    refine others fun call made => ?_
    obtain ⟨creds, method, session, rfl⟩ | ⟨row, rfl⟩ := made
    · exact ⟨rfl, rfl⟩
    · exact ⟨rfl, rfl⟩
  | elsewhere _ =>
    refine others fun call made => ?_
    obtain ⟨change, rfl⟩ := made
    exact ⟨rfl, rfl⟩

/-! ### The system -/

/-- The copy a service call writes has the counters of the stored row. -/
def Level (store : Store) (entity : Entity Broadcast) : Prop :=
  (∃ stored ∈ store.broadcasts, stored.id = entity.row.id) ∧
    ∀ stored ∈ store.broadcasts, stored.id = entity.row.id →
      stored.sentCount = entity.row.sentCount ∧ stored.failedCount = entity.row.failedCount

/-- Writing such a copy keeps the agreement, whatever is in focus. -/
theorem agree_level {focus : Option Uuid} {store : Store} (agree : Agree focus store)
    {entity : Entity Broadcast} (loyal : Loyal store entity) (level : Level store entity)
    (input : Input) : Agree focus (exec (.save .broadcasts entity) input store).2 := by
  have recipients := exec_recipients (.save .broadcasts entity) input store rfl
  obtain ⟨error, failed⟩ | ⟨row, writes, _, written⟩ :=
    exec_save_broadcast _ (fun row writes => (loyal row writes).1) input store
  · rw [failed]
    exact agree
  · obtain ⟨same, sent, failed, total⟩ := loyal row writes
    obtain ⟨stored, member, here⟩ := level.1
    obtain ⟨stored_sent, stored_failed⟩ := level.2 stored member here
    refine ⟨?_, fun other at_other => ?_, fun other at_other different => ?_⟩
    · rw [recipients]
      exact agree.keys
    · rw [recipients]
      rcases (written other).mp at_other with ⟨kept, _⟩ | rfl
      · exact agree.totals other kept
      · exact total
    · rw [recipients]
      rcases (written other).mp at_other with ⟨kept, _⟩ | rfl
      · exact agree.counts other kept different
      · have was_exact := agree.counts stored member (by rwa [here, ← same])
        refine ⟨?_, ?_⟩
        · rw [sent, ← stored_sent, was_exact.1, here, same]
        · rw [failed, ← stored_failed, was_exact.2, here, same]

def slotAround : (slot : Slot) → slot.Label → Surroundings Input Call Store
  | .worker, attempt => around attempt.data.broadcastId
  | .call _, _ => requestAround

def slotPost : (slot : Slot) → slot.Label → Except Err slot.Result → Store → Prop
  | .worker, _ => post
  | .call _, _ => fun _ _ => True

/-- The broadcast a run is working on. -/
def focus (pool : Pool) : Option Uuid :=
  (pool.thread .worker).map fun thread => thread.label.data.broadcastId

/-- The invariant of a pool: the rows agree with the recipients, up to the broadcast a run is
working on, and that run will leave them in agreement. -/
structure Counting (h : Helpers) (pool : Pool) : Prop where
  agree : Agree (focus pool) pool.shared
  secure : Machine.Pool.Secure (system h) slotAround slotPost pool

/-- The moves considered: requests that neither create nor remove, runs whose copy is not lost while
it is ahead, and saves of copies that are level with the stored row. -/
def Keeps (pool : Pool) : Move → Prop
  | .start .worker _ _ => True
  | .start (.call _) request _ => Request.spares request = true
  | .resume .worker input =>
      ∀ thread, pool.thread .worker = some thread → Spares thread.request input pool.shared
  | .resume (.call number) _ =>
      ∀ thread, pool.thread (.call number) = some thread → ∀ entity,
        thread.request = .save .broadcasts entity → Level pool.shared entity

/-- A move of a request keeps the recipients, and every agreement. -/
theorem agree_request {h : Helpers} {pool : Pool} {move : Move} (counting : Counting h pool)
    (keeps : Keeps pool move) (request : move.slot ≠ .worker) :
    (called pool move).recipients = pool.shared.recipients ∧
      ∀ focus, Agree focus pool.shared → Agree focus (called pool move) := by
  cases move with
  | start slot label input => exact ⟨rfl, fun _ agree => agree⟩
  | resume slot input =>
    cases slot with
    | worker => exact absurd rfl request
    | call number =>
      cases busy : pool.thread (.call number) with
      | none => simp only [called, busy, true_and, imp_self, implies_true]
      | some thread =>
        have ok := (counting.secure (.call number) thread busy pool.shared input
          ⟨fun _ => rfl, counting.agree.totals⟩).1
        have level := keeps thread busy
        rw [called_resume busy]
        obtain ⟨label, call, next⟩ := thread
        obtain ⟨leaves, saves⟩ := ok
        have recipients := exec_recipients call input pool.shared leaves
        refine ⟨recipients, fun focus agree => ?_⟩
        cases writes : call.writes .broadcasts with
        | false => exact agree_of_same recipients (exec_broadcasts call input _ writes) agree
        | true =>
          obtain ⟨entity, rfl, loyal⟩ := saves writes
          exact agree_level agree loyal (level entity rfl) input

/-- A resumed run is met as it relies on. -/
theorem relied {h : Helpers} {pool : Pool} {input : Input} (counting : Counting h pool)
    (keeps : Keeps pool (.resume .worker input))
    {thread : Machine.Thread Err Input Call Resp Attempt RunResult}
    (busy : pool.thread .worker = some thread) :
    (around thread.label.data.broadcastId).rely thread.request input pool.shared pool.shared := by
  have agree := counting.agree
  simp only [focus, busy, Option.map_some] at agree
  exact ⟨rfl, agree, id, keeps thread busy⟩

theorem agree_act {h : Helpers} {pool pool' : Pool} {move : Move} (counting : Counting h pool)
    (keeps : Keeps pool move) (moved : (system h).act pool move = some pool') :
    Agree (focus pool') pool'.shared := by
  have db := act_db moved
  refine agree_of_same (congrFun db .recipients) (congrFun db .broadcasts) ?_
  by_cases worker : move.slot = .worker
  · obtain ⟨slot, label, input, rfl, free, _, _⟩ | ⟨slot, input, thread, rfl, busy, _⟩ :=
      (system h).act_cases moved
    · cases worker
      have agree := counting.agree
      simp only [focus, free, Option.map_none] at agree
      exact agree_focus agree _
    · cases worker
      obtain ⟨ok, ends⟩ := (system h).secure_resume input counting.secure busy
        (relied counting keeps busy)
      rw [called_resume busy]
      obtain ⟨result, stop, _⟩ | ⟨request, next, _, still⟩ := (system h).act_resume moved busy
      · exact agree_focus (ends result stop) _
      · have in_focus : focus pool' = some thread.label.data.broadcastId := by
          unfold focus
          rw [still]
          rfl
        rw [in_focus]
        exact ok.1
  · have in_focus : focus pool' = focus pool := by
      unfold focus
      rw [act_waiting moved (Ne.symm worker)]
    rw [in_focus]
    exact (agree_request counting keeps worker).2 _ counting.agree

theorem size_act {h : Helpers} {pool pool' : Pool} {move : Move} (counting : Counting h pool)
    (keeps : Keeps pool move) (moved : (system h).act pool move = some pool') (id : Uuid) :
    size pool'.shared.recipients id = size pool.shared.recipients id := by
  have db : pool'.shared.recipients = (called pool move).recipients :=
    congrFun (act_db moved) .recipients
  rw [db]
  by_cases worker : move.slot = .worker
  · obtain ⟨slot, label, input, rfl, _⟩ | ⟨slot, input, thread, rfl, busy, _⟩ :=
      (system h).act_cases moved
    · rfl
    · cases worker
      rw [called_resume busy]
      exact ((system h).secure_resume input counting.secure busy
        (relied counting keeps busy)).1.2 id
  · rw [(agree_request counting keeps worker).1]

/-- **The step of the invariant.** -/
theorem counting_act {h : Helpers} {pool pool' : Pool} {move : Move} (counting : Counting h pool)
    (keeps : Keeps pool move) (moved : (system h).act pool move = some pool') :
    Counting h pool' := by
  have agree' := agree_act counting keeps moved
  refine ⟨agree', ?_⟩
  refine (system h).act_secure counting.secure moved (fun slot label input is_start free _ => ?_)
    (fun slot input thread is_resume busy => ?_) fun other waiting different busy third input => ?_
  · cases slot with
    | worker =>
      have agree := counting.agree
      simp only [focus, free, Option.map_none] at agree
      exact process_agrees h label.data pool.shared agree
    | call number =>
      subst is_start
      exact request_loyal h keeps pool.shared counting.agree.totals
  · cases slot with
    | worker =>
      subst is_resume
      exact relied counting keeps busy
    | call number => exact ⟨fun _ => rfl, counting.agree.totals⟩
  · cases other with
    | worker =>
      rintro ⟨recipients, agree, kept, spares⟩
      obtain ⟨same, keeps_agree⟩ := agree_request counting keeps (Ne.symm different)
      have db := act_db moved
      refine ⟨recipients.trans ((congrFun db .recipients).trans same), agree,
        fun before => ?_, spares⟩
      exact kept (agree_of_same (congrFun db .recipients) (congrFun db .broadcasts)
        (keeps_agree none before))
    | call number =>
      rintro ⟨sizes, totals⟩
      exact ⟨fun id => (sizes id).trans (size_act counting keeps moved id), totals⟩

theorem counting_run {h : Helpers} {store : Store} {moves : List Move} {pool : Pool}
    (agree : Agree none store) (meets : (system h).Meets Keeps (idle store) moves)
    (reached : (system h).run (idle store) moves = some pool) : Counting h pool :=
  (system h).run_invariant (fun _ _ _ counting keeps moved => counting_act counting keeps moved)
    moves (idle store) pool ⟨agree, fun _ _ busy => by cases busy⟩ meets reached

/-! ### What the row reports -/

/-- The row of a broadcast reports its recipients. -/
def Reports (store : Store) (id : Uuid) : Prop :=
  ∀ row, store.broadcast id = some row →
    row.sentCount = count .sent store.recipients id ∧
    row.failedCount = count .failed store.recipients id ∧
    row.total = size store.recipients id ∧
    row.sentCount + row.failedCount ≤ row.total ∧
    0 ≤ BroadcastsService.progress row ∧ BroadcastsService.progress row ≤ 100

/-- Rounding keeps a value between zero and a whole number. -/
theorem double_bounds {value : ℚ} {bound : ℕ} (small : bound < 2 ^ 53) (nonneg : 0 ≤ value)
    (le : value ≤ bound) : 0 ≤ Floating.double value ∧ Floating.double value ≤ bound := by
  refine ⟨Floating.round_nonneg nonneg, ?_⟩
  calc Floating.double value ≤ Floating.double bound :=
        Floating.round_mono (by norm_num) nonneg le
    _ = bound := Floating.round_natCast (by norm_num) small

theorem progress_bounds {row : Broadcast} (bound : row.sentCount + row.failedCount ≤ row.total) :
    0 ≤ BroadcastsService.progress row ∧ BroadcastsService.progress row ≤ 100 := by
  unfold BroadcastsService.progress
  split
  · exact ⟨le_refl 0, by decide⟩
  · rename_i some_total
    have positive : (0 : ℚ) < row.total := by exact_mod_cast Nat.pos_of_ne_zero some_total
    have served : ((row.sentCount + row.failedCount : ℕ) : ℚ) ≤ row.total := by exact_mod_cast bound
    have share_nonneg : (0 : ℚ) ≤ (row.sentCount + row.failedCount : ℕ) / (row.total : ℚ) :=
      div_nonneg (Nat.cast_nonneg _) positive.le
    have share_le : ((row.sentCount + row.failedCount : ℕ) : ℚ) / row.total ≤ 1 :=
      (div_le_one₀ positive).mpr served
    obtain ⟨quotient_nonneg, quotient_le⟩ := @double_bounds _ 1 (by norm_num) share_nonneg
      (by exact_mod_cast share_le)
    generalize Floating.double (_ / _) = quotient at quotient_nonneg quotient_le ⊢
    have product_le : quotient * 100 ≤ (100 : ℕ) := by
      push_cast at quotient_le ⊢
      linarith
    obtain ⟨nonneg, le⟩ := @double_bounds _ 100 (by norm_num)
      (mul_nonneg quotient_nonneg (by norm_num)) product_le
    unfold mathRound
    refine ⟨Rat.le_floor_iff.mpr ?_, Int.lt_add_one_iff.mp (Rat.floor_lt_iff.mpr ?_)⟩
    · push_cast
      linarith
    · push_cast at le ⊢
      linarith

/-- The double nearest to 29/200 lies below it, so that half a percent is not rounded up. -/
example :
    BroadcastsService.progress { Example.broadcast with total := 200, sentCount := 29 } = 14 := by
  decide +kernel

theorem reports_of_agree {store : Store} {focus : Option Uuid} (agree : Agree focus store)
    {id : Uuid}
    (elsewhere : focus ≠ some id) : Reports store id := by
  intro row found
  have member : row ∈ store.broadcasts := List.mem_of_find?_eq_some found
  obtain rfl : row.id = id := by simpa using List.find?_some found
  obtain ⟨sent, failed⟩ := agree.counts row member elsewhere
  have total := agree.totals row member
  have bound : row.sentCount + row.failedCount ≤ row.total := by
    rw [sent, failed, total]
    exact count_le_size _ _
  exact ⟨sent, failed, total, bound, progress_bounds bound⟩

/-- The moves of a run without failing database calls, in which a service call that saves a
broadcast saves the counters of the stored row. -/
def level (pool : Pool) (move : Move) : Bool :=
  Delivery.reliable pool move &&
    match move with
    | .resume (.call number) _ =>
        match pool.thread (.call number) with
        | some ⟨_, .save .broadcasts entity, _⟩ =>
            pool.shared.broadcasts.any (fun stored => stored.id == entity.row.id) &&
            pool.shared.broadcasts.all fun stored => stored.id != entity.row.id ||
              stored.sentCount == entity.row.sentCount &&
                stored.failedCount == entity.row.failedCount
        | _ => true
    | _ => true

theorem keeps_of_level {pool : Pool} {move : Move} (holds : level pool move = true) :
    Keeps pool move := by
  simp only [level, Bool.and_eq_true] at holds
  obtain ⟨reliable, level⟩ := holds
  simp only [Delivery.reliable, Bool.and_eq_true] at reliable
  cases move with
  | start slot label input =>
    cases slot with
    | worker => trivial
    | call number => exact reliable.2
  | resume slot input =>
    cases slot with
    | worker =>
      intro thread busy
      have answered := reliable.1
      simp only [databaseHolds, busy] at answered
      obtain ⟨label, request, next⟩ := thread
      cases request with
      | save table entity =>
        cases table with
        | broadcasts =>
          intro _
          cases outcome : (exec (.save .broadcasts entity) input pool.shared).1 with
          | ok reply => exact ⟨reply, rfl⟩
          | error error =>
            simp only [outcome] at answered
            cases answered
        | _ => trivial
      | _ => trivial
    | call number =>
      intro thread busy entity saves
      obtain ⟨label, request, next⟩ := thread
      subst saves
      simp only [busy, Bool.and_eq_true, List.any_eq_true, List.all_eq_true, beq_iff_eq,
        Bool.or_eq_true, bne_iff_ne, ne_eq] at level
      refine ⟨level.1, fun stored member same => ?_⟩
      rcases level.2 stored member with different | counters
      · exact absurd same different
      · exact counters

/-- Where every service call that saves a broadcast saves the counters of the stored row, and no
database call fails, the row of a broadcast reports its recipients in every state in which no run of
it is in flight. -/
theorem counters_agree_with_recipients (h : Helpers) (store : Store) (agree : Agree none store)
    (moves : List Move) (pool : Pool) (reached : (system h).run (idle store) moves = some pool)
    (meets : (system h).Meets (fun pool move => level pool move = true) (idle store) moves)
    (id : Uuid) (at_rest : focus pool ≠ some id) : Reports pool.shared id :=
  reports_of_agree (counting_run agree ((system h).meets_mono (fun _ _ => keeps_of_level) meets)
    reached).agree at_rest

theorem example_agree : Agree none Example.store := by
  refine ⟨by decide, by decide, fun row member _ => ?_⟩
  rw [List.mem_singleton.mp (show row ∈ [Example.broadcast] from member)]
  exact ⟨rfl, rfl⟩

theorem counters_agree_with_recipients_example :
    ∃ pool : Pool,
      (system Example.helpers).run (idle Example.store)
          (Example.send ++ [Example.begin_ 0] ++ Example.works 20) = some pool ∧
        Reports pool.shared "b" := by
  obtain ⟨pool, reached⟩ := Option.isSome_iff_exists.mp (show ((system Example.helpers).run
    (idle Example.store) (Example.send ++ [Example.begin_ 0] ++ Example.works 20)).isSome from rfl)
  have at_rest := Example.at_end reached (fun pool => focus pool != some "b") rfl
  exact ⟨pool, reached, counters_agree_with_recipients Example.helpers Example.store example_agree _
    pool reached ((system Example.helpers).meets_of_checks rfl) "b" (by simpa using at_rest)⟩

/-- A cancellation that loads the broadcast before a counter is saved and writes it back after. -/
def staleCancel : List Move :=
  Example.send ++ [Example.begin_ 0] ++ Example.works 9 ++ (Example.cancel.take 4) ++
    [.resume .worker Example.fine] ++ [.resume (.call 0) Example.fine] ++ Example.works 3

/-- A stale copy makes a sent message disappear from the counters for good. -/
theorem counters_disagree_after_stale_save :
    ¬∀ (h : Helpers) (store : Store), Agree none store → ∀ (moves : List Move) (pool : Pool),
      (system h).run (idle store) moves = some pool →
      (system h).Meets (fun pool move => Delivery.reliable pool move = true) (idle store) moves →
      (∀ slot, pool.thread slot = none) → ∀ id, Reports pool.shared id := by
  intro claim
  obtain ⟨pool, reached⟩ := Option.isSome_iff_exists.mp (show ((system Example.helpers).run
    (idle Example.store) staleCancel).isSome from rfl)
  have reports := claim Example.helpers Example.store example_agree staleCancel pool reached
    ((system Example.helpers).meets_of_checks rfl) (Example.at_rest reached (by decide) rfl) "b"
  have behind := Example.at_end reached (fun pool => (pool.shared.broadcast "b").any fun row =>
    row.sentCount != count .sent pool.shared.recipients "b") rfl
  obtain ⟨row, found, different⟩ := (Option.any_eq_true _ _).mp behind
  exact absurd (reports row found).1 (by simpa using different)

end Counters

end WaAutomation
