/-
**The pause between two messages of the worker.**

After every message, accepted or not, the loop sleeps for the delay of its broadcast before it goes
on or ends. No stored broadcast has a delay below three seconds, because the bodies that set one are
checked, and every other save writes a delay that was loaded.

* `Paced` is the invariant of the stored delays; `Honest` are the calls that keep it, and
  `request_keeps` and `process_keeps` say that every program does;
* `sending` is the loop from a message on. `Along` says of a suspension that it is no message or
  such a loop, with the delay of the row the run has loaded, and `process_loads` that a run stops
  nowhere else once it has loaded its row;
* `Owes` says that a program sleeps before it sends a message or ends, and `sending_owes` that the
  loop does after a message;
* `messages_spaced` is about any two messages of the worker.
-/

import WaAutomation.Broadcasts.System

set_option linter.unusedSectionVars false

namespace WaAutomation.Spacing

open Library Program

/-! ### The stored delays -/

/-- The shortest delay between two messages. -/
def shortest : Int := 3000

/-- No stored broadcast has a shorter delay. -/
def Paced (store : Store) : Prop := ∀ row ∈ store.broadcasts, shortest ≤ row.delayMs

/-- The call keeps the stored delays. -/
def Honest (call : Call) : Prop :=
  ∀ input store, Paced store → Paced (exec call input store).2

theorem honest_other {call : Call} (quiet : call.writes .broadcasts = false) : Honest call := by
  intro input store paced
  unfold Paced
  rw [exec_broadcasts call input store quiet]
  exact paced

/-- A save of a broadcast that sets no shorter delay. -/
theorem honest_save {entity : Entity Broadcast}
    (onto : ∀ stored row, shortest ≤ stored.delayMs → entity.onto stored = some row →
      shortest ≤ row.delayMs)
    (anew : ∀ row, entity.anew = some row → shortest ≤ row.delayMs) :
    Honest (.save .broadcasts entity) := by
  intro input store paced
  obtain ⟨_, _, _, failed⟩ | performed := exec_cases (.save .broadcasts entity) input store
  · rw [failed]
    exact paced
  rw [performed]
  simp only [perform]
  obtain ⟨_, failed⟩ | ⟨stored, row, found, written, _, put⟩ | ⟨row, _, written, _, push⟩ :=
    store.save_cases .broadcasts entity
  · rw [failed]
    exact paced
  · have fine := onto stored row (paced stored (List.mem_of_find?_eq_some found)) written
    rw [put]
    intro other member
    simp only [Store.broadcasts, Db.put, Db.set_same, Rows.mem_put] at member
    obtain ⟨before, _⟩ | ⟨rfl, _⟩ := member
    · exact paced other before
    · exact fine
  · rw [push]
    intro other member
    simp only [Store.broadcasts, Db.push, Db.set_same, List.mem_append,
      List.mem_singleton] at member
    obtain before | rfl := member
    · exact paced other before
    · exact anew other written

theorem honest_whole {row : Broadcast} (fine : shortest ≤ row.delayMs) :
    Honest (.save .broadcasts (.whole row)) := by
  refine honest_save (fun _ written _ onto => ?_) fun written anew => ?_
  · cases onto
    exact fine
  · cases anew
    exact fine

theorem honest_remove {table : Table} (row : Row table) : Honest (.remove table row) := by
  by_cases quiet : (Call.remove table row).writes .broadcasts = false
  · exact honest_other quiet
  cases table with
  | broadcasts =>
    intro input store paced
    obtain ⟨_, _, _, failed⟩ | performed := exec_cases (.remove .broadcasts row) input store
    · rw [failed]
      exact paced
    · rw [performed]
      intro other member
      change other ∈ (store.db.remove .broadcasts row) .broadcasts at member
      rw [Db.remove, Db.erase_other _ (by decide), Db.erase, Db.set_same, List.mem_filter] at member
      exact paced other member.1
  | _ => exact absurd rfl quiet

theorem honest_insertBroadcast {draft : Option (Input → Broadcast)}
    {recipients : List (String × Record)}
    (fine : ∀ made, draft = some made → ∀ input, shortest ≤ (made input).delayMs) :
    Honest (.insertBroadcast draft recipients) := by
  intro input store paced
  obtain ⟨_, _, _, failed⟩ | performed := exec_cases (.insertBroadcast draft recipients) input store
  · rw [failed]
    exact paced
  rw [performed]
  obtain same | ⟨made, db, db', is_made, inserted, all, same⟩ :=
    store.insertBroadcast_snd input recipients draft
  · rw [show (perform input store (.insertBroadcast draft recipients)).2 = _ from same]
    exact paced
  · rw [show (perform input store (.insertBroadcast draft recipients)).2 = _ from same]
    intro other member
    change other ∈ db' .broadcasts at member
    rw [Db.insertAll_other (by decide) all, (Db.insert_ok inserted).2.2, Db.push, Db.set_same,
      List.mem_append, List.mem_singleton] at member
    obtain before | rfl := member
    · exact paced other before
    · exact fine made is_made input

/-! ### The bodies -/

/-- The delay the body of a request sets, if it sets one, passes its check. -/
def accepts : Request → Bool
  | .create _ _ dto => dto.delayMs.all fun ms => shortest ≤ ms
  | .update _ _ _ dto => dto.delayMs.toOption.all fun ms => shortest ≤ ms
  | _ => true

theorem honest_assign {broadcast : Broadcast} {dto : UpdateBroadcastDto}
    (fine : dto.delayMs.toOption.all (fun ms => shortest ≤ ms) = true) :
    Honest (.save .broadcasts (BroadcastsService.assign broadcast dto)) := by
  have set {before ms : Int} (long : shortest ≤ before)
      (written : dto.delayMs.orElse (some before) = some ms) : shortest ≤ ms := by
    cases given : dto.delayMs with
    | undefined =>
      rw [given] at written
      cases written
      exact long
    | null =>
      rw [given] at written
      cases written
    | value other =>
      rw [given] at written fine
      cases written
      simpa [Field.toOption] using fine
  refine honest_save (fun stored row long onto => ?_) fun row anew => ?_
  · simp only [BroadcastsService.assign] at onto
    split at onto
    · rename_i written
      cases onto
      exact set long written
    · cases onto
  · simp only [BroadcastsService.assign] at anew
    split at anew
    · rename_i written
      cases anew
      exact set (le_refl shortest) written
    · cases anew

/-! ### The invariant of the stored delays -/

/-- The programs in flight, and those started later, keep the stored delays. -/
abbrev Keeping (h : Helpers) : Pool → Prop :=
  Machine.Pool.Lasting (system h) Paced fun _ _ => ()

section Keeping

variable {h : Helpers} {slot : Slot} {store : Store}

theorem stable_paced :
    Program.Stable exec ((system h).lasting Paced (fun _ _ => ()) slot) Honest Paced :=
  fun _ honest _ state' input _ moved =>
    ⟨⟨honest input state' moved.1, fun _ _ => rfl⟩, honest input state' moved.1⟩

theorem honest_reads (call : Call) (reads : call.reads = true) : Honest call :=
  honest_other (Call.reads_writes reads .broadcasts)

theorem keeps_of_calls {α : Type} {program : Svc α} (paced : Paced store)
    (calls : program.Calls Honest) :
    program.Safe exec ((system h).lasting Paced (fun _ _ => ()) slot) (fun _ _ => True) store :=
  safe_mono (fun _ _ _ => trivial) (safe_stable stable_paced calls paced)

theorem request_keeps {request : Request} (fine : accepts request = true) (paced : Paced store) :
    (request.program h).Safe exec ((system h).lasting Paced (fun _ _ => ()) slot)
      (fun _ _ => True) store := by
  have others (makes : ∀ call, request.makes call → Honest call) :
      (request.program h).Safe exec ((system h).lasting Paced (fun _ _ => ()) slot)
        (fun _ _ => True) store :=
    keeps_of_calls paced (calls_mono (fun call made => made.elim (honest_reads call) (makes call))
      (request.program_calls h))
  cases request with
  | create workspaceId userId dto =>
    have reads {α : Type} {program : Svc α} (reads : Reads program) : program.Calls Honest :=
      calls_of_reads reads honest_reads
    refine keeps_of_calls paced (calls_bind (calls_bind
      (reads (WorkspacesService.assertRole_reads _ _ _)) fun _ => calls_bind
      (reads (SessionsService.findOne_reads _ _ _)) fun session => calls_bind
      (reads (ContactsService.resolvePhones_reads _ _)) fun contacts => ?_) fun _ => trivial)
    dsimp only
    split
    · trivial
    · refine calls_call (honest_insertBroadcast fun made is_made input => ?_)
      obtain ⟨_, _, rfl⟩ := Option.map_eq_some_iff.mp is_made
      cases given : dto.delayMs with
      | none => exact le_refl shortest
      | some ms => simpa [accepts, given] using fine
  | update id workspaceId userId dto =>
    refine safe_reply (safe_managed_bind stable_paced honest_reads paced (fun _ _ _ => trivial)
      fun broadcast store' paced' _ _ => ?_)
    split
    · trivial
    · exact keeps_of_calls paced' (calls_bind (calls_call (honest_assign fine)) fun _ => trivial)
  | send id workspaceId userId =>
    refine safe_reply (safe_managed_bind stable_paced honest_reads paced (fun _ _ _ => trivial)
      fun broadcast store' paced' stored _ => ?_)
    split
    · trivial
    · refine keeps_of_calls paced' (calls_bind (calls_call (honest_whole ?_)) fun _ =>
        calls_bind calls_now fun _ => calls_bind (calls_call (honest_other rfl)) fun _ => trivial)
      exact paced' broadcast stored
  | cancel id workspaceId userId =>
    refine safe_reply (safe_managed_bind stable_paced honest_reads paced (fun _ _ _ => trivial)
      fun broadcast store' paced' stored _ => ?_)
    refine keeps_of_calls paced' (calls_bind (calls_call (honest_whole ?_)) fun _ => trivial)
    exact paced' broadcast stored
  | remove _ _ _ =>
    refine others fun call made => ?_
    obtain ⟨row, rfl⟩ := made
    exact honest_remove row
  | status _ _ _ => exact others fun _ wrong => by cases wrong
  | report _ _ _ => exact others fun _ wrong => by cases wrong
  | removeSession _ _ _ =>
    refine others fun call made => ?_
    obtain ⟨creds, method, session, rfl⟩ | ⟨row, rfl⟩ := made
    · exact honest_other rfl
    · exact honest_remove row
  | elsewhere _ =>
    refine others fun call made => ?_
    obtain ⟨change, rfl⟩ := made
    exact honest_other rfl

end Keeping

/-! ### Where a run of the worker stops -/

/-- The end of an iteration, and the iterations after it. -/
def onward (h : Helpers) (ctx : BroadcastProcessor.Context) (pending : List BroadcastRecipient)
    (broadcast : Broadcast) : Svc RunResult := do
  Svc.save .broadcasts broadcast
  BroadcastProcessor.announce broadcast
  BroadcastProcessor.sendLoop h ctx broadcast pending

/-- The loop from the message to a recipient on. -/
def sending (h : Helpers) (ctx : BroadcastProcessor.Context) (broadcast : Broadcast)
    (recipient : BroadcastRecipient) (message : String) (pending : List BroadcastRecipient) :
    Svc RunResult :=
  BroadcastProcessor.deliver ctx broadcast recipient message >>= onward h ctx pending

/-- The call is a message. -/
def sends : Call → Bool
  | .openwa _ => true
  | _ => false

/-- The call looks broadcasts up. -/
def looks : Call → Bool
  | .find .broadcasts _ => true
  | _ => false

/-- The broadcast in memory is a copy of the row: the same broadcast, with the same delay. -/
def Copy (row broadcast : Broadcast) : Prop :=
  broadcast.id = row.id ∧ broadcast.delayMs = row.delayMs

/-- Where a run that has loaded `row` may stop. A message it stops at is one of the loop. -/
structure Along (h : Helpers) (row : Broadcast) (request : Call)
    (next : Except Err (Resp request) → Svc RunResult) : Prop where
  honest : Honest request
  loaded : looks request = false
  loop : sends request = true → ∃ ctx broadcast recipient message pending,
    Program.call request next = sending h ctx broadcast recipient message pending ∧
      Copy row broadcast

/-- The call keeps the stored delays, and is neither a message nor a lookup of broadcasts. -/
def Quiet (call : Call) : Prop := Honest call ∧ looks call = false ∧ sends call = false

theorem along_of_quiet {h : Helpers} {row : Broadcast} {request : Call}
    {next : Except Err (Resp request) → Svc RunResult} (quiet : Quiet request) :
    Along h row request next :=
  ⟨quiet.1, quiet.2.1, fun message => by rw [quiet.2.2] at message; cases message⟩

theorem quiet_other {call : Call} (kept : call.writes .broadcasts = false)
    (loaded : looks call = false) (silent : sends call = false) : Quiet call :=
  ⟨honest_other kept, loaded, silent⟩

section Along

variable {h : Helpers} {row : Broadcast}

/-- Quiet calls first. -/
theorem along_bind {α : Type} {program : Svc α} {rest : α → Svc RunResult}
    (calls : program.Calls Quiet) (later : ∀ value, (rest value).Everywhere (Along h row)) :
    (program >>= rest).Everywhere (Along h row) :=
  everywhere_bind (everywhere_mono (fun _ _ quiet => along_of_quiet quiet) calls) later

theorem recordFailure_quiet (broadcast : Broadcast) (recipient : BroadcastRecipient) (err : Err) :
    (BroadcastProcessor.recordFailure broadcast recipient err).Calls Quiet :=
  calls_bind (calls_call (quiet_other rfl rfl rfl)) fun _ => trivial

theorem recordSuccess_quiet (ctx : BroadcastProcessor.Context) (broadcast : Broadcast)
    (recipient : BroadcastRecipient) (message : String) (res : OpenwaResponse) :
    (BroadcastProcessor.recordSuccess ctx broadcast recipient message res).Calls Quiet := by
  refine calls_bind calls_now fun now => calls_bind (calls_attempt
    (calls_call (quiet_other rfl rfl rfl))) fun saved => ?_
  cases saved with
  | error err => exact recordFailure_quiet _ _ _
  | ok _ =>
    exact calls_bind (calls_attempt (MessagesService.record_calls fun _ _ =>
      quiet_other rfl rfl rfl)) fun _ => trivial

theorem recordFailure_copies {broadcast : Broadcast} (copy : Copy row broadcast)
    (recipient : BroadcastRecipient) (err : Err) :
    (BroadcastProcessor.recordFailure broadcast recipient err).Returns (Copy row) := by
  refine returns_bind (fun _ => ?_) _
  exact copy

theorem recordSuccess_copies {broadcast : Broadcast} (copy : Copy row broadcast)
    (ctx : BroadcastProcessor.Context) (recipient : BroadcastRecipient) (message : String)
    (res : OpenwaResponse) :
    (BroadcastProcessor.recordSuccess ctx broadcast recipient message res).Returns (Copy row) := by
  refine returns_bind (fun now => returns_bind (fun saved => ?_) _) _
  cases saved with
  | error err => exact recordFailure_copies copy _ _
  | ok _ =>
    refine returns_bind (fun _ => ?_) _
    exact copy

/-- After a message the loop records its outcome and goes on. -/
theorem sending_message (ctx : BroadcastProcessor.Context) (broadcast : Broadcast)
    (recipient : BroadcastRecipient) (message : String) (pending : List BroadcastRecipient) :
    ∃ call next, sending h ctx broadcast recipient message pending =
        Program.call (.openwa call) next ∧
      ∀ reply,
        (∃ err, next reply =
          BroadcastProcessor.recordFailure broadcast recipient err >>= onward h ctx pending) ∨
        ∃ res, next reply = BroadcastProcessor.recordSuccess ctx broadcast recipient message res >>=
          onward h ctx pending := by
  refine ⟨_, _, rfl, fun reply => ?_⟩
  cases reply with
  | error err => exact .inl ⟨_, rfl⟩
  | ok res => exact .inr ⟨res, rfl⟩

/-- The loop stops along the way, whoever is pending. -/
theorem sendLoop_along (ctx : BroadcastProcessor.Context) (long : shortest ≤ row.delayMs)
    (pending : List BroadcastRecipient) :
    ∀ broadcast, Copy row broadcast →
      (BroadcastProcessor.sendLoop h ctx broadcast pending).Everywhere (Along h row) := by
  have saves {broadcast : Broadcast} (copy : Copy row broadcast) :
      (Svc.save .broadcasts broadcast).Calls Quiet :=
    calls_call ⟨honest_whole (by rw [copy.2]; exact long), rfl, rfl⟩
  induction pending with
  | nil =>
    intro broadcast copy
    exact along_bind calls_now fun now => along_bind (saves copy) fun _ => trivial
  | cons recipient pending ih =>
    intro broadcast copy
    refine along_bind (calls_call (quiet_other rfl rfl rfl)) fun fresh => ?_
    split
    · trivial
    refine along_bind (calls_lift _) fun message => ?_
    show (sending h ctx broadcast recipient message pending).Everywhere (Along h row)
    obtain ⟨call, next, is_sending, later⟩ :=
      sending_message (h := h) ctx broadcast recipient message pending
    rw [is_sending]
    refine ⟨⟨honest_other rfl, rfl, fun _ => ⟨ctx, broadcast, recipient, message, pending,
      is_sending.symm, copy⟩⟩, fun reply => ?_⟩
    have goes_on {program : Svc Broadcast} (calls : program.Calls Quiet)
        (copies : program.Returns (Copy row)) :
        (program >>= onward h ctx pending).Everywhere (Along h row) :=
      everywhere_returns_bind (everywhere_mono (fun _ _ quiet => along_of_quiet quiet) calls)
        copies fun broadcast' copy' => along_bind (saves copy') fun _ =>
          along_bind (BroadcastProcessor.announce_calls (fun _ => quiet_other rfl rfl rfl)
            fun _ => quiet_other rfl rfl rfl) fun _ => ih broadcast' copy'
    obtain ⟨err, is_failure⟩ | ⟨res, is_success⟩ := later reply
    · rw [is_failure]
      exact goes_on (recordFailure_quiet _ _ _) (recordFailure_copies copy _ _)
    · rw [is_success]
      exact goes_on (recordSuccess_quiet _ _ _ _ _) (recordSuccess_copies copy _ _ _ _)

/-- **A run of the worker**: it loads its row, and then stops along the way only. -/
theorem process_loads (data : BroadcastJob) :
    ∃ matching next, BroadcastProcessor.process h data =
        Program.call (.find .broadcasts matching) next ∧
      (∀ error, next (.error error) = .throw error) ∧
      (∀ rows, rows.head? = none → next (.ok rows) = .ret .skipped) ∧
      ∀ rows row, rows.head? = some row → shortest ≤ row.delayMs →
        (next (.ok rows)).Everywhere (Along h row) := by
  refine ⟨_, _, rfl, fun _ => rfl, fun rows none_left => ?_, fun rows row head long => ?_⟩
  · cases rows with
    | nil => rfl
    | cons _ _ => cases none_left
  · cases rows with
    | nil => cases head
    | cons first _ =>
      cases head
      show (SessionsService.getById row.sessionId >>= _).Everywhere (Along h row)
      refine along_bind (SessionsService.getById_calls _ fun _ => quiet_other rfl rfl rfl)
        fun session => along_bind (WorkspacesService.getOpenwaCredentials_calls h _ fun _ =>
          quiet_other rfl rfl rfl) fun creds => along_bind calls_now fun now => ?_
      refine along_bind (calls_call ⟨honest_whole long, rfl, rfl⟩) fun _ =>
        along_bind (calls_call (quiet_other rfl rfl rfl)) fun pending => ?_
      exact sendLoop_along _ long pending _ ⟨rfl, rfl⟩

/-- A run of the worker keeps the stored delays. -/
theorem process_keeps {slot : Slot} {store : Store} (data : BroadcastJob) (paced : Paced store) :
    (BroadcastProcessor.process h data).Safe exec ((system h).lasting Paced (fun _ _ => ()) slot)
      (fun _ _ => True) store := by
  obtain ⟨matching, next, starts, fails, empty, loads⟩ := process_loads (h := h) data
  rw [starts]
  intro store' input moved
  have kept := stable_paced (h := h) _ (honest_other rfl) store store' input paced moved
  refine ⟨kept.1, ?_⟩
  obtain ⟨error, failed⟩ | answered := exec_find .broadcasts matching input store'
  · rw [failed, fails]
    trivial
  rw [answered] at kept ⊢
  cases is_row : (store'.db .broadcasts).find? matching with
  | none =>
    rw [empty _ (by rw [List.head?_filter, is_row])]
    trivial
  | some row =>
    have along := loads _ row (by rw [List.head?_filter, is_row])
      (kept.2 row (List.mem_of_find?_eq_some is_row))
    exact keeps_of_calls kept.2 (everywhere_mono (fun _ _ along => along.honest) along)

end Along

/-! ### The pause after a message -/

/-- The call goes to the endpoint of a webhook. -/
def posts : Call → Bool
  | .post _ => true
  | _ => false

/-- The calls before the pause: no message, nothing for the queue and nothing for an endpoint. -/
def Calm (call : Call) : Prop :=
  sends call = false ∧ call.enqueues = false ∧ posts call = false

/-- The call is a pause of `delay` at least. -/
def Pause (delay : Int) (call : Call) : Prop := ∃ ms, call = .sleep ms ∧ delay ≤ ms

/-- A calm call does not fail. -/
def Answered (call : Call) (reply : Except Err (Resp call)) : Prop :=
  Calm call → ∃ value, reply = .ok value

/-- The program sleeps for `delay` before it sends a message, and ends before that in a value of
`ends` only, as long as its calls do not fail. -/
abbrev Owes {α : Type} (delay : Int) (ends : α → Prop) (program : Svc α) : Prop :=
  program.Until Answered Calm (Pause delay) ends

section Owes

variable {delay : Int} {α β : Type} {ends : β → Prop}

theorem owes_call_bind {call : Call} {rest : Resp call → Svc β} (calm : Calm call)
    (later : ∀ value, Owes delay ends (rest value)) : Owes delay ends (Svc.call call >>= rest) := by
  refine .inr ⟨calm, fun reply answered => ?_⟩
  obtain ⟨value, rfl⟩ := answered calm
  exact later value

theorem owes_attempt_bind {call : Call} {rest : Except Err (Resp call) → Svc β} (calm : Calm call)
    (later : ∀ value, Owes delay ends (rest (.ok value))) :
    Owes delay ends ((Svc.call call).attempt >>= rest) := by
  refine .inr ⟨calm, fun reply answered => ?_⟩
  obtain ⟨value, rfl⟩ := answered calm
  exact later value

theorem recordFailure_owes (broadcast : Broadcast) (recipient : BroadcastRecipient) (err : Err) :
    Owes delay (fun saved => saved.delayMs = broadcast.delayMs)
      (BroadcastProcessor.recordFailure broadcast recipient err) :=
  owes_call_bind ⟨rfl, rfl, rfl⟩ fun _ => rfl

theorem recordSuccess_owes (ctx : BroadcastProcessor.Context) (broadcast : Broadcast)
    (recipient : BroadcastRecipient) (message : String) (res : OpenwaResponse) :
    Owes delay (fun saved => saved.delayMs = broadcast.delayMs)
      (BroadcastProcessor.recordSuccess ctx broadcast recipient message res) := by
  intro now
  refine owes_attempt_bind ⟨rfl, rfl, rfl⟩ fun _ => ?_
  exact owes_attempt_bind ⟨rfl, rfl, rfl⟩ fun _ => rfl

variable {h : Helpers}

theorem onward_owes (ctx : BroadcastProcessor.Context) (pending : List BroadcastRecipient)
    {broadcast : Broadcast} (long : shortest ≤ broadcast.delayMs) :
    Owes broadcast.delayMs (fun _ => False) (onward h ctx pending broadcast) := by
  refine owes_call_bind ⟨rfl, rfl, rfl⟩ fun _ => until_bind ?_
  refine owes_call_bind ⟨rfl, rfl, rfl⟩ fun _ => ?_
  refine .inl ⟨_, rfl, ?_⟩
  have positive : broadcast.delayMs ≠ 0 := by
    unfold shortest at long
    omega
  rw [if_neg positive]

/-- **After a message**, accepted or not, the loop owes the delay of its broadcast. -/
theorem sending_owes {ctx : BroadcastProcessor.Context} {broadcast : Broadcast}
    {recipient : BroadcastRecipient} {message : String} {pending : List BroadcastRecipient}
    (long : shortest ≤ broadcast.delayMs) {call : Call}
    {next : Except Err (Resp call) → Svc RunResult}
    (loop : Program.call call next = sending h ctx broadcast recipient message pending)
    (reply : Except Err (Resp call)) :
    Owes broadcast.delayMs (fun _ => False) (next reply) := by
  obtain ⟨message_call, later, is_sending, records⟩ :=
    sending_message (h := h) ctx broadcast recipient message pending
  rw [is_sending] at loop
  cases loop
  have goes_on {program : Svc Broadcast} (owes : Owes broadcast.delayMs
      (fun saved => saved.delayMs = broadcast.delayMs) program) :
      Owes broadcast.delayMs (fun _ => False) (program >>= onward h ctx pending) := by
    refine until_bind (until_mono (fun saved same => ?_) owes)
    have paid := onward_owes (h := h) ctx pending (same.symm ▸ long)
    rwa [same] at paid
  obtain ⟨err, is_failure⟩ | ⟨res, is_success⟩ := records reply
  · rw [is_failure]
    exact goes_on (recordFailure_owes _ _ _)
  · rw [is_success]
    exact goes_on (recordSuccess_owes _ _ _ _ _)

end Owes

/-- A call of the worker that does not fail at the database is answered. -/
theorem answers_of_holds (h : Helpers) {pool : Pool} {move : Move}
    (holds : databaseHolds pool move = true) :
    (system h).Answers Answered .worker pool move := by
  rintro input ⟨label, call, next⟩ rfl busy calm
  simp only [databaseHolds, busy] at holds
  by_cases storage : call.storage = true
  · rw [Call.database, storage, calm.2.1] at holds
    exact isOk_reply holds
  · obtain ⟨_, _, stored, _⟩ | performed := exec_cases call input pool.shared
    · exact absurd stored storage
    · show ∃ value, (exec call input pool.shared).1 = .ok value
      rw [performed]
      cases call with
      | openwa call => cases calm.1
      | post request => cases calm.2.2
      | emit event => exact ⟨(), rfl⟩
      | sleep ms => exact ⟨(), rfl⟩
      | _ => exact absurd rfl storage

/-! ### Runs -/

/-- The row the worker has loaded last. -/
def noteRow (noted : Option Broadcast) (pool : Pool) : Move → Option Broadcast
  | .start _ _ _ => noted
  | .resume .worker _ =>
      match pool.thread .worker with
      | some ⟨_, .find .broadcasts matching, _⟩ => (pool.shared.db .broadcasts).find? matching
      | _ => noted
  | .resume (.call _) _ => noted

/-- The row the worker has loaded last in a run. -/
def loaded (h : Helpers) (start : Store) (moves : List Move) : Option Broadcast :=
  (system h).observe noteRow none (idle start) moves

/-- The worker is about to load its row, or along the way with the row it has loaded. -/
def Tracked (h : Helpers) (noted : Option Broadcast) (pool : Pool) : Prop :=
  ∀ thread, pool.thread .worker = some thread →
    thread.program = BroadcastProcessor.process h thread.label.data ∨
      ∃ row, noted = some row ∧ shortest ≤ row.delayMs ∧ thread.program.Everywhere (Along h row)

theorem noteRow_other {noted : Option Broadcast} {pool : Pool} {move : Move}
    (other : move.slot ≠ .worker) : noteRow noted pool move = noted := by
  cases move with
  | start slot label input => rfl
  | resume slot input =>
    cases slot with
    | worker => exact absurd rfl other
    | call number => rfl

theorem tracked_act {h : Helpers} {noted : Option Broadcast} {pool pool' : Pool} {move : Move}
    (paced : Paced pool.shared) (tracked : Tracked h noted pool)
    (moved : (system h).act pool move = some pool') :
    Tracked h (noteRow noted pool move) pool' := by
  by_cases other : move.slot ≠ .worker
  · intro thread busy
    rw [noteRow_other other]
    rw [act_waiting moved (Ne.symm other)] at busy
    exact tracked thread busy
  obtain ⟨slot, label, input, rfl, _, _, rfl⟩ | ⟨slot, input, waiting, rfl, found, _⟩ :=
    (system h).act_cases moved
  · obtain rfl : slot = .worker := not_not.mp other
    intro thread busy
    obtain ⟨matching, next, starts, _⟩ := process_loads (h := h) label.data
    have stops : ((system h).program .worker label).settle input =
        .calling (.find .broadcasts matching) next := by
      show (BroadcastProcessor.process h label.data).settle input = _
      rw [starts]
      rfl
    rw [stops, (system h).place_calling_thread] at busy
    cases busy
    exact .inl starts.symm
  · obtain rfl : slot = .worker := not_not.mp other
    obtain ⟨_, _, free⟩ | ⟨request, next, stops, busy⟩ := (system h).act_resume moved found
    · intro thread busy
      cases free.symm.trans busy
    intro thread same
    cases busy.symm.trans same
    right
    obtain whole | ⟨row, is_noted, long, along⟩ := tracked waiting found
    · obtain ⟨matching, later, starts, fails, empty, loads⟩ :=
        process_loads (h := h) waiting.label.data
      obtain ⟨label, call, rest⟩ := waiting
      change Program.call call rest = _ at whole
      rw [starts] at whole
      cases whole
      change (later (exec (.find .broadcasts matching) input pool.shared).1).settle
        input = _ at stops
      obtain ⟨error, failed⟩ | answered := exec_find .broadcasts matching input pool.shared
      · rw [failed, fails] at stops
        cases stops
      rw [answered] at stops
      cases is_row : (pool.shared.db .broadcasts).find? matching with
      | none =>
        rw [empty _ (by rw [List.head?_filter, is_row])] at stops
        cases stops
      | some row =>
        have long := paced row (List.mem_of_find?_eq_some is_row)
        refine ⟨row, ?_, long, everywhere_settle (loads _ row ?_ long) stops⟩
        · simp only [noteRow, found]
          exact is_row
        · rw [List.head?_filter, is_row]
    · refine ⟨row, ?_, long, everywhere_settle (along.2 _) stops⟩
      have no_lookup := along.1.loaded
      obtain ⟨label, call, rest⟩ := waiting
      simp only [noteRow, found]
      cases call with
      | find table matching =>
        cases table with
        | broadcasts => cases no_lookup
        | _ => exact is_noted
      | _ => exact is_noted

theorem keeping_act {h : Helpers} {pool pool' : Pool} {move : Move} (keeping : Keeping h pool)
    (fine : starts accepts move = true) (moved : (system h).act pool move = some pool') :
    Keeping h pool' := by
  refine (system h).lasting_act (fun slot label result store paced => ?_) (fun _ _ _ _ _ => rfl)
    keeping (fun slot label input is_start store paced => ?_) moved
  · cases slot with
    | worker => exact paced
    | call number => exact paced
  · subst is_start
    cases slot with
    | worker => exact process_keeps label.data paced
    | call number => exact request_keeps fine paced

/-- **The stored delays, the programs in flight and the row of the worker**, in a run whose bodies
are accepted. -/
theorem tracked_run {h : Helpers} {start : Store} (paced : Paced start) {moves : List Move}
    {pool : Pool} (accepted : ∀ move ∈ moves, starts accepts move = true)
    (reached : (system h).run (idle start) moves = some pool) :
    Keeping h pool ∧ Tracked h (loaded h start moves) pool := by
  have step (noted : Option Broadcast) (pool : Pool) (move : Move) (pool' : Pool)
      (kept : Keeping h pool ∧ Tracked h noted pool) (fine : starts accepts move = true)
      (moved : (system h).act pool move = some pool') :
      Keeping h pool' ∧ Tracked h (noteRow noted pool move) pool' :=
    ⟨keeping_act kept.1 fine moved, tracked_act kept.1.holds kept.2 moved⟩
  have idle_keeps : Keeping h (idle start) := ⟨paced, fun _ _ busy => by cases busy⟩
  have idle_tracked : Tracked h none (idle start) := fun _ busy => by cases busy
  exact (system h).watched_invariant step ⟨idle_keeps, idle_tracked⟩
    ((system h).watched_of_forall fun move member _ _ => accepted move member) reached

/-- **The pause between two messages of the worker**, of one run or of two: when the worker is at a
message and later at another, it has slept in between, for the delay of the broadcast of the earlier
one at least, which is that of the row its run had loaded, and not below three seconds. -/
theorem messages_spaced (h : Helpers) {start : Store} (paced : Paced start)
    {moves more : List Move} {input : Input} {pool pool' : Pool}
    (accepted : ∀ move ∈ moves, starts accepts move = true)
    (reached : (system h).run (idle start) moves = some pool)
    (holds : (system h).Meets (fun pool move => databaseHolds pool move = true) pool
      (.resume .worker input :: more))
    (reached' : (system h).run pool (.resume .worker input :: more) = some pool')
    {thread thread' : Machine.Thread Err Input Call Resp Attempt RunResult}
    (busy : pool.thread .worker = some thread) (busy' : pool'.thread .worker = some thread')
    (message : sends thread.request = true) (message' : sends thread'.request = true) :
    ∃ ctx broadcast recipient text pending row,
      thread.program = sending h ctx broadcast recipient text pending ∧
      loaded h start moves = some row ∧ broadcast.id = row.id ∧ broadcast.delayMs = row.delayMs ∧
      shortest ≤ broadcast.delayMs ∧
      ∃ between input' after middle waiting ms,
        more = between ++ .resume .worker input' :: after ∧
        (system h).run pool (.resume .worker input :: between) = some middle ∧
        middle.thread .worker = some waiting ∧ waiting.request = .sleep ms ∧
        broadcast.delayMs ≤ ms := by
  obtain ⟨_, tracked⟩ := tracked_run paced accepted reached
  obtain whole | ⟨row, is_loaded, long, along⟩ := tracked thread busy
  · obtain ⟨matching, next, starts, _⟩ := process_loads (h := h) thread.label.data
    obtain ⟨label, call, rest⟩ := thread
    change Program.call call rest = _ at whole
    rw [starts] at whole
    cases whole
    cases message
  obtain ⟨ctx, broadcast, recipient, text, pending, loop, copy⟩ := along.1.loop message
  have far : shortest ≤ broadcast.delayMs := by
    rw [copy.2]
    exact long
  refine ⟨ctx, broadcast, recipient, text, pending, row, loop, is_loaded, copy.1, copy.2, far, ?_⟩
  obtain ⟨middle, moved, rest⟩ := Option.bind_eq_some_iff.mp reached'
  obtain ⟨no_error, no_value, owes⟩ := until_settle
    (sending_owes far loop (exec thread.request input pool.shared).1)
  obtain ⟨result, stops, _⟩ | ⟨request, next, stops, here⟩ := (system h).act_resume moved busy
  · cases result with
    | ok value => exact (no_value value stops).elim
    | error error => exact absurd stops (no_error error)
  have loud : ¬ Calm thread'.request := fun calm => by rw [calm.1] at message'; cases message'
  have elsewhere : ¬ Pause broadcast.delayMs thread'.request := by
    rintro ⟨ms, is_sleep, _⟩
    rw [is_sleep] at message'
    cases message'
  obtain ⟨between, input', after, second, waiting, same, ran, found, ms, is_sleep, enough⟩ :=
    (system h).run_until here (owes request next stops)
      ((system h).meets_mono (fun _ _ => answers_of_holds h) (holds.2 middle moved)) rest busy' loud
      elsewhere
  refine ⟨between, input', after, second, waiting, ms, same, ?_, found, is_sleep, enough⟩
  rw [Machine.run, moved]
  exact ran

/-- The two messages of a job of the small workspace. -/
theorem messages_spaced_example :
    ∃ (pool : Pool) (thread : Machine.Thread Err Input Call Resp Attempt RunResult),
      (system Example.helpers).run (idle Example.store)
        (Example.send ++ [Example.begin_ 0] ++ Example.works 6) = some pool ∧
      pool.thread .worker = some thread ∧
      ∃ ctx broadcast recipient text pending row,
        thread.program = sending Example.helpers ctx broadcast recipient text pending ∧
        loaded Example.helpers Example.store
          (Example.send ++ [Example.begin_ 0] ++ Example.works 6) = some row ∧
        broadcast.id = row.id ∧ broadcast.delayMs = row.delayMs ∧
        shortest ≤ broadcast.delayMs ∧
        ∃ between input' after middle waiting ms,
          Example.works 6 = between ++ .resume .worker input' :: after ∧
          (system Example.helpers).run pool (.resume .worker Example.fine :: between) =
            some middle ∧
          middle.thread .worker = some waiting ∧ waiting.request = .sleep ms ∧
          broadcast.delayMs ≤ ms := by
  have first : ((system Example.helpers).run (idle Example.store)
      (Example.send ++ [Example.begin_ 0] ++ Example.works 6)).isSome = true := rfl
  have second : (((system Example.helpers).run (idle Example.store)
      (Example.send ++ [Example.begin_ 0] ++ Example.works 6)).bind fun pool =>
        (system Example.helpers).run pool
          (.resume .worker Example.fine :: Example.works 6)).isSome = true := rfl
  obtain ⟨pool, reached⟩ := Option.isSome_iff_exists.mp first
  obtain ⟨pool', reached'⟩ := Option.isSome_iff_exists.mp second
  have waits : ((system Example.helpers).run (idle Example.store)
      (Example.send ++ [Example.begin_ 0] ++ Example.works 6)).all
        (fun pool => (pool.thread .worker).any fun thread => sends thread.request) = true := rfl
  have waits' : (((system Example.helpers).run (idle Example.store)
      (Example.send ++ [Example.begin_ 0] ++ Example.works 6)).bind fun pool =>
        (system Example.helpers).run pool
          (.resume .worker Example.fine :: Example.works 6)).all
        (fun pool => (pool.thread .worker).any fun thread => sends thread.request) = true := rfl
  have holds : ((system Example.helpers).run (idle Example.store)
      (Example.send ++ [Example.begin_ 0] ++ Example.works 6)).all
        (fun pool => (system Example.helpers).checks databaseHolds pool
          (.resume .worker Example.fine :: Example.works 6)) = true := rfl
  rw [reached, Option.bind_some] at reached' waits'
  rw [reached'] at waits'
  rw [reached] at waits holds
  obtain ⟨thread, busy, message⟩ := (Option.any_eq_true _ _).mp waits
  obtain ⟨thread', busy', message'⟩ := (Option.any_eq_true _ _).mp waits'
  have paced : Paced Example.store := by
    intro row member
    rw [List.mem_singleton.mp (show row ∈ [Example.broadcast] from member)]
    decide
  exact ⟨pool, thread, reached, busy, messages_spaced Example.helpers paced (by decide) reached
    ((system Example.helpers).meets_of_checks holds) reached' busy busy' message message'⟩

end WaAutomation.Spacing
