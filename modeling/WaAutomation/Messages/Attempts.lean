/-
**A send job over its attempts.**

The processor sends the message and records it in one `try` block: when the record fails, the
handler records a failure and rethrows, and the queue runs the job again. A job is recorded when no
accepted message meets a record that fails. Then OpenWA accepts its message at most once, and no
failure is recorded after that.

* `attempt_cases`: an attempt has its message accepted and recorded, and ends, or has none accepted;
* `delivered_at_most_once` is about all attempts of a job, and `delivered_again` is a job to a
  group, whose chat id does not fit the column of the recipient.
-/

import WaAutomation.Model.Contacts
import WaAutomation.Model.Services

set_option linter.unusedSectionVars false

namespace WaAutomation.Messages

open Library

/-! ### Attempts -/

section Attempts

variable (h : Helpers) (data : SendMessageJob)

abbrev failed : JobAttempt → Bool := JobAttempt.fails (MessageProcessor.process h data)

abbrev exchanged : JobAttempt → List Exchange :=
  JobAttempt.exchanged (MessageProcessor.process h data)

end Attempts

/-- A log row with status `failed` is written. -/
def recordsFailure : Exchange → Bool
  | ⟨.insert .logs _, .ok row⟩ => row.status == .failed
  | _ => false

/-- The id of a message, as the processor takes it from a response. -/
def messageId (response : OpenwaResponse) : Option String :=
  (orNull response.response).or (orNull response.messageId)

/-- The database accepts the values of a record: there is a workspace, the phones and the id of the
message fit their columns, and the texts can be stored. -/
structure Storable (record : MessageRecord) : Prop where
  workspace : record.workspaceId.isSome = true
  sender : varchar? 20 record.fromPhone = true
  recipient : varchar? 20 record.toPhone = true
  id : varchar? 100 record.waMessageId = true
  content : text? record.content = true
  error : text? record.errorMessage = true

/-- When OpenWA accepts the message, its record succeeds: the values are accepted, and the insert
neither fails nor meets a row with its id. The send is the second call of an attempt, the record the
third. -/
def Recorded (data : SendMessageJob) (attempt : JobAttempt) : Prop :=
  ∀ response, (attempt.tape.later 1).openwa = .ok response →
    Storable (MessageProcessor.logRow data .sent (messageId response) none) ∧
      (attempt.tape.later 2).fault = none ∧
      ∀ row ∈ (attempt.stores 2).db .logs, row.id ≠ (attempt.tape.later 2).ids 0

/-! ### One attempt -/

section One

variable {h : Helpers} {data : SendMessageJob}

/-- The stores the calls after the first find. -/
abbrev later (stores : Nat → Store) : Nat → Store := fun index => stores (index + 1)

/-- The insert of a record. -/
abbrev recordCall (record : MessageRecord) : Call :=
  .insert .logs (record.workspaceId.map fun workspaceId input =>
    ⟨input.ids 0, workspaceId, record.sessionId, record.automationId, record.broadcastId,
      record.direction, record.fromPhone, record.toPhone, record.messageType, record.content,
      record.status, record.waMessageId, record.errorMessage, input.now⟩)

/-- A record whose values are accepted is written. -/
theorem record_succeeds {record : MessageRecord} (storable : Storable record) {input : Input}
    {store : Store} (clear : input.fault = none)
    (fresh : ∀ row ∈ store.db .logs, row.id ≠ input.ids 0) :
    ∃ row : MessageLog, (exec (recordCall record) input store).1 = .ok row ∧
      row.status = record.status := by
  obtain ⟨workspaceId, some_workspace⟩ := Option.isSome_iff_exists.mp storable.workspace
  rw [exec_clear _ clear]
  simp only [perform, some_workspace, Option.map_some, Store.insert]
  rw [Db.insert_fits]
  · exact ⟨_, rfl, rfl⟩
  · rw [List.any_eq_false]
    intro row member same
    have taken : input.ids 0 = row.id := by simpa [Db.sameKey, Row.key] using same
    exact fresh row member taken.symm
  · simp [Row.fits, storable.sender, storable.recipient, storable.id, storable.content,
      storable.error]
  · rfl
  · exact fun _ _ => rfl

/-- **An attempt to send**: the message is accepted and recorded, or it is not accepted. -/
theorem send_cases (data : SendMessageJob) (creds : OpenwaCredentials) (tape : Program.Tape Input)
    (stores : Nat → Store)
    (recorded : ∀ response, (tape.later 0).openwa = .ok response →
      Storable (MessageProcessor.logRow data .sent (messageId response) none) ∧
        (tape.later 1).fault = none ∧
        ∀ row ∈ (stores 1).db .logs, row.id ≠ (tape.later 1).ids 0) :
    (∃ id tape' stores',
      (MessageProcessor.attemptSend creds data).run (Program.found exec) tape stores =
        (.ok id, tape', stores') ∧
      ((MessageProcessor.attemptSend creds data).exchanges (Program.found exec) tape
        stores).Pairwise fun first second =>
          accepted first = true → accepted second = false ∧ recordsFailure second = false) ∨
    ∃ error tape' stores',
      (MessageProcessor.attemptSend creds data).run (Program.found exec) tape stores =
        (.error error, tape', stores') ∧
      ∀ exchange ∈ (MessageProcessor.attemptSend creds data).exchanges (Program.found exec) tape
        stores, accepted exchange = false := by
  obtain ⟨method, delivers⟩ := MessageProcessor.deliver_call creds data
  obtain ⟨ran, single⟩ := OpenwaService.call_run creds method _ none tape stores
  unfold MessageProcessor.attemptSend
  rw [delivers, Program.run_bind, Program.exchanges_bind, ran, single]
  cases answers : (tape.later 0).openwa with
  | error error =>
    refine .inr ⟨_, _, _, rfl, fun exchange member => ?_⟩
    simp only [OpenwaService.answer, List.append_nil, List.mem_singleton] at member
    rw [member]
    simp only [exec, Call.storage, perform, Store.openwa, answers, accepted]
  | ok response =>
    obtain ⟨storable, clear, fresh⟩ := recorded response answers
    obtain ⟨row, written, status⟩ := record_succeeds storable clear fresh
    have recorded : (Program.found exec (recordCall (MessageProcessor.logRow data .sent
        ((orNull response.response).or (orNull response.messageId)) none)) (tape.advance.later 0)
        (later stores)).1 = .ok row := written
    have emits (event : Event) (input : Input) (stores : Nat → Store) :
        (Program.found exec (.emit event) input stores).1 = .ok () := by
      simp only [Program.found, exec, Call.storage]
      rfl
    left
    simp only [OpenwaService.answer, MessagesService.record, Svc.call, Svc.emit, Program.run_bind,
      Program.exchanges_bind, Program.run_perform, Program.exchanges_perform, recorded, emits]
    refine ⟨_, _, _, rfl, ?_⟩
    have sent : row.status ≠ .failed := by
      intro wrong
      cases status.symm.trans wrong
    simp [Program.exchanges, accepted, recordsFailure, sent]

/-- A list in which no message is accepted. -/
theorem unaccepted_pairwise {exchanges : List Exchange}
    (none : ∀ exchange ∈ exchanges, accepted exchange = false) :
    exchanges.Pairwise fun first second =>
      accepted first = true → accepted second = false ∧ recordsFailure second = false := by
  refine List.pairwise_of_forall_mem_list fun first member second _ accepts => ?_
  rw [none first member] at accepts
  cases accepts

/-- **One attempt**: nothing is accepted and no failure recorded after its message is accepted, and
when it throws, its message is not accepted. -/
theorem attempt_cases {attempt : JobAttempt} (recorded : Recorded data attempt) :
    (exchanged h data attempt).Pairwise (fun first second =>
        accepted first = true → accepted second = false ∧ recordsFailure second = false) ∧
      (failed h data attempt = true →
        ∀ exchange ∈ exchanged h data attempt, accepted exchange = false) := by
  obtain ⟨tape, stores⟩ := attempt
  obtain ⟨⟨result, ran⟩, reply, single⟩ := WorkspacesService.getOpenwaCredentials_run h
      data.workspaceId tape stores
  unfold exchanged failed JobAttempt.exchanged JobAttempt.fails MessageProcessor.process
  rw [Program.exchanges_bind, Program.run_bind, ran, single]
  cases result with
  | error error =>
    have none : ∀ exchange ∈ ([⟨.find .workspaces fun workspace =>
        Svc.whereIs data.workspaceId workspace.id, reply⟩] ++ [] : List Exchange),
        accepted exchange = false := by
      simp [accepted]
    exact ⟨unaccepted_pairwise none, fun _ => none⟩
  | ok creds =>
    dsimp only
    rw [Program.exchanges_bind, Program.run_bind, Program.exchanges_attempt, Program.run_attempt]
    obtain ⟨id, tape', stores', sends, alone⟩ | ⟨error, tape', stores', fails, unaccepted⟩ :=
      send_cases data creds tape.advance (later stores) recorded
    · rw [sends]
      refine ⟨?_, fun wrong => (by cases wrong)⟩
      simp only [Program.pure_eq, Program.exchanges, List.append_nil, List.cons_append,
        List.nil_append, List.pairwise_cons]
      exact ⟨fun _ _ accepts => (by cases accepts), alone⟩
    · rw [fails]
      have quiet : ∀ exchange ∈ ([⟨.find .workspaces fun workspace =>
          Svc.whereIs data.workspaceId workspace.id, reply⟩] : List Exchange) ++
          ((MessageProcessor.attemptSend creds data).exchanges (Program.found exec) tape.advance
            (later stores) ++ (MessagesService.record (MessageProcessor.logRow data .failed none
              (some error.message)) >>= fun _ => Program.throw error : Svc
                (Option String)).exchanges
                (Program.found exec) tape' stores'), accepted exchange = false := by
        intro exchange member
        rw [List.mem_append, List.mem_singleton, List.mem_append] at member
        obtain rfl | sending | handling := member
        · rfl
        · exact unaccepted exchange sending
        · have calls : Program.Calls (fun call => ∀ send, call ≠ .openwa send)
              (MessagesService.record (MessageProcessor.logRow data .failed none
                (some error.message)) >>= fun _ => Program.throw error : Svc (Option String)) :=
            Program.calls_bind (MessagesService.record_calls fun _ _ _ wrong => by cases wrong)
              fun _ => trivial
          exact unaccepted_of (Program.exchanges_calls calls exchange handling)
      exact ⟨unaccepted_pairwise quiet, fun _ => quiet⟩

end One

/-! ### All attempts -/

/-- **A recorded job is delivered at most once**: over all its attempts OpenWA accepts its message
at most once, and no failure is recorded after that. -/
theorem delivered_at_most_once (h : Helpers) (data : SendMessageJob) (attempts : List JobAttempt)
    (recorded : ∀ attempt ∈ made (failed h data) attempts, Recorded data attempt) :
    ((made (failed h data) attempts).flatMap (exchanged h data)).Pairwise fun first second =>
      accepted first = true → accepted second = false ∧ recordsFailure second = false := by
  refine made_pairwise (fun attempt member => (attempt_cases (recorded attempt member)).1)
    fun attempt member fails first exchanged second accepts => ?_
  rw [(attempt_cases (recorded attempt member)).2 fails first exchanged] at accepts
  cases accepts

namespace Example

/-- A workspace with a member and a session. -/
def start : Store :=
  ⟨fun
    | .members => [⟨"w", "u", "member"⟩]
    | .workspaces => [⟨"w", "team", "u", "http://openwa", "key", true⟩]
    | .sessions => [⟨"s", "w", "line", "line", none, .connected, none⟩]
    | _ => [], [], 0, [], fun _ _ => none⟩

/-- The body of a request to send a text. -/
def dto (toPhone : String) : SendMessageDto :=
  ⟨"s", toPhone, none, some "hello", none, none, none⟩

/-- The job it becomes. -/
def job (toPhone : String) : SendMessageJob :=
  ⟨some "w", "s", "line", toPhone, .text, some "hello", none, none, none, none, none⟩

def tape (input : Input) : Program.Tape Input := ⟨input, fun _ => input⟩

/-- An attempt that finds every call answered in one way. -/
def attempt (input : Input) : JobAttempt := ⟨tape input, fun _ => start⟩

/-- OpenWA rejects the message, and accepts it when it is sent again. -/
def attempts : List JobAttempt :=
  [attempt WaAutomation.Example.rejected, attempt WaAutomation.Example.fine,
    attempt WaAutomation.Example.fine]

/-- The chat id of a group. -/
def group : String := "120363043212345678@g.us"

end Example

theorem delivered_at_most_once_example :
    (made (failed WaAutomation.Example.helpers (Example.job "628123456789"))
      Example.attempts).length = 2 ∧
    ((made (failed WaAutomation.Example.helpers (Example.job "628123456789"))
        Example.attempts).flatMap
      (exchanged WaAutomation.Example.helpers (Example.job "628123456789"))).Pairwise
        fun first second =>
          accepted first = true → accepted second = false ∧ recordsFailure second = false := by
  refine ⟨by decide +kernel, delivered_at_most_once WaAutomation.Example.helpers
    (Example.job "628123456789")
    Example.attempts fun attempt member response accepts => ?_⟩
  have among := made_subset _ _ member
  simp only [Example.attempts, List.mem_cons, List.not_mem_nil, or_false] at among
  have storable : Storable (MessageProcessor.logRow (Example.job "628123456789") .sent
      (messageId ⟨some true, none, some "id", none, none⟩) none) :=
    ⟨rfl, rfl, by decide +kernel, by decide +kernel, by decide +kernel, rfl⟩
  have room : ∀ row ∈ Example.start.db .logs, row.id ≠ "" := by simp [Example.start]
  obtain rfl | rfl | rfl := among
  · cases accepts
  · cases accepts
    exact ⟨storable, rfl, room⟩
  · cases accepts
    exact ⟨storable, rfl, room⟩

/-- **A message delivered three times**, although nothing fails: it goes to a group, whose chat id
does not fit the column of the recipient, so that no record of it can be written. -/
theorem delivered_again :
    ((MessagesService.send (some "w") "u" (Example.dto Example.group)).run exec
      (Example.tape WaAutomation.Example.fine) Example.start).2.2.jobs =
        [⟨0, .message (Example.job Example.group), defaultAttempts, 0, 0⟩] ∧
    ((made (failed WaAutomation.Example.helpers (Example.job Example.group))
        (List.replicate defaultAttempts (Example.attempt WaAutomation.Example.fine))).flatMap
      (exchanged WaAutomation.Example.helpers (Example.job Example.group))).countP accepted = 3 ∧
    ¬((made (failed WaAutomation.Example.helpers (Example.job Example.group))
        (List.replicate defaultAttempts (Example.attempt WaAutomation.Example.fine))).flatMap
      (exchanged WaAutomation.Example.helpers (Example.job Example.group))).Pairwise
        fun first second =>
          accepted first = true → accepted second = false ∧ recordsFailure second = false := by
  exact ⟨rfl, by decide +kernel, by decide +kernel⟩

end WaAutomation.Messages
