/-
**A webhook job over its attempts.**

The processor posts the event and records the delivery in one `try` block: when the record fails,
the handler records a failure and rethrows, and the queue runs the job again.

* `Course` lists what an attempt can do, with the inputs that make it do so, and `attempt_course`
  says that it does nothing else;
* `rows_made` is the induction over the attempts of a job, and `delivery_protocol` what it leaves in
  the table: all is as announced unless the retry count is 0, which `enqueue` takes for absent;
* `final_iff` says when an accepted event is final, and `accepted_again` is a job where it is not.
-/

import WaAutomation.Model.Deliveries
import WaAutomation.Model.Frame

set_option linter.unusedSectionVars false

namespace WaAutomation.Deliveries

open Library

/-! ### One attempt -/

section One

variable (k : DeliveryHelpers) (data : WebhookJob)

/-- The call that looks the webhook up. -/
abbrev lookup : Call := .find .webhooks fun webhook => webhook.id == data.webhookId

/-- The insert of a delivery row. -/
abbrev insertion (record : DeliveryRecord) : Call :=
  .insert .deliveries (some fun input =>
    ⟨input.ids 0, record.webhookId, record.event, record.payload, record.attempt, record.statusCode,
      record.status, record.error, input.now⟩)

/-- The record of an accepted delivery. -/
def success (webhook : Webhook) (index status : Nat) : DeliveryRecord :=
  ⟨webhook.id, data.event, data.payload, index + 1, some status, .success, none⟩

/-- The record of a failed one. -/
def failure (webhook : Webhook) (index : Nat) (err : Err) : DeliveryRecord :=
  ⟨webhook.id, data.event, data.payload, index + 1, responseStatus err, .failed, some err.message⟩

/-- The reply of a database call an attempt makes. -/
abbrev DeliveryAttempt.reply (attempt : DeliveryAttempt) (number : Nat) (call : Call) :
    Except Err (Resp call) :=
  (exec call (attempt.tape.later number).base (attempt.stores number)).1

/-- The active webhook the attempt finds. -/
def target (attempt : DeliveryAttempt) : Option Webhook :=
  match DeliveryAttempt.reply attempt 0 (lookup data) with
  | .ok rows => rows.head?.filter Webhook.isActive
  | .error _ => none

/-- **What an attempt can do**: it does not reach the webhook, finds none that is active, is refused
by the endpoint and records that, or is accepted. Then it records that, or fails to and goes on as
if it had been refused. -/
inductive Course (attempt : DeliveryAttempt × Nat) : Prop where
  | unread (error : Err) (none : target data attempt.1 = none)
      (exchanged : DeliveryAttempt.exchanged k data attempt = [⟨.db (lookup data), .error error⟩])
      (fails : DeliveryAttempt.fails k data attempt = true)
  | skipped (rows : List Webhook) (none : target data attempt.1 = none)
      (exchanged : DeliveryAttempt.exchanged k data attempt = [⟨.db (lookup data), .ok rows⟩])
      (returns : DeliveryAttempt.fails k data attempt = false)
  | refused (rows : List Webhook) (webhook : Webhook) (request : Post) (status : Option Nat)
      (message : String) (found : target data attempt.1 = some webhook)
      (refuses : (attempt.1.tape.later 1).endpoint = .error (status, message))
      (exchanged : DeliveryAttempt.exchanged k data attempt =
        [⟨.db (lookup data), .ok rows⟩, ⟨.post request, .error (.axios status message)⟩,
          ⟨.db (insertion (failure data webhook attempt.2 (.axios status message))),
            DeliveryAttempt.reply attempt.1 2
              (insertion (failure data webhook attempt.2 (.axios status message)))⟩])
      (fails : DeliveryAttempt.fails k data attempt = true)
  | recorded (rows : List Webhook) (webhook : Webhook) (request : Post) (status : Nat)
      (row : WebhookDelivery) (found : target data attempt.1 = some webhook)
      (accepts : (attempt.1.tape.later 1).endpoint = .ok status)
      (written : DeliveryAttempt.reply attempt.1 2
        (insertion (success data webhook attempt.2 status)) = .ok row)
      (exchanged : DeliveryAttempt.exchanged k data attempt =
        [⟨.db (lookup data), .ok rows⟩, ⟨.post request, .ok status⟩,
          ⟨.db (insertion (success data webhook attempt.2 status)), .ok row⟩])
      (returns : DeliveryAttempt.fails k data attempt = false)
  | unrecorded (rows : List Webhook) (webhook : Webhook) (request : Post) (status : Nat)
      (error : Err) (found : target data attempt.1 = some webhook)
      (accepts : (attempt.1.tape.later 1).endpoint = .ok status)
      (lost : DeliveryAttempt.reply attempt.1 2
        (insertion (success data webhook attempt.2 status)) = .error error)
      (exchanged : DeliveryAttempt.exchanged k data attempt =
        [⟨.db (lookup data), .ok rows⟩, ⟨.post request, .ok status⟩,
          ⟨.db (insertion (success data webhook attempt.2 status)), .error error⟩,
          ⟨.db (insertion (failure data webhook attempt.2 error)),
            DeliveryAttempt.reply attempt.1 3
              (insertion (failure data webhook attempt.2 error))⟩])
      (fails : DeliveryAttempt.fails k data attempt = true)

variable {k data}

/-- An attempt goes on with the active webhook it finds. -/
theorem process_eq (index : Nat) :
    WebhookProcessor.process k index data = Delivering.call (.db (lookup data)) >>= fun rows =>
      (rows.head?.filter Webhook.isActive).elim (.ret .skipped) fun webhook =>
        WebhookProcessor.attemptDelivery k webhook index data := by
  unfold WebhookProcessor.process WebhooksService.getById
  rw [Program.bind_assoc]
  congr 1
  funext rows
  cases rows.head? with
  | none => rfl
  | some webhook => cases active : webhook.isActive <;> simp [active, Option.filter]

/-- The stores the calls after the first find. -/
abbrev rest (stores : Nat → Store) : Nat → Store := fun index => stores (index + 1)

/-- What an attempt does with the rows it finds. -/
theorem process_reads (index : Nat) {tape : Program.Tape DeliveryInput} {stores : Nat → Store}
    {rows : List Webhook}
    (looked : (exec (lookup data) (tape.later 0).base (stores 0)).1 = .ok rows) :
    (WebhookProcessor.process k index data).run (Program.found DeliveryCall.exec) tape stores =
        ((rows.head?.filter Webhook.isActive).elim (.ret .skipped) fun webhook =>
          WebhookProcessor.attemptDelivery k webhook index data).run
            (Program.found DeliveryCall.exec) tape.advance (rest stores) ∧
      (WebhookProcessor.process k index data).exchanges (Program.found DeliveryCall.exec)
        tape stores =
        ⟨.db (lookup data), .ok rows⟩ ::
          ((rows.head?.filter Webhook.isActive).elim (.ret .skipped) fun webhook =>
            WebhookProcessor.attemptDelivery k webhook index data).exchanges
              (Program.found DeliveryCall.exec) tape.advance (rest stores) := by
  rw [process_eq]
  exact Program.perform_ok _ looked _

theorem process_unread (index : Nat) {tape : Program.Tape DeliveryInput} {stores : Nat → Store}
    {error : Err}
    (looked : (exec (lookup data) (tape.later 0).base (stores 0)).1 = .error error) :
    (WebhookProcessor.process k index data).run (Program.found DeliveryCall.exec) tape stores =
        (.error error, tape.advance, rest stores) ∧
      (WebhookProcessor.process k index data).exchanges (Program.found DeliveryCall.exec)
        tape stores =
        [⟨.db (lookup data), .error error⟩] := by
  rw [process_eq]
  exact Program.perform_error _ looked _

variable (data) in
/-- The delivery itself, by what the endpoint and the database answer. -/
theorem deliver_refused (webhook : Webhook) (index : Nat) (now : Time)
    (tape : Program.Tape DeliveryInput) (stores : Nat → Store) {status : Option Nat}
    {message : String} (refuses : (tape.later 0).endpoint = .error (status, message)) :
    (WebhookProcessor.deliver k webhook index data now).run (Program.found DeliveryCall.exec) tape
        stores = (.error (.axios status message), tape.advance, rest stores) ∧
      (WebhookProcessor.deliver k webhook index data now).exchanges
        (Program.found DeliveryCall.exec)
        tape stores =
          [⟨.post (WebhookProcessor.request k webhook data now),
            .error (.axios status message)⟩] := by
  refine Program.perform_error _ ?_ _
  simp only [Program.found, DeliveryCall.exec, refuses]

/-- The post of an accepted delivery. -/
theorem post_accepted (request : Post) {tape : Program.Tape DeliveryInput} {stores : Nat → Store}
    {status : Nat} (accepts : (tape.later 0).endpoint = .ok status) :
    (Program.found DeliveryCall.exec (.post request) (tape.later 0) stores).1 = .ok status := by
  simp only [Program.found, DeliveryCall.exec, accepts]

theorem deliver_recorded (webhook : Webhook) (index : Nat) (now : Time)
    (tape : Program.Tape DeliveryInput) (stores : Nat → Store) {status : Nat}
    {row : WebhookDelivery}
    (accepts : (tape.later 0).endpoint = .ok status)
    (recorded : (exec (insertion (success data webhook index status)) (tape.later 1).base
      (stores 1)).1 = .ok row) :
    (WebhookProcessor.deliver k webhook index data now).run (Program.found DeliveryCall.exec) tape
        stores = (.ok (.delivered status), tape.advance.advance, rest (rest stores)) ∧
      (WebhookProcessor.deliver k webhook index data now).exchanges
        (Program.found DeliveryCall.exec)
        tape stores =
          [⟨.post (WebhookProcessor.request k webhook data now), .ok status⟩,
            ⟨.db (insertion (success data webhook index status)), .ok row⟩] := by
  obtain ⟨posts, posted⟩ := Program.perform_ok _
    (post_accepted (WebhookProcessor.request k webhook data now) accepts) fun (status : Nat) =>
      (WebhooksService.recordDelivery (success data webhook index status) >>= fun _ =>
        .ret (.delivered status) : Delivering DeliveryResult)
  have replies : (Program.found DeliveryCall.exec
      (.db (insertion (success data webhook index status))) (tape.advance.later 0)
      (rest stores)).1 =
        .ok row := recorded
  obtain ⟨ends, records⟩ := Program.perform_ok _ replies fun _ =>
    (.ret (.delivered status) : Delivering DeliveryResult)
  exact ⟨posts.trans ends, posted.trans (congrArg _ records)⟩

theorem deliver_unrecorded (webhook : Webhook) (index : Nat) (now : Time)
    (tape : Program.Tape DeliveryInput) (stores : Nat → Store) {status : Nat} {error : Err}
    (accepts : (tape.later 0).endpoint = .ok status)
    (lost : (exec (insertion (success data webhook index status)) (tape.later 1).base
      (stores 1)).1 = .error error) :
    (WebhookProcessor.deliver k webhook index data now).run (Program.found DeliveryCall.exec) tape
        stores = (.error error, tape.advance.advance, rest (rest stores)) ∧
      (WebhookProcessor.deliver k webhook index data now).exchanges
        (Program.found DeliveryCall.exec)
        tape stores =
          [⟨.post (WebhookProcessor.request k webhook data now), .ok status⟩,
            ⟨.db (insertion (success data webhook index status)), .error error⟩] := by
  obtain ⟨posts, posted⟩ := Program.perform_ok _
    (post_accepted (WebhookProcessor.request k webhook data now) accepts) fun (status : Nat) =>
      (WebhooksService.recordDelivery (success data webhook index status) >>= fun _ =>
        .ret (.delivered status) : Delivering DeliveryResult)
  have replies : (Program.found DeliveryCall.exec
      (.db (insertion (success data webhook index status))) (tape.advance.later 0)
      (rest stores)).1 =
        .error error := lost
  obtain ⟨ends, records⟩ := Program.perform_error _ replies fun _ =>
    (.ret (.delivered status) : Delivering DeliveryResult)
  exact ⟨posts.trans ends, posted.trans (congrArg _ records)⟩

/-- The handler records a failure and throws the exception on. -/
theorem attempt_throws {webhook : Webhook} {index : Nat} {tape tape' : Program.Tape DeliveryInput}
    {stores stores' : Nat → Store} {error : Err}
    (delivers : (WebhookProcessor.deliver k webhook index data tape.now.base.now).run
      (Program.found DeliveryCall.exec) tape stores = (.error error, tape', stores')) :
    (∃ error state, (WebhookProcessor.attemptDelivery k webhook index data).run
      (Program.found DeliveryCall.exec) tape stores = (.error error, state)) ∧
    (WebhookProcessor.attemptDelivery k webhook index data).exchanges
        (Program.found DeliveryCall.exec) tape stores =
      (WebhookProcessor.deliver k webhook index data tape.now.base.now).exchanges
          (Program.found DeliveryCall.exec) tape stores ++
        [⟨.db (insertion (failure data webhook index error)),
          (exec (insertion (failure data webhook index error)) (tape'.later 0).base
            (stores' 0)).1⟩] := by
  unfold WebhookProcessor.attemptDelivery Program.read
  simp only [Program.ambient_bind, Program.ret_bind, Program.run, Program.exchanges]
  rw [Program.run_bind, Program.exchanges_bind, Program.run_attempt, Program.exchanges_attempt,
    delivers]
  cases recorded : (exec (insertion (failure data webhook index error)) (tape'.later 0).base
      (stores' 0)).1 with
  | ok row =>
    have replies : (Program.found DeliveryCall.exec (.db (insertion (failure data webhook index
        error))) (tape'.later 0) stores').1 = .ok row := recorded
    obtain ⟨ran, exchanged⟩ := Program.perform_ok _ replies fun _ =>
      (.throw error : Delivering DeliveryResult)
    exact ⟨⟨_, _, ran⟩, congrArg _ exchanged⟩
  | error other =>
    have replies : (Program.found DeliveryCall.exec (.db (insertion (failure data webhook index
        error))) (tape'.later 0) stores').1 = .error other := recorded
    obtain ⟨ran, exchanged⟩ := Program.perform_error _ replies fun _ =>
      (.throw error : Delivering DeliveryResult)
    exact ⟨⟨_, _, ran⟩, congrArg _ exchanged⟩

/-- Without an exception there is nothing to handle. -/
theorem attempt_returns {webhook : Webhook} {index : Nat} {tape tape' : Program.Tape DeliveryInput}
    {stores stores' : Nat → Store} {result : DeliveryResult}
    (delivers : (WebhookProcessor.deliver k webhook index data tape.now.base.now).run
      (Program.found DeliveryCall.exec) tape stores = (.ok result, tape', stores')) :
    (WebhookProcessor.attemptDelivery k webhook index data).run (Program.found DeliveryCall.exec)
        tape stores = (.ok result, tape', stores') ∧
      (WebhookProcessor.attemptDelivery k webhook index data).exchanges
          (Program.found DeliveryCall.exec) tape stores =
        (WebhookProcessor.deliver k webhook index data tape.now.base.now).exchanges
          (Program.found DeliveryCall.exec) tape stores := by
  unfold WebhookProcessor.attemptDelivery Program.read
  simp only [Program.ambient_bind, Program.ret_bind, Program.run, Program.exchanges]
  rw [Program.run_bind, Program.exchanges_bind, Program.run_attempt, Program.exchanges_attempt,
    delivers]
  exact ⟨rfl, List.append_nil _⟩

/-- The end of an attempt, read off its run. -/
theorem fails_of (attempt : DeliveryAttempt × Nat) {result : Except Err DeliveryResult}
    {state : Program.Tape DeliveryInput × (Nat → Store)}
    (ran : (WebhookProcessor.process k attempt.2 data).run (Program.found DeliveryCall.exec)
      attempt.1.tape attempt.1.stores = (result, state)) :
    DeliveryAttempt.fails k data attempt = !result.isOk := by
  unfold DeliveryAttempt.fails
  rw [ran]
  cases result <;> rfl

variable (data) in
/-- **An attempt takes one of these courses.** -/
theorem attempt_course (attempt : DeliveryAttempt × Nat) : Course k data attempt := by
  obtain ⟨⟨tape, stores⟩, index⟩ := attempt
  cases looked : (exec (lookup data) (tape.later 0).base (stores 0)).1 with
  | error error =>
    obtain ⟨ran, exchanged⟩ := process_unread (k := k) index looked
    refine .unread error ?_ exchanged (fails_of (⟨tape, stores⟩, index) ran)
    simp only [target, DeliveryAttempt.reply, looked]
  | ok rows =>
    obtain ⟨ran, exchanged⟩ := process_reads (k := k) index looked
    have finds : target data ⟨tape, stores⟩ = rows.head?.filter Webhook.isActive := by
      simp only [target, DeliveryAttempt.reply, looked]
    cases found : rows.head?.filter Webhook.isActive with
    | none =>
      rw [found] at ran exchanged finds
      exact .skipped rows finds exchanged (fails_of (⟨tape, stores⟩, index) ran)
    | some webhook =>
      rw [found] at ran exchanged finds
      cases answers : (tape.later 1).endpoint with
      | error answer =>
        obtain ⟨status, message⟩ := answer
        obtain ⟨delivers, posted⟩ := deliver_refused (k := k) data webhook index
          tape.advance.now.base.now tape.advance (rest stores) answers
        obtain ⟨⟨error, state, throws⟩, exchanges⟩ := attempt_throws delivers
        have fails := fails_of (⟨tape, stores⟩, index) (ran.trans throws)
        rw [posted] at exchanges
        exact .refused rows webhook _ status message finds answers
          (exchanged.trans (congrArg _ exchanges)) fails
      | ok status =>
        cases written : (exec (insertion (success data webhook index status)) (tape.later 2).base
            (stores 2)).1 with
        | ok row =>
          obtain ⟨delivers, posted⟩ := deliver_recorded (k := k) webhook index
            tape.advance.now.base.now tape.advance (rest stores) answers written
          obtain ⟨returns, exchanges⟩ := attempt_returns delivers
          have ends := fails_of (⟨tape, stores⟩, index) (ran.trans returns)
          rw [posted] at exchanges
          exact .recorded rows webhook _ status row finds answers written
            (exchanged.trans (congrArg _ exchanges)) ends
        | error error =>
          obtain ⟨delivers, posted⟩ := deliver_unrecorded (k := k) webhook index
            tape.advance.now.base.now tape.advance (rest stores) answers written
          obtain ⟨⟨error', state, throws⟩, exchanges⟩ := attempt_throws delivers
          have fails := fails_of (⟨tape, stores⟩, index) (ran.trans throws)
          rw [posted] at exchanges
          exact .unrecorded rows webhook _ status error finds answers written
            (exchanged.trans (congrArg _ exchanges)) fails

end One

/-! ### The rows of a job -/

section Rows

variable (k : DeliveryHelpers) (data : WebhookJob)

/-- A database call fails. -/
def broken : DeliveryExchange → Bool
  | ⟨.db _, .error _⟩ => true
  | _ => false

/-- The delivery row an exchange records. -/
def recordedRow : DeliveryExchange → Option WebhookDelivery
  | ⟨.db (.insert .deliveries _), .ok row⟩ => some row
  | _ => none

/-- The delivery rows of a list of attempts. -/
def rowsOf (attempts : List (DeliveryAttempt × Nat)) : List WebhookDelivery :=
  (attempts.flatMap (DeliveryAttempt.exchanged k data)).filterMap recordedRow

/-- **The protocol**: the rows are numbered from 1 on, all but the last are failed, there is at most
one more than the retry count, and exactly one more when every attempt fails. -/
structure Protocol (retryCount : Int) (tries : List DeliveryAttempt) : Prop where
  numbered : (rowsOf k data (triesOf k data tries)).map WebhookDelivery.attempt =
    List.range' 1 (rowsOf k data (triesOf k data tries)).length
  failed : ∀ row ∈ (rowsOf k data (triesOf k data tries)).dropLast, row.status = .failed
  within : (rowsOf k data (triesOf k data tries)).length ≤ retryCount.toNat + 1
  exhausts : (∀ attempt ∈ triesOf k data tries, DeliveryAttempt.fails k data attempt = true) →
    (rowsOf k data (triesOf k data tries)).length = retryCount.toNat + 1

/-- The first attempt is refused, and the second one finds the webhook still active. -/
def Retried : List DeliveryAttempt → Prop
  | first :: second :: _ =>
      (target data first).isSome = true ∧ (first.tape.later 1).endpoint.isOk = false ∧
        (target data second).isSome = true
  | _ => False

variable {k data}

theorem insertion_row {record : DeliveryRecord} {input : Input} {store : Store}
    {row : WebhookDelivery} (written : (exec (insertion record) input store).1 = .ok row) :
    row.attempt = record.attempt ∧ row.status = record.status := by
  obtain ⟨message, _, _, reply⟩ | performed := exec_cases (insertion record) input store
  · rw [reply] at written
    cases written
  · rw [performed] at written
    simp only [perform, Store.insert] at written
    split at written
    · cases written
    · cases written
      exact ⟨rfl, rfl⟩

/-- **One attempt without a failing database call**: it is the last and records nothing, records a
failure and throws, or is the last and records a success. -/
theorem attempt_rows {attempt : DeliveryAttempt × Nat}
    (fine : ∀ exchange ∈ DeliveryAttempt.exchanged k data attempt, broken exchange = false) :
    (target data attempt.1 = none ∧ rowsOf k data [attempt] = [] ∧
      DeliveryAttempt.fails k data attempt = false) ∨
    (∃ row, (target data attempt.1).isSome = true ∧
      (attempt.1.tape.later 1).endpoint.isOk = false ∧ rowsOf k data [attempt] = [row] ∧
      row.attempt = attempt.2 + 1 ∧ row.status = .failed ∧
      DeliveryAttempt.fails k data attempt = true) ∨
    ∃ row, (target data attempt.1).isSome = true ∧
      (attempt.1.tape.later 1).endpoint.isOk = true ∧ rowsOf k data [attempt] = [row] ∧
      row.attempt = attempt.2 + 1 ∧ DeliveryAttempt.fails k data attempt = false := by
  unfold rowsOf
  rw [List.flatMap_singleton]
  cases attempt_course (k := k) data attempt with
  | unread error none exchanged fails =>
    rw [exchanged] at fine
    cases fine _ List.mem_cons_self
  | skipped rows none exchanged returns =>
    rw [exchanged]
    exact .inl ⟨none, rfl, returns⟩
  | refused rows webhook request status message found refuses exchanged fails =>
    rw [exchanged] at fine ⊢
    cases written : DeliveryAttempt.reply attempt.1 2
        (insertion (failure data webhook attempt.2 (.axios status message))) with
    | error error =>
      rw [written] at fine
      cases fine _ (List.mem_cons_of_mem _ (List.mem_cons_of_mem _ List.mem_cons_self))
    | ok row =>
      obtain ⟨numbered, status⟩ := insertion_row written
      refine .inr (.inl ⟨row, ?_, ?_, rfl, numbered, status, fails⟩)
      · rw [found]
        rfl
      · rw [refuses]
        rfl
  | recorded rows webhook request status row found accepts written exchanged returns =>
    rw [exchanged]
    refine .inr (.inr ⟨row, ?_, ?_, rfl, (insertion_row written).1, returns⟩)
    · rw [found]
      rfl
    · rw [accepts]
      rfl
  | unrecorded rows webhook request status error found accepts lost exchanged fails =>
    rw [exchanged] at fine
    cases fine _ (List.mem_cons_of_mem _ (List.mem_cons_of_mem _ List.mem_cons_self))

/-- It finds no active webhook, or records a row. -/
theorem attempt_reaches {attempt : DeliveryAttempt × Nat}
    (fine : ∀ exchange ∈ DeliveryAttempt.exchanged k data attempt, broken exchange = false) :
    (target data attempt.1 = none ∧ rowsOf k data [attempt] = [] ∧
      DeliveryAttempt.fails k data attempt = false) ∨
    ∃ row, (target data attempt.1).isSome = true ∧ rowsOf k data [attempt] = [row] := by
  obtain skipped | ⟨row, found, _, records, _⟩ | ⟨row, found, _, records, _⟩ := attempt_rows fine
  · exact .inl skipped
  · exact .inr ⟨row, found, records⟩
  · exact .inr ⟨row, found, records⟩

theorem rowsOf_cons (attempt : DeliveryAttempt × Nat) (attempts : List (DeliveryAttempt × Nat)) :
    rowsOf k data (attempt :: attempts) = rowsOf k data [attempt] ++ rowsOf k data attempts := by
  simp only [rowsOf, List.flatMap_cons, List.flatMap_nil, List.append_nil, List.filterMap_append]

theorem mem_dropLast_cons {α : Type} {first item : α} {rest : List α}
    (member : item ∈ (first :: rest).dropLast) : item = first ∨ item ∈ rest.dropLast := by
  cases rest with
  | nil => cases member
  | cons next rest =>
    rw [List.dropLast_cons_cons] at member
    exact List.mem_cons.mp member

/-- The attempts that are made, the first one numbered `start`. -/
abbrev madeFrom (k : DeliveryHelpers) (data : WebhookJob) (start : Nat)
    (tries : List DeliveryAttempt) : List (DeliveryAttempt × Nat) :=
  made (DeliveryAttempt.fails k data) (tries.zipIdx start)

theorem madeFrom_cons (start : Nat) (first : DeliveryAttempt) (rest : List DeliveryAttempt) :
    madeFrom k data start (first :: rest) =
      if DeliveryAttempt.fails k data (first, start) = true then
        (first, start) :: madeFrom k data (start + 1) rest
      else [(first, start)] := by
  unfold madeFrom
  rw [List.zipIdx_cons, made]

/-- **The rows of all attempts**: a failure for each that throws, and at most one row of the
last. -/
theorem rows_made (tries : List DeliveryAttempt) :
    ∀ start : Nat, (∀ attempt ∈ madeFrom k data start tries,
        ∀ exchange ∈ DeliveryAttempt.exchanged k data attempt, broken exchange = false) →
      (rowsOf k data (madeFrom k data start tries)).map WebhookDelivery.attempt =
          List.range' (start + 1) (rowsOf k data (madeFrom k data start tries)).length ∧
        (∀ row ∈ (rowsOf k data (madeFrom k data start tries)).dropLast, row.status = .failed) ∧
        (rowsOf k data (madeFrom k data start tries)).length ≤ tries.length ∧
        ((∀ attempt ∈ madeFrom k data start tries, DeliveryAttempt.fails k data attempt = true) →
          (rowsOf k data (madeFrom k data start tries)).length = tries.length) := by
  induction tries with
  | nil => exact fun start _ => ⟨rfl, fun _ wrong => (by cases wrong), le_rfl, fun _ => rfl⟩
  | cons first rest ih =>
    intro start fine
    rw [madeFrom_cons] at fine ⊢
    by_cases fails : DeliveryAttempt.fails k data (first, start) = true
    · rw [if_pos fails] at fine ⊢
      obtain ⟨numbered, failed, within, all⟩ := ih (start + 1) fun attempt member =>
        fine attempt (List.mem_cons_of_mem _ member)
      obtain ⟨_, _, returns⟩ | ⟨row, _, _, records, number, status, _⟩ |
          ⟨_, _, _, _, _, returns⟩ :=
        attempt_rows (fine (first, start) List.mem_cons_self)
      · rw [returns] at fails
        cases fails
      · rw [rowsOf_cons, records, List.singleton_append]
        refine ⟨?_, fun other member => ?_, ?_, fun every => ?_⟩
        · rw [List.map_cons, numbered, number, List.length_cons, List.range'_succ]
        · obtain rfl | member := mem_dropLast_cons member
          · exact status
          · exact failed other member
        · simpa using within
        · simpa using all fun attempt member => every attempt (List.mem_cons_of_mem _ member)
      · rw [returns] at fails
        cases fails
    · rw [if_neg fails] at fine ⊢
      obtain ⟨_, records, _⟩ | ⟨_, _, _, _, _, _, throws⟩ |
          ⟨row, _, _, records, number, _⟩ :=
        attempt_rows (fine (first, start) List.mem_cons_self)
      · rw [records]
        exact ⟨rfl, fun _ wrong => (by cases wrong), Nat.zero_le _,
          fun every => absurd (every _ List.mem_cons_self) fails⟩
      · exact absurd throws fails
      · rw [records]
        exact ⟨by simp [number], fun _ wrong => (by cases wrong), by simp,
          fun every => absurd (every _ List.mem_cons_self) fails⟩

/-- Of two attempts or more, the second records a row exactly when the job is retried. -/
theorem rows_retried (first second : DeliveryAttempt) (rest : List DeliveryAttempt)
    (fine : ∀ attempt ∈ madeFrom k data 0 (first :: second :: rest),
      ∀ exchange ∈ DeliveryAttempt.exchanged k data attempt, broken exchange = false) :
    (Retried data (first :: second :: rest) →
      2 ≤ (rowsOf k data (madeFrom k data 0 (first :: second :: rest))).length) ∧
    (¬Retried data (first :: second :: rest) →
      (rowsOf k data (madeFrom k data 0 (first :: second :: rest))).length ≤ 1 ∧
        ∃ attempt ∈ madeFrom k data 0 (first :: second :: rest),
          DeliveryAttempt.fails k data attempt = false) := by
  rw [madeFrom_cons] at fine ⊢
  by_cases fails : DeliveryAttempt.fails k data (first, 0) = true
  · rw [if_pos fails, madeFrom_cons] at fine ⊢
    obtain ⟨_, _, returns⟩ | ⟨row, active, refused, records, _⟩ | ⟨_, _, _, _, _, returns⟩ :=
      attempt_rows (fine (first, 0) List.mem_cons_self)
    · rw [returns] at fails
      cases fails
    · have heads : (second, 0 + 1) ∈ (if DeliveryAttempt.fails k data (second, 0 + 1) = true then
          (second, 0 + 1) :: madeFrom k data (0 + 1 + 1) rest else [(second, 0 + 1)]) := by
        split <;> exact List.mem_cons_self
      obtain ⟨inactive, nothing, returns⟩ | ⟨next, again, more⟩ :=
        attempt_reaches (fine (second, 0 + 1) (List.mem_cons_of_mem _ heads))
      · have not_failed : ¬DeliveryAttempt.fails k data (second, 0 + 1) = true := by
          simp [returns]
        rw [if_neg not_failed, rowsOf_cons, records, nothing]
        refine ⟨fun retried => ?_, fun _ => ⟨le_rfl, (second, 0 + 1), by simp, returns⟩⟩
        have found := retried.2.2
        rw [inactive] at found
        cases found
      · refine ⟨fun _ => ?_, fun wrong => absurd ⟨active, refused, again⟩ wrong⟩
        rw [rowsOf_cons, records]
        split
        · rw [rowsOf_cons, more]
          simp
        · rw [more]
          simp
    · rw [returns] at fails
      cases fails
  · rw [if_neg fails] at fine ⊢
    have ends : DeliveryAttempt.fails k data (first, 0) = false := by simpa using fails
    obtain ⟨inactive, nothing, _⟩ | ⟨_, _, _, _, _, _, throws⟩ | ⟨row, _, accepts, records, _⟩ :=
      attempt_rows (fine (first, 0) List.mem_cons_self)
    · rw [nothing]
      refine ⟨fun retried => ?_, fun _ => ⟨Nat.zero_le _, (first, 0), by simp, ends⟩⟩
      have found := retried.1
      rw [inactive] at found
      cases found
    · exact absurd throws fails
    · rw [records]
      refine ⟨fun retried => ?_, fun _ => ⟨le_rfl, (first, 0), by simp, ends⟩⟩
      have refused := retried.2.1
      rw [accepts] at refused
      cases refused

end Rows

/-! ### The protocol -/

/-- What `enqueue` adds is a job with the attempts of the webhook. -/
theorem enqueued (webhook : Webhook) (event : String) (payload : Record) (tape : Program.Tape Input)
    (store : Store) {job : QueuedJob}
    (queued : ((WebhooksService.enqueue webhook event payload).run exec tape store).2.2.jobs =
      store.jobs ++ [job]) :
    job.attempts = WebhooksService.attempts webhook ∧
      job.job = .webhook ⟨webhook.id, event, payload⟩ := by
  unfold WebhooksService.enqueue Svc.call at queued
  rw [Program.run_perform] at queued
  obtain ⟨message, _, _, fails⟩ | performed := exec_cases
    (.add (.webhook ⟨webhook.id, event, payload⟩) (WebhooksService.attempts webhook) 0)
    (tape.later 0) store
  · rw [fails] at queued
    simp at queued
  · rw [performed] at queued
    simp only [perform, Store.enqueue, List.append_cancel_left_eq, List.cons.injEq, and_true]
      at queued
    rw [← queued]
    exact ⟨rfl, rfl⟩

/-- **The delivery protocol** holds of every job of a webhook whose retry count is not 0. A count of
0 becomes the default of 3: such a job keeps to it as long as it is not retried. -/
theorem delivery_protocol (k : DeliveryHelpers) (webhook : Webhook) (event : String)
    (payload : Record) (tape : Program.Tape Input) (store : Store) (job : QueuedJob)
    (tries : List DeliveryAttempt)
    (queued : ((WebhooksService.enqueue webhook event payload).run exec tape store).2.2.jobs =
      store.jobs ++ [job])
    (all : tries.length = job.attempts)
    (fine : ∀ attempt ∈ triesOf k ⟨webhook.id, event, payload⟩ tries,
      ∀ exchange ∈ DeliveryAttempt.exchanged k ⟨webhook.id, event, payload⟩ attempt,
        broken exchange = false) :
    Protocol k ⟨webhook.id, event, payload⟩ webhook.retryCount tries ↔
      webhook.retryCount ≠ 0 ∨ ¬Retried ⟨webhook.id, event, payload⟩ tries := by
  obtain ⟨attempts, _⟩ := enqueued webhook event payload tape store queued
  obtain ⟨numbered, failed, within, exhausts⟩ := rows_made tries 0 fine
  rw [all, attempts] at within exhausts
  by_cases zero : webhook.retryCount = 0
  · have four : tries.length = 4 := by
      rw [all, attempts, WebhooksService.attempts, if_pos zero]
      rfl
    obtain ⟨first, second, rest, rfl⟩ : ∃ first second rest, tries = first :: second :: rest := by
      cases tries with
      | nil => cases four
      | cons first others =>
        cases others with
        | nil => cases four
        | cons second rest => exact ⟨first, second, rest, rfl⟩
    obtain ⟨again, once⟩ := rows_retried first second rest fine
    constructor
    · intro protocol
      refine .inr fun retried => ?_
      have rows := protocol.within
      rw [zero] at rows
      exact absurd ((again retried).trans rows) (by decide)
    · intro holds
      have single := holds.resolve_left (not_not_intro zero)
      obtain ⟨one, attempt, member, returns⟩ := once single
      refine ⟨numbered, failed, ?_, fun every => ?_⟩
      · rw [zero]
        exact one
      · rw [every attempt member] at returns
        cases returns
  · refine ⟨fun _ => .inl zero, fun _ => ?_⟩
    rw [WebhooksService.attempts, if_neg zero] at within exhausts
    exact ⟨numbered, failed, within, exhausts⟩

namespace Example

def helpers : DeliveryHelpers := ⟨fun _ => "", fun _ _ => "", fun _ => ""⟩

/-- A webhook with the given retry count. -/
def webhook (retryCount : Int) : Webhook :=
  ⟨"h", "w", "crm", "http://crm", none, ["message.received"], true, retryCount, 10000⟩

def start (retryCount : Int) : Store :=
  ⟨fun
    | .webhooks => [webhook retryCount]
    | _ => [], [], 0, [], fun _ _ => none⟩

def tape (input : Input) : Program.Tape Input := ⟨input, fun _ => input⟩

/-- The job of an event. -/
def data : WebhookJob := ⟨"h", "message.received", []⟩

/-- An attempt whose calls are answered by the list of inputs, and then by one that fails
nothing. -/
def attempt (retryCount : Int) (inputs : List DeliveryInput) : DeliveryAttempt :=
  ⟨⟨⟨WaAutomation.Example.fine, .ok 200⟩,
    fun index => inputs.getD index ⟨WaAutomation.Example.fine, .ok 200⟩⟩, fun _ => start retryCount⟩

/-- The endpoint answers 500. -/
def refused : DeliveryInput := ⟨WaAutomation.Example.fine, .error (some 500, "refused")⟩

/-- An attempt the endpoint refuses, and one it accepts. -/
def refusal (retryCount : Int) : DeliveryAttempt := attempt retryCount [refused, refused]

def acceptance (retryCount : Int) : DeliveryAttempt := attempt retryCount []

end Example

theorem delivery_protocol_example :
    Protocol Example.helpers Example.data 1 [Example.refusal 1, Example.acceptance 1] :=
  (delivery_protocol Example.helpers (Example.webhook 1) "message.received" []
    (Example.tape WaAutomation.Example.fine) (Example.start 1) ⟨0, .webhook Example.data, 2, 0, 0⟩
    [Example.refusal 1, Example.acceptance 1] rfl rfl (by decide +kernel)).mpr (.inl (by decide))

/-- **A retry count of 0**: the job of such a webhook has four attempts, and leaves four rows when
the endpoint refuses all of them. -/
theorem protocol_broken :
    ((WebhooksService.enqueue (Example.webhook 0) "message.received" []).run exec
      (Example.tape WaAutomation.Example.fine) (Example.start 0)).2.2.jobs =
        [⟨0, .webhook Example.data, 4, 0, 0⟩] ∧
    (rowsOf Example.helpers Example.data (triesOf Example.helpers Example.data
      (List.replicate 4 (Example.refusal 0)))).map WebhookDelivery.attempt = [1, 2, 3, 4] ∧
    ¬Protocol Example.helpers Example.data (Example.webhook 0).retryCount
      (List.replicate 4 (Example.refusal 0)) := by
  have numbers : (rowsOf Example.helpers Example.data (triesOf Example.helpers Example.data
      (List.replicate 4 (Example.refusal 0)))).map WebhookDelivery.attempt = [1, 2, 3, 4] := by
    decide +kernel
  refine ⟨rfl, numbers, fun protocol => ?_⟩
  have four := congrArg List.length numbers
  rw [List.length_map] at four
  exact absurd (four ▸ protocol.within) (by decide)

/-! ### An accepted event is final -/

section Final

variable (k : DeliveryHelpers) (data : WebhookJob)

/-- The event is posted. -/
def posts : DeliveryExchange → Bool
  | ⟨.post _, _⟩ => true
  | _ => false

/-- It is posted, and the endpoint answers 2xx. -/
def accepts : DeliveryExchange → Bool
  | ⟨.post _, .ok _⟩ => true
  | _ => false

/-- A delivery row with status `failed` is written. -/
def recordsFailure (exchange : DeliveryExchange) : Bool :=
  (recordedRow exchange).any fun row => row.status == .failed

/-- **An accepted event is final**: it is not posted again, and its attempt records no failure. -/
structure Final (tries : List DeliveryAttempt) : Prop where
  once : ((triesOf k data tries).flatMap (DeliveryAttempt.exchanged k data)).Pairwise
    fun first second => accepts first = true → posts second = false
  kept : ∀ attempt ∈ triesOf k data tries, ∀ exchange ∈ DeliveryAttempt.exchanged k data attempt,
    accepts exchange = true →
      ∀ other ∈ DeliveryAttempt.exchanged k data attempt, recordsFailure other = false

/-- When the record of an accepted delivery throws, that of its failure throws as well, and no later
attempt finds the webhook active. -/
def Settled (tries : List DeliveryAttempt) : Prop :=
  ∀ attempt ∈ triesOf k data tries, ∀ webhook status error,
    target data attempt.1 = some webhook → (attempt.1.tape.later 1).endpoint = .ok status →
      DeliveryAttempt.reply attempt.1 2 (insertion (success data webhook attempt.2 status)) =
        .error error →
        (DeliveryAttempt.reply attempt.1 3
          (insertion (failure data webhook attempt.2 error))).isOk =
            false ∧
          ∀ next, [attempt, next].Sublist (triesOf k data tries) → target data next.1 = none

variable {k data}

/-- An attempt that does not find the webhook active posts nothing. -/
theorem posts_of_target {attempt : DeliveryAttempt × Nat} :
    (∃ exchange ∈ DeliveryAttempt.exchanged k data attempt, posts exchange = true) ↔
      (target data attempt.1).isSome = true := by
  cases attempt_course (k := k) data attempt with
  | unread error none exchanged fails => simp [exchanged, none, posts]
  | skipped rows none exchanged returns => simp [exchanged, none, posts]
  | refused rows webhook request status message found refuses exchanged fails =>
    simp [exchanged, found, posts]
  | recorded rows webhook request status row found accepts written exchanged returns =>
    simp [exchanged, found, posts]
  | unrecorded rows webhook request status error found accepts lost exchanged fails =>
    simp [exchanged, found, posts]

/-- Within an attempt the event is posted once. -/
theorem posted_once (attempt : DeliveryAttempt × Nat) :
    (DeliveryAttempt.exchanged k data attempt).Pairwise
      fun first second => accepts first = true → posts second = false := by
  cases attempt_course (k := k) data attempt with
  | unread error none exchanged fails => simp [exchanged]
  | skipped rows none exchanged returns => simp [exchanged]
  | refused rows webhook request status message found refuses exchanged fails =>
    simp [exchanged, posts, accepts]
  | recorded rows webhook request status row found accepts written exchanged returns =>
    simp [exchanged, posts, Deliveries.accepts]
  | unrecorded rows webhook request status error found accepts lost exchanged fails =>
    simp [exchanged, posts, Deliveries.accepts]

/-- What an accepted attempt exchanges whose record is lost. -/
theorem exchanged_lost {attempt : DeliveryAttempt × Nat} {webhook : Webhook} {status : Nat}
    {error : Err} (found : target data attempt.1 = some webhook)
    (answers : (attempt.1.tape.later 1).endpoint = .ok status)
    (lost : DeliveryAttempt.reply attempt.1 2 (insertion (success data webhook attempt.2 status)) =
      .error error) :
    ∃ rows request, DeliveryAttempt.exchanged k data attempt =
      [⟨.db (lookup data), .ok rows⟩, ⟨.post request, .ok status⟩,
        ⟨.db (insertion (success data webhook attempt.2 status)), .error error⟩,
        ⟨.db (insertion (failure data webhook attempt.2 error)),
          DeliveryAttempt.reply attempt.1 3
            (insertion (failure data webhook attempt.2 error))⟩] := by
  cases attempt_course (k := k) data attempt with
  | unread _ none _ _ => cases none.symm.trans found
  | skipped _ none _ _ => cases none.symm.trans found
  | refused _ _ _ _ _ _ refuses _ _ => cases refuses.symm.trans answers
  | recorded _ _ _ _ _ there accepts written _ _ =>
    cases there.symm.trans found
    cases accepts.symm.trans answers
    cases written.symm.trans lost
  | unrecorded rows _ request _ _ there accepts lost' exchanged _ =>
    cases there.symm.trans found
    cases accepts.symm.trans answers
    cases lost'.symm.trans lost
    exact ⟨rows, request, exchanged⟩

/-- Its failure is recorded unless that throws as well. -/
theorem failure_lost {attempt : DeliveryAttempt × Nat} {webhook : Webhook} {status : Nat}
    {error : Err} (found : target data attempt.1 = some webhook)
    (answers : (attempt.1.tape.later 1).endpoint = .ok status)
    (lost : DeliveryAttempt.reply attempt.1 2 (insertion (success data webhook attempt.2 status)) =
      .error error) :
    (∀ other ∈ DeliveryAttempt.exchanged k data attempt, recordsFailure other = false) ↔
      (DeliveryAttempt.reply attempt.1 3 (insertion (failure data webhook attempt.2 error))).isOk =
        false := by
  obtain ⟨rows, request, exchanged⟩ := exchanged_lost (k := k) found answers lost
  rw [exchanged]
  cases written : DeliveryAttempt.reply attempt.1 3
      (insertion (failure data webhook attempt.2 error)) with
  | error other => simp [recordsFailure, recordedRow, Except.isOk, Except.toBool]
  | ok row =>
    have failed : row.status = .failed := (insertion_row written).2
    simp [recordsFailure, recordedRow, failed, Except.isOk, Except.toBool]

/-- **An accepted attempt** records that and returns, or loses the record. -/
theorem accepted_cases {attempt : DeliveryAttempt × Nat} {exchange : DeliveryExchange}
    (member : exchange ∈ DeliveryAttempt.exchanged k data attempt)
    (accepted : accepts exchange = true) :
    (DeliveryAttempt.fails k data attempt = false ∧
      ∀ other ∈ DeliveryAttempt.exchanged k data attempt, recordsFailure other = false) ∨
    ∃ webhook status error, target data attempt.1 = some webhook ∧
      (attempt.1.tape.later 1).endpoint = .ok status ∧
      DeliveryAttempt.reply attempt.1 2 (insertion (success data webhook attempt.2 status)) =
        .error error := by
  cases attempt_course (k := k) data attempt with
  | unread error none exchanged fails =>
    rw [exchanged, List.mem_singleton] at member
    rw [member] at accepted
    cases accepted
  | skipped rows none exchanged returns =>
    rw [exchanged, List.mem_singleton] at member
    rw [member] at accepted
    cases accepted
  | refused rows webhook request status message found refuses exchanged fails =>
    rw [exchanged] at member
    simp only [List.mem_cons, List.not_mem_nil, or_false] at member
    obtain rfl | rfl | rfl := member <;> cases accepted
  | recorded rows webhook request status row found answers written exchanged returns =>
    have succeeded : row.status = .success := (insertion_row written).2
    left
    rw [exchanged]
    simp [returns, recordsFailure, recordedRow, succeeded]
  | unrecorded rows webhook request status error found answers lost exchanged fails =>
    exact .inr ⟨webhook, status, error, found, answers, lost⟩

/-- **An accepted event is final** exactly when the record of an accepted delivery does not throw,
or nothing comes of it: its failure is not recorded either, and the job does not get to post
again. -/
theorem final_iff (k : DeliveryHelpers) (data : WebhookJob) (tries : List DeliveryAttempt) :
    Final k data tries ↔ Settled k data tries := by
  constructor
  · intro final attempt member webhook status error found answers lost
    obtain ⟨rows, request, exchanged⟩ := exchanged_lost (k := k) found answers lost
    have posted : (⟨.post request, .ok status⟩ : DeliveryExchange) ∈
        DeliveryAttempt.exchanged k data attempt := by
      simp [exchanged]
    refine ⟨(failure_lost found answers lost).mp (final.kept attempt member _ posted rfl), ?_⟩
    intro next follows
    by_contra active
    obtain ⟨again, later, posts_again⟩ := posts_of_target.mpr (Option.ne_none_iff_isSome.mp active)
    have quiet := (List.pairwise_flatMap.mp final.once).2.forall_sublist follows _
        posted again later
      rfl
    rw [posts_again] at quiet
    cases quiet
  · intro settled
    refine ⟨List.pairwise_flatMap.mpr ⟨fun attempt _ => posted_once attempt, ?_⟩, ?_⟩
    · refine List.pairwise_of_forall_sublist fun follows => ?_
      rename_i attempt next
      intro first member second later accepted
      by_contra posted
      have active := posts_of_target.mp ⟨second, later, by simpa using posted⟩
      obtain ⟨returns, _⟩ | ⟨webhook, status, error, found, answers, lost⟩ :=
        accepted_cases member accepted
      · rw [(made_failed _ _).forall_sublist follows] at returns
        cases returns
      · have attempted := follows.subset List.mem_cons_self
        rw [(settled attempt attempted webhook status error found answers lost).2 next follows]
          at active
        cases active
    · intro attempt attempted exchange member accepted
      obtain ⟨_, kept⟩ | ⟨webhook, status, error, found, answers, lost⟩ :=
        accepted_cases member accepted
      · exact kept
      · exact (failure_lost found answers lost).mpr
          (settled attempt attempted webhook status error found answers lost).1

end Final

namespace Example

/-- The endpoint accepts, and the record of that throws. -/
def unrecorded : DeliveryAttempt :=
  attempt 3 [⟨WaAutomation.Example.fine, .ok 200⟩, ⟨WaAutomation.Example.fine, .ok 200⟩,
    ⟨WaAutomation.Example.faulty, .ok 200⟩]

end Example

/-- **An accepted event is posted again** when the database fails once: the first attempt is
recorded as failed, and the second one posts again. -/
theorem accepted_again :
    ((triesOf Example.helpers Example.data [Example.unrecorded, Example.acceptance 3]).flatMap
      (DeliveryAttempt.exchanged Example.helpers Example.data)).countP accepts = 2 ∧
    (rowsOf Example.helpers Example.data (triesOf Example.helpers Example.data
      [Example.unrecorded, Example.acceptance 3])).map WebhookDelivery.status =
        [.failed, .success] ∧
    ¬Final Example.helpers Example.data [Example.unrecorded, Example.acceptance 3] := by
  refine ⟨by decide +kernel, by decide +kernel, fun final => ?_⟩
  exact absurd final.once (by decide +kernel)

end WaAutomation.Deliveries
