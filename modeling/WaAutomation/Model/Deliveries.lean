/-
**Deliveries of webhooks.**

`WebhookProcessor.process`. Beside the database it uses `axios.post`, which resolves when the
endpoint answers 2xx and throws else; `JSON.stringify` and the HMAC are left open.

`DeliveryAttempt` is a run of a job whose every call may find any store, and `triesOf` are the
attempts the queue makes of a job: each is told the number of the earlier ones. `timeline` puts them
in time, with the waits of `backoffStrategy` between them.
-/

import WaAutomation.Library.Retry
import WaAutomation.Model.Webhooks

set_option linter.unusedSectionVars false

namespace WaAutomation

open Library

/-- The functions of the language and of `crypto` a delivery is built with. -/
structure DeliveryHelpers where
  stringify : Record → String
  hmac : String → String → String
  isoString : Time → String

/-- One call of a repository or of the endpoint. -/
inductive DeliveryCall where
  | db (call : Call)
  | post (request : Post)

/-- The reply of a call; an endpoint replies its status. -/
@[reducible] def DeliveryResp : DeliveryCall → Type
  | .db call => Resp call
  | .post _ => Nat

/-- What a call does not decide itself, with the answer of the endpoint: the status of a 2xx answer,
or the status of another one, if any, with the message of the exception. -/
structure DeliveryInput where
  base : Input
  endpoint : Except (Option Nat × String) Nat

def DeliveryCall.exec (call : DeliveryCall) (input : DeliveryInput) (store : Store) :
    Except Err (DeliveryResp call) × Store :=
  match call with
  | .db call => WaAutomation.exec call input.base store
  | .post _ =>
      match input.endpoint with
      | .ok status => (.ok status, store)
      | .error (status, message) => (.error (.axios status message), store)

/-- A function of the processor. -/
abbrev Delivering := Program Err DeliveryInput DeliveryCall DeliveryResp

def Delivering.call (request : DeliveryCall) : Delivering (DeliveryResp request) :=
  Program.perform request

/-- The data of a delivery row. -/
structure DeliveryRecord where
  webhookId : Uuid
  event : String
  payload : Record
  attempt : Nat
  statusCode : Option Nat
  status : DeliveryStatus
  error : Option String

namespace WebhooksService

def getById (id : Uuid) : Delivering (Option Webhook) := do
  let rows ← Delivering.call (.db (.find .webhooks fun webhook => webhook.id == id))
  return rows.head?

def recordDelivery (data : DeliveryRecord) : Delivering WebhookDelivery :=
  Delivering.call (.db (.insert .deliveries (some fun input =>
    ⟨input.ids 0, data.webhookId, data.event, data.payload, data.attempt, data.statusCode,
      data.status, data.error, input.now⟩)))

end WebhooksService

/-! ### The processor -/

/-- What a delivery returns. -/
inductive DeliveryResult where
  | skipped
  | delivered (status : Nat)
  deriving DecidableEq, Repr

/-- The value `err?.response?.status ?? null`: only an exception of axios has a response. -/
def responseStatus : Err → Option Nat
  | .axios status _ => status
  | _ => none

namespace WebhookProcessor

/-- The request of a delivery, signed when the webhook has a secret. -/
def request (k : DeliveryHelpers) (webhook : Webhook) (data : WebhookJob) (now : Time) : Post :=
  let body := k.stringify
    [("event", .str data.event), ("data", .obj data.payload), ("timestamp", .str (k.isoString now))]
  let signature :=
    match orNull webhook.secret with
    | none => []
    | some secret => [("X-Webhook-Signature", k.hmac secret body)]
  ⟨webhook.url, body,
    [("Content-Type", "application/json"), ("X-Webhook-Event", data.event)] ++ signature,
    if webhook.timeoutMs = 0 then 10000 else webhook.timeoutMs⟩

/-- The body of the `try` block. -/
def deliver (k : DeliveryHelpers) (webhook : Webhook) (attemptsMade : Nat) (data : WebhookJob)
    (now : Time) : Delivering DeliveryResult := do
  let status ← Delivering.call (.post (request k webhook data now))
  let _ ← WebhooksService.recordDelivery
    ⟨webhook.id, data.event, data.payload, attemptsMade + 1, some status, .success, none⟩
  return .delivered status

/-- The `try` block and its handler. -/
def attemptDelivery (k : DeliveryHelpers) (webhook : Webhook) (attemptsMade : Nat)
    (data : WebhookJob) : Delivering DeliveryResult := do
  let reading ← Program.read
  match ← (deliver k webhook attemptsMade data reading.base.now).attempt with
  | .ok result => return result
  | .error err => do
      let _ ← WebhooksService.recordDelivery
        ⟨webhook.id, data.event, data.payload, attemptsMade + 1, responseStatus err, .failed,
          some err.message⟩
      .throw err

def process (k : DeliveryHelpers) (attemptsMade : Nat) (data : WebhookJob) :
    Delivering DeliveryResult := do
  let webhook ← WebhooksService.getById data.webhookId
  match webhook with
  | none => return .skipped
  | some webhook =>
      if webhook.isActive = false then return .skipped
      else attemptDelivery k webhook attemptsMade data

/-- The wait before the next attempt, from the number of attempts that have failed. -/
def backoffStrategy (attemptsMade : Nat) : Time :=
  if attemptsMade ≤ 1 then 0 else if attemptsMade = 2 then 30000 else 300000

end WebhookProcessor

/-! ### Among the other jobs -/

/-- The functions a delivery is built with, among the helpers of the application. -/
def Helpers.deliveries (h : Helpers) : DeliveryHelpers := ⟨h.stringify, h.hmac, h.isoString⟩

/-- A function of the processor as a service function, whose calls are those of the application. -/
def ofDelivering {α : Type} : Delivering α → Svc α
  | Program.ret value => Program.ret value
  | Program.throw error => Program.throw error
  | Program.ambient next =>
      Program.ambient fun input => ofDelivering (next ⟨input, input.endpoint⟩)
  | Program.call (.db call) next => Program.call call fun reply => ofDelivering (next reply)
  | Program.call (.post request) next =>
      Program.call (.post request) fun reply => ofDelivering (next reply)

/-- The run of a delivery job. The queue comes with the number of the earlier attempts. -/
def WebhookProcessor.job (h : Helpers) (data : WebhookJob) : Svc Unit := do
  let attemptsMade ← Program.ambient fun input => Program.ret input.attemptsMade
  let _ ← ofDelivering (process h.deliveries attemptsMade data)

/-! ### The attempts of a job -/

abbrev DeliveryExchange := Program.Exchange Err DeliveryCall DeliveryResp

/-- What an attempt is made with: the inputs of its calls, and the stores they find. -/
structure DeliveryAttempt where
  tape : Program.Tape DeliveryInput
  stores : Nat → Store

section Attempts

variable (k : DeliveryHelpers) (data : WebhookJob)

/-- The attempt throws, so the queue makes another one; it comes with the number of the earlier
ones. -/
def DeliveryAttempt.fails (attempt : DeliveryAttempt × Nat) : Bool :=
  match ((WebhookProcessor.process k attempt.2 data).run (Program.found DeliveryCall.exec)
      attempt.1.tape attempt.1.stores).1 with
  | .ok _ => false
  | .error _ => true

def DeliveryAttempt.exchanged (attempt : DeliveryAttempt × Nat) : List DeliveryExchange :=
  (WebhookProcessor.process k attempt.2 data).exchanges (Program.found DeliveryCall.exec)
    attempt.1.tape attempt.1.stores

/-- The attempts the queue makes of a job: up to the first that returns, and no more than `tries`
has. -/
def triesOf (tries : List DeliveryAttempt) : List (DeliveryAttempt × Nat) :=
  made (DeliveryAttempt.fails k data) tries.zipIdx

/-- An attempt in time, with the number of the earlier ones. -/
structure DeliveryTime where
  earlier : Nat
  start : Time
  finish : Time
  deriving DecidableEq, Repr

/-- The attempts in time: after each one, the next one starts when the wait of the strategy is over,
which is told how many have failed. -/
def timeline (took : Nat → Time) : (start : Time) → List (DeliveryAttempt × Nat) →
    List DeliveryTime
  | _, [] => []
  | start, attempt :: rest =>
      let finish := start + took attempt.2
      ⟨attempt.2, start, finish⟩ ::
        timeline took (finish + WebhookProcessor.backoffStrategy (attempt.2 + 1)) rest

end Attempts

end WaAutomation
