/-
**What starts automations without a user.**

The scheduler's tick, the callback OpenWA makes for an incoming message, and the public hook. Their
bodies are not validated, so every field of one may be missing or of any type.
-/

import WaAutomation.Model.Automations

set_option linter.unusedSectionVars false

namespace WaAutomation

open Library

/-- A record of the fields that are not undefined. -/
def recordOf (fields : List (String × Option Json)) : Record :=
  fields.filterMap fun (key, value) => value.map fun value => (key, value)

/-- The session of an automation as a value. -/
def sessionJson (automation : Automation) : Json :=
  (automation.sessionId.map .str).getD .null

/-! ### The scheduler -/

namespace AutomationScheduler

/-- The values `for (const phone of cfg.target_phones || [])` goes through. -/
def targets (cfg : Record) : Except Err (List Json) :=
  match truthyGet cfg "target_phones" with
  | none => .ok []
  | some (.arr items) => .ok items
  | some (.str text) => .ok (text.toList.map fun char => .str (String.singleton char))
  | some _ => .error (.other "targets is not iterable")

/-- The loop over the targets. -/
def enqueueTargets (automation : Automation) : List Json → Svc Unit
  | [] => return ()
  | phone :: rest => do
      let _ ← AutomationsService.enqueueRun automation
        [("to", phone), ("from", phone), ("sessionId", sessionJson automation)]
      enqueueTargets automation rest

/-- The body of the `try` block. -/
def fire (h : Helpers) (now : Time) (automation : Automation) (cron : Json) : Svc Unit := do
  let windowStart : Int := now - 60000
  let timezone := (truthyGet automation.triggerConfig "timezone").getD (.str "UTC")
  let next ← Svc.lift (h.cronNext cron timezone windowStart)
  if windowStart < next ∧ next ≤ now then do
    let phones ← Svc.lift (targets automation.triggerConfig)
    enqueueTargets automation phones
  else return ()

/-- The loop over the scheduled automations: an error of one is logged, and the next one follows. -/
def fireEach (h : Helpers) (now : Time) : List Automation → Svc Unit
  | [] => return ()
  | automation :: rest => do
      match truthyGet automation.triggerConfig "cron" with
      | none => fireEach h now rest
      | some cron => do
          let _ ← (fire h now automation cron).attempt
          fireEach h now rest

def tick (h : Helpers) : Svc Unit := do
  let now ← Svc.now
  let scheduled ← Svc.call (.findAutomations fun automation =>
    automation.isActive && automation.triggerType == .schedule)
  fireEach h now (scheduled.map Prod.fst)

end AutomationScheduler

/-! ### The inbound controller -/

inductive InboundReply where
  | ignored
  | ok (matched : Nat)
  | queued (jobId : Nat)
  deriving DecidableEq, Repr

namespace InboundController

def onMessage (h : Helpers) (dto : Record) : Svc InboundReply := do
  let session ← SessionsService.findByOpenwaSessionId (textOf h (dto.get "session"))
  match session with
  | none => return .ignored
  | some session => do
      let sender := textOf h (dto.get "from")
      let body := textOf h (dto.get "body")
      let _ ← (MessagesService.record ⟨some session.workspaceId, some session.id, none, none,
        .incoming, sender, none, .text, body, .delivered, none, none⟩).attempt
      Svc.emit (.messageReceived session.workspaceId session.id sender body)
      let _ ← WebhooksService.dispatch session.workspaceId "message.received"
        (recordOf [("sessionId", some (.str session.id)), ("from", dto.get "from"),
          ("message", dto.get "body")])
      let result ← AutomationsService.dispatchIncomingMessage h session.workspaceId
        (recordOf [("message", dto.get "body"), ("from", dto.get "from"),
          ("isGroup", dto.get "isGroupMsg"), ("sessionId", some (.str session.id))])
      return .ok result.matched

/-- The key of the phone in a body: `phone_field` may be any value, which is converted. -/
def phoneField (h : Helpers) (automation : Automation) : Except Err String :=
  match truthyGet automation.triggerConfig "phone_field" with
  | some (.str field) => .ok field
  | some field => h.asString field
  | none => .ok "phone"

/-- The context of a run the hook starts. -/
def hookContext (automation : Automation) (body : Record) (field : String) : Record :=
  let phone := body.get field
  ((body.put "from" phone).put "to" phone).set "sessionId" (sessionJson automation)

def webhookTrigger (h : Helpers) (token : String) (body : Record) : Svc InboundReply := do
  let automation ← AutomationsService.findByWebhookPath ("/trigger/" ++ token)
  match automation with
  | none => return .ignored
  | some automation => do
      let context := hookContext automation body (← Svc.lift (phoneField h automation))
      let context ←
        match truthyGet automation.triggerConfig "message_template" with
        | none => pure context
        | some template => do
            let message ← Svc.lift (renderJson h template body)
            pure (context.set "message" (.str message))
      let reply ← AutomationsService.enqueueRun automation context
      return .queued reply.jobId

end InboundController

end WaAutomation
