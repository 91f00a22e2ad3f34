/-
**Automations.**

`AutomationsService`, the action engine and its processor, the scheduler, and the two public
endpoints that trigger runs. A context is a plain object that may come from a request body as it
is, so its values are `Json`.
-/

import WaAutomation.Model.Conditions
import WaAutomation.Model.Webhooks

set_option linter.unusedSectionVars false

namespace WaAutomation

open Library

structure ActionDto where
  order : Int
  actionType : ActionType
  actionConfig : Record

structure CreateAutomationDto where
  name : String
  description : Option String
  sessionId : Option Uuid
  triggerType : TriggerType
  triggerConfig : Record
  actions : List ActionDto

structure UpdateAutomationDto where
  name : Field String
  description : Field String
  sessionId : Field Uuid
  triggerType : Field TriggerType
  triggerConfig : Field Record
  actions : Field (List ActionDto)

/-- An automation with its eager relation. -/
abbrev LoadedAutomation := Automation × List AutomationAction

/-- The stored actions of an automation. -/
def Store.actionsOf (store : Store) (automationId : Uuid) : List AutomationAction :=
  (store.db .actions).filter fun action => action.automationId == automationId

structure MatchedReply where
  matched : Nat
  deriving DecidableEq, Repr

/-- A value that counts as true. -/
def truthyGet (record : Record) (key : String) : Option Json :=
  (record.get key).filter Json.truthy

namespace AutomationsService

/-- A new action of an automation. -/
def created (dto : ActionDto) : ActionEntity :=
  .created dto.order dto.actionType dto.actionConfig

/-- The trigger config, with a webhook path of its own when there is none. -/
def withPath (dto : CreateAutomationDto) : Svc Record :=
  if dto.triggerType = .webhook ∧ truthyGet dto.triggerConfig "webhook_path" = none then do
    let bytes ← Svc.randomHex
    return dto.triggerConfig.set "webhook_path" (.str ("/trigger/" ++ bytes))
  else return dto.triggerConfig

def create (workspaceId : Option Uuid) (userId : Uuid) (dto : CreateAutomationDto) :
    Svc LoadedAutomation := do
  let _ ← WorkspacesService.assertRole workspaceId userId managers
  let triggerConfig ← withPath dto
  Svc.call (.insertAutomation
    (workspaceId.map fun workspaceId input =>
      ⟨input.ids 0, workspaceId, orNull dto.sessionId, dto.name, orNull dto.description, false,
        dto.triggerType, triggerConfig, 0, none⟩)
    (dto.actions.map created))

def findAll (workspaceId : Option Uuid) (userId : Uuid) : Svc (List LoadedAutomation) := do
  let _ ← WorkspacesService.assertMember workspaceId userId
  Svc.call (.findAutomations fun automation => Svc.whereIs workspaceId automation.workspaceId)

def findOne (id : Uuid) (workspaceId : Option Uuid) (userId : Uuid) : Svc LoadedAutomation := do
  let _ ← WorkspacesService.assertMember workspaceId userId
  let rows ← Svc.call (.findAutomations fun automation =>
    automation.id == id && Svc.whereIs workspaceId automation.workspaceId)
  match rows.head? with
  | none => .throw (.notFound "Automation not found")
  | some automation => return automation

/-- The automation with the given fields set; `none` when a column that must not be null is. -/
def assign (automation : Automation) (dto : UpdateAutomationDto) : Option Automation :=
  match dto.name.orElse (some automation.name), dto.triggerType.orElse
    (some automation.triggerType),
      dto.triggerConfig.orElse (some automation.triggerConfig) with
  | some name, some triggerType, some triggerConfig =>
      some { automation with
        name := name, description := dto.description.orElse automation.description,
        sessionId := dto.sessionId.orElse automation.sessionId, triggerType := triggerType,
        triggerConfig := triggerConfig }
  | _, _, _ => none

/-- The actions to be saved: the loaded ones, or those of the body, once the stored ones are
deleted. A list that is null has no `map`. -/
def replaceActions (id : Uuid) (actions : List AutomationAction) :
    Field (List ActionDto) → Svc (List ActionEntity)
  | .undefined => return actions.map .loaded
  | .null => do
      Svc.call (.deleteActions id)
      .throw (.other "Cannot read properties of null (reading 'map')")
  | .value given => do
      Svc.call (.deleteActions id)
      return given.map created

def update (id : Uuid) (workspaceId : Option Uuid) (userId : Uuid) (dto : UpdateAutomationDto) :
    Svc LoadedAutomation := do
  let _ ← WorkspacesService.assertRole workspaceId userId managers
  let (automation, loaded) ← findOne id workspaceId userId
  let assigned := assign automation dto
  let actions ← replaceActions id loaded dto.actions
  let rows ← Svc.call (.saveAutomation ⟨automation, fun _ => assigned, assigned⟩ actions)
  return (assigned.getD automation, rows)

def remove (id : Uuid) (workspaceId : Option Uuid) (userId : Uuid) : Svc String := do
  let _ ← WorkspacesService.assertRole workspaceId userId managers
  let (automation, _) ← findOne id workspaceId userId
  Svc.remove .automations automation
  return "Automation deleted"

def setActive (id : Uuid) (workspaceId : Option Uuid) (userId : Uuid) (active : Bool) :
    Svc LoadedAutomation := do
  let _ ← WorkspacesService.assertRole workspaceId userId managers
  let (automation, loaded) ← findOne id workspaceId userId
  let automation := { automation with isActive := active }
  let rows ← Svc.call (.saveAutomation (.whole automation) (loaded.map .loaded))
  return (automation, rows)

/-- Enqueue an automation execution job. -/
def enqueueRun (automation : Automation) (context : Record) : Svc QueuedReply := do
  Svc.emit (.automationTriggered automation.workspaceId automation.id)
  let jobId ← Svc.call (.add (.automation ⟨automation.id, automation.workspaceId, context⟩)
    defaultAttempts 0)
  return ⟨true, jobId⟩

def test (id : Uuid) (workspaceId : Option Uuid) (userId : Uuid) (context : Option Record) :
    Svc QueuedReply := do
  let (automation, _) ← findOne id workspaceId userId
  enqueueRun automation (context.getD [])

/-- Find an automation by webhook trigger path. -/
def findByWebhookPath (path : String) : Svc (Option Automation) :=
  Svc.findOne .automations fun automation =>
    automation.isActive && automation.triggerType == .webhook &&
      match automation.triggerConfig.get "webhook_path" with
      | some (.str stored) => stored == path
      | _ => false

/-- The automations an incoming message satisfies; the first config that cannot be evaluated
throws. -/
def matched (h : Helpers) (ctx : Record) : List Automation → Except Err (List Automation)
  | [] => .ok []
  | automation :: rest =>
      match h.matchesMessage automation.triggerConfig ctx with
      | .error error => .error error
      | .ok fires =>
          match matched h ctx rest with
          | .error error => .error error
          | .ok others => .ok (if fires then automation :: others else others)

/-- The loop of `dispatchIncomingMessage`. -/
def enqueueEach (context : Record) : List Automation → Svc Unit
  | [] => return ()
  | automation :: rest => do
      let _ ← enqueueRun automation context
      enqueueEach context rest

/-- Evaluate all active message-trigger automations for an incoming message and enqueue the ones
that match; the reply goes back to the sender. -/
def dispatchIncomingMessage (h : Helpers) (workspaceId : Uuid) (ctx : Record) :
    Svc MatchedReply := do
  let candidates ← Svc.call (.findAutomations fun automation =>
    automation.workspaceId == workspaceId && automation.isActive &&
      automation.triggerType == .message)
  let matching ← Svc.lift (matched h ctx (candidates.map Prod.fst))
  enqueueEach (ctx.put "to" (ctx.get "from")) matching
  return ⟨matching.length⟩

def markRun (automationId : Uuid) : Svc Unit := do
  Svc.call (.update .automations (fun automation => automation.id == automationId)
    fun automation => { automation with runCount := automation.runCount + 1 })
  let now ← Svc.now
  Svc.call (.update .automations (fun automation => automation.id == automationId)
    fun automation => { automation with lastRunAt := some now })

end AutomationsService

/-! ### The action engine -/

/-- The field `to` is `toPhone` here, and `variables` is `vars`. -/
structure ActionRunContext where
  workspaceId : Uuid
  sessionId : Uuid
  openwaSessionId : String
  creds : OpenwaCredentials
  toPhone : Option Json
  automationId : Uuid
  vars : Record

/-- The session a context sends through. -/
def ActionRunContext.session (ctx : ActionRunContext) : SessionRef :=
  ⟨ctx.openwaSessionId, ctx.sessionId⟩

/-- A template that may be any value: only a string has `replace`. -/
def renderJson (h : Helpers) (template : Json) (context : Record) : Except Err String :=
  match template with
  | .str template => h.renderTemplate template context
  | _ => .error (.other "template.replace is not a function")

/-- A phone that may be any value: only a string has `replace`, and undefined and null have no
properties. -/
def phoneOf : Option Json → Except Err String
  | some (.str phone) => .ok phone
  | none => .error (.other "Cannot read properties of undefined (reading 'replace')")
  | some .null => .error (.other "Cannot read properties of null (reading 'replace')")
  | some _ => .error (.other "phone.replace is not a function")

namespace ActionEngine

/-- The value `cfg[key] || fallback`. -/
def orElse (cfg : Record) (key : String) (fallback : Json) : Json :=
  (truthyGet cfg key).getD fallback

/-- The log row of a message; its errors are swallowed. -/
def log (h : Helpers) (ctx : ActionRunContext) (type : MessageType) (content : Option Json) :
    Svc Unit := do
  let _ ← (MessagesService.record ⟨some ctx.workspaceId, some ctx.sessionId, some ctx.automationId,
    none, .out, none, textOf h ctx.toPhone, type, textOf h content, .sent, none, none⟩).attempt
  return ()

/-- One action: the order to jump to, or `none` to go on with the next. -/
def execute (h : Helpers) (action : AutomationAction) (ctx : ActionRunContext) :
    Svc (Option Rat) := do
  let cfg := action.actionConfig
  match action.actionType with
  | .sendText => do
      let message ← Svc.lift (renderJson h (orElse cfg "message" (.str "")) ctx.vars)
      match truthyGet cfg "delay_ms" with
      | some delay => Svc.sleep (h.millis delay)
      | none => pure ()
      let phone ← Svc.lift (phoneOf ctx.toPhone)
      let _ ← OpenwaService.sendText ctx.creds ctx.session phone message none
      log h ctx .text (some (.str message))
      return none
  | .sendImage => do
      let caption ← Svc.lift (renderJson h (orElse cfg "caption" (.str "")) ctx.vars)
      let phone ← Svc.lift (phoneOf ctx.toPhone)
      let _ ← OpenwaService.sendImage ctx.creds ctx.session phone (cfg.get "image_url") caption
        "image.jpg"
      log h ctx .image (cfg.get "image_url")
      return none
  | .sendFile => do
      let caption ← Svc.lift (renderJson h (orElse cfg "caption" (.str "")) ctx.vars)
      let phone ← Svc.lift (phoneOf ctx.toPhone)
      let _ ← OpenwaService.sendFile ctx.creds ctx.session phone (cfg.get "file_url")
        (orElse cfg "filename" (.str "file")) caption
      log h ctx .file (cfg.get "file_url")
      return none
  | .forward => do
      let target := firstTruthy (cfg.get "to") ctx.toPhone
      let message ← Svc.lift (renderJson h (orElse cfg "message" (.str "")) ctx.vars)
      let phone ← Svc.lift (phoneOf target)
      let _ ← OpenwaService.sendText ctx.creds ctx.session phone message none
      return none
  | .delay => do
      Svc.sleep (h.millis (orElse cfg "duration_ms" (.num 1000)))
      return none
  | .condition => do
      let result ← Svc.lift (ConditionEngine.evaluate h cfg ctx.vars)
      match cfg.get (if result then "if_true_action_order" else "if_false_action_order") with
      | some (.num target) => return some target
      | _ => return none

/-- The loop of `run`: `steps` is what is left of `maxSteps`. -/
def loop (h : Helpers) (sorted : List AutomationAction) (ctx : ActionRunContext) :
    (steps index : Nat) → Svc Unit
  | 0, _ => return ()
  | steps + 1, index =>
      match sorted[index]? with
      | none => return ()
      | some action => do
          match ← execute h action ctx with
          | none => loop h sorted ctx steps (index + 1)
          | some next =>
              loop h sorted ctx steps
                ((sorted.findIdx? fun action => decide ((action.order : Rat) = next)).getD
                  sorted.length)

/-- The actions in ascending order. -/
def sorted (actions : List AutomationAction) : List AutomationAction :=
  actions.mergeSort fun first second => first.order ≤ second.order

/-- The bound on the steps of a run. -/
def maxSteps (actions : List AutomationAction) : Nat := actions.length * 4 + 10

def run (h : Helpers) (actions : List AutomationAction) (ctx : ActionRunContext) : Svc Unit :=
  loop h (sorted actions) ctx (maxSteps actions) 0

end ActionEngine

/-! ### The processor -/

/-- What a run of an automation returns. -/
inductive AutomationResult where
  | skipped
  | ran
  deriving DecidableEq, Repr

/-- The session a run goes through, `automation.sessionId || context.sessionId`: only a string can
be looked up. -/
def sessionOf (automation : Automation) (context : Record) : Option Json :=
  firstTruthy (automation.sessionId.map .str) (truthyGet context "sessionId")

/-- The lookup of a session by a value that may not be a uuid. -/
def getByJson : Json → Svc Session
  | .str id => SessionsService.getById id
  | _ => .throw (.database "invalid input syntax for type uuid")

namespace AutomationProcessor

def process (h : Helpers) (data : AutomationJob) : Svc AutomationResult := do
  let rows ← Svc.call (.findAutomations fun automation => automation.id == data.automationId)
  match rows.head? with
  | none => return .skipped
  | some (automation, actions) =>
      match sessionOf automation data.context with
      | none => return .skipped
      | some dbSessionId => do
          let session ← getByJson dbSessionId
          let creds ← WorkspacesService.getOpenwaCredentials h (some data.workspaceId)
          ActionEngine.run h actions
            ⟨data.workspaceId, session.id, session.sessionId, creds,
              firstTruthy (data.context.get "to") (data.context.get "from"), data.automationId,
              data.context⟩
          AutomationsService.markRun data.automationId
          return .ran

end AutomationProcessor

end WaAutomation
