/-
**Webhooks and API keys.**

`WebhooksService` and `ApiKeysService`. An update of a webhook carries the fields of its body only:
a field the body leaves out is not a property of the object.
-/

import WaAutomation.Model.Contacts

set_option linter.unusedSectionVars false

namespace WaAutomation

open Library

/-! ### Webhooks -/

structure CreateWebhookDto where
  name : String
  url : String
  secret : Field String
  events : List String
  retryCount : Field Int
  timeoutMs : Field Int
  isActive : Field Bool
  deriving DecidableEq, Repr

structure UpdateWebhookDto where
  name : Field String
  url : Field String
  secret : Field String
  events : Field (List String)
  retryCount : Field Int
  timeoutMs : Field Int
  isActive : Field Bool
  deriving DecidableEq, Repr

structure QueuedAck where
  queued : Bool
  deriving DecidableEq, Repr

structure DispatchReply where
  dispatched : Nat
  deriving DecidableEq, Repr

namespace WebhooksService

/-- The row of a new webhook; `none` when a column that must not be null is. -/
def draft (workspaceId : Option Uuid) (dto : CreateWebhookDto) : Option (Input → Webhook) :=
  match workspaceId, dto.retryCount.orElse (some 3), dto.timeoutMs.orElse (some 10000),
      dto.isActive.orElse (some true) with
  | some workspaceId, some retryCount, some timeoutMs, some isActive =>
      some fun input => ⟨input.ids 0, workspaceId, dto.name, dto.url,
        dto.secret.orElse none, dto.events,
        isActive, retryCount, timeoutMs⟩
  | _, _, _, _ => none

def create (workspaceId : Option Uuid) (userId : Uuid) (dto : CreateWebhookDto) : Svc Webhook := do
  let _ ← WorkspacesService.assertRole workspaceId userId managers
  Svc.call (.insert .webhooks (draft workspaceId dto))

def findAll (workspaceId : Option Uuid) (userId : Uuid) : Svc (List Webhook) := do
  let _ ← WorkspacesService.assertMember workspaceId userId
  Svc.find .webhooks fun webhook => Svc.whereIs workspaceId webhook.workspaceId

def findOne (id : Uuid) (workspaceId : Option Uuid) (userId : Uuid) : Svc Webhook := do
  let _ ← WorkspacesService.assertMember workspaceId userId
  let webhook ← Svc.findOne .webhooks fun webhook =>
    webhook.id == id && Svc.whereIs workspaceId webhook.workspaceId
  match webhook with
  | none => .throw (.notFound "Webhook not found")
  | some webhook => return webhook

/-- The webhook after `Object.assign(webhook, dto)`; `none` when a column that must not be null
is. -/
def assign (webhook : Webhook) (dto : UpdateWebhookDto) : Option Webhook :=
  match dto.name.orElse (some webhook.name), dto.url.orElse (some webhook.url),
      dto.events.orElse (some webhook.events), dto.isActive.orElse (some webhook.isActive),
      dto.retryCount.orElse (some webhook.retryCount),
      dto.timeoutMs.orElse (some webhook.timeoutMs) with
  | some name, some url, some events, some isActive, some retryCount, some timeoutMs =>
      some ⟨webhook.id, webhook.workspaceId, name, url, dto.secret.orElse webhook.secret, events,
        isActive, retryCount, timeoutMs⟩
  | _, _, _, _, _, _ => none

def update (id : Uuid) (workspaceId : Option Uuid) (userId : Uuid) (dto : UpdateWebhookDto) :
    Svc Webhook := do
  let _ ← WorkspacesService.assertRole workspaceId userId managers
  let webhook ← findOne id workspaceId userId
  let assigned := assign webhook dto
  Svc.call (.save .webhooks ⟨webhook, fun _ => assigned, assigned⟩)
  return assigned.getD webhook

def remove (id : Uuid) (workspaceId : Option Uuid) (userId : Uuid) : Svc String := do
  let _ ← WorkspacesService.assertRole workspaceId userId managers
  let webhook ← findOne id workspaceId userId
  Svc.remove .webhooks webhook
  return "Webhook deleted"

/-- The attempts of a delivery, `(webhook.retryCount || 3) + 1`. -/
def attempts (webhook : Webhook) : Nat :=
  (if webhook.retryCount = 0 then 3 else webhook.retryCount).toNat + 1

def enqueue (webhook : Webhook) (event : String) (payload : Record) : Svc Nat :=
  Svc.call (.add (.webhook ⟨webhook.id, event, payload⟩) (attempts webhook) 0)

def test (h : Helpers) (id : Uuid) (workspaceId : Option Uuid) (userId : Uuid) : Svc QueuedAck := do
  let webhook ← findOne id workspaceId userId
  let now ← Svc.now
  let _ ← enqueue webhook "test.event"
    [("message", .str "This is a test event"), ("timestamp", .str (h.isoString now))]
  return ⟨true⟩

def logs (id : Uuid) (workspaceId : Option Uuid) (userId : Uuid) : Svc (List WebhookDelivery) := do
  let _ ← findOne id workspaceId userId
  let rows ← Svc.find .deliveries fun delivery => delivery.webhookId == id
  return (newestFirst WebhookDelivery.createdAt rows).take 100

/-- The loop of `dispatch`. -/
def enqueueEach (event : String) (payload : Record) : List Webhook → Svc Unit
  | [] => return ()
  | hook :: hooks => do
      let _ ← enqueue hook event payload
      enqueueEach event payload hooks

/-- Enqueue all active webhooks of a workspace subscribed to an event. -/
def dispatch (workspaceId : Uuid) (event : String) (payload : Record) : Svc DispatchReply := do
  let hooks ← Svc.find .webhooks fun webhook =>
    webhook.workspaceId == workspaceId && webhook.isActive
  let subscribed := hooks.filter fun hook => hook.events.contains event
  enqueueEach event payload subscribed
  return ⟨subscribed.length⟩

end WebhooksService

/-! ### API keys -/

structure CreateApiKeyDto where
  name : String
  expiresAt : Option String
  deriving DecidableEq, Repr

/-- A new key: the row, and the key itself, which is shown only here. -/
structure CreatedApiKey where
  row : ApiKey
  key : String
  deriving DecidableEq, Repr

namespace ApiKeysService

def create (h : Helpers) (workspaceId : Option Uuid) (userId : Uuid) (dto : CreateApiKeyDto) :
    Svc CreatedApiKey := do
  let _ ← WorkspacesService.assertRole workspaceId userId managers
  let bytes ← Svc.randomHex
  let raw := "wa_" ++ bytes
  let saved ← Svc.call (.insert .apiKeys (workspaceId.map fun workspaceId input =>
    ⟨input.ids 0, workspaceId, dto.name, h.sha256 raw, String.ofList (raw.toList.take 10), none,
      (orNull dto.expiresAt).map h.parseDate, true⟩))
  return ⟨saved, raw⟩

def findAll (workspaceId : Option Uuid) (userId : Uuid) : Svc (List ApiKey) := do
  let _ ← WorkspacesService.assertMember workspaceId userId
  Svc.find .apiKeys fun key => Svc.whereIs workspaceId key.workspaceId

def remove (id : Uuid) (workspaceId : Option Uuid) (userId : Uuid) : Svc String := do
  let _ ← WorkspacesService.assertRole workspaceId userId managers
  let key ← Svc.findOne .apiKeys fun key => key.id == id && Svc.whereIs workspaceId key.workspaceId
  match key with
  | none => .throw (.notFound "API key not found")
  | some key => do
      Svc.remove .apiKeys key
      return "API key deleted"

/-- Validates a raw API key: its workspace id, or null. -/
def validate (h : Helpers) (rawKey : String) : Svc (Option Uuid) := do
  let hash := h.sha256 rawKey
  let key ← Svc.findOne .apiKeys fun key => key.keyHash == hash
  match key with
  | none => return none
  | some key =>
      if key.isActive = false then return none
      else do
        let now ← Svc.now
        if key.expiresAt.any fun expiresAt => expiresAt < now then return none
        else do
          let now ← Svc.now
          Svc.save .apiKeys { key with lastUsedAt := some now }
          return some key.workspaceId

end ApiKeysService

end WaAutomation
