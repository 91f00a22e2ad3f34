/-
**Broadcasts.**

`BroadcastsService` and `BroadcastProcessor.process`. The processor keeps its broadcast entity in
memory over the whole run and saves it again and again; `sendLoop` is its loop over the pending
recipients, with that entity as the accumulator.
-/

import WaAutomation.Library.Floating
import WaAutomation.Model.Contacts

set_option linter.unusedSectionVars false

namespace WaAutomation

open Library

structure BroadcastRecipientInput where
  phone : String
  vars : Option Record

structure CreateBroadcastDto where
  name : String
  sessionId : Uuid
  template : String
  delayMs : Option Int
  recipients : Option (List BroadcastRecipientInput)
  contactIds : Option (List Uuid)
  scheduledAt : Option String

structure UpdateBroadcastDto where
  name : Field String
  template : Field String
  delayMs : Field Int
  deriving DecidableEq, Repr

structure SendReply where
  queued : Bool
  scheduledIn : Int
  deriving DecidableEq, Repr

structure BroadcastStatusReply where
  id : Uuid
  status : BroadcastStatus
  total : Nat
  sent : Nat
  failed : Nat
  progress : Int
  deriving DecidableEq, Repr

structure BroadcastReport where
  broadcast : Broadcast
  recipients : List BroadcastRecipient

/-- The text of a status. -/
def BroadcastStatus.name : BroadcastStatus → String
  | .draft => "draft"
  | .queued => "queued"
  | .sending => "sending"
  | .done => "done"
  | .failed => "failed"
  | .cancelled => "cancelled"

/-- The statuses `send` accepts. -/
def sendable : List BroadcastStatus := [.draft, .failed, .cancelled]

/-- A `Map` from phones in insertion order: setting a phone that is present keeps its place. -/
def mapSet (map : List (String × Record)) (phone : String) (vars : Record) :
    List (String × Record) :=
  if map.any fun entry => entry.1 == phone then
    map.map fun entry => if entry.1 == phone then (phone, vars) else entry
  else map ++ [(phone, vars)]

/-- The rounding `Math.round` of a number: half up. -/
def mathRound (value : ℚ) : Int := (value + 1 / 2).floor

namespace BroadcastsService

/-- The recipients of the explicit list. -/
def explicitRecipients (inputs : List BroadcastRecipientInput) : List (String × Record) :=
  inputs.foldl (fun map input =>
    let phone := digits input.phone
    if phone = "" then map else mapSet map phone (input.vars.getD [])) []

/-- The recipients with the resolved contacts added. -/
def withContacts (map : List (String × Record)) (contacts : List Contact) :
    List (String × Record) :=
  contacts.foldl (fun map contact =>
    if map.any fun entry => entry.1 == contact.phone then map
    else map ++ [(contact.phone, [("name", .str ((orNull contact.name).getD ""))])]) map

def create (h : Helpers) (workspaceId : Option Uuid) (userId : Uuid) (dto : CreateBroadcastDto) :
    Svc Broadcast := do
  let _ ← WorkspacesService.assertRole workspaceId userId managers
  let session ← SessionsService.findOne dto.sessionId workspaceId userId
  let contacts ← ContactsService.resolvePhones workspaceId (dto.contactIds.getD [])
  let recipientList := withContacts (explicitRecipients (dto.recipients.getD [])) contacts
  if recipientList = [] then .throw (.badRequest "Broadcast has no recipients")
  else
    Svc.call (.insertBroadcast
      (workspaceId.map fun workspaceId input =>
        ⟨input.ids 0, workspaceId, session.id, dto.name, dto.template, .draft,
          dto.delayMs.getD 3000, recipientList.length, 0, 0,
          (orNull dto.scheduledAt).map h.parseDate, none, none, input.now⟩)
      recipientList)

def findAll (workspaceId : Option Uuid) (userId : Uuid) : Svc (List Broadcast) := do
  let _ ← WorkspacesService.assertMember workspaceId userId
  let rows ← Svc.find .broadcasts fun broadcast => Svc.whereIs workspaceId broadcast.workspaceId
  return newestFirst Broadcast.createdAt rows

def findOne (id : Uuid) (workspaceId : Option Uuid) (userId : Uuid) : Svc Broadcast := do
  let _ ← WorkspacesService.assertMember workspaceId userId
  let broadcast ← Svc.findOne .broadcasts fun broadcast =>
    broadcast.id == id && Svc.whereIs workspaceId broadcast.workspaceId
  match broadcast with
  | none => .throw (.notFound "Broadcast not found")
  | some broadcast => return broadcast

/-- What `Object.assign(broadcast, dto)` leaves to `save`: the fields of this body are own
properties, so one that is left out becomes undefined and its column is not written. -/
def assign (broadcast : Broadcast) (dto : UpdateBroadcastDto) : Entity Broadcast :=
  let build (name template : Option String) (delayMs : Option Int) : Option Broadcast :=
    match name, template, delayMs with
    | some name, some template, some delayMs =>
        some { broadcast with name := name, template := template, delayMs := delayMs }
    | _, _, _ => none
  let onto (stored : Broadcast) :=
    build (dto.name.orElse (some stored.name)) (dto.template.orElse (some stored.template))
      (dto.delayMs.orElse (some stored.delayMs))
  ⟨(onto broadcast).getD broadcast, onto,
    build (dto.name.orElse none) (dto.template.orElse none) (dto.delayMs.orElse (some 3000))⟩

def update (id : Uuid) (workspaceId : Option Uuid) (userId : Uuid) (dto : UpdateBroadcastDto) :
    Svc Broadcast := do
  let _ ← WorkspacesService.assertRole workspaceId userId managers
  let broadcast ← findOne id workspaceId userId
  if broadcast.status ≠ .draft then
    .throw (.badRequest "Only draft broadcasts can be edited")
  else do
    let entity := assign broadcast dto
    Svc.call (.save .broadcasts entity)
    return entity.row

def remove (id : Uuid) (workspaceId : Option Uuid) (userId : Uuid) : Svc String := do
  let _ ← WorkspacesService.assertRole workspaceId userId managers
  let broadcast ← findOne id workspaceId userId
  Svc.remove .broadcasts broadcast
  return "Broadcast deleted"

/-- The delay until a broadcast is due, `Math.max(0, scheduledAt - now)`. -/
def delayUntil (scheduledAt : Option Time) (now : Time) : Int :=
  match scheduledAt with
  | none => 0
  | some scheduledAt => max 0 ((scheduledAt : Int) - now)

def send (id : Uuid) (workspaceId : Option Uuid) (userId : Uuid) : Svc SendReply := do
  let _ ← WorkspacesService.assertRole workspaceId userId managers
  let broadcast ← findOne id workspaceId userId
  if broadcast.status ∉ sendable then
    .throw (.badRequest s!"Cannot send broadcast in '{broadcast.status.name}' status")
  else do
    Svc.save .broadcasts { broadcast with status := .queued }
    let now ← Svc.now
    let delay := delayUntil broadcast.scheduledAt now
    let _ ← Svc.call (.add (.broadcast ⟨broadcast.id⟩) defaultAttempts delay)
    return ⟨true, delay⟩

def cancel (id : Uuid) (workspaceId : Option Uuid) (userId : Uuid) : Svc String := do
  let _ ← WorkspacesService.assertRole workspaceId userId managers
  let broadcast ← findOne id workspaceId userId
  Svc.save .broadcasts { broadcast with status := .cancelled }
  return "Broadcast cancelled"

/-- The progress `status` reports, in percent. The quotient and the product are rounded to numbers;
the counters, which are `int` columns, are exact. -/
def progress (broadcast : Broadcast) : Int :=
  if broadcast.total = 0 then 0
  else mathRound (Floating.double
    (Floating.double ((broadcast.sentCount + broadcast.failedCount : ℕ) / broadcast.total) * 100))

def status (id : Uuid) (workspaceId : Option Uuid) (userId : Uuid) : Svc BroadcastStatusReply := do
  let b ← findOne id workspaceId userId
  return ⟨b.id, b.status, b.total, b.sentCount, b.failedCount, progress b⟩

def report (id : Uuid) (workspaceId : Option Uuid) (userId : Uuid) : Svc BroadcastReport := do
  let b ← findOne id workspaceId userId
  let recipients ← Svc.find .recipients fun recipient => recipient.broadcastId == id
  return ⟨b, recipients⟩

end BroadcastsService

/-! ### The processor -/

/-- What a run returns. -/
inductive RunResult where
  | skipped
  | cancelled
  | done (sent failed : Nat)
  deriving DecidableEq, Repr

namespace BroadcastProcessor

/-- What a run keeps in memory once it has begun. -/
structure Context where
  session : Session
  creds : OpenwaCredentials

/-- The log row of an accepted message. -/
def logRow (ctx : Context) (broadcast : Broadcast) (recipient : BroadcastRecipient)
    (message : String) (res : OpenwaResponse) : MessageRecord :=
  ⟨some broadcast.workspaceId, some ctx.session.id, none, some broadcast.id, .out, none,
    some recipient.phone, .text, some message, .sent, orNull res.response, none⟩

/-- The recipient a failed send leaves. -/
def recipientFailed (recipient : BroadcastRecipient) (message : String) : BroadcastRecipient :=
  { recipient with status := .failed, errorMessage := some message }

/-- The recipient an accepted send leaves. -/
def recipientSent (recipient : BroadcastRecipient) (now : Time) : BroadcastRecipient :=
  { recipient with status := .sent, sentAt := some now }

/-- The `catch` block: it sees the recipient as the `try` block left it. -/
def recordFailure (broadcast : Broadcast) (recipient : BroadcastRecipient) (err : Err) :
    Svc Broadcast := do
  Svc.save .recipients (recipientFailed recipient err.message)
  return { broadcast with failedCount := broadcast.failedCount + 1 }

/-- The rest of the `try` block once OpenWA accepted the message; its own errors go to the handler
too, but the log row's are swallowed. -/
def recordSuccess (ctx : Context) (broadcast : Broadcast) (recipient : BroadcastRecipient)
    (message : String) (res : OpenwaResponse) : Svc Broadcast := do
  let now ← Svc.now
  let sent := recipientSent recipient now
  match ← (Svc.save .recipients sent).attempt with
  | .error err => recordFailure broadcast sent err
  | .ok () => do
      let broadcast := { broadcast with sentCount := broadcast.sentCount + 1 }
      let _ ← (MessagesService.record (logRow ctx broadcast recipient message res)).attempt
      return broadcast

/-- One recipient: the `try` block and its handler. -/
def deliver (ctx : Context) (broadcast : Broadcast) (recipient : BroadcastRecipient)
    (message : String) : Svc Broadcast := do
  match ← (OpenwaService.sendText ctx.creds ctx.session.ref recipient.phone message
      (some ⟨recipient.id, recipient.broadcastId⟩)).attempt with
  | .error err => recordFailure broadcast recipient err
  | .ok res => recordSuccess ctx broadcast recipient message res

/-- The progress event, and the anti-spam delay between messages. -/
def announce (broadcast : Broadcast) : Svc Unit := do
  Svc.emit (.broadcastProgress broadcast.workspaceId broadcast.id broadcast.sentCount
    broadcast.failedCount broadcast.total)
  Svc.sleep (if broadcast.delayMs = 0 then 3000 else broadcast.delayMs)

/-- The loop over the pending recipients, then the end of the run. -/
def sendLoop (h : Helpers) (ctx : Context) : Broadcast → List BroadcastRecipient → Svc RunResult
  | broadcast, [] => do
      let now ← Svc.now
      let broadcast := { broadcast with status := .done, finishedAt := some now }
      Svc.save .broadcasts broadcast
      return .done broadcast.sentCount broadcast.failedCount
  | broadcast, recipient :: pending => do
      let fresh ← Svc.call (.findStatus broadcast.id)
      if fresh = some .cancelled then return .cancelled
      else do
        let message ← Svc.lift (h.renderTemplate broadcast.template recipient.vars)
        let broadcast ← deliver ctx broadcast recipient message
        Svc.save .broadcasts broadcast
        announce broadcast
        sendLoop h ctx broadcast pending

def process (h : Helpers) (data : BroadcastJob) : Svc RunResult := do
  let broadcast ← Svc.findOne .broadcasts fun broadcast => broadcast.id == data.broadcastId
  match broadcast with
  | none => return .skipped
  | some broadcast => do
      let session ← SessionsService.getById broadcast.sessionId
      let creds ← WorkspacesService.getOpenwaCredentials h (some broadcast.workspaceId)
      let now ← Svc.now
      let broadcast := { broadcast with status := .sending, startedAt := some now }
      Svc.save .broadcasts broadcast
      let pending ← Svc.find .recipients fun recipient =>
        recipient.broadcastId == broadcast.id && recipient.status == .pending
      sendLoop h ⟨session, creds⟩ broadcast pending

end BroadcastProcessor

end WaAutomation
