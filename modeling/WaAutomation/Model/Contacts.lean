/-
**Contacts, groups and messages.**

`ContactsService`, `MessagesService` and `MessageProcessor`. Queries are a filter on the rows, an
order and a page; `Helpers.ilike` is the pattern match of Postgres.
-/

import WaAutomation.Model.Workspaces
import Mathlib.Data.List.Sort

set_option linter.unusedSectionVars false

namespace WaAutomation

open Library

/-! ### Contacts -/

structure CreateContactDto where
  name : Option String
  phone : String
  tags : Option (List String)
  notes : Option String
  isBlacklisted : Option Bool
  deriving DecidableEq, Repr

/-- A `PartialType`: a field the body leaves out is not a property of the object at all, so
`Object.assign` keeps what is loaded. -/
structure UpdateContactDto where
  name : Field String
  phone : Field String
  tags : Field (List String)
  notes : Field String
  isBlacklisted : Field Bool
  deriving DecidableEq, Repr

structure QueryContactsDto where
  page : Nat
  limit : Nat
  search : Option String
  tag : Option String
  blacklisted : Option String
  deriving DecidableEq, Repr

structure CreateContactGroupDto where
  name : String
  contactIds : Option (List Uuid)
  deriving DecidableEq, Repr

structure UpdateContactGroupDto where
  name : Field String
  contactIds : Field (List Uuid)
  deriving DecidableEq, Repr

structure CsvContactRow where
  name : Option String
  phone : String
  tags : Option (List String)
  deriving DecidableEq, Repr

structure ImportReply where
  created : Nat
  updated : Nat
  skipped : Nat
  total : Nat
  deriving DecidableEq, Repr

/-- The order `createdAt DESC`. -/
def newestFirst {α : Type} (createdAt : α → Time) (rows : List α) : List α :=
  rows.mergeSort fun first second => createdAt second ≤ createdAt first

namespace ContactsService

def normalizePhone (phone : String) : String := digits phone

def create (workspaceId : Option Uuid) (userId : Uuid) (dto : CreateContactDto) : Svc Contact := do
  let _ ← WorkspacesService.assertMember workspaceId userId
  Svc.call (.insert .contacts (workspaceId.map fun workspaceId input =>
    ⟨input.ids 0, workspaceId, orNull dto.name, normalizePhone dto.phone, dto.tags.getD [],
      dto.isBlacklisted.getD false, orNull dto.notes, input.now⟩))

/-- The rows of the query builder. A parameter that is undefined is sent as `NULL`, which equals
nothing. -/
def matching (h : Helpers) (workspaceId : Option Uuid) (query : QueryContactsDto)
    (contact : Contact) : Bool :=
  workspaceId == some contact.workspaceId &&
  (match orNull query.search with
    | none => true
    | some search => h.ilike search contact.name || h.ilike search (some contact.phone)) &&
  (match orNull query.tag with
    | none => true
    | some tag => contact.tags.contains tag) &&
  (match query.blacklisted with
    | none => true
    | some blacklisted => contact.isBlacklisted == (blacklisted == "true"))

def findAll (h : Helpers) (workspaceId : Option Uuid) (userId : Uuid) (query : QueryContactsDto) :
    Svc (PaginatedResult Contact) := do
  let _ ← WorkspacesService.assertMember workspaceId userId
  let rows ← Svc.find .contacts (matching h workspaceId query)
  let data := page (newestFirst Contact.createdAt rows) query.page query.limit
  return buildPagination data rows.length query.page query.limit

def findOne (id : Uuid) (workspaceId : Option Uuid) (userId : Uuid) : Svc Contact := do
  let _ ← WorkspacesService.assertMember workspaceId userId
  let contact ← Svc.findOne .contacts fun contact =>
    contact.id == id && Svc.whereIs workspaceId contact.workspaceId
  match contact with
  | none => .throw (.notFound "Contact not found")
  | some contact => return contact

/-- The contact after `Object.assign(contact, dto)`; `none` when a column that must not be null
is. -/
def assign (contact : Contact) (dto : UpdateContactDto) : Option Contact :=
  match dto.phone.orElse (some contact.phone), dto.tags.orElse (some contact.tags),
      dto.isBlacklisted.orElse (some contact.isBlacklisted) with
  | some phone, some tags, some isBlacklisted =>
      some { contact with
        name := dto.name.orElse contact.name, phone := phone, tags := tags,
        notes := dto.notes.orElse contact.notes, isBlacklisted := isBlacklisted }
  | _, _, _ => none

/-- The `dto` with its phone normalised, unless it is empty. -/
def normalizeDto (dto : UpdateContactDto) : UpdateContactDto :=
  match dto.phone with
  | .value phone => if phone = "" then dto else { dto with phone := .value (normalizePhone phone) }
  | _ => dto

def update (id : Uuid) (workspaceId : Option Uuid) (userId : Uuid) (dto : UpdateContactDto) :
    Svc Contact := do
  let contact ← findOne id workspaceId userId
  let assigned := assign contact (normalizeDto dto)
  Svc.call (.save .contacts ⟨contact, fun _ => assigned, assigned⟩)
  return assigned.getD contact

def remove (id : Uuid) (workspaceId : Option Uuid) (userId : Uuid) : Svc String := do
  let contact ← findOne id workspaceId userId
  Svc.remove .contacts contact
  return "Contact deleted"

def blacklist (id : Uuid) (workspaceId : Option Uuid) (userId : Uuid) : Svc Contact := do
  let contact ← findOne id workspaceId userId
  let contact := { contact with isBlacklisted := true }
  Svc.save .contacts contact
  return contact

/-- The update of an existing contact by an imported row. -/
def merge (existing : Contact) (row : CsvContactRow) : Contact :=
  { existing with
    name := (orNull row.name).or existing.name
    tags := match row.tags with
      | some (tag :: tags) => tag :: tags
      | _ => existing.tags }

/-- One row of an import. -/
def importRow (workspaceId : Option Uuid) (reply : ImportReply) (row : CsvContactRow) :
    Svc ImportReply := do
  let phone := normalizePhone row.phone
  if phone = "" then return { reply with skipped := reply.skipped + 1 }
  else do
    let existing ← Svc.findOne .contacts fun contact =>
      Svc.whereIs workspaceId contact.workspaceId && contact.phone == phone
    match existing with
    | some existing => do
        Svc.save .contacts (merge existing row)
        return { reply with updated := reply.updated + 1 }
    | none => do
        let _ ← Svc.call (.insert .contacts (workspaceId.map fun workspaceId input =>
          ⟨input.ids 0, workspaceId, orNull row.name, phone, row.tags.getD [], false, none,
            input.now⟩))
        return { reply with created := reply.created + 1 }

/-- The loop of an import. -/
def importRows (workspaceId : Option Uuid) : ImportReply → List CsvContactRow → Svc ImportReply
  | reply, [] => return reply
  | reply, row :: rows => do
      let reply ← importRow workspaceId reply row
      importRows workspaceId reply rows

def importMany (workspaceId : Option Uuid) (userId : Uuid) (rows : List CsvContactRow) :
    Svc ImportReply := do
  let _ ← WorkspacesService.assertMember workspaceId userId
  importRows workspaceId ⟨0, 0, 0, rows.length⟩ rows

def resolvePhones (workspaceId : Option Uuid) (contactIds : List Uuid) : Svc (List Contact) :=
  if contactIds = [] then return []
  else do
    let found ← Svc.find .contacts fun contact =>
      Svc.whereIs workspaceId contact.workspaceId && contactIds.contains contact.id
    return found.filter fun contact => !contact.isBlacklisted

/-! ### Groups -/

def listGroups (workspaceId : Option Uuid) (userId : Uuid) : Svc (List ContactGroup) := do
  let _ ← WorkspacesService.assertMember workspaceId userId
  Svc.find .groups fun group => Svc.whereIs workspaceId group.workspaceId

def createGroup (workspaceId : Option Uuid) (userId : Uuid) (dto : CreateContactGroupDto) :
    Svc ContactGroup := do
  let _ ← WorkspacesService.assertMember workspaceId userId
  Svc.call (.insert .groups (workspaceId.map fun workspaceId input =>
    ⟨input.ids 0, workspaceId, dto.name, dto.contactIds.getD []⟩))

/-- The lookup `updateGroup` and `removeGroup` share. -/
def findGroup (id : Uuid) (workspaceId : Option Uuid) : Svc ContactGroup := do
  let group ← Svc.findOne .groups fun group =>
    group.id == id && Svc.whereIs workspaceId group.workspaceId
  match group with
  | none => .throw (.notFound "Group not found")
  | some group => return group

/-- What `Object.assign(group, dto)` leaves to `save`: the fields of this body are own properties,
so one that is left out becomes undefined and its column is not written. -/
def assignGroup (group : ContactGroup) (dto : UpdateContactGroupDto) : Entity ContactGroup :=
  let named (stored : Option String) := dto.name.orElse stored
  let listed (stored : List Uuid) := dto.contactIds.orElse (some stored)
  let build (name : Option String) (contactIds : Option (List Uuid)) : Option ContactGroup :=
    match name, contactIds with
    | some name, some contactIds => some { group with name := name, contactIds := contactIds }
    | _, _ => none
  ⟨(build (named (some group.name)) (listed group.contactIds)).getD group,
    fun stored => build (named (some stored.name)) (listed stored.contactIds),
    build (named none) (listed [])⟩

def updateGroup (id : Uuid) (workspaceId : Option Uuid) (userId : Uuid)
    (dto : UpdateContactGroupDto) : Svc ContactGroup := do
  let _ ← WorkspacesService.assertMember workspaceId userId
  let group ← findGroup id workspaceId
  let entity := assignGroup group dto
  Svc.call (.save .groups entity)
  return entity.row

def removeGroup (id : Uuid) (workspaceId : Option Uuid) (userId : Uuid) : Svc String := do
  let _ ← WorkspacesService.assertMember workspaceId userId
  let group ← findGroup id workspaceId
  Svc.remove .groups group
  return "Group deleted"

end ContactsService

/-! ### Messages -/

structure SendMessageDto where
  sessionId : Uuid
  toPhone : String
  type : Option MessageType
  content : Option String
  mediaUrl : Option String
  caption : Option String
  filename : Option String
  deriving DecidableEq, Repr

structure SendBulkDto where
  sessionId : Uuid
  recipients : List String
  content : String
  delayMs : Option Int
  deriving DecidableEq, Repr

structure QueryLogsDto where
  page : Nat
  limit : Nat
  sessionId : Option Uuid
  direction : Option MessageDirection
  status : Option MessageStatus
  phone : Option String
  deriving DecidableEq, Repr

structure QueuedReply where
  queued : Bool
  jobId : Nat
  deriving DecidableEq, Repr

structure BulkReply where
  queued : Bool
  count : Nat
  deriving DecidableEq, Repr

/-- The data of a log row; `workspaceId` may be undefined, which its column forbids. -/
structure MessageRecord where
  workspaceId : Option Uuid
  sessionId : Option Uuid
  automationId : Option Uuid
  broadcastId : Option Uuid
  direction : MessageDirection
  fromPhone : Option String
  toPhone : Option String
  messageType : MessageType
  content : Option String
  status : MessageStatus
  waMessageId : Option String
  errorMessage : Option String
  deriving DecidableEq, Repr

namespace MessagesService

def send (workspaceId : Option Uuid) (userId : Uuid) (dto : SendMessageDto) : Svc QueuedReply := do
  let _ ← WorkspacesService.assertMember workspaceId userId
  let session ← SessionsService.findOne dto.sessionId workspaceId userId
  let jobId ← Svc.call (.add (.message ⟨workspaceId, session.id, session.sessionId, dto.toPhone,
    dto.type.getD .text, dto.content, dto.mediaUrl, dto.caption, dto.filename, none, none⟩)
    defaultAttempts 0)
  return ⟨true, jobId⟩

/-- The loop of `sendBulk`; `index` is its counter. -/
def sendEach (workspaceId : Option Uuid) (session : Session) (content : String) (delay : Int) :
    Nat → List String → Svc Unit
  | _, [] => return ()
  | index, toPhone :: rest => do
      let _ ← Svc.call (.add (.message ⟨workspaceId, session.id, session.sessionId, toPhone, .text,
        some content, none, none, none, none, none⟩) defaultAttempts (index * delay))
      sendEach workspaceId session content delay (index + 1) rest

def sendBulk (workspaceId : Option Uuid) (userId : Uuid) (dto : SendBulkDto) : Svc BulkReply := do
  let _ ← WorkspacesService.assertMember workspaceId userId
  let session ← SessionsService.findOne dto.sessionId workspaceId userId
  sendEach workspaceId session dto.content (dto.delayMs.getD 3000) 0 dto.recipients
  return ⟨true, dto.recipients.length⟩

/-- The rows of the query builder. -/
def matching (h : Helpers) (workspaceId : Option Uuid) (query : QueryLogsDto) (log : MessageLog) :
    Bool :=
  workspaceId == some log.workspaceId &&
  (match orNull query.sessionId with
    | none => true
    | some sessionId => log.sessionId == some sessionId) &&
  (match query.direction with
    | none => true
    | some direction => log.direction == direction) &&
  (match query.status with
    | none => true
    | some status => log.status == status) &&
  (match orNull query.phone with
    | none => true
    | some phone => h.ilike phone log.fromPhone || h.ilike phone log.toPhone)

def findLogs (h : Helpers) (workspaceId : Option Uuid) (userId : Uuid) (query : QueryLogsDto) :
    Svc (PaginatedResult MessageLog) := do
  let _ ← WorkspacesService.assertMember workspaceId userId
  let rows ← Svc.find .logs (matching h workspaceId query)
  let data := page (newestFirst MessageLog.createdAt rows) query.page query.limit
  return buildPagination data rows.length query.page query.limit

def findLog (id : Uuid) (workspaceId : Option Uuid) (userId : Uuid) : Svc MessageLog := do
  let _ ← WorkspacesService.assertMember workspaceId userId
  let log ← Svc.findOne .logs fun log =>
    log.id == id && Svc.whereIs workspaceId log.workspaceId
  match log with
  | none => .throw (.notFound "Message log not found")
  | some log => return log

/-- Persist a log row, for the processors. -/
def record (data : MessageRecord) : Svc MessageLog :=
  Svc.call (.insert .logs (data.workspaceId.map fun workspaceId input =>
    ⟨input.ids 0, workspaceId, data.sessionId, data.automationId, data.broadcastId, data.direction,
      data.fromPhone, data.toPhone, data.messageType, data.content, data.status, data.waMessageId,
      data.errorMessage, input.now⟩))

end MessagesService

/-! ### The message processor -/

namespace MessageProcessor

/-- The OpenWA call a job asks for. -/
def deliver (creds : OpenwaCredentials) (data : SendMessageJob) : Svc OpenwaResponse :=
  let session : SessionRef := ⟨data.openwaSessionId, data.sessionId⟩
  match data.type with
  | .image =>
      OpenwaService.sendImage creds session data.toPhone (data.mediaUrl.map .str)
        ((orNull data.caption).getD "") ((orNull data.filename).getD "image.jpg")
  | .file =>
      OpenwaService.sendFile creds session data.toPhone (data.mediaUrl.map .str)
        (.str ((orNull data.filename).getD "file")) ((orNull data.caption).getD "")
  | _ => OpenwaService.sendText creds session data.toPhone ((orNull data.content).getD "") none

/-- The log row of a job, sent or failed. -/
def logRow (data : SendMessageJob) (status : MessageStatus)
    (waMessageId errorMessage : Option String) : MessageRecord :=
  ⟨data.workspaceId, some data.sessionId, orNull data.automationId, orNull data.broadcastId, .out,
    none, some data.toPhone, data.type,
    ((orNull data.content).or (orNull data.caption)).or (orNull data.mediaUrl), status, waMessageId,
    errorMessage⟩

/-- The body of the `try` block. -/
def attemptSend (creds : OpenwaCredentials) (data : SendMessageJob) : Svc (Option String) := do
  let res ← deliver creds data
  let waMessageId := (orNull res.response).or (orNull res.messageId)
  let _ ← MessagesService.record (logRow data .sent waMessageId none)
  Svc.emit (.messageSent data.workspaceId data.sessionId data.toPhone waMessageId)
  return waMessageId

def process (h : Helpers) (data : SendMessageJob) : Svc (Option String) := do
  let creds ← WorkspacesService.getOpenwaCredentials h data.workspaceId
  match ← (attemptSend creds data).attempt with
  | .ok waMessageId => return waMessageId
  | .error err => do
      let _ ← MessagesService.record (logRow data .failed none (some err.message))
      .throw err

end MessageProcessor

end WaAutomation
