/-
**Workspace guards, OpenWA calls and sessions.**

`WorkspacesService` (the helpers other modules use), `OpenwaService` and `SessionsService`. The
workspace id of a request is optional: `WorkspaceId()` reads it from a header or a query parameter
that may be missing, and TypeORM ignores a `where` key whose value is undefined (`Svc.whereIs`).
-/

import WaAutomation.Model.Helpers

set_option linter.unusedSectionVars false

namespace WaAutomation

open Library

/-! ### Workspaces -/

namespace WorkspacesService

def assertMember (workspaceId : Option Uuid) (userId : Uuid) : Svc WorkspaceMember := do
  let member ← Svc.findOne .members fun member =>
    Svc.whereIs workspaceId member.workspaceId && member.userId == userId
  match member with
  | none => .throw (.forbidden "You are not a member of this workspace")
  | some member => return member

def assertRole (workspaceId : Option Uuid) (userId : Uuid) (roles : List String) :
    Svc WorkspaceMember := do
  let member ← assertMember workspaceId userId
  if roles.contains member.role then return member
  else .throw (.forbidden "Insufficient workspace role")

/-- The workspace's OpenWA credentials, the API key decrypted. -/
def getOpenwaCredentials (h : Helpers) (workspaceId : Option Uuid) : Svc OpenwaCredentials := do
  let workspace ← Svc.findOne .workspaces fun workspace => Svc.whereIs workspaceId workspace.id
  match workspace with
  | none => .throw (.notFound "Workspace not found")
  | some workspace =>
      let apiKey ← Svc.lift (h.decrypt workspace.openwaApiKey)
      return ⟨workspace.openwaBaseUrl, apiKey, workspace.id⟩

end WorkspacesService

/-- The roles that may change a workspace's resources. -/
def managers : List String := ["owner", "admin"]

/-! ### OpenWA -/

namespace OpenwaService

/-- The exception an axios error becomes. -/
def failure (method : OpenwaMethod) : Err → Err
  | .axios (some status) _ =>
      .http (if 400 ≤ status && status < 600 then status else 502) s!"OpenWA '{method.name}' failed"
  | _ => .http 502 s!"OpenWA '{method.name}' failed"

def call (creds : OpenwaCredentials) (method : OpenwaMethod) (session : SessionRef)
    (recipient : Option RecipientRef) : Svc OpenwaResponse := do
  match ← (Svc.call (.openwa ⟨creds, method, session, recipient⟩)).attempt with
  | .ok data => return data
  | .error error => .throw (failure method error)

def startSession (creds : OpenwaCredentials) (session : SessionRef) : Svc OpenwaResponse :=
  call creds .start session none

def terminateSession (creds : OpenwaCredentials) (session : SessionRef) : Svc OpenwaResponse :=
  call creds .kill session none

def getConnectionState (creds : OpenwaCredentials) (session : SessionRef) : Svc OpenwaResponse :=
  call creds .getConnectionState session none

def getQrCode (creds : OpenwaCredentials) (session : SessionRef) : Svc OpenwaResponse :=
  call creds .getQrPng session none

def sendText (creds : OpenwaCredentials) (session : SessionRef) (phone message : String)
    (recipient : Option RecipientRef) : Svc OpenwaResponse :=
  call creds (.sendText (toChatId phone) message) session recipient

def sendImage (creds : OpenwaCredentials) (session : SessionRef) (phone : String)
    (imageUrl : Option Json) (caption filename : String) : Svc OpenwaResponse :=
  call creds (.sendImage (toChatId phone) imageUrl filename caption) session none

def sendFile (creds : OpenwaCredentials) (session : SessionRef) (phone : String)
    (fileUrl : Option Json) (filename : Json) (caption : String) : Svc OpenwaResponse :=
  call creds (.sendFile (toChatId phone) fileUrl filename caption) session none

end OpenwaService

/-- The session a call goes through. -/
def Session.ref (session : Session) : SessionRef := ⟨session.sessionId, session.id⟩

/-! ### Sessions -/

structure CreateSessionDto where
  name : String
  sessionId : Option String
  deriving DecidableEq, Repr

structure UpdateSessionDto where
  name : Field String
  deriving DecidableEq, Repr

structure SessionStatusReply where
  status : SessionStatus
  remoteState : Option String
  deriving DecidableEq, Repr

namespace SessionsService

def create (workspaceId : Option Uuid) (userId : Uuid) (dto : CreateSessionDto) : Svc Session := do
  let _ ← WorkspacesService.assertRole workspaceId userId managers
  let bytes ← Svc.randomHex
  let sessionId := (orNull dto.sessionId).getD ("s_" ++ bytes)
  Svc.call (.insert .sessions (workspaceId.map fun workspaceId input =>
    ⟨input.ids 0, workspaceId, sessionId, dto.name, none, .idle, none⟩))

def findAll (workspaceId : Option Uuid) (userId : Uuid) : Svc (List Session) := do
  let _ ← WorkspacesService.assertMember workspaceId userId
  Svc.find .sessions fun session => Svc.whereIs workspaceId session.workspaceId

def findOne (id : Uuid) (workspaceId : Option Uuid) (userId : Uuid) : Svc Session := do
  let _ ← WorkspacesService.assertMember workspaceId userId
  let session ← Svc.findOne .sessions fun session =>
    session.id == id && Svc.whereIs workspaceId session.workspaceId
  match session with
  | none => .throw (.notFound "Session not found")
  | some session => return session

/-- The lookup without a user check, for the queues. -/
def getById (id : Uuid) : Svc Session := do
  let session ← Svc.findOne .sessions fun session => session.id == id
  match session with
  | none => .throw (.notFound "Session not found")
  | some session => return session

/-- The lookup by OpenWA session id. One that is undefined or null puts no constraint on the row. -/
def findByOpenwaSessionId (openwaSessionId : Option String) : Svc (Option Session) :=
  Svc.findOne .sessions fun session => Svc.whereIs openwaSessionId session.sessionId

/-- What `Object.assign(session, dto)` leaves to `save`. -/
def assign (session : Session) (dto : UpdateSessionDto) : Entity Session :=
  match dto.name with
  | .undefined => ⟨session, fun stored => some { session with name := stored.name }, none⟩
  | .null => ⟨session, fun _ => none, none⟩
  | .value name => .whole { session with name := name }

def update (id : Uuid) (workspaceId : Option Uuid) (userId : Uuid) (dto : UpdateSessionDto) :
    Svc Session := do
  let session ← findOne id workspaceId userId
  let entity := assign session dto
  Svc.call (.save .sessions entity)
  return entity.row

def setStatus (session : Session) (status : SessionStatus) (phone : Field String) :
    Svc Session := do
  let now ← Svc.now
  let session := { session with
    status := status, lastActiveAt := some now, phoneNumber := phone.orElse session.phoneNumber }
  Svc.save .sessions session
  Svc.emit (.sessionStatus session.workspaceId session.id status session.phoneNumber)
  return session

def remove (h : Helpers) (id : Uuid) (workspaceId : Option Uuid) (userId : Uuid) : Svc String := do
  let _ ← WorkspacesService.assertRole workspaceId userId managers
  let session ← findOne id workspaceId userId
  let creds ← WorkspacesService.getOpenwaCredentials h workspaceId
  let _ ← (OpenwaService.terminateSession creds session.ref).attempt
  Svc.remove .sessions session
  return "Session deleted"

def start (h : Helpers) (id : Uuid) (workspaceId : Option Uuid) (userId : Uuid) :
    Svc (Option Session) := do
  let session ← findOne id workspaceId userId
  let creds ← WorkspacesService.getOpenwaCredentials h workspaceId
  let session ← setStatus session .connecting .undefined
  let _ ← OpenwaService.startSession creds session.ref
  Svc.findOne .sessions fun session => session.id == id

def stop (h : Helpers) (id : Uuid) (workspaceId : Option Uuid) (userId : Uuid) :
    Svc (Option Session) := do
  let session ← findOne id workspaceId userId
  let creds ← WorkspacesService.getOpenwaCredentials h workspaceId
  let _ ← OpenwaService.terminateSession creds session.ref
  let _ ← setStatus session .disconnected .undefined
  Svc.findOne .sessions fun session => session.id == id

/-- The event goes to the workspace of the request; without one there is no room to send it to. -/
def getQr (h : Helpers) (id : Uuid) (workspaceId : Option Uuid) (userId : Uuid) :
    Svc (Option String) := do
  let session ← findOne id workspaceId userId
  let creds ← WorkspacesService.getOpenwaCredentials h workspaceId
  let res ← OpenwaService.getQrCode creds session.ref
  match (orNull res.response).or (orNull res.qr) with
  | none => return none
  | some qr => do
      Svc.emit (.sessionQr (workspaceId.getD "undefined") id qr)
      return some qr

def mapState : Option String → Option SessionStatus
  | some "CONNECTED" => some .connected
  | some "TIMEOUT" => some .disconnected
  | some "UNLAUNCHED" => some .disconnected
  | some "UNPAIRED" => some .disconnected
  | some "UNPAIRED_IDLE" => some .disconnected
  | some "OPENING" => some .connecting
  | some "PAIRING" => some .connecting
  | some "CONFLICT" => some .error
  | _ => none

def getStatus (h : Helpers) (id : Uuid) (workspaceId : Option Uuid) (userId : Uuid) :
    Svc SessionStatusReply := do
  let session ← findOne id workspaceId userId
  let creds ← WorkspacesService.getOpenwaCredentials h workspaceId
  let res ← (OpenwaService.getConnectionState creds session.ref).attempt
  let remoteState :=
    match res with
    | .ok res => orNull res.response
    | .error _ => none
  match mapState remoteState with
  | none => return ⟨session.status, remoteState⟩
  | some mapped =>
      if mapped = session.status then return ⟨mapped, remoteState⟩
      else do
        let _ ← setStatus session mapped .undefined
        return ⟨mapped, remoteState⟩

end SessionsService

end WaAutomation
