/-
**Requests over HTTP.**

What stands between a request and the functions of the services: the global guard of the bearer
token with its strategy, the guard of the master key, and the routes with the functions they call.
The user a guarded route acts for is the one the strategy loads; its workspace is what the decorator
`WorkspaceId` reads. No route is behind the guard of the API keys, so the property that guard sets
is undefined.

`login` and `refresh` of the authentication change no row and are in `AuthService`, as are the
tokens that `register` issues once it has created the user, and the one in the cache that `logout`
deletes behind its guard.
-/

import WaAutomation.Model.Accounts
import WaAutomation.Model.Api
import WaAutomation.Model.Triggers

set_option linter.unusedSectionVars false

namespace WaAutomation

open Library

/-- The property `name` is optional and may be null. -/
structure UpdateUserDto where
  name : Field String
  deriving DecidableEq, Repr

structure ChangePasswordDto where
  currentPassword : String
  newPassword : String
  deriving DecidableEq, Repr

/-- The user a request acts for. -/
structure AuthUser where
  id : Uuid
  email : String
  deriving DecidableEq, Repr

/-- The libraries and the configuration of the front: `payload` is what a bearer token carries that
is signed with the secret `jwt.secret`, `fresh` says whether it has not expired, and `masterKey` is
`openwa.masterKey`. -/
structure HttpHelpers extends AccountHelpers where
  compare : String → String → Bool
  payload : String → Option JwtPayload
  fresh : String → Time → Bool
  masterKey : Option String

/-- What the token library makes of a bearer token at a time. -/
def HttpHelpers.verify (g : HttpHelpers) (token : String) (now : Time) : Option JwtPayload :=
  if g.fresh token now then g.payload token else none

/-! ### Profiles -/

namespace Accounts.UsersService

/-- The entity after `Object.assign(user, dto)`. A body of this class has the property `name`
always, so when it is left out the column is not written. -/
def assign (user : User) (dto : UpdateUserDto) : Entity User :=
  match dto.name with
  | .undefined => ⟨user, fun stored => some { user with name := stored.name }, none⟩
  | .null => ⟨user, fun _ => none, none⟩
  | .value name => .whole { user with name := name }

def update (id : Uuid) (dto : UpdateUserDto) : Svc User := do
  let user ← findById id
  let entity := assign user dto
  Svc.call (.save .users entity)
  return entity.row

def changePassword (g : HttpHelpers) (id : Uuid) (dto : ChangePasswordDto) : Svc Unit := do
  let user ← findById id
  if g.compare dto.currentPassword user.password then do
    let salt ← Svc.randomHex
    Svc.save .users { user with password := g.hash dto.newPassword salt }
  else .throw (.badRequest "Current password is incorrect")

end Accounts.UsersService

/-! ### Guards -/

/-- The user a verified token is for. A search that throws finds no user. -/
def JwtStrategy.validate (payload : JwtPayload) : Svc AuthUser := do
  match ← (Accounts.UsersService.findById payload.sub).attempt with
  | .error _ => .throw (.http 401 "User no longer valid")
  | .ok user =>
      if user.isActive then return ⟨user.id, user.email⟩
      else .throw (.http 401 "User no longer valid")

def JwtAuthGuard.canActivate (g : HttpHelpers) (token : Option String) : Svc AuthUser := do
  let now ← Svc.now
  match token.bind fun token => g.verify token now with
  | none => .throw (.http 401 "Invalid or missing token")
  | some payload => JwtStrategy.validate payload

/-- The test `!expected || provided !== expected` fails. -/
def MasterKeyGuard.passes (expected provided : Option String) : Bool :=
  (orNull expected).any fun expected => provided == some expected

def MasterKeyGuard.canActivate (g : HttpHelpers) (provided : Option String) : Svc Unit :=
  if MasterKeyGuard.passes g.masterKey provided then return ()
  else .throw (.http 401 "Invalid master key")

/-! ### Routes -/

/-- The routes behind the bearer token. -/
inductive Route where
  | endpoint (given : Endpoint)
  -- authentication
  | logout
  -- users
  | me
  | updateMe (dto : UpdateUserDto)
  | changePassword (dto : ChangePasswordDto)
  | removeMe
  -- workspaces
  | findWorkspaces
  | createWorkspace (dto : CreateWorkspaceDto)
  | findWorkspace (id : Uuid)
  | updateWorkspace (id : Uuid) (dto : UpdateWorkspaceDto)
  | removeWorkspace (id : Uuid)
  | listMembers (id : Uuid)
  | invite (id : Uuid) (dto : InviteMemberDto)
  | removeMember (id targetUserId : Uuid)

/-- What a guarded route does for its user. -/
def Route.program (h : Helpers) (g : HttpHelpers) (ws : Option Uuid) (uid : Uuid) :
    Route → Svc Unit
  | .endpoint given => do
      let _ ← given.program h ws uid
  | .logout => return ()
  | .me => do
      let _ ← Accounts.UsersService.findById uid
  | .updateMe dto => do
      let _ ← Accounts.UsersService.update uid dto
  | .changePassword dto => Accounts.UsersService.changePassword g uid dto
  | .removeMe => Accounts.UsersService.remove uid
  | .findWorkspaces => do
      let _ ← WorkspacesService.findAllForUser uid
  | .createWorkspace dto => do
      let _ ← WorkspacesService.create g.toAccountHelpers uid dto
  | .findWorkspace id => do
      let _ ← WorkspacesService.findOne id uid
  | .updateWorkspace id dto => do
      let _ ← WorkspacesService.update g.toAccountHelpers id uid dto
  | .removeWorkspace id => WorkspacesService.remove id uid
  | .listMembers id => do
      let _ ← WorkspacesService.listMembers id uid
  | .invite id dto => do
      let _ ← WorkspacesService.invite g.toAccountHelpers id uid dto
  | .removeMember id targetUserId => do
      let _ ← WorkspacesService.removeMember id uid targetUserId

/-- All routes: those behind the token, the callback of OpenWA behind the master key, and the public
ones. -/
inductive Target where
  | guarded (route : Route)
  | inbound (dto : Record)
  | register (dto : RegisterDto)
  | hook (token : String) (body : Record)
  | health

/-- A request: the bearer token and the master key it presents, and what names its workspace. -/
structure Incoming where
  token : Option String
  masterKey : Option String
  header : Option String
  query : Option String
  target : Target

/-- The workspace a request names. -/
def Incoming.workspace (incoming : Incoming) : Option Uuid :=
  WorkspaceId ⟨incoming.header, incoming.query, none⟩

/-- A request from its guards to the end of its function. -/
def Incoming.program (h : Helpers) (g : HttpHelpers) (incoming : Incoming) : Svc Unit :=
  match incoming.target with
  | .guarded route => do
      let user ← JwtAuthGuard.canActivate g incoming.token
      route.program h g incoming.workspace user.id
  | .inbound dto => do
      MasterKeyGuard.canActivate g incoming.masterKey
      let _ ← InboundController.onMessage h dto
  | .register dto => do
      let _ ← Accounts.UsersService.create g.toAccountHelpers dto
  | .hook token body => do
      let _ ← InboundController.webhookTrigger h token body
  | .health => return ()

end WaAutomation
