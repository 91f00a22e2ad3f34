/-
**Users and workspaces.**

The rest of `WorkspacesService`, and what `UsersService` does without tokens. `members.save` of a
new membership is the `save` of an entity that carries its whole primary key: when the row exists,
its role is overwritten.

`UsersService.create` is modelled twice, as a function of the authentication and here as a service
function; `ofSvc_create` says that they are the same program.
-/

import WaAutomation.Model.Auth
import WaAutomation.Model.Workspaces

set_option linter.unusedSectionVars false

namespace WaAutomation

open Library

structure CreateWorkspaceDto where
  name : String
  openwaBaseUrl : String
  openwaApiKey : String
  deriving DecidableEq, Repr

structure UpdateWorkspaceDto where
  name : Field String
  openwaBaseUrl : Field String
  openwaApiKey : Field String
  isActive : Field Bool
  deriving DecidableEq, Repr

/-- The declared type of `role` is `'admin' | 'member'`, but it is only checked to be a string. -/
structure InviteMemberDto where
  email : String
  role : Option String
  deriving DecidableEq, Repr

/-- What accounts use of the crypto libraries; the last argument of `encrypt` and of `hash` is what
they draw. -/
structure AccountHelpers where
  encrypt : String → String → String
  hash : String → String → String
  lower : String → String

/-! ### Users -/

namespace Accounts

namespace UsersService

def findByEmail (k : AccountHelpers) (email : String) : Svc (Option User) :=
  Svc.findOne .users fun user => user.email == k.lower email

def create (k : AccountHelpers) (data : RegisterDto) : Svc User := do
  let existing ← findByEmail k data.email
  match existing with
  | some _ => .throw (.badRequest "Email already registered")
  | none => Svc.call (.insert .users (some fun input =>
      ⟨input.ids 0, data.name, k.lower data.email, k.hash data.password input.bytes, true⟩))

def findById (id : Uuid) : Svc User := do
  let user ← Svc.findOne .users fun user => user.id == id
  match user with
  | none => .throw (.notFound "User not found")
  | some user => return user

def remove (id : Uuid) : Svc Unit := do
  let user ← findById id
  Svc.remove .users user

end UsersService

/-- A service function among those of the authentication. -/
def ofSvc {α : Type} : Svc α → AuthSvc α
  | Program.ret value => Program.ret value
  | Program.throw error => Program.throw error
  | Program.ambient next => Program.ambient fun input => ofSvc (next input)
  | Program.call call next => Program.call (.db call) fun reply => ofSvc (next reply)

theorem ofSvc_bind {α β : Type} (program : Svc α) (rest : α → Svc β) :
    ofSvc (program >>= rest) = ofSvc program >>= fun value => ofSvc (rest value) := by
  induction program with
  | ret value => rfl
  | throw error => rfl
  | ambient next ih =>
    simp only [Program.ambient_bind, ofSvc, ih]
  | call call next ih =>
    simp only [Program.call_bind, ofSvc, ih]

theorem ofSvc_call (call : Call) : ofSvc (Svc.call call) = AuthSvc.call (.db call) := by
  show Program.call (AuthCall.db call) _ = Program.call (AuthCall.db call) _
  congr 1
  funext reply
  cases reply <;> rfl

end Accounts

/-! ### Workspaces -/

namespace WorkspacesService

def create (k : AccountHelpers) (userId : Uuid) (dto : CreateWorkspaceDto) : Svc Workspace := do
  let iv ← Svc.randomHex
  let saved ← Svc.call (.insert .workspaces (some fun input =>
    ⟨input.ids 0, dto.name, userId, dto.openwaBaseUrl, k.encrypt dto.openwaApiKey iv, true⟩))
  Svc.save .members ⟨saved.id, userId, "owner"⟩
  return saved

def findAllForUser (userId : Uuid) : Svc (List Workspace) := do
  let memberships ← Svc.find .members fun member => member.userId == userId
  let ids := memberships.map WorkspaceMember.workspaceId
  if ids.length = 0 then return []
  else Svc.find .workspaces fun workspace => ids.contains workspace.id

/-- The lookup `findOne`, `update` and `remove` share. -/
def findById (id : Uuid) : Svc Workspace := do
  let workspace ← Svc.findOne .workspaces fun workspace => workspace.id == id
  match workspace with
  | none => .throw (.notFound "Workspace not found")
  | some workspace => return workspace

def findOne (id userId : Uuid) : Svc Workspace := do
  let _ ← assertMember (some id) userId
  findById id

/-- The API key of a body, encrypted; `cipher.update` takes no null. -/
def encryptKey (k : AccountHelpers) : Field String → Svc (Field String)
  | .undefined => return .undefined
  | .null => .throw (.other "The \"data\" argument must be of type string")
  | .value openwaApiKey => do
      let iv ← Svc.randomHex
      return .value (k.encrypt openwaApiKey iv)

/-- The workspace with the given fields set; `none` when a column that must not be null is. -/
def assign (workspace : Workspace) (dto : UpdateWorkspaceDto) (openwaApiKey : Field String) :
    Option Workspace :=
  match dto.name.orElse (some workspace.name),
      dto.openwaBaseUrl.orElse (some workspace.openwaBaseUrl),
      openwaApiKey.orElse (some workspace.openwaApiKey),
      dto.isActive.orElse (some workspace.isActive) with
  | some name, some openwaBaseUrl, some openwaApiKey, some isActive =>
      some { workspace with
        name := name, openwaBaseUrl := openwaBaseUrl, openwaApiKey := openwaApiKey,
        isActive := isActive }
  | _, _, _, _ => none

def update (k : AccountHelpers) (id userId : Uuid) (dto : UpdateWorkspaceDto) : Svc Workspace := do
  let _ ← assertRole (some id) userId managers
  let workspace ← findById id
  let openwaApiKey ← encryptKey k dto.openwaApiKey
  let assigned := assign workspace dto openwaApiKey
  Svc.call (.save .workspaces ⟨workspace, fun _ => assigned, assigned⟩)
  return assigned.getD workspace

def remove (id userId : Uuid) : Svc Unit := do
  let _ ← assertRole (some id) userId ["owner"]
  let workspace ← findById id
  Svc.remove .workspaces workspace

def listMembers (id userId : Uuid) : Svc (List WorkspaceMember) := do
  let _ ← assertMember (some id) userId
  Svc.find .members fun member => member.workspaceId == id

/-- The membership of a user. -/
def findMember (id userId : Uuid) : Svc (Option WorkspaceMember) :=
  Svc.findOne .members fun member => member.workspaceId == id && member.userId == userId

def invite (k : AccountHelpers) (id userId : Uuid) (dto : InviteMemberDto) :
    Svc WorkspaceMember := do
  let _ ← assertRole (some id) userId managers
  let invitee ← Accounts.UsersService.findByEmail k dto.email
  match invitee with
  | none => .throw (.notFound "User to invite not found")
  | some invitee => do
      let existing ← findMember id invitee.id
      match existing with
      | some existing => return existing
      | none => do
          let member : WorkspaceMember := ⟨id, invitee.id, (orNull dto.role).getD "member"⟩
          Svc.save .members member
          return member

def removeMember (id userId targetUserId : Uuid) : Svc String := do
  let _ ← assertRole (some id) userId managers
  let member ← findMember id targetUserId
  match member with
  | none => .throw (.notFound "Member not found")
  | some member =>
      if member.role = "owner" then .throw (.forbidden "Cannot remove the workspace owner")
      else do
        Svc.remove .members member
        return "Member removed"

end WorkspacesService

/-- The two models of `UsersService.create`. -/
theorem Accounts.ofSvc_create (h : AuthHelpers) (encrypt : String → String → String)
    (data : RegisterDto) :
    Accounts.ofSvc (Accounts.UsersService.create ⟨encrypt, h.hash, h.lower⟩ data) =
      WaAutomation.UsersService.create h data := by
  unfold UsersService.create UsersService.findByEmail WaAutomation.UsersService.create
    WaAutomation.UsersService.findByEmail Svc.findOne Svc.find
  rw [ofSvc_bind, ofSvc_bind, ofSvc_call]
  congr 1
  funext existing
  cases existing with
  | some user => rfl
  | none => exact ofSvc_call _

end WaAutomation
