/-
**Users and tokens.**

`UsersService.create` and `validateCredentials`, and `AuthService`. Beside the database they use the
cache, in which the refresh token of a user is stored, and two libraries: `jwtService.signAsync`, a
function of the payload, the secret and the issue time in seconds, and bcrypt.

`AuthState` is the database with the cache. Its last three fields are history: the payloads and
seconds of the refresh tokens signed, the refresh tokens stored in the cache, and the refresh tokens
presented by the calls of `refresh` that were accepted.
-/

import WaAutomation.Model.Store

set_option linter.unusedSectionVars false

namespace WaAutomation

open Library

structure RegisterDto where
  name : String
  email : String
  password : String
  deriving DecidableEq, Repr

structure LoginDto where
  email : String
  password : String
  deriving DecidableEq, Repr

structure JwtPayload where
  sub : Uuid
  email : String
  deriving DecidableEq, Repr

structure AuthTokens where
  accessToken : String
  refreshToken : String
  deriving DecidableEq, Repr

/-- The part of a user a reply shows. -/
structure PublicUser where
  id : Uuid
  name : String
  email : String
  deriving DecidableEq, Repr

/-- The two tokens a payload is signed for; each has its secret and its lifetime in the
configuration. -/
inductive TokenUse where
  | access
  | refresh
  deriving DecidableEq, Repr

/-- The libraries and the configuration of the authentication. -/
structure AuthHelpers where
  signAsync : JwtPayload → String → Nat → String
  secret : TokenUse → String
  hash : String → String → String
  compare : String → String → Bool
  lower : String → String

/-! ### The state -/

structure CacheEntry where
  value : String
  expires : Time
  deriving DecidableEq, Repr

structure AuthState where
  store : Store
  cache : String → Option CacheEntry
  signed : List (JwtPayload × Nat)
  handed : List String
  accepted : List String

/-- One call of a repository, of the token library or of the cache. -/
inductive AuthCall where
  | db (call : Call)
  | sign (payload : JwtPayload) (use : TokenUse)
  | get (key : String)
  | set (key value : String) (ttl : Nat)
  | del (key : String)

/-- The reply of a call. -/
@[reducible] def AuthResp : AuthCall → Type
  | .db call => Resp call
  | .sign _ _ => String
  | .get _ => Option String
  | .set _ _ _ => Unit
  | .del _ => Unit

namespace AuthState

/-- The cached value of a key that has not expired. -/
def cached (state : AuthState) (key : String) (now : Time) : Option String :=
  ((state.cache key).filter fun entry => now < entry.expires).map CacheEntry.value

/-- Sign a payload in a second. -/
def sign (state : AuthState) (payload : JwtPayload) (second : Nat) : TokenUse → AuthState
  | .access => state
  | .refresh => { state with signed := (payload, second) :: state.signed }

def set (state : AuthState) (key value : String) (expires : Time) : AuthState :=
  { state with
    cache := Function.update state.cache key (some ⟨value, expires⟩)
    handed := value :: state.handed }

def del (state : AuthState) (key : String) : AuthState :=
  { state with cache := Function.update state.cache key none }

end AuthState

/-- A time in whole seconds. -/
def seconds (now : Time) : Nat := now / 1000

/-- The execution of one call; a fault of the database or of the cache has no effect. -/
def AuthCall.exec (h : AuthHelpers) (call : AuthCall) (input : Input) (state : AuthState) :
    Except Err (AuthResp call) × AuthState :=
  match call with
  | .db call =>
      ((WaAutomation.exec call input state.store).1,
        { state with store := (WaAutomation.exec call input state.store).2 })
  | .sign payload use =>
      (.ok (h.signAsync payload (h.secret use) (seconds input.now)),
        state.sign payload (seconds input.now) use)
  | .get key =>
      match input.fault with
      | some message => (.error (.other message), state)
      | none => (.ok (state.cached key input.now), state)
  | .set key value ttl =>
      match input.fault with
      | some message => (.error (.other message), state)
      | none => (.ok (), state.set key value (input.now + ttl))
  | .del key =>
      match input.fault with
      | some message => (.error (.other message), state)
      | none => (.ok (), state.del key)

/-- A function of the authentication. -/
abbrev AuthSvc := Program Err Input AuthCall AuthResp

/-- One call. -/
def AuthSvc.call (request : AuthCall) : AuthSvc (AuthResp request) := Program.perform request

/-! ### Users -/

namespace UsersService

def findByEmail (h : AuthHelpers) (email : String) : AuthSvc (Option User) := do
  let rows ← AuthSvc.call (.db (.find .users fun user => user.email == h.lower email))
  return rows.head?

def create (h : AuthHelpers) (data : RegisterDto) : AuthSvc User := do
  let existing ← findByEmail h data.email
  match existing with
  | some _ => .throw (.badRequest "Email already registered")
  | none => AuthSvc.call (.db (.insert .users (some fun input =>
      ⟨input.ids 0, data.name, h.lower data.email, h.hash data.password input.bytes, true⟩)))

def validateCredentials (h : AuthHelpers) (email password : String) : AuthSvc (Option User) := do
  let user ← findByEmail h email
  match user with
  | none => return none
  | some user =>
      if user.isActive = false then return none
      else if h.compare password user.password then return some user
      else return none

end UsersService

/-! ### Tokens -/

namespace AuthService

def refreshKey (userId : Uuid) : String := "refresh:" ++ userId

/-- The time a refresh token is stored for, 30 days in milliseconds. -/
def refreshTtl : Nat := 2592000000

def issueTokens (payload : JwtPayload) : AuthSvc AuthTokens := do
  let accessToken ← AuthSvc.call (.sign payload .access)
  let refreshToken ← AuthSvc.call (.sign payload .refresh)
  AuthSvc.call (.set (refreshKey payload.sub) refreshToken refreshTtl)
  return ⟨accessToken, refreshToken⟩

def register (h : AuthHelpers) (dto : RegisterDto) : AuthSvc (PublicUser × AuthTokens) := do
  let user ← UsersService.create h dto
  let tokens ← issueTokens ⟨user.id, user.email⟩
  return (⟨user.id, user.name, user.email⟩, tokens)

def login (h : AuthHelpers) (dto : LoginDto) : AuthSvc (PublicUser × AuthTokens) := do
  let user ← UsersService.validateCredentials h dto.email dto.password
  match user with
  | none => .throw (.http 401 "Invalid credentials")
  | some user => do
      let tokens ← issueTokens ⟨user.id, user.email⟩
      return (⟨user.id, user.name, user.email⟩, tokens)

/-- The test `!stored || stored !== presentedToken` fails. -/
def matchesStored (stored : Option String) (presentedToken : String) : Bool :=
  stored.any fun stored => stored != "" && stored == presentedToken

def refresh (userId : Uuid) (email presentedToken : String) : AuthSvc AuthTokens := do
  let stored ← AuthSvc.call (.get (refreshKey userId))
  if matchesStored stored presentedToken then issueTokens ⟨userId, email⟩
  else .throw (.http 401 "Refresh token revoked or invalid")

def logout (userId : Uuid) : AuthSvc String := do
  AuthSvc.call (.del (refreshKey userId))
  return "Logged out"

end AuthService

end WaAutomation
