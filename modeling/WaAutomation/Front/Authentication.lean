/-
**Who is behind a change.**

A run of the application as its clients see it: requests over HTTP from their guards on, ticks of
the scheduler and runs of jobs, interleaved between their calls.

* `Authentic` says what a bearer token has to be for a request to act for a user: one that the token
  library verified for the user when the request came in, of a user who was stored and active at
  some time of the run;
* `program_told` goes through the requests: whatever they are answered, they make only the calls
  `Allowed` lists;
* `changes_authenticated`: so every change of a run is made for a user who is behind a token and has
  the role that the change takes, or with the master key, or by one of the few public requests and
  jobs that may make it, and no account is changed but by its own user.
-/

import WaAutomation.Model.Http
import WaAutomation.Tenancy.Authority

set_option linter.unusedSectionVars false

namespace WaAutomation.Front

open Library Program

/-! ### The system -/

inductive Request where
  | http (incoming : Incoming)
  | tick
  | job (data : Job)

def Request.program (h : Helpers) (g : HttpHelpers) : Request → Svc Unit
  | .http incoming => incoming.program h g
  | .tick => AutomationScheduler.tick h
  | .job data => Origins.runJob h data

def system (h : Helpers) (g : HttpHelpers) := services (Request.program h g)

abbrev Pool := Calling Request Unit

abbrev Move := Machine.Move Input Nat fun _ => Request

/-! ### What the guard finds out -/

section Guard

variable (g : HttpHelpers) (real : Input → Prop) (seen : User → Prop)

/-- The token was verified when the request came in. -/
def Genuine (token : Option String) (payload : JwtPayload) : Prop :=
  ∃ bearer input, token = some bearer ∧ real input ∧ g.verify bearer input.now = some payload

/-- The token is one of the user, who was stored and active. -/
def Authentic (token : Option String) (uid : Uuid) : Prop :=
  ∃ payload user, Genuine g real token payload ∧ payload.sub = uid ∧
    seen user ∧ user.id = uid ∧ user.isActive = true

/-- The lookup of the user a token is for. -/
abbrev lookup (payload : JwtPayload) : Call := .find .users fun user => user.id == payload.sub

variable {g real} {stored : (table : Table) → Row table → Prop} {allowed : Call → Prop}

theorem findById_given {id : Uuid} (looks : allowed (.find .users fun user => user.id == id)) :
    (Accounts.UsersService.findById id).Given (Shows stored) allowed fun user =>
      stored .users user ∧ user.id = id := by
  refine given_then (given_then (given_perform looks fun _ shown => shown)
    fun rows shown => (show Given (Shows stored) allowed (fun found => ∀ user ∈ found,
      stored .users user ∧ user.id = id) (pure rows.head?) from
        fun user head => (shown user (List.mem_of_head? head)).imp_right beq_iff_eq.mp))
    fun found shown => ?_
  cases found with
  | none => trivial
  | some user => exact shown user rfl

theorem findById_caught {id : Uuid} (looks : allowed (.find .users fun user => user.id == id)) :
    (Accounts.UsersService.findById id).attempt.Given (Shows stored) allowed fun found =>
      ∀ user, found = .ok user → stored .users user ∧ user.id = id := by
  refine given_attempt (given_mono (fun user known other same => ?_) (findById_given looks))
    fun error other same => by cases same
  cases same
  exact known

theorem guard_told {token : Option String}
    (looks : ∀ payload, Genuine g real token payload → allowed (lookup payload)) :
    (JwtAuthGuard.canActivate g token).Told real (Shows stored) allowed fun user =>
      Authentic g real (stored .users) token user.id := by
  simp only [JwtAuthGuard.canActivate, Svc.now, ambient_bind, ret_bind]
  intro reading is_real
  beta_reduce
  cases verified : token.bind fun token => g.verify token reading.now with
  | none => trivial
  | some payload =>
    obtain ⟨bearer, same, verified⟩ := Option.bind_eq_some_iff.mp verified
    have genuine : Genuine g real token payload := ⟨bearer, reading, same, is_real, verified⟩
    refine told_given (given_then (findById_caught (looks payload genuine)) fun found known => ?_)
    cases found with
    | error error => trivial
    | ok user =>
      obtain ⟨known, id⟩ := known user rfl
      by_cases active : user.isActive = true
      · simp only [if_pos active]
        exact ⟨payload, user, genuine, id.symm, known, rfl, active⟩
      · simp only [if_neg active]
        trivial

end Guard

/-! ### The own account -/

/-- The call leaves the accounts of all others alone. -/
def Own (uid : Uuid) : Call → Prop
  | .save .users entity =>
      (∀ stored written, entity.onto stored = some written → written.id = uid) ∧
        ∀ written, entity.anew = some written → written.id = uid
  | .remove .users user => user.id = uid
  | other => other.writes .users = false

theorem own_quiet {uid : Uuid} {call : Call} (quiet : call.writes .users = false) :
    Own uid call := by
  cases call with
  | save table entity =>
    cases table with
    | users => cases quiet
    | _ => exact rfl
  | remove table row =>
    cases table with
    | users => cases quiet
    | _ => exact rfl
  | _ => exact quiet

theorem save_own {uid : Uuid} {entity : Entity User} (own : Own uid (.save .users entity))
    (store : Store) {user : User} (other : user.id ≠ uid) :
    user ∈ (store.save .users entity).2.db .users ↔ user ∈ store.db .users := by
  have differs {written : User} (id : written.id = uid) : Row.key .users user ≠
      Row.key .users written := fun same => other ((congrArg Prod.fst same).trans id)
  obtain ⟨_, failed⟩ | ⟨stored, written, _, writes, _, saved⟩ | ⟨written, _, writes, _, saved⟩ :=
    store.save_cases .users entity
  · rw [failed]
  · rw [saved]
    show user ∈ store.db.put .users written .users ↔ _
    have apart := differs (own.1 stored written writes)
    rw [Db.put, Db.set_same, Rows.mem_put]
    constructor
    · rintro (⟨member, _⟩ | ⟨rfl, _⟩)
      · exact member
      · exact absurd rfl apart
    · exact fun member => .inl ⟨member, apart⟩
  · rw [saved]
    show user ∈ store.db.push .users written .users ↔ _
    rw [Db.push, Db.set_same, List.mem_append, List.mem_singleton]
    exact or_iff_left fun same => differs (own.2 written writes) (congrArg _ same)

/-- **Such a call leaves the rows of all other users.** -/
theorem exec_own {uid : Uuid} {call : Call} (own : Own uid call) (input : Input) (store : Store)
    {user : User} (other : user.id ≠ uid) :
    user ∈ (exec call input store).2.db .users ↔ user ∈ store.db .users := by
  have quiet (kept : call.writes .users = false) :
      user ∈ (exec call input store).2.db .users ↔ user ∈ store.db .users := by
    rw [exec_other call input store kept]
  obtain ⟨_, _, _, failed⟩ | performed := exec_cases call input store
  · rw [failed]
  cases call with
  | save table entity =>
    cases table with
    | users =>
      rw [performed]
      exact save_own own store other
    | _ => exact quiet rfl
  | remove table row =>
    cases table with
    | users =>
      rw [performed]
      show user ∈ store.db.remove .users row .users ↔ _
      rw [Db.remove, Db.erase, Db.set_other _ (by decide), Db.erase, Db.set_same, List.mem_filter]
      refine and_iff_left ?_
      have apart : Row.key .users row ≠ Row.key .users user := fun same =>
        other ((congrArg Prod.fst same).symm.trans own)
      simp [Db.sameKey, apart]
    | _ => exact quiet rfl
  | _ => exact quiet own

/-! ### The calls of a route -/

/-- The request of the application a route makes for its user. -/
def asked (ws : Option Uuid) (uid : Uuid) : Route → Option Origins.Request
  | .endpoint given => some (.endpoint ws uid given)
  | .removeMe => some (.account (.removeUser uid))
  | .createWorkspace dto => some (.account (.create uid dto))
  | .updateWorkspace id dto => some (.account (.update id uid dto))
  | .removeWorkspace id => some (.account (.remove id uid))
  | .invite id dto => some (.account (.invite id uid dto))
  | .removeMember id targetUserId => some (.account (.removeMember id uid targetUserId))
  | _ => none

/-- The routes by which a user changes the own profile. -/
def profile : Route → Bool
  | .updateMe _ | .changePassword _ => true
  | _ => false

/-- The routes by which a user may change rows of a table. -/
def MayChange (seen : WorkspaceMember → Prop) (table : Table) (ws : Option Uuid) (uid : Uuid)
    (route : Route) : Prop :=
  (∃ request, asked ws uid route = some request ∧ Authority.May seen table request) ∨
    (profile route = true ∧ table = .users)

/-- The routes by which a user may enqueue a job. -/
def MayEnqueue (seen : WorkspaceMember → Prop) (job : Job) (ws : Option Uuid) (uid : Uuid)
    (route : Route) : Prop :=
  ∃ request, asked ws uid route = some request ∧ Authority.MayQueue seen job request

/-- The call is one the route may make for its user. -/
structure Grants (seen : WorkspaceMember → Prop) (ws : Option Uuid) (uid : Uuid) (route : Route)
    (call : Call) : Prop where
  rows : ∀ table, call.writes table = true → MayChange seen table ws uid route
  jobs : ∀ job attempts delay, call = .add job attempts delay → MayEnqueue seen job ws uid route
  asks : ∀ given, route = .endpoint given → (Authority.rank call).Held seen ws uid
  own : Own uid call

section Routes

variable {stored : (table : Table) → Row table → Prop} {ws : Option Uuid} {uid : Uuid}

theorem grants_reads {seen : WorkspaceMember → Prop} {route : Route}
    (other : ∀ given, route ≠ .endpoint given) {call : Call} (reads : call.reads = true) :
    Grants seen ws uid route call where
  rows table writes := by cases call <;> first | cases writes | cases reads
  jobs job attempts delay same := by subst same; cases reads
  asks given same := absurd same (other given)
  own := own_quiet (by cases call <;> first | rfl | cases reads)

/-- A write of the own profile. -/
theorem grants_profile {seen : WorkspaceMember → Prop} {route : Route}
    (changes : profile route = true) {entity : Entity User}
    (own : Own uid (.save .users entity)) : Grants seen ws uid route (.save .users entity) where
  rows table writes := .inr ⟨changes, by cases table <;> first | rfl | cases writes⟩
  jobs job attempts delay same := by cases same
  asks given same := by subst same; cases changes
  own := own

/-- A permitted call is granted when it leaves the other accounts alone. -/
theorem permitted_grants {seen : WorkspaceMember → Prop} {route : Route}
    {request : Origins.Request} (asks : asked ws uid route = some request) {call : Call}
    (permitted : Authority.Permitted seen request call) (own : Own uid call) :
    Grants seen ws uid route call where
  rows table writes := .inl ⟨request, asks, permitted.rows table writes⟩
  jobs job attempts delay same := ⟨request, asks, permitted.jobs job attempts delay same⟩
  asks given same := by
    subst same
    cases asks
    exact permitted.asks ws uid given rfl
  own := own

/-- No call that may not change users changes one. -/
theorem permitted_own {seen : WorkspaceMember → Prop} {request : Origins.Request} {call : Call}
    (permitted : Authority.Permitted seen request call)
    (never : ¬Authority.May seen .users request) : Own uid call := by
  by_cases writes : call.writes .users = true
  · exact absurd (permitted.rows .users writes) never
  · exact own_quiet (Bool.eq_false_iff.mpr writes)

/-- **Shown stored rows only, a route makes granted calls only.** -/
theorem route_grants (h : Helpers) (g : HttpHelpers) (route : Route) :
    (route.program h g ws uid).Given (Shows stored) (Grants (stored .members) ws uid route)
      fun _ => True := by
  have passed {request : Origins.Request} (asks : asked ws uid route = some request)
      (same : route.program h g ws uid = request.program h g.toAccountHelpers)
      (never : ¬Authority.May (stored .members) .users request) :
      (route.program h g ws uid).Given (Shows stored) (Grants (stored .members) ws uid route)
        fun _ => True := by
    rw [same]
    exact given_allows (fun call permitted => permitted_grants asks permitted
      (permitted_own permitted never)) (Authority.request_permitted h g.toAccountHelpers request)
  have unlisted {given : Accounts.Request} {tables : List Table}
      (same : Authority.rows (.account given) = tables) (absent : Table.users ∉ tables) :
      ¬Authority.May (stored .members) .users (.account given) := fun may => absent (same ▸ may.1)
  have reading (other : ∀ given, route ≠ .endpoint given)
      (reads : Reads (route.program h g ws uid)) :
      (route.program h g ws uid).Given (Shows stored) (Grants (stored .members) ws uid route)
        fun _ => True :=
    given_calls (fun _ => trivial) (calls_mono (fun _ => grants_reads other) reads)
  have loads (other : ∀ given, route ≠ .endpoint given) :
      (Accounts.UsersService.findById uid).Given (Shows stored)
        (Grants (stored .members) ws uid route) fun user => stored .users user ∧ user.id = uid :=
    findById_given (grants_reads other rfl)
  cases route with
  | endpoint given => exact passed rfl rfl Authority.held_nobody
  | logout => trivial
  | createWorkspace dto =>
    exact passed rfl rfl (@unlisted _ [.workspaces, .members] rfl (by decide))
  | updateWorkspace id dto =>
    exact passed rfl rfl (@unlisted _ [.workspaces] rfl (by decide))
  | removeWorkspace id =>
    exact passed rfl rfl (@unlisted _ [.workspaces, .members] rfl (by decide))
  | invite id dto =>
    exact passed rfl rfl (@unlisted _ [.members] rfl (by decide))
  | removeMember id targetUserId =>
    exact passed rfl rfl (@unlisted _ [.members] rfl (by decide))
  | me =>
    exact given_then (loads fun _ same => by cases same) fun _ _ => trivial
  | updateMe dto =>
    refine given_bind (given_then (loads fun _ same => by cases same) fun user known =>
      given_bind (given_perform (grants_profile rfl ?_) fun _ _ => trivial))
    unfold Accounts.UsersService.assign
    cases dto.name with
    | undefined =>
      exact ⟨fun _ _ writes => (Option.some.inj writes) ▸ known.2,
        fun _ writes => (by cases writes)⟩
    | null => exact ⟨fun _ _ writes => (by cases writes), fun _ writes => (by cases writes)⟩
    | value name =>
      exact ⟨fun _ _ writes => (Option.some.inj writes) ▸ known.2,
        fun _ writes => (Option.some.inj writes) ▸ known.2⟩
  | changePassword dto =>
    refine given_then (loads fun _ same => by cases same) fun user known => ?_
    by_cases right : g.compare dto.currentPassword user.password = true
    · rw [if_pos right]
      refine fun salt => given_perform (grants_profile rfl ?_) fun _ _ => trivial
      exact ⟨fun _ _ writes => (Option.some.inj writes) ▸ known.2,
        fun _ writes => (Option.some.inj writes) ▸ known.2⟩
    · rw [if_neg right]
      trivial
  | removeMe =>
    refine given_then (loads fun _ same => by cases same) fun user known => ?_
    refine given_perform ⟨fun table writes => .inl ⟨_, rfl, ?_, trivial⟩,
      fun _ _ _ same => (by cases same), fun _ same => (by cases same), known.2⟩ fun _ _ => trivial
    cases table <;> first
      | exact List.mem_cons_self
      | exact List.mem_cons_of_mem _ List.mem_cons_self
      | cases writes
  | findWorkspaces =>
    refine reading (fun _ same => by cases same) (calls_bind (calls_bind (calls_call rfl)
      fun memberships => ?_) fun _ => trivial)
    dsimp only
    split
    · trivial
    · exact calls_call rfl
  | findWorkspace id =>
    refine reading (fun _ same => by cases same) (calls_bind (calls_bind
      (WorkspacesService.assertMember_reads _ _) fun _ => calls_bind (calls_findOne rfl)
        fun workspace => ?_) fun _ => trivial)
    cases workspace <;> trivial
  | listMembers id =>
    exact reading (fun _ same => by cases same) (calls_bind (calls_bind
      (WorkspacesService.assertMember_reads _ _) fun _ => calls_call rfl) fun _ => trivial)

end Routes

/-! ### Requests -/

section Requests

variable (g : HttpHelpers) (real : Input → Prop) (stored : (table : Table) → Row table → Prop)

/-- The call only adds a user, with a new id. -/
def Enrols (call : Call) : Prop :=
  call.reads = true ∨
    ∃ draft, call = .insert .users (some draft) ∧ ∀ input, (draft input).id = input.ids 0

/-- The calls a request may make: the lookup of the user its token is for, what its route grants the
user behind the token, and what the callback of OpenWA, behind the master key, a public request and
the background touch. -/
def Allowed (request : Request) (call : Call) : Prop :=
  match request with
  | .http incoming =>
      match incoming.target with
      | .guarded route =>
          (∃ payload, Genuine g real incoming.token payload ∧ call = lookup payload) ∨
            ∃ uid, Authentic g real (stored .users) incoming.token uid ∧
              Grants (stored .members) incoming.workspace uid route call
      | .inbound dto => MasterKeyGuard.passes g.masterKey incoming.masterKey = true ∧
          Authority.Touches (.onMessage dto) call
      | .register _ => Enrols call
      | .hook token body => Authority.Touches (.webhookTrigger token body) call
      | .health => False
  | .tick => Authority.Touches .tick call
  | .job data => Authority.Touches (.job data) call

variable {g real stored}

/-- **Whatever they are answered, requests make allowed calls only.** -/
theorem program_told (h : Helpers) (request : Request) :
    (request.program h g).Told real (Shows stored) (Allowed g real stored request)
      fun _ => True := by
  have free {request : Request} {α : Type} {program : Svc α}
      (calls : program.Calls (Allowed g real stored request)) :
      program.Told real (Shows stored) (Allowed g real stored request) fun _ => True :=
    told_given (given_calls (fun _ => trivial) calls)
  cases request with
  | http incoming =>
    obtain ⟨token, masterKey, header, query, target⟩ := incoming
    cases target with
    | guarded route =>
      refine told_then (guard_told fun payload genuine => .inl ⟨payload, genuine, rfl⟩)
        fun user authentic => told_given ?_
      exact given_allows (fun call grants => .inr ⟨user.id, authentic, grants⟩)
        (route_grants h g route)
    | inbound dto =>
      show Told _ _ _ _ ((if _ then _ else _) >>= _)
      by_cases passes : MasterKeyGuard.passes g.masterKey masterKey = true
      · rw [if_pos passes]
        exact free (calls_bind trivial fun _ => calls_bind (calls_mono (fun _ touches =>
          ⟨passes, touches⟩) (Authority.onMessage_touches h dto)) fun _ => trivial)
      · rw [if_neg passes]
        trivial
    | register dto =>
      refine free (calls_bind (calls_bind (calls_findOne (.inl rfl)) fun existing => ?_)
        fun _ => trivial)
      cases existing with
      | some existing => trivial
      | none => exact calls_call (.inr ⟨_, rfl, fun _ => rfl⟩)
    | hook token body =>
      exact free (calls_bind (Authority.webhookTrigger_touches h token body) fun _ => trivial)
    | health => trivial
  | tick => exact free (Authority.tick_touches h)
  | job data =>
    cases data with
    | message data => exact free (calls_bind (Authority.message_touches h data) fun _ => trivial)
    | broadcast data =>
      exact free (calls_bind (Authority.broadcast_touches h data) fun _ => trivial)
    | automation data =>
      exact free (calls_bind (Authority.automation_touches h data) fun _ => trivial)
    | webhook data => exact free (Authority.webhook_touches h data)

end Requests

/-! ### Runs -/

section Runs

variable (g : HttpHelpers) (real : Input → Prop) (stored : (table : Table) → Row table → Prop)

/-- The requests that may change the rows of a table. -/
def Changes (table : Table) : Request → Prop
  | .http incoming =>
      match incoming.target with
      | .guarded route => ∃ uid, Authentic g real (stored .users) incoming.token uid ∧
          MayChange (stored .members) table incoming.workspace uid route
      | .inbound _ =>
          MasterKeyGuard.passes g.masterKey incoming.masterKey = true ∧ table = .logs
      | .register _ => table = .users
      | .hook _ _ | .health => False
  | .tick => False
  | .job data => table ∈ Authority.rows (.job data)

/-- The requests that may enqueue a job. -/
def Enqueues (job : Job) : Request → Prop
  | .http incoming =>
      match incoming.target with
      | .guarded route => ∃ uid, Authentic g real (stored .users) incoming.token uid ∧
          MayEnqueue (stored .members) job incoming.workspace uid route
      | .inbound dto => MasterKeyGuard.passes g.masterKey incoming.masterKey = true ∧
          Authority.queues (.onMessage dto) job = true
      | .hook token body => Authority.queues (.webhookTrigger token body) job = true
      | .register _ | .health => False
  | .tick => Authority.queues .tick job = true
  | .job _ => False

/-- The requests that may change or delete the row of a user. -/
def Alters (user : User) : Request → Prop
  | .http ⟨token, _, _, _, .guarded _⟩ => Authentic g real (stored .users) token user.id
  | _ => False

variable {g real stored} {request : Request} {call : Call}

theorem enrols_writes (enrols : Enrols call) {table : Table} (writes : call.writes table = true) :
    table = .users := by
  obtain reads | ⟨draft, rfl, _⟩ := enrols
  · rw [call.reads_writes reads] at writes
    cases writes
  · cases table <;> first | rfl | cases writes

theorem allowed_changes (allowed : Allowed g real stored request call) {table : Table}
    (writes : call.writes table = true) : Changes g real stored table request := by
  cases request with
  | http incoming =>
    obtain ⟨token, masterKey, header, query, target⟩ := incoming
    cases target with
    | guarded route =>
      obtain ⟨payload, _, rfl⟩ | ⟨uid, authentic, grants⟩ := allowed
      · cases writes
      · exact ⟨uid, authentic, grants.rows table writes⟩
    | inbound dto => exact ⟨allowed.1, List.mem_singleton.mp (allowed.2.rows table writes)⟩
    | register dto => exact enrols_writes allowed writes
    | hook token body => cases allowed.rows table writes
    | health => exact allowed
  | tick => cases allowed.rows table writes
  | job data => exact allowed.rows table writes

theorem allowed_enqueues {job : Job} {attempts : Nat} {delay : Int}
    (allowed : Allowed g real stored request (.add job attempts delay)) :
    Enqueues g real stored job request := by
  cases request with
  | http incoming =>
    obtain ⟨token, masterKey, header, query, target⟩ := incoming
    cases target with
    | guarded route =>
      obtain ⟨payload, _, wrong⟩ | ⟨uid, authentic, grants⟩ := allowed
      · cases wrong
      · exact ⟨uid, authentic, grants.jobs job attempts delay rfl⟩
    | inbound dto => exact ⟨allowed.1, allowed.2.jobs job attempts delay rfl⟩
    | register dto =>
      obtain reads | ⟨_, wrong, _⟩ := allowed
      · cases reads
      · cases wrong
    | hook token body => exact allowed.jobs job attempts delay rfl
    | health => exact allowed
  | tick => exact allowed.jobs job attempts delay rfl
  | job data => cases allowed.jobs job attempts delay rfl

/-- What a call does to the row of a user, the user has asked for. -/
theorem allowed_alters (allowed : Allowed g real stored request call) (input : Input)
    {store : Store} {user : User} (member : user ∈ store.db .users)
    (gone : user ∉ (exec call input store).2.db .users) : Alters g real stored user request := by
  have writes : call.writes .users = true := by
    by_contra quiet
    rw [exec_other call input store (Bool.eq_false_iff.mpr quiet)] at gone
    exact gone member
  cases request with
  | http incoming =>
    obtain ⟨token, masterKey, header, query, target⟩ := incoming
    cases target with
    | guarded route =>
      obtain ⟨payload, _, rfl⟩ | ⟨uid, authentic, grants⟩ := allowed
      · cases writes
      · by_cases same : user.id = uid
        · rw [← same] at authentic
          exact authentic
        · exact absurd ((exec_own grants.own input store same).mpr member) gone
    | inbound dto => cases List.mem_singleton.mp (allowed.2.rows .users writes)
    | register dto =>
      obtain reads | ⟨draft, rfl, _⟩ := allowed
      · rw [exec_reads reads] at gone
        exact absurd member gone
      · obtain ⟨_, failed⟩ | ⟨_, _, same, _, inserted⟩ :=
          exec_insert .users (some draft) input store
        · rw [failed] at gone
          exact absurd member gone
        · rw [inserted] at gone
          refine absurd ?_ gone
          show user ∈ store.db.push .users _ .users
          rw [Db.push, Db.set_same]
          exact List.mem_append_left _ member
    | hook token body => cases allowed.rows .users writes
    | health => exact allowed
  | tick => cases allowed.rows .users writes
  | job data =>
    have listed := allowed.rows .users writes
    cases data <;> simp [Authority.rows] at listed

/-- The move executes the pending call of the request. -/
def Serves (pool : Pool) (move : Move) (request : Request) : Prop :=
  ∃ slot input thread, move = .resume slot input ∧ pool.thread slot = some thread ∧
    thread.label = request

variable {h : Helpers} {start : Store} {moves : List Move} {pool pool' : Pool} {move : Move}

/-- Every pending call is allowed, by rows stored and readings taken so far. -/
theorem pending_allowed
    (reached : (system h g).run (Machine.Pool.idle start) moves = some pool) {slot : Nat}
    {thread : Machine.Thread Err Input Call Resp Request Unit}
    (busy : pool.thread slot = some thread) :
    Allowed g (Inputs moves) (Stored (Request.program h g) start moves) thread.label
      thread.request :=
  (told_run (fun request => program_told h request) reached slot thread busy).1

/-- **Every change has someone behind it.** Whatever the interleaving, the rows of a table change,
and jobs are enqueued, only by a request that presented a token of a user who was stored and active
and has the role the change takes, by a callback that presented the master key, by a public request
or by a job that may do it. The row of a user is changed or deleted by requests of this user only,
and an endpoint makes no call but the lookup of its user before that. -/
theorem changes_authenticated
    (reached : (system h g).run (Machine.Pool.idle start) moves = some pool)
    (moved : (system h g).act pool move = some pool') :
    let stored := Stored (Request.program h g) start moves
    (∀ table, pool'.shared.db table ≠ pool.shared.db table →
      ∃ request, Serves pool move request ∧ Changes g (Inputs moves) stored table request) ∧
    (∀ queued ∈ pool'.shared.jobs, queued ∉ pool.shared.jobs →
      ∃ request, Serves pool move request ∧ Enqueues g (Inputs moves) stored queued.job request) ∧
    (∀ user ∈ pool.shared.db .users, user ∉ pool'.shared.db .users →
      ∃ request, Serves pool move request ∧ Alters g (Inputs moves) stored user request) ∧
    ∀ slot thread incoming given, pool.thread slot = some thread →
      thread.label = .http incoming → incoming.target = .guarded (.endpoint given) →
        (∃ payload, Genuine g (Inputs moves) incoming.token payload ∧
          thread.request = lookup payload) ∨
        ∃ uid, Authentic g (Inputs moves) (stored .users) incoming.token uid ∧
          (Authority.rank thread.request).Held (stored .members) incoming.workspace uid := by
  intro stored
  have asks : ∀ slot thread incoming given, pool.thread slot = some thread →
      thread.label = .http incoming → incoming.target = .guarded (.endpoint given) →
        (∃ payload, Genuine g (Inputs moves) incoming.token payload ∧
          thread.request = lookup payload) ∨
        ∃ uid, Authentic g (Inputs moves) (stored .users) incoming.token uid ∧
          (Authority.rank thread.request).Held (stored .members) incoming.workspace uid := by
    intro slot thread incoming given busy label target
    have allowed := pending_allowed reached busy
    rw [label] at allowed
    simp only [Allowed, target] at allowed
    exact allowed.imp_right fun ⟨uid, authentic, grants⟩ =>
      ⟨uid, authentic, grants.asks given rfl⟩
  obtain ⟨slot, request, input, rfl, _, _, rfl⟩ | ⟨slot, input, thread, rfl, busy, rfl⟩ :=
    (system h g).act_cases moved
  · -- a start touches nothing
    have same := @services_shared _ _ (Request.program h g) slot request
      (((system h g).program slot request).settle input) pool.shared pool.thread
    refine ⟨fun table changed => absurd ?_ changed, fun queued listed new => absurd ?_ new,
      fun user member gone => absurd ?_ gone, asks⟩
    · exact congrArg (fun store : Store => store.db table) same
    · exact same ▸ listed
    · exact (congrArg (fun store : Store => user ∈ store.db .users) same).mpr member
  · have allowed := pending_allowed reached busy
    have same := @services_shared _ _ (Request.program h g) slot thread.label
      ((thread.next (exec thread.request input pool.shared).1).settle input)
      (exec thread.request input pool.shared).2 pool.thread
    have serves : Serves pool (.resume slot input) thread.label :=
      ⟨slot, input, thread, rfl, busy, rfl⟩
    refine ⟨fun table changed => ⟨_, serves, allowed_changes allowed ?_⟩,
      fun queued listed new => ?_, fun user member gone =>
        ⟨_, serves, allowed_alters allowed input member fun kept => gone ?_⟩, asks⟩
    · by_contra kept
      refine changed ((congrArg (fun store : Store => store.db table) same).trans ?_)
      exact exec_other _ _ _ (Bool.eq_false_iff.mpr kept)
    · have listed : queued ∈ (exec thread.request input pool.shared).2.jobs := same ▸ listed
      obtain old | ⟨attempts, delay, adds⟩ := Authority.exec_adds thread.request input pool.shared
        listed
      · exact absurd old new
      · rw [adds] at allowed
        exact ⟨_, serves, allowed_enqueues allowed⟩
    · exact (congrArg (fun store : Store => user ∈ store.db .users) same).mpr kept

end Runs

namespace Example

/-- The token `t` is one of the user `u` until the time 100. -/
def helpers : HttpHelpers where
  toAccountHelpers := Origins.Example.accounts
  compare first second := first == second
  payload token := if token = "t" then some ⟨"u", "ann@example.com"⟩ else none
  fresh _ now := now < 100
  masterKey := some "key"

/-- The owner adds a webhook. -/
def incoming : Incoming :=
  ⟨some "t", none, some "w", none, .guarded (.endpoint (.createWebhook
    ⟨"hook", "http://hook", .undefined, [], .undefined, .undefined, .undefined⟩))⟩

def moves : List Move :=
  [.start 0 (.http incoming) WaAutomation.Example.fine, .resume 0 WaAutomation.Example.fine,
    .resume 0 WaAutomation.Example.fine]

end Example

/-- The new webhook is the owner's. -/
theorem changes_authenticated_example :
    ∃ pool pool' : Pool,
      (system WaAutomation.Example.helpers Example.helpers).run (Machine.Pool.idle Guard.shops)
        Example.moves = some pool ∧
      (system WaAutomation.Example.helpers Example.helpers).act pool
        (.resume 0 WaAutomation.Example.fine) = some pool' ∧
      pool.shared.db .webhooks = [] ∧ pool'.shared.db .webhooks ≠ [] ∧
      ∃ request, Serves pool (.resume 0 WaAutomation.Example.fine) request ∧
        Changes Example.helpers (Inputs Example.moves)
          (Stored (Request.program WaAutomation.Example.helpers Example.helpers) Guard.shops
            Example.moves) .webhooks request := by
  refine ⟨_, _, rfl, rfl, rfl, List.cons_ne_nil _ _, ?_⟩
  exact (changes_authenticated rfl rfl).1 .webhooks (List.cons_ne_nil _ _)

end WaAutomation.Front
