/-
**The authentication as a system of interleaved calls.**

Any number of `register`, `login`, `refresh` and `logout` calls over one state, interleaved between
their database, token and cache calls. A call of `refresh` that returns has been accepted, and its
token is noted.

* `Follows` says where a call goes on after the reply it waits for, and `program_follows` that every
  call goes on so;
* `act_follows` is the inversion of a move: what it does to the state, and where the moved call
  stands afterwards.
-/

import WaAutomation.Library.Machine
import WaAutomation.Model.Auth
import WaAutomation.Model.Frame

set_option linter.unusedSectionVars false

namespace WaAutomation.Auth

open Library

/-! ### The system -/

inductive Request where
  | register (dto : RegisterDto)
  | login (dto : LoginDto)
  | refresh (userId : Uuid) (email presentedToken : String)
  | logout (userId : Uuid)
  deriving DecidableEq, Repr

inductive Reply where
  | session (user : PublicUser) (tokens : AuthTokens)
  | tokens (tokens : AuthTokens)
  | message (text : String)
  deriving DecidableEq, Repr

def Request.program (h : AuthHelpers) : Request → AuthSvc Reply
  | .register dto => do
      let (user, tokens) ← AuthService.register h dto
      return .session user tokens
  | .login dto => do
      let (user, tokens) ← AuthService.login h dto
      return .session user tokens
  | .refresh userId email presentedToken => do
      return .tokens (← AuthService.refresh userId email presentedToken)
  | .logout userId => do
      return .message (← AuthService.logout userId)

/-- The end of a call: the token of an accepted refresh is noted. -/
def Request.leave (state : AuthState) : Request → Except Err Reply → AuthState
  | .refresh _ _ presentedToken, .ok _ =>
      { state with accepted := presentedToken :: state.accepted }
  | _, _ => state

def system (h : AuthHelpers) :
    Machine Err Input AuthCall AuthState AuthResp Nat (fun _ => Request) fun _ => Reply where
  exec := AuthCall.exec h
  program _ request := request.program h
  admits _ _ _ := true
  leave _ request result state := request.leave state result

abbrev Pool := Machine.Pool Err Input AuthCall AuthState AuthResp Nat (fun _ => Request)
    fun _ => Reply

abbrev Thread := Machine.Thread Err Input AuthCall AuthResp Request Reply

abbrev Move := Machine.Move Input Nat fun _ => Request

/-! ### Where a request goes on -/

/-- The calls of a request before it issues tokens. -/
def opens (h : AuthHelpers) : Request → AuthCall → Prop
  | .register dto, call =>
      call = .db (.find .users fun user => user.email == h.lower dto.email) ∨
        call = .db (.insert .users (some fun input => ⟨input.ids 0, dto.name, h.lower dto.email,
          h.hash dto.password input.bytes, true⟩))
  | .login dto, call => call = .db (.find .users fun user => user.email == h.lower dto.email)
  | .refresh userId _ _, call => call = .get (AuthService.refreshKey userId)
  | .logout userId, call => call = .del (AuthService.refreshKey userId)

/-- The payload a request issues tokens for when its call is answered so. -/
def issuesFor : (call : AuthCall) → AuthResp call → Request → Option JwtPayload
  | .db (.find .users _), rows, .login _ => rows.head?.map fun user => ⟨user.id, user.email⟩
  | .db (.insert .users _), user, .register _ => some ⟨user.id, user.email⟩
  | .get _, stored, .refresh userId email presentedToken =>
      if AuthService.matchesStored stored presentedToken then some ⟨userId, email⟩ else none
  | _, _, _ => none

/-- The payloads a request can issue tokens for. -/
def owns : Request → JwtPayload → Prop
  | .refresh userId email _, payload => payload = ⟨userId, email⟩
  | .logout _, _ => False
  | _, _ => True

/-- The calls a request waits at: those before it issues tokens, then the three of the issuing. -/
inductive Stands (h : AuthHelpers) (request : Request) : AuthCall → Prop
  | opening {call : AuthCall} (first : opens h request call) : Stands h request call
  | signing {payload : JwtPayload} (use : TokenUse) (own : owns request payload) :
      Stands h request (.sign payload use)
  | storing {payload : JwtPayload} (token : String) (own : owns request payload) :
      Stands h request (.set (AuthService.refreshKey payload.sub) token AuthService.refreshTtl)

/-- Where a request goes on after a reply. Any reply may end it with an exception. -/
def Goes (h : AuthHelpers) (request : Request) (call : AuthCall)
    (reply : Except Err (AuthResp call))
    (stop : Stop Err Input AuthCall AuthResp Reply) : Prop :=
  (∃ error, stop = .finished (.error error)) ∨
    match call, reply with
    | _, .error _ => False
    | .sign payload .access, .ok _ => ∃ next, stop = .calling (.sign payload .refresh) next
    | .sign payload .refresh, .ok token => ∃ next, stop =
        .calling (.set (AuthService.refreshKey payload.sub) token AuthService.refreshTtl) next
    | .set _ _ _, .ok _ => ∃ result, stop = .finished (.ok result)
    | .del _, .ok _ => ∃ result, stop = .finished (.ok result)
    | call, .ok value =>
        (∃ insert next, opens h request (.db insert) ∧ stop = .calling (.db insert) next) ∨
          ∃ payload next, issuesFor call value request = some payload ∧
            stop = .calling (.sign payload .access) next

/-- A suspended request stands at one of its calls, and goes on from there. -/
def Shape (h : AuthHelpers) (request : Request) (call : AuthCall)
    (next : Except Err (AuthResp call) → AuthSvc Reply) : Prop :=
  Stands h request call ∧ ∀ reply reading, Goes h request call reply ((next reply).settle reading)

section Programs

variable {h : AuthHelpers} {request : Request}

/-- The issuing of tokens, whatever is made of them. -/
theorem issueTokens_shape {payload : JwtPayload} (own : owns request payload)
    (wrap : AuthTokens → Reply) :
    (AuthService.issueTokens payload >>= fun tokens => .ret (wrap tokens)).Everywhere
      (Shape h request) := by
  refine ⟨⟨.signing .access own, fun reply reading => ?_⟩, fun reply => ?_⟩
  · cases reply with
    | error error => exact .inl ⟨_, rfl⟩
    | ok token => exact .inr ⟨_, rfl⟩
  cases reply with
  | error error => trivial
  | ok access =>
    refine ⟨⟨.signing .refresh own, fun reply reading => ?_⟩, fun reply => ?_⟩
    · cases reply with
      | error error => exact .inl ⟨_, rfl⟩
      | ok token => exact .inr ⟨_, rfl⟩
    cases reply with
    | error error => trivial
    | ok token =>
      refine ⟨⟨.storing token own, fun reply reading => ?_⟩, fun reply => ?_⟩
      · cases reply with
        | error error => exact .inl ⟨_, rfl⟩
        | ok _ => exact .inr ⟨_, rfl⟩
      cases reply <;> trivial

/-- The first call of a program and what follows a reply to it. -/
theorem perform_bind {α : Type} (call : AuthCall) (rest : AuthResp call → AuthSvc α) :
    AuthSvc.call call >>= rest = Program.call call fun
      | .ok reply => rest reply
      | .error error => .throw error := by
  show Program.call call _ = _
  congr 1
  funext reply
  cases reply <;> rfl

/-- A request that waits at a call before it issues tokens. -/
theorem opening_shape {call : AuthCall} {rest : AuthResp call → AuthSvc Reply}
    (first : opens h request call)
    (goes : ∀ value reading, Goes h request call (.ok value) ((rest value).settle reading))
    (later : ∀ value, (rest value).Everywhere (Shape h request)) :
    (AuthSvc.call call >>= rest).Everywhere (Shape h request) := by
  rw [perform_bind]
  refine ⟨⟨.opening first, fun reply reading => ?_⟩, fun reply => ?_⟩
  · cases reply with
    | error error => exact .inl ⟨error, rfl⟩
    | ok value => exact goes value reading
  · cases reply with
    | error error => trivial
    | ok value => exact later value

theorem register_shape (dto : RegisterDto) :
    ((Request.register dto).program h).Everywhere (Shape h (.register dto)) := by
  simp only [Request.program, AuthService.register, UsersService.create, UsersService.findByEmail,
    Program.bind_assoc]
  refine opening_shape (.inl rfl) (fun rows reading => ?_) fun rows => ?_
  · cases existing : rows.head? with
    | some user => exact .inl ⟨_, rfl⟩
    | none => exact .inr (.inl ⟨_, _, .inr rfl, rfl⟩)
  · cases existing : rows.head? with
    | some user => trivial
    | none =>
      refine opening_shape (.inr rfl) (fun user reading => .inr (.inr ⟨_, _, rfl, rfl⟩))
        fun user => ?_
      exact issueTokens_shape (by trivial) _

/-- Credentials are checked against the user found by its email. -/
theorem validateCredentials_eq (email password : String) :
    UsersService.validateCredentials h email password =
      AuthSvc.call (.db (.find .users fun user => user.email == h.lower email)) >>= fun rows =>
        .ret (rows.head?.filter fun user => user.isActive && h.compare password user.password) := by
  unfold UsersService.validateCredentials UsersService.findByEmail
  rw [Program.bind_assoc]
  congr 1
  funext rows
  cases found : rows.head? with
  | none => rfl
  | some user =>
    by_cases active : user.isActive = true
    · by_cases same : h.compare password user.password = true
      · simp [Option.filter, active, same]
      · simp [Option.filter, active, same]
    · simp [Option.filter, active]

theorem login_shape (dto : LoginDto) :
    ((Request.login dto).program h).Everywhere (Shape h (.login dto)) := by
  simp only [Request.program, AuthService.login, validateCredentials_eq, Program.bind_assoc,
    Program.ret_bind]
  refine opening_shape rfl (fun rows reading => ?_) fun rows => ?_
  · cases found : rows.head?.filter _ with
    | none => exact .inl ⟨_, rfl⟩
    | some user =>
      have first := (Option.filter_eq_some_iff.mp found).1
      exact .inr (.inr ⟨⟨user.id, user.email⟩, _, congrArg (Option.map _) first, rfl⟩)
  · cases rows.head?.filter _ with
    | none => trivial
    | some user =>
      dsimp only
      rw [Program.bind_assoc]
      have own : owns (.login dto) ⟨user.id, user.email⟩ := trivial
      exact issueTokens_shape own fun tokens => .session ⟨user.id, user.name, user.email⟩ tokens

theorem refresh_shape (userId : Uuid) (email presentedToken : String) :
    ((Request.refresh userId email presentedToken).program h).Everywhere
      (Shape h (.refresh userId email presentedToken)) := by
  simp only [Request.program, AuthService.refresh, Program.bind_assoc]
  refine opening_shape rfl (fun stored reading => ?_) fun stored => ?_
  · by_cases same : AuthService.matchesStored stored presentedToken = true
    · rw [if_pos same]
      exact .inr (.inr ⟨_, _, if_pos same, rfl⟩)
    · rw [if_neg same]
      exact .inl ⟨_, rfl⟩
  · by_cases same : AuthService.matchesStored stored presentedToken = true
    · rw [if_pos same]
      have own : owns (.refresh userId email presentedToken) ⟨userId, email⟩ := rfl
      exact issueTokens_shape own _
    · rw [if_neg same]
      trivial

theorem logout_shape (userId : Uuid) :
    ((Request.logout userId).program h).Everywhere (Shape h (.logout userId)) := by
  refine ⟨⟨.opening rfl, fun reply reading => ?_⟩, fun reply => ?_⟩
  · cases reply with
    | error error => exact .inl ⟨_, rfl⟩
    | ok _ => exact .inr ⟨_, rfl⟩
  · cases reply <;> trivial

/-- **Every request goes on as described**, whatever it is answered. -/
theorem program_shape (request : Request) : (request.program h).Everywhere (Shape h request) := by
  cases request with
  | register dto => exact register_shape dto
  | login dto => exact login_shape dto
  | refresh userId email presentedToken => exact refresh_shape userId email presentedToken
  | logout userId => exact logout_shape userId

/-- A request begins at one of its opening calls. -/
theorem program_opens (request : Request) (reading : Input) :
    ∃ call next, (request.program h).settle reading = .calling call next ∧
      opens h request call := by
  cases request with
  | register dto => exact ⟨_, _, rfl, .inl rfl⟩
  | login dto => exact ⟨_, _, rfl, rfl⟩
  | refresh userId email presentedToken => exact ⟨_, _, rfl, rfl⟩
  | logout userId => exact ⟨_, _, rfl, rfl⟩

end Programs

/-! ### One move -/

/-- The requests in flight are where the program texts let them be. -/
def Shaped (h : AuthHelpers) (pool : Pool) : Prop :=
  pool.Attached fun _ request program _ => program.Everywhere (Shape h request)

theorem run_shaped {h : AuthHelpers} {start : AuthState} {moves : List Move} {pool : Pool}
    (reached : (system h).run (Machine.Pool.idle start) moves = some pool) : Shaped h pool :=
  (system h).run_everywhere (fun _ request => program_shape request) reached

/-- **What one move does**: a request starts at an opening call, or executes the call it waits at
and goes on. -/
theorem act_goes {h : AuthHelpers} {pool pool' : Pool} {move : Move} (shaped : Shaped h pool)
    (moved : (system h).act pool move = some pool') :
    (∃ slot request input call next, move = .start slot request input ∧ pool.thread slot = none ∧
      opens h request call ∧
      pool' = (system h).place slot request (.calling call next) pool.shared pool.thread) ∨
    (∃ slot input thread stop, move = .resume slot input ∧ pool.thread slot = some thread ∧
      Stands h thread.label thread.request ∧
      Goes h thread.label thread.request (thread.request.exec h input pool.shared).1 stop ∧
      stop = (thread.next (thread.request.exec h input pool.shared).1).settle input ∧
      pool' = (system h).place slot thread.label stop (thread.request.exec h input pool.shared).2
        pool.thread) := by
  obtain ⟨slot, request, input, rfl, free, _, rfl⟩ | ⟨slot, input, thread, rfl, busy, rfl⟩ :=
    (system h).act_cases moved
  · obtain ⟨call, next, begins, first⟩ := program_opens request input
    exact .inl ⟨slot, request, input, call, next, rfl, free, first, by rw [← begins]; rfl⟩
  · have here := (shaped slot thread busy).1
    exact .inr ⟨slot, input, thread, _, rfl, busy, here.1, here.2 _ input, rfl, rfl⟩

/-! ### The next call -/

/-- The call a request waits at next, after its call was executed in a state. -/
inductive Advances (h : AuthHelpers) (input : Input) (state : AuthState) :
    Request → AuthCall → AuthCall → Prop
  | opening {request : Request} {call next : AuthCall} (first : opens h request call)
      (second : opens h request next) : Advances h input state request call next
  | register {dto : RegisterDto} {call : AuthCall} {user : User}
      (first : opens h (.register dto) call) (email : user.email = h.lower dto.email)
      (new : ∀ other ∈ state.store.db .users, other.id ≠ user.id) :
      Advances h input state (.register dto) call (.sign ⟨user.id, user.email⟩ .access)
  | login {dto : LoginDto} {call : AuthCall} {user : User} (first : opens h (.login dto) call)
      (stored : user ∈ state.store.db .users) (email : user.email = h.lower dto.email) :
      Advances h input state (.login dto) call (.sign ⟨user.id, user.email⟩ .access)
  | refresh {userId : Uuid} {email presentedToken : String}
      (same : state.cached (AuthService.refreshKey userId) input.now = some presentedToken) :
      Advances h input state (.refresh userId email presentedToken)
        (.get (AuthService.refreshKey userId)) (.sign ⟨userId, email⟩ .access)
  | access {request : Request} {payload : JwtPayload} (own : owns request payload) :
      Advances h input state request (.sign payload .access) (.sign payload .refresh)
  | store {request : Request} {payload : JwtPayload} (own : owns request payload) :
      Advances h input state request (.sign payload .refresh)
        (.set (AuthService.refreshKey payload.sub)
          (h.signAsync payload (h.secret .refresh) (seconds input.now)) AuthService.refreshTtl)

theorem matchesStored_iff {stored : Option String} {presentedToken : String}
    (same : AuthService.matchesStored stored presentedToken = true) :
    stored = some presentedToken := by
  unfold AuthService.matchesStored at same
  cases stored with
  | none => cases same
  | some value =>
    simp only [Option.any_some, Bool.and_eq_true, beq_iff_eq] at same
    rw [same.2]

/-- The reply to an insert is the new row, and no stored row has its key. -/
theorem insert_reply {table : Table} {draft : Input → Row table} {input : Input} {store : Store}
    {row : Row table} (reply : (exec (.insert table (some draft)) input store).1 = .ok row) :
    row = draft input ∧ (store.db table).any (Db.sameKey row) = false := by
  obtain ⟨_, _, _, failed⟩ | performed := exec_cases (.insert table (some draft)) input store
  · rw [failed] at reply
    cases reply
  · rw [performed] at reply
    simp only [perform, Store.insert] at reply
    cases inserted : store.db.insert table (draft input) with
    | error error =>
      rw [inserted] at reply
      cases reply
    | ok db =>
      rw [inserted] at reply
      cases reply
      exact ⟨rfl, (Db.insert_ok inserted).1⟩

/-- The reply to a search is a list of stored rows that match. -/
theorem find_reply {table : Table} {matching : Row table → Bool} {input : Input} {store : Store}
    {rows : List (Row table)} (reply : (exec (.find table matching) input store).1 = .ok rows) :
    rows = (store.db table).filter matching := by
  obtain ⟨_, _, _, failed⟩ | performed := exec_cases (.find table matching) input store
  · rw [failed] at reply
    cases reply
  · rw [performed] at reply
    cases reply
    rfl

/-- A request that waits at an opening call goes on to another one, or issues tokens. -/
theorem opening_advances {h : AuthHelpers} {request : Request} {call next : AuthCall}
    {input : Input}
    {state : AuthState} {rest : Except Err (AuthResp next) → AuthSvc Reply}
    (first : opens h request call)
    (goes : Goes h request call (call.exec h input state).1 (.calling next rest)) :
    Advances h input state request call next := by
  obtain ⟨_, ends⟩ | goes := goes
  · cases ends
  cases request with
  | register dto =>
    rcases first with rfl | rfl
    · cases reply : (AuthCall.exec h (.db (.find .users _)) input state).1 with
      | error error =>
        rw [reply] at goes
        exact goes.elim
      | ok rows =>
        rw [reply] at goes
        obtain ⟨insert, _, second, stops⟩ | ⟨payload, _, issues, _⟩ := goes
        · cases stops
          exact .opening (.inl rfl) second
        · cases issues
    · cases reply : (AuthCall.exec h (.db (.insert .users _)) input state).1 with
      | error error =>
        rw [reply] at goes
        exact goes.elim
      | ok user =>
        rw [reply] at goes
        obtain ⟨insert, _, second, stops⟩ | ⟨payload, _, issues, stops⟩ := goes
        · cases stops
          exact .opening (.inr rfl) second
        · cases issues
          cases stops
          obtain ⟨drafted, fresh⟩ := insert_reply reply
          refine .register (.inr rfl) (by rw [drafted]) fun other member same => ?_
          have taken := List.any_eq_false.mp fresh other member
          simp [Db.sameKey, Row.key, same] at taken
  | login dto =>
    cases first
    cases reply : (AuthCall.exec h (.db (.find .users _)) input state).1 with
    | error error =>
      rw [reply] at goes
      exact goes.elim
    | ok rows =>
      rw [reply] at goes
      obtain ⟨insert, _, second, stops⟩ | ⟨payload, _, issues, stops⟩ := goes
      · cases stops
        exact .opening rfl second
      · cases stops
        obtain ⟨user, head, rfl⟩ := Option.map_eq_some_iff.mp issues
        have member := List.mem_of_head? head
        rw [find_reply reply, List.mem_filter] at member
        exact .login rfl member.1 (beq_iff_eq.mp member.2)
  | refresh userId email presentedToken =>
    cases first
    cases reply : (AuthCall.exec h (.get _) input state).1 with
    | error error =>
      rw [reply] at goes
      exact goes.elim
    | ok stored =>
      rw [reply] at goes
      obtain ⟨insert, _, second, _⟩ | ⟨payload, _, issues, stops⟩ := goes
      · cases second
      · cases stops
        simp only [issuesFor] at issues
        split at issues
        · rename_i same
          cases issues
          have found : stored = state.cached (AuthService.refreshKey userId) input.now := by
            cases fault : input.fault <;> simp_all [AuthCall.exec]
          exact .refresh (found ▸ matchesStored_iff same)
        · cases issues
  | logout userId =>
    cases first
    cases reply : (AuthCall.exec h (.del _) input state).1 with
    | error error =>
      rw [reply] at goes
      exact goes.elim
    | ok value =>
      rw [reply] at goes
      obtain ⟨_, ends⟩ := goes
      cases ends

/-- **A request that goes on waits at the call after its last one.** -/
theorem goes_advances {h : AuthHelpers} {request : Request} {call next : AuthCall} {input : Input}
    {state : AuthState} {rest : Except Err (AuthResp next) → AuthSvc Reply}
    (here : Stands h request call)
    (goes : Goes h request call (call.exec h input state).1 (.calling next rest)) :
    Advances h input state request call next := by
  cases here with
  | opening first => exact opening_advances first goes
  | signing use own =>
    obtain ⟨_, ends⟩ | goes := goes
    · cases ends
    cases use with
    | access =>
      obtain ⟨_, stops⟩ := goes
      cases stops
      exact .access own
    | refresh =>
      obtain ⟨_, stops⟩ := goes
      cases stops
      exact .store own
  | storing token own =>
    obtain ⟨_, ends⟩ | goes := goes
    · cases ends
    cases reply : (AuthCall.exec h (.set _ token _) input state).1 with
    | error error =>
      rw [reply] at goes
      exact goes.elim
    | ok value =>
      rw [reply] at goes
      obtain ⟨_, ends⟩ := goes
      cases ends

/-- An opening call is followed by another call, or by an exception; only `logout` returns after its
one call. -/
theorem opening_returns {h : AuthHelpers} {request : Request} {call : AuthCall}
    {reply : Except Err (AuthResp call)} {result : Reply} (first : opens h request call)
    (goes : Goes h request call reply (.finished (.ok result))) :
    ∃ userId, request = .logout userId := by
  obtain ⟨_, ends⟩ | goes := goes
  · cases ends
  cases request with
  | register dto =>
    rcases first with rfl | rfl
    · cases reply with
      | error error => exact goes.elim
      | ok rows => obtain ⟨_, _, _, ends⟩ | ⟨_, _, _, ends⟩ := goes <;> cases ends
    · cases reply with
      | error error => exact goes.elim
      | ok rows => obtain ⟨_, _, _, ends⟩ | ⟨_, _, _, ends⟩ := goes <;> cases ends
  | login dto =>
    cases first
    cases reply with
    | error error => exact goes.elim
    | ok rows => obtain ⟨_, _, _, ends⟩ | ⟨_, _, _, ends⟩ := goes <;> cases ends
  | refresh userId email presentedToken =>
    cases first
    cases reply with
    | error error => exact goes.elim
    | ok stored => obtain ⟨_, _, _, ends⟩ | ⟨_, _, _, ends⟩ := goes <;> cases ends
  | logout userId => exact ⟨userId, rfl⟩

/-- **A request that returns stored its token**, unless it is a logout. -/
theorem goes_returns {h : AuthHelpers} {request : Request} {call : AuthCall} {input : Input}
    {state : AuthState} {result : Reply} (here : Stands h request call)
    (goes : Goes h request call (call.exec h input state).1 (.finished (.ok result))) :
    (∃ payload token, owns request payload ∧ input.fault = none ∧
      call = .set (AuthService.refreshKey payload.sub) token AuthService.refreshTtl) ∨
    ∃ userId, request = .logout userId := by
  cases here with
  | opening first => exact .inr (opening_returns first goes)
  | signing use own =>
    obtain ⟨_, ends⟩ | goes := goes
    · cases ends
    cases use <;>
    · obtain ⟨_, ends⟩ := goes
      cases ends
  | @storing payload token own =>
    refine .inl ⟨payload, token, own, ?_, rfl⟩
    obtain ⟨_, ends⟩ | goes := goes
    · cases ends
    cases fault : input.fault with
    | none => rfl
    | some message =>
      simp only [AuthCall.exec, fault] at goes

end WaAutomation.Auth
