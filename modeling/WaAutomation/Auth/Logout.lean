/-
**A logout revokes the session.**

A logout deletes the stored refresh token, but a request of the user that is about to store a token
stores it afterwards. A logout is undisturbed when none is in flight: no login or registration of
the user, and no request about to sign or store a token of the user, as a refresh past its check is.
After it the cache holds no token of the user, until a login or a registration of the user is
started.

* `Revoked` is the invariant of the state after the logout, `Barred` that of a request in flight;
* `revoked_act` is the step lemma, `barred_refresh` what it says of a refresh that ends;
* `logout_revokes` is about runs after an undisturbed logout, and `logout_undone` is a run in which
  it is disturbed.
-/

import WaAutomation.Auth.Rotation
import WaAutomation.Model.Calls

set_option linter.unusedSectionVars false

namespace WaAutomation.Auth

open Library

/-! ### The condition -/

/-- The request logs the user in, or registers it. -/
def Request.admits (h : AuthHelpers) (user : User) : Request → Prop
  | .register dto => h.lower dto.email = user.email
  | .login dto => h.lower dto.email = user.email
  | _ => False

/-- The call neither signs nor stores a token of the user. -/
def Spares (user : User) (call : AuthCall) : Prop :=
  (∀ payload use, call = .sign payload use → payload.sub ≠ user.id) ∧
    ∀ value ttl, call ≠ .set (AuthService.refreshKey user.id) value ttl

/-- A request in flight that will store no token of the user. -/
def Barred (h : AuthHelpers) (user : User) (request : Request) (call : AuthCall) : Prop :=
  ¬request.admits h user ∧ Spares user call

/-- A logout of the user is about to delete the stored token, and every other request in flight is
barred. -/
def Undisturbed (h : AuthHelpers) (user : User) (pool : Pool) (slot : Nat) : Prop :=
  (∃ thread, pool.thread slot = some thread ∧ thread.label = .logout user.id) ∧
    ∀ other waiting, other ≠ slot → pool.thread other = some waiting →
      Barred h user waiting.label waiting.request

section Steps

variable {h : AuthHelpers} {user : User}

/-! ### The users -/

/-- The user is stored, and ids are unique. -/
structure Listed (user : User) (state : AuthState) : Prop where
  stored : user ∈ state.store.db .users
  keys : ((state.store.db .users).map User.id).Nodup

/-- A new user leaves the stored ones and the uniqueness of the ids. -/
theorem insert_listed {draft : Input → User} (input : Input) {state : AuthState}
    (listed : Listed user state) :
    Listed user (AuthCall.exec h (.db (.insert .users (some draft))) input state).2 := by
  obtain ⟨_, _, _, failed⟩ | performed :=
    exec_cases (.insert .users (some draft)) input state.store
  · simp only [AuthCall.exec, failed]
    exact listed
  simp only [AuthCall.exec, performed, perform, Store.insert]
  cases inserted : state.store.db.insert .users (draft input) with
  | error error => exact listed
  | ok db =>
    obtain ⟨fresh, _, rfl⟩ := Db.insert_ok inserted
    refine ⟨?_, ?_⟩
    · show user ∈ (state.store.db.push .users (draft input)) .users
      rw [Db.push, Db.set_same]
      exact List.mem_append_left _ listed.stored
    · show (((state.store.db.push .users (draft input)) .users).map User.id).Nodup
      rw [Db.push, Db.set_same, List.map_append, List.nodup_append]
      refine ⟨listed.keys, List.nodup_singleton _, fun id old other new same => ?_⟩
      obtain ⟨row, member, rfl⟩ := List.mem_map.mp old
      rw [List.map_singleton, List.mem_singleton] at new
      have taken := List.any_eq_false.mp fresh row member
      simp [Db.sameKey, Row.key, same.trans new] at taken

/-- The other calls leave the database alone. -/
theorem exec_store (h : AuthHelpers) (call : AuthCall) (input : Input) (state : AuthState)
    (reads : ∀ write, call = .db write → write.reads = true) :
    (call.exec h input state).2.store = state.store := by
  cases call with
  | db call => exact exec_reads (reads call rfl) input state.store
  | sign payload use => cases use <;> rfl
  | get key => cases fault : input.fault <;> simp [AuthCall.exec, fault]
  | set key value ttl => cases fault : input.fault <;> simp [AuthCall.exec, fault, AuthState.set]
  | del key => cases fault : input.fault <;> simp [AuthCall.exec, fault, AuthState.del]

/-- The database call of a request is a search, or the insert of a registration. -/
theorem stands_db {request : Request} {call : AuthCall} (here : Stands h request call) :
    (∀ write, call = .db write → write.reads = true) ∨
      ∃ draft, call = .db (.insert .users (some draft)) := by
  cases here with
  | opening first =>
    cases request with
    | register dto =>
      rcases first with rfl | rfl
      · exact .inl fun write same => by cases same; rfl
      · exact .inr ⟨_, rfl⟩
    | login dto =>
      cases first
      exact .inl fun write same => by cases same; rfl
    | refresh userId email presented =>
      cases first
      exact .inl fun write same => by cases same
    | logout userId =>
      cases first
      exact .inl fun write same => by cases same
  | signing use own => exact .inl fun write same => by cases same
  | storing token own => exact .inl fun write same => by cases same

/-- No call of a request removes a user. -/
theorem exec_listed {request : Request} {call : AuthCall} (here : Stands h request call)
    (input : Input) {state : AuthState} (listed : Listed user state) :
    Listed user (call.exec h input state).2 := by
  obtain reads | ⟨draft, rfl⟩ := stands_db here
  · have same := exec_store h call input state reads
    exact ⟨by rw [same]; exact listed.stored, by rw [same]; exact listed.keys⟩
  · exact insert_listed input listed

/-- A user with another email, or a new one, is another user. -/
theorem listed_other {state : AuthState} (listed : Listed user state) {other : User}
    (member : other ∈ state.store.db .users) (different : other.email ≠ user.email) :
    other.id ≠ user.id := by
  intro same
  have equal := List.inj_on_of_nodup_map listed.keys member listed.stored same
  exact different (congrArg User.email equal)

/-! ### After the logout -/

/-- The invariant of the state after an undisturbed logout. -/
structure Revoked (user : User) (state : AuthState) : Prop where
  listed : Listed user state
  absent : state.cache (AuthService.refreshKey user.id) = none

/-- A barred request stores no token of the user. -/
theorem exec_revoked {request : Request} {call : AuthCall} (here : Stands h request call)
    (barred : Barred h user request call) (input : Input) {state : AuthState}
    (revoked : Revoked user state) : Revoked user (call.exec h input state).2 := by
  refine ⟨exec_listed here input revoked.listed, ?_⟩
  obtain ⟨_, cache⟩ | ⟨key, value, ttl, rfl, _, cache⟩ := exec_cache h call input state
  · rw [Option.eq_none_iff_forall_ne_some]
    intro entry found
    have present := cache _ entry found
    rw [revoked.absent] at present
    cases present
  · have different : AuthService.refreshKey user.id ≠ key :=
      fun same => barred.2.2 value ttl (by rw [same])
    rw [cache, Function.update_of_ne different]
    exact revoked.absent

/-- An opening call signs and stores nothing. -/
theorem opens_spares {request : Request} {call : AuthCall} (first : opens h request call) :
    Spares user call := by
  refine ⟨fun payload use same => ?_, fun value ttl same => (opens_plain first).1 _ _ _ same⟩
  subst same
  cases request with
  | register dto => rcases first with same | same <;> cases same
  | login dto => cases first
  | refresh userId email presented => cases first
  | logout userId => cases first

/-- **A barred request stays barred**: a token of the user is not in the cache to be refreshed, and
the logins and registrations are of other users. -/
theorem advances_barred {request : Request} {call next : AuthCall} {input : Input}
    {state : AuthState} (revoked : Revoked user state) (barred : Barred h user request call)
    (advances : Advances h input state request call next) : Barred h user request next := by
  refine ⟨barred.1, ?_⟩
  cases advances with
  | opening first second => exact opens_spares second
  | @register dto _ other first email new =>
    refine ⟨fun payload use same => ?_, nofun⟩
    cases same
    exact Ne.symm (new user revoked.listed.stored)
  | @login dto _ other first stored email =>
    refine ⟨fun payload use same => ?_, nofun⟩
    cases same
    exact listed_other revoked.listed stored fun same => barred.1 (email.symm.trans same)
  | @refresh userId email presented same =>
    refine ⟨fun payload use same_call => ?_, nofun⟩
    cases same_call
    intro is_user
    simp only at is_user
    rw [is_user, AuthState.cached, revoked.absent] at same
    cases same
  | @access _ payload own =>
    refine ⟨fun other use same => ?_, nofun⟩
    cases same
    exact barred.2.1 payload .access rfl
  | @store _ payload own =>
    refine ⟨nofun, fun value ttl same => ?_⟩
    obtain ⟨key, _, _⟩ := AuthCall.set.inj same
    exact barred.2.1 payload .refresh rfl (refreshKey_injective key)

/-! ### One move -/

/-- The invariant of a pool after an undisturbed logout. -/
structure Closed (h : AuthHelpers) (user : User) (pool : Pool) : Prop where
  revoked : Revoked user pool.shared
  barred : pool.Attached fun _ request program _ =>
    ∀ call next, program = .call call next → Barred h user request call

/-- The requests a run starts, after a logout: none that admits the user. -/
def KeepsOut (h : AuthHelpers) (user : User) : Move → Prop
  | .start _ request _ => ¬request.admits h user
  | .resume _ _ => True

theorem leave_store (state : AuthState) (request : Request) (result : Except Err Reply) :
    (request.leave state result).store = state.store ∧
      (request.leave state result).cache = state.cache := by
  cases request <;> cases result <;> exact ⟨rfl, rfl⟩

theorem place_store (h : AuthHelpers) (slot : Nat) (request : Request)
    (stop : Stop Err Input AuthCall AuthResp Reply)
    (state : AuthState) (thread : Nat → Option Thread) :
    ((system h).place slot request stop state thread).shared.store = state.store ∧
      ((system h).place slot request stop state thread).shared.cache = state.cache := by
  cases stop with
  | finished result => exact leave_store state request result
  | calling call next => exact ⟨rfl, rfl⟩

/-- **The step lemma**: the cache stays without a token of the user, and the requests barred. -/
theorem closed_act {pool pool' : Pool} {move : Move} (shaped : Shaped h pool)
    (closed : Closed h user pool) (keeps : KeepsOut h user move)
    (moved : (system h).act pool move = some pool') : Closed h user pool' := by
  obtain ⟨slot, request, input, call, next, rfl, _, first, rfl⟩ |
    ⟨slot, input, thread, stop, rfl, busy, here, goes, _, rfl⟩ := act_goes shaped moved
  · refine ⟨closed.revoked, (system h).attached_place (fun _ _ stops => ?_)
      fun other waiting _ found => closed.barred other waiting found⟩
    cases stops
    intro call next same
    cases same
    exact ⟨keeps, opens_spares first⟩
  · have barred := closed.barred slot thread busy _ _ rfl
    obtain ⟨stores, caches⟩ := place_store h slot thread.label stop
      (thread.request.exec h input pool.shared).2 pool.thread
    have revoked := exec_revoked here barred input closed.revoked
    refine ⟨⟨⟨?_, ?_⟩, ?_⟩, (system h).attached_place (fun _ _ stops => ?_)
      fun other waiting _ found => closed.barred other waiting found⟩
    · rw [stores]
      exact revoked.listed.stored
    · rw [stores]
      exact revoked.listed.keys
    · rw [caches]
      exact revoked.absent
    · cases stops
      intro call next same
      cases same
      exact advances_barred closed.revoked barred (goes_advances here goes)

/-- Users stay listed along every run. -/
theorem listed_act {pool pool' : Pool} {move : Move} (shaped : Shaped h pool)
    (listed : Listed user pool.shared) (moved : (system h).act pool move = some pool') :
    Listed user pool'.shared := by
  obtain ⟨slot, request, input, call, next, rfl, _, first, rfl⟩ |
    ⟨slot, input, thread, stop, rfl, busy, here, goes, _, rfl⟩ := act_goes shaped moved
  · exact listed
  · have after := exec_listed here input listed
    have stores := (place_store h slot thread.label stop
      (thread.request.exec h input pool.shared).2 pool.thread).1
    exact ⟨by rw [stores]; exact after.stored, by rw [stores]; exact after.keys⟩

/-- A logout waits at its one call. -/
theorem stands_logout {userId : Uuid} {call : AuthCall} (here : Stands h (.logout userId) call) :
    call = .del (AuthService.refreshKey userId) := by
  cases here with
  | opening first => exact first
  | signing use own => exact own.elim
  | storing token own => exact own.elim

/-- A logout makes no other call. -/
theorem logout_ends {userId : Uuid} {call next : AuthCall} {reply : Except Err (AuthResp call)}
    {rest : Except Err (AuthResp next) → AuthSvc Reply}
    (deletes : call = .del (AuthService.refreshKey userId))
    (goes : Goes h (.logout userId) call reply (.calling next rest)) : False := by
  subst deletes
  obtain ⟨_, ends⟩ | goes := goes
  · cases ends
  cases reply with
  | error error => exact goes
  | ok value =>
    obtain ⟨_, ends⟩ := goes
    cases ends

/-- The logout itself closes the session. -/
theorem undisturbed_closed {pool pool' : Pool} {slot : Nat} {input : Input} (shaped : Shaped h pool)
    (listed : Listed user pool.shared) (undisturbed : Undisturbed h user pool slot)
    (clear : input.fault = none)
    (moved : (system h).act pool (.resume slot input) = some pool') : Closed h user pool' := by
  obtain ⟨⟨logout, waits, label⟩, barred⟩ := undisturbed
  obtain ⟨_, _, _, _, _, same, _⟩ | ⟨_, _, thread, stop, same, busy, here, goes, _, rfl⟩ :=
    act_goes shaped moved
  · cases same
  cases same
  obtain rfl : logout = thread := Option.some.inj (waits.symm.trans busy)
  rw [label] at here goes
  have deletes := stands_logout here
  obtain ⟨stores, caches⟩ := place_store h slot logout.label stop
    (logout.request.exec h input pool.shared).2 pool.thread
  have after := exec_listed here input listed
  refine ⟨⟨⟨?_, ?_⟩, ?_⟩, (system h).attached_place (fun call next stops => ?_)
    fun other waiting different found call next same => ?_⟩
  · rw [stores]
    exact after.stored
  · rw [stores]
    exact after.keys
  · rw [caches, deletes]
    simp only [AuthCall.exec, clear, AuthState.del, Function.update_self]
  · rw [stops] at goes
    exact (logout_ends deletes goes).elim
  · cases same
    exact barred other waiting different found

/-- A barred refresh that ends is rejected. -/
theorem barred_refresh {pool : Pool} {slot : Nat} {email presented : String} {input : Input}
    {result : Except Err Reply} (shaped : Shaped h pool) (closed : Closed h user pool)
    (ends : (system h).Ends pool slot (.refresh user.id email presented) input result) :
    ∃ error, result = .error error := by
  obtain ⟨thread, busy, label, finishes⟩ := ends
  obtain ⟨here, goes⟩ := (shaped slot thread busy).1
  have barred := (closed.barred slot thread busy _ _ rfl).2
  have ended := goes (thread.request.exec h input pool.shared).1 input
  cases result with
  | error error => exact ⟨error, rfl⟩
  | ok reply =>
    rw [show (thread.next (thread.request.exec h input pool.shared).1).settle input = _ from
      finishes, label] at ended
    rw [label] at here
    obtain ⟨payload, value, own, _, stores⟩ | ⟨_, logout⟩ := goes_returns here ended
    · obtain rfl : payload = ⟨user.id, email⟩ := own
      exact absurd stores (barred.2 value _)
    · cases logout

end Steps

/-! ### Runs -/

/-- **A logout revokes the session**: after an undisturbed logout of a user, and until a login or a
registration of the user is started, every refresh of the user that ends is rejected, whatever token
it presents. -/
theorem logout_revokes (h : AuthHelpers) (user : User) (start : AuthState)
    (stored : user ∈ start.store.db .users) (keys : ((start.store.db .users).map User.id).Nodup)
    (moves : List Move) (pool : Pool)
    (reached : (system h).run (Machine.Pool.idle start) moves = some pool) (slot : Nat)
    (input : Input) (undisturbed : Undisturbed h user pool slot) (clear : input.fault = none)
    (pool' : Pool) (moved : (system h).act pool (.resume slot input) = some pool')
    (later : List Move) (keeps : ∀ move ∈ later, KeepsOut h user move) (pool'' : Pool)
    (reached' : (system h).run pool' later = some pool'') :
    ∀ slot email presented input result,
      (system h).Ends pool'' slot (.refresh user.id email presented) input result →
        ∃ error, result = .error error := by
  have listed : Listed user pool.shared :=
    (system h).run_reached (show Listed user start from ⟨stored, keys⟩)
      (fun _ _ _ _ here listed _ moved => listed_act (run_shaped here) listed moved)
      ((system h).meets_of_forall (fun _ _ _ => trivial) _) reached
  have closed := undisturbed_closed (run_shaped reached) listed undisturbed clear moved
  have shaped : Shaped h pool' :=
    (system h).act_everywhere (fun _ request => program_shape request) (run_shaped reached) moved
  have meets : (system h).Meets (fun _ => KeepsOut h user) pool' later :=
    (system h).meets_of_forall (fun move member _ => keeps move member) pool'
  have step (pool : Pool) (move : Move) (next : Pool)
      (both : Shaped h pool ∧ Closed h user pool) (keeps : KeepsOut h user move)
      (moved : (system h).act pool move = some next) : Shaped h next ∧ Closed h user next :=
    ⟨(system h).act_everywhere (fun _ request => program_shape request) both.1 moved,
      closed_act both.1 both.2 keeps moved⟩
  have kept := (system h).run_invariant step later pool' pool'' ⟨shaped, closed⟩ meets reached'
  exact fun slot email presented input result ends => barred_refresh kept.1 kept.2 ends

namespace Example

def user : User := ⟨"u", "Ann", "a", "", true⟩

/-- A logout that is about to delete the token of the login. -/
def logout : List Move := login ++ [.start 1 (.logout "u") (at_ 2)]

/-- A refresh with that token that has passed its check, and such a logout. -/
def disturbed : List Move :=
  logout ++ [.start 2 (.refresh "u" "a" first) (at_ 2), .resume 2 (at_ 2)]

/-- A refresh started after the logout. -/
def late : List Move := [.start 3 (.refresh "u" "a" first) (at_ 3)]

/-- The token of a later second. -/
def second : String := token helpers ⟨"u", "a"⟩ 3

/-- The disturbing refresh stores its token, and another one is started with it. -/
def revived : List Move :=
  List.replicate 3 (.resume 2 (at_ 3)) ++
    .start 3 (.refresh "u" "a" second) (at_ 4) :: List.replicate 3 (.resume 3 (at_ 4))

end Example

/-- The logout made after the login alone is undisturbed. -/
theorem Example.undisturbed {pool : Pool}
    (reached : (system Example.helpers).run (Machine.Pool.idle Example.start) Example.logout =
      some pool) : Undisturbed Example.helpers Example.user pool 1 := by
  have shows (check : Pool → Bool)
      (checked : ((system Example.helpers).run (Machine.Pool.idle Example.start)
        Example.logout).all check = true) : check pool = true := by
    rw [reached] at checked
    exact checked
  have waits := shows (fun pool => (pool.thread 1).map Machine.Thread.label ==
    some (.logout "u")) rfl
  have ended := shows (fun pool => (pool.thread 0).isNone) rfl
  refine ⟨?_, fun other waiting different found => ?_⟩
  · obtain ⟨thread, busy, label⟩ := Option.map_eq_some_iff.mp (beq_iff_eq.mp waits)
    exact ⟨thread, busy, label⟩
  · by_cases first : other = 0
    · rw [first, Option.isNone_iff_eq_none.mp ended] at found
      cases found
    · have unused : ∀ move ∈ Example.logout, move.slot ≠ other := by
        intro move member
        simp only [Example.logout, Example.login, List.cons_append, List.mem_cons,
          List.mem_append, List.mem_replicate, List.not_mem_nil, or_false] at member
        rcases member with rfl | ⟨_, rfl⟩ | rfl
        · exact Ne.symm first
        · exact Ne.symm first
        · exact Ne.symm different
      rw [(system Example.helpers).run_other unused reached] at found
      cases found

theorem logout_revokes_example :
    ∃ pool pool' pool'' result,
      (system Example.helpers).run (Machine.Pool.idle Example.start) Example.logout = some pool ∧
      (system Example.helpers).act pool (.resume 1 (Example.at_ 2)) = some pool' ∧
      (system Example.helpers).run pool' Example.late = some pool'' ∧
      (system Example.helpers).Ends pool'' 3 (.refresh "u" "a" Example.first) (Example.at_ 3)
        result ∧
      ∃ error, result = .error error := by
  refine ⟨_, _, _, _, rfl, rfl, rfl, ⟨_, rfl, rfl, rfl⟩, ?_⟩
  refine logout_revokes Example.helpers Example.user Example.start List.mem_cons_self
    (List.nodup_singleton _) Example.logout _ rfl 1 (Example.at_ 2) (Example.undisturbed rfl) rfl _
    rfl Example.late (fun move member => ?_) _ rfl 3 "a" Example.first (Example.at_ 3) _
    ⟨_, rfl, rfl, rfl⟩
  obtain rfl := List.mem_singleton.mp member
  exact id

/-- **A logout undone**: a refresh that passed its check before the logout stores its token after
it, and a refresh started then is accepted. -/
theorem logout_undone :
    ∃ pool pool' pool'' result,
      (system Example.helpers).run (Machine.Pool.idle Example.start) Example.disturbed = some pool ∧
      (system Example.helpers).act pool (.resume 1 (Example.at_ 2)) = some pool' ∧
      (pool'.thread 1).isNone ∧
      (∀ move ∈ Example.revived, KeepsOut Example.helpers Example.user move) ∧
      (system Example.helpers).run pool' Example.revived = some pool'' ∧
      (system Example.helpers).Ends pool'' 3 (.refresh "u" "a" Example.second) (Example.at_ 4)
        (.ok result) := by
  refine ⟨_, _, _, _, rfl, rfl, rfl, ?_, rfl, _, rfl, rfl, rfl⟩
  intro move member
  simp only [Example.revived, List.mem_append, List.mem_cons, List.mem_replicate] at member
  rcases member with ⟨_, rfl⟩ | rfl | ⟨_, rfl⟩
  · trivial
  · exact id
  · trivial

end WaAutomation.Auth
