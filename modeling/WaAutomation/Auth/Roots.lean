/-
**Where tokens come from.**

`refresh` checks the token it is presented against the one in the cache, whatever user its payload
names. So every token of a user goes back, over any number of refreshes, to a login with the
password of the user or to the registration that created the user.

* `Rooted` is this for one user and one run;
* `Fair` says what the replies of the run are worth, `Backed` which calls need a root, and
  `program_backed` that fair replies lead to backed calls only;
* `Backing` is the invariant of a run, `backing_act` its step lemma, and `tokens_rooted` the result.
-/

import WaAutomation.Auth.Rotation
import WaAutomation.Model.Calls

set_option linter.unusedSectionVars false

namespace WaAutomation.Auth

open Library Program

/-! ### Roots -/

section Roots

variable (h : AuthHelpers) (start : AuthState) (moves : List Move)

/-- The request was started in the run. -/
def Started (request : Request) : Prop :=
  ∃ slot input, Machine.Move.start slot request input ∈ moves

/-- The user was stored at some time of the run. -/
def Seen (user : User) : Prop :=
  ∃ before after pool, moves = before ++ after ∧
    (system h).run (Machine.Pool.idle start) before = some pool ∧
    user ∈ pool.shared.store.db .users

/-- What gives a user tokens: one that was in the cache when the run began, a registration of the
run, or a login of the run with the password the user had at some time of it. -/
inductive Rooted (userId : Uuid) : Prop where
  | kept (entry : CacheEntry)
      (cached : start.cache (AuthService.refreshKey userId) = some entry) : Rooted userId
  | registered (dto : RegisterDto) (started : Started moves (.register dto)) (move : Move)
      (made : move ∈ moves) (drawn : userId = move.input.ids 0) : Rooted userId
  | logged (dto : LoginDto) (started : Started moves (.login dto)) (user : User)
      (seen : Seen h start moves user) (id : user.id = userId) (active : user.isActive = true)
      (email : user.email = h.lower dto.email)
      (password : h.compare dto.password user.password = true) : Rooted userId

/-- What the replies of the run are worth. -/
def Fair (call : AuthCall) (reply : Except Err (AuthResp call)) : Prop :=
  match call, reply with
  | .db (.find .users matching), .ok rows =>
      ∀ user ∈ rows, Seen h start moves user ∧ matching user = true
  | .db (.insert .users (some draft)), .ok user => ∃ move ∈ moves, user = draft move.input
  | .get key, .ok (some _) =>
      ∀ userId, key = AuthService.refreshKey userId → Rooted h start moves userId
  | _, _ => True

/-- To sign or to store a token takes a root. -/
def Backed : AuthCall → Prop
  | .sign payload _ => Rooted h start moves payload.sub
  | .set key _ _ => ∀ userId, key = AuthService.refreshKey userId → Rooted h start moves userId
  | _ => True

end Roots

section Programs

variable {h : AuthHelpers} {start : AuthState} {moves : List Move}

theorem issueTokens_backed {payload : JwtPayload} (rooted : Rooted h start moves payload.sub) :
    (AuthService.issueTokens payload).Given (Fair h start moves) (Backed h start moves)
      fun _ => True := by
  refine given_then (given_perform rooted fun _ _ => trivial) fun access _ =>
    given_then (given_perform rooted fun _ _ => trivial) fun token _ =>
      given_then (given_perform (fun userId same => ?_) fun _ _ => trivial) fun _ _ => trivial
  rw [← refreshKey_injective same]
  exact rooted

theorem register_backed {dto : RegisterDto} (started : Started moves (.register dto)) :
    (AuthService.register h dto).Given (Fair h start moves) (Backed h start moves)
      fun _ => True := by
  refine given_bind (given_bind (given_bind (given_perform trivial fun rows _ => ?_)))
  generalize rows.head? = existing
  cases existing with
  | some user => trivial
  | none =>
    refine given_perform trivial fun user drafted => ?_
    obtain ⟨move, made, rfl⟩ := drafted
    exact given_then (issueTokens_backed (.registered dto started move made rfl)) fun _ _ => trivial

theorem login_backed {dto : LoginDto} (started : Started moves (.login dto)) :
    (AuthService.login h dto).Given (Fair h start moves) (Backed h start moves)
      fun _ => True := by
  unfold AuthService.login
  rw [validateCredentials_eq, bind_assoc]
  refine given_bind (given_perform trivial fun rows known => ?_)
  rw [ret_bind]
  cases found : rows.head?.filter _ with
  | none => trivial
  | some user =>
    obtain ⟨head, checked⟩ := Option.filter_eq_some_iff.mp found
    obtain ⟨active, password⟩ := Bool.and_eq_true_iff.mp checked
    obtain ⟨seen, email⟩ := known user (List.mem_of_head? head)
    exact given_then (issueTokens_backed (.logged dto started user seen rfl active
      (beq_iff_eq.mp email) password)) fun _ _ => trivial

theorem refresh_backed {userId : Uuid} {email presentedToken : String} :
    (AuthService.refresh userId email presentedToken).Given (Fair h start moves)
      (Backed h start moves) fun _ => True := by
  refine given_bind (given_perform trivial fun stored rooted => ?_)
  by_cases same : AuthService.matchesStored stored presentedToken = true
  · rw [if_pos same]
    cases stored with
    | none => cases same
    | some token => exact issueTokens_backed (rooted userId rfl)
  · rw [if_neg same]
    trivial

/-- **Given fair replies, a request of the run signs and stores with a root only.** -/
theorem program_backed {request : Request} (started : Started moves request) :
    (request.program h).Given (Fair h start moves) (Backed h start moves) fun _ => True := by
  cases request with
  | register dto => exact given_then (register_backed started) fun _ _ => trivial
  | login dto => exact given_then (login_backed started) fun _ _ => trivial
  | refresh userId email presentedToken => exact given_then refresh_backed fun _ _ => trivial
  | logout userId =>
    exact given_bind (given_bind (given_perform trivial fun _ _ => trivial))

end Programs

/-! ### Runs -/

section Runs

variable {h : AuthHelpers} {start : AuthState} {moves : List Move}

/-- The tokens of the cache and those signed have roots, and the requests in flight go on so. -/
structure Backing (h : AuthHelpers) (start : AuthState) (moves : List Move) (pool : Pool) :
    Prop where
  cache : ∀ userId entry, pool.shared.cache (AuthService.refreshKey userId) = some entry →
    Rooted h start moves userId
  signed : ∀ entry ∈ pool.shared.signed,
    entry ∈ start.signed ∨ Rooted h start moves entry.1.sub
  flight : pool.Attached fun _ _ program _ =>
    program.Given (Fair h start moves) (Backed h start moves) fun _ => True

theorem exec_fair {move : Move} (made : move ∈ moves) {state : AuthState}
    (cache : ∀ userId entry, state.cache (AuthService.refreshKey userId) = some entry →
      Rooted h start moves userId)
    (seen : ∀ user ∈ state.store.db .users, Seen h start moves user) (call : AuthCall) :
    Fair h start moves call (call.exec h move.input state).1 := by
  cases call with
  | db call =>
    cases call with
    | find table matching =>
      cases table with
      | users =>
        show Fair h start moves (.db (.find .users matching))
          (WaAutomation.exec (.find .users matching) move.input state.store).1
        obtain ⟨error, failed⟩ | found := exec_find .users matching move.input state.store
        · rw [failed]
          trivial
        · rw [found]
          exact fun user member => (List.mem_filter.mp member).imp_left (seen user)
      | _ => trivial
    | insert table draft =>
      cases table with
      | users =>
        cases draft with
        | none => trivial
        | some draft =>
          show Fair h start moves (.db (.insert .users (some draft)))
            (WaAutomation.exec (.insert .users (some draft)) move.input state.store).1
          obtain ⟨error, failed⟩ | ⟨_, _, same, _, inserted⟩ :=
            exec_insert .users (some draft) move.input state.store
          · rw [failed]
            trivial
          · cases same
            rw [inserted]
            exact ⟨move, made, rfl⟩
      | _ => trivial
    | _ => trivial
  | get key =>
    cases fault : move.input.fault with
    | some message =>
      simp only [AuthCall.exec, fault]
      trivial
    | none =>
      simp only [AuthCall.exec, fault]
      cases found : state.cached key move.input.now with
      | none => trivial
      | some value =>
        rintro userId rfl
        obtain ⟨entry, kept, _⟩ := Option.map_eq_some_iff.mp found
        exact cache userId entry (Option.filter_eq_some_iff.mp kept).1
  | _ => trivial

theorem exec_cached {call : AuthCall} (backed : Backed h start moves call) {input : Input}
    {state : AuthState}
    (cache : ∀ userId entry, state.cache (AuthService.refreshKey userId) = some entry →
      Rooted h start moves userId) (userId : Uuid) (entry : CacheEntry)
    (found : (call.exec h input state).2.cache (AuthService.refreshKey userId) = some entry) :
    Rooted h start moves userId := by
  obtain ⟨_, kept⟩ | ⟨key, value, ttl, rfl, _, written⟩ := exec_cache h call input state
  · exact cache userId entry (kept _ entry found)
  · by_cases same : AuthService.refreshKey userId = key
    · exact backed userId same.symm
    · rw [written, Function.update_of_ne same] at found
      exact cache userId entry found

theorem exec_rooted {call : AuthCall} (backed : Backed h start moves call) {input : Input}
    {state : AuthState}
    (signed : ∀ entry ∈ state.signed, entry ∈ start.signed ∨ Rooted h start moves entry.1.sub) :
    ∀ entry ∈ (call.exec h input state).2.signed,
      entry ∈ start.signed ∨ Rooted h start moves entry.1.sub := by
  cases call with
  | db call => exact signed
  | sign payload use =>
    cases use with
    | access => exact signed
    | refresh =>
      intro entry member
      rcases List.mem_cons.mp member with rfl | old
      · exact .inr backed
      · exact signed entry old
  | get key => cases fault : input.fault <;> simpa [AuthCall.exec, fault] using signed
  | set key value ttl =>
    cases fault : input.fault <;> simpa [AuthCall.exec, fault, AuthState.set] using signed
  | del key => cases fault :
      input.fault <;> simpa [AuthCall.exec, fault, AuthState.del] using signed

/-- The end of a request notes at most that it was accepted. -/
theorem place_tokens (slot : Nat) (request : Request)
    (stop : Stop Err Input AuthCall AuthResp Reply) (state : AuthState)
    (thread : Nat → Option Thread) :
    ((system h).place slot request stop state thread).shared.cache = state.cache ∧
      ((system h).place slot request stop state thread).shared.signed = state.signed := by
  cases stop with
  | finished result => cases request <;> cases result <;> exact ⟨rfl, rfl⟩
  | calling call next => exact ⟨rfl, rfl⟩

/-- **Every move keeps the invariant.** -/
theorem backing_act {past after : List Move} {pool pool' : Pool} {move : Move}
    (split : moves = past ++ move :: after)
    (reached : (system h).run (Machine.Pool.idle start) past = some pool)
    (backing : Backing h start moves pool) (moved : (system h).act pool move = some pool') :
    Backing h start moves pool' := by
  have made : move ∈ moves := split ▸ List.mem_append_right _ List.mem_cons_self
  obtain ⟨slot, request, input, rfl, _, _, rfl⟩ | ⟨slot, input, thread, rfl, busy, rfl⟩ :=
    (system h).act_cases moved
  · obtain ⟨cache, signed⟩ := @place_tokens h slot request
      (((system h).program slot request).settle input) pool.shared pool.thread
    refine ⟨?_, ?_, (system h).attached_place (fun _ _ stops => ?_)
      fun other waiting _ found => backing.flight other waiting found⟩
    · rw [cache]
      exact backing.cache
    · rw [signed]
      exact backing.signed
    · exact given_settle (program_backed ⟨slot, input, made⟩) stops
  · have flight := backing.flight slot thread busy
    have seen (user : User) (stored : user ∈ pool.shared.store.db .users) :
        Seen h start moves user := ⟨past, _, pool, split, reached, stored⟩
    have fair := exec_fair made backing.cache seen thread.request
    obtain ⟨cache, signed⟩ := @place_tokens h slot thread.label
      ((thread.next (thread.request.exec h input pool.shared).1).settle input)
      (thread.request.exec h input pool.shared).2 pool.thread
    refine ⟨fun userId entry found => ?_, fun entry member => ?_,
      (system h).attached_place (fun _ _ stops => ?_)
        fun other waiting _ found => backing.flight other waiting found⟩
    · exact exec_cached flight.1 backing.cache userId entry (cache ▸ found)
    · exact exec_rooted flight.1 backing.signed entry (signed ▸ member)
    · exact given_settle (flight.2 _ fair) stops

/-- **Every token has a root.** Over all interleavings of registrations, logins, refreshes and
logouts, a refresh token is signed, a token of either kind is about to be signed, and a refresh
returns only for a user who had a token in the cache when the run began, who was created by a
registration of the run, or for whom there was a login with the password. -/
theorem tokens_rooted {pool : Pool}
    (reached : (system h).run (Machine.Pool.idle start) moves = some pool) :
    (∀ entry ∈ pool.shared.signed, entry ∈ start.signed ∨ Rooted h start moves entry.1.sub) ∧
    (∀ slot thread payload use, pool.thread slot = some thread →
      thread.request = .sign payload use → Rooted h start moves payload.sub) ∧
    ∀ slot userId email presentedToken input reply,
      (system h).Ends pool slot (.refresh userId email presentedToken) input (.ok reply) →
        Rooted h start moves userId := by
  let backed (past : List Move) (pool : Pool) : Prop :=
    (system h).run (Machine.Pool.idle start) past = some pool ∧ Backing h start moves pool
  have begins : backed [] (Machine.Pool.idle start) :=
    ⟨rfl, fun userId entry cached => .kept entry cached, fun entry member => .inl member,
      fun _ _ none => by cases none⟩
  have step (past : List Move) (pool : Pool) (move : Move) (pool' : Pool)
      (held : backed past pool) (made : ∃ after, moves = past ++ move :: after)
      (moved : (system h).act pool move = some pool') : backed (past ++ [move]) pool' := by
    obtain ⟨after, split⟩ := made
    refine ⟨?_, backing_act split held.1 held.2 moved⟩
    rw [Machine.run_append, held.1, Option.bind_some, Machine.run, moved]
    rfl
  have backing := ((system h).run_history begins step
    (fun before move after split => ⟨after, by rw [List.nil_append]; exact split⟩) reached).2
  refine ⟨backing.signed, fun slot thread payload use busy signs => ?_,
    fun slot userId email presentedToken input reply ends => ?_⟩
  · have waits := (backing.flight slot thread busy).1
    rw [signs] at waits
    exact waits
  · obtain ⟨thread, busy, label, finishes⟩ := ends
    have here := (run_shaped reached slot thread busy).1
    have goes := here.2 (thread.request.exec h input pool.shared).1 input
    rw [show (thread.next (thread.request.exec h input pool.shared).1).settle input = _
      from finishes] at goes
    rw [label] at goes here
    obtain ⟨payload, token, own, _, stores⟩ | ⟨_, wrong⟩ := goes_returns here.1 goes
    · have waits := (backing.flight slot thread busy).1
      rw [stores] at waits
      cases own
      exact waits userId rfl
    · cases wrong

end Runs

/-- The tokens of a login and of a refresh after it. -/
theorem tokens_rooted_example :
    ∃ pool : Pool, (system Example.helpers).run (Machine.Pool.idle Example.start)
        (Example.login ++ Example.refresh) = some pool ∧
      pool.shared.signed.length = 2 ∧
      ∀ entry ∈ pool.shared.signed, entry ∈ Example.start.signed ∨
        Rooted Example.helpers Example.start (Example.login ++ Example.refresh) entry.1.sub :=
  ⟨_, rfl, rfl, (tokens_rooted rfl).1⟩

end WaAutomation.Auth
