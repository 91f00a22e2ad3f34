/-
**The rotation of refresh tokens.**

A refresh token is replaced by the refresh that accepts it, but the check and the replacement are
separate cache calls, and the new token of a second is the old one of that second. Both can make a
token be accepted twice. A run is orderly when neither happens: no refresh of a user reads the cache
while another one is between its check and its end, and no two refresh tokens are signed for the
same payload in one second.

* `Kept` is the invariant of the state, `Sound` that of a request in flight, and `Apart` that of two
  requests in flight;
* `rotation_act` is the step lemma;
* `accepted_once`: in an orderly run every refresh token is accepted at most once, and
  `accepted_twice` is a run that is not orderly.
-/

import WaAutomation.Auth.System
import WaAutomation.Model.Helpers

set_option linter.unusedSectionVars false

namespace WaAutomation.Auth

open Library

/-! ### Tokens -/

/-- The refresh token of a payload in a second. -/
def token (h : AuthHelpers) (payload : JwtPayload) (second : Nat) : String :=
  h.signAsync payload (h.secret .refresh) second

/-- The refresh tokens of different payloads or seconds are different. -/
def Distinct (h : AuthHelpers) : Prop :=
  ∀ payload payload' second second', token h payload second = token h payload' second' →
    payload = payload' ∧ second = second'

/-- The value is a refresh token of the user of the key. -/
def Of (h : AuthHelpers) (key value : String) : Prop :=
  ∃ payload second, key = AuthService.refreshKey payload.sub ∧ value = token h payload second

theorem Of.same_key {h : AuthHelpers} (distinct : Distinct h) {key key' value : String}
    (first : Of h key value) (second : Of h key' value) : key = key' := by
  obtain ⟨payload, issued, rfl, rfl⟩ := first
  obtain ⟨payload', issued', rfl, same⟩ := second
  rw [(distinct _ _ _ _ same).1]

theorem refreshKey_injective {userId other : Uuid}
    (same : AuthService.refreshKey userId = AuthService.refreshKey other) : userId = other :=
  (String.append_right_inj _).mp same

/-- A refresh that has passed its check. -/
def Passed (request : Request) (call : AuthCall) (userId : Uuid) (presented : String) : Prop :=
  (∃ email, request = .refresh userId email presented) ∧ ∀ key, call ≠ .get key

/-- The condition on a move: a refresh that reads the cache finds no other refresh of the user past
its check, and a refresh token is signed in a second in which none was signed for the payload. -/
def Orderly (pool : Pool) : Move → Prop
  | .start _ _ _ => True
  | .resume slot input => ∀ thread, pool.thread slot = some thread →
      (∀ userId email presented key, thread.label = .refresh userId email presented →
        thread.request = .get key → ∀ other waiting, other ≠ slot →
          pool.thread other = some waiting →
            ∀ value, ¬Passed waiting.label waiting.request userId value) ∧
      ∀ payload, thread.request = .sign payload .refresh →
        (payload, seconds input.now) ∉ pool.shared.signed

/-! ### The invariant -/

section Invariant

variable (h : AuthHelpers)

/-- The invariant of the state. -/
structure Kept (state : AuthState) : Prop where
  once : state.accepted.Nodup
  accepted : ∀ value ∈ state.accepted, value ∈ state.handed
  handed : ∀ value ∈ state.handed, ∃ entry ∈ state.signed, value = token h entry.1 entry.2
  cached : ∀ key entry, state.cache key = some entry →
    entry.value ∈ state.handed ∧ entry.value ∉ state.accepted ∧ Of h key entry.value

/-- The invariant of a request in flight: the token it is about to store is new, and the one it was
accepted with has not been noted yet. -/
structure Sound (request : Request) (call : AuthCall) (state : AuthState) : Prop where
  pending : ∀ key value ttl, call = .set key value ttl → value ∉ state.handed ∧
    ∃ entry ∈ state.signed, key = AuthService.refreshKey entry.1.sub ∧
      value = token h entry.1 entry.2
  passed : ∀ userId presented, Passed request call userId presented →
    presented ∈ state.handed ∧ presented ∉ state.accepted ∧
      Of h (AuthService.refreshKey userId) presented

/-- The invariant of two requests in flight: they store different tokens, and no two refreshes of a
user are past their check. -/
structure Apart (request : Request) (call : AuthCall) (other : Request) (waiting : AuthCall) :
    Prop where
  stores : ∀ key value ttl key' value' ttl', call = .set key value ttl →
    waiting = .set key' value' ttl' → value ≠ value'
  refreshes : ∀ userId presented presented', Passed request call userId presented →
    ¬Passed other waiting userId presented'

/-- The invariant of a pool. -/
structure Rotation (pool : Pool) : Prop where
  kept : Kept h pool.shared
  sound : pool.Attached fun _ request program state =>
    ∀ call next, program = .call call next → Sound h request call state
  apart : pool.Compatible fun _ request call _ other waiting => Apart request call other waiting

end Invariant

section Steps

variable {h : AuthHelpers}

theorem apart_symm {request other : Request} {call waiting : AuthCall}
    (apart : Apart request call other waiting) : Apart other waiting request call where
  stores _ _ _ _ _ _ first second same := apart.stores _ _ _ _ _ _ second first same.symm
  refreshes _ _ _ first second := apart.refreshes _ _ _ second first

/-- A call that is neither a token stored nor one past a check asks for nothing. -/
theorem sound_plain {request : Request} {call : AuthCall} {state : AuthState}
    (quiet : ∀ key value ttl, call ≠ .set key value ttl)
    (before : ∀ userId presented, ¬Passed request call userId presented) :
    Sound h request call state where
  pending key value ttl same := absurd same (quiet key value ttl)
  passed userId presented passed := absurd passed (before userId presented)

/-- An opening call is before the check, and stores nothing. -/
theorem opens_plain {request : Request} {call : AuthCall} (first : opens h request call) :
    (∀ key value ttl, call ≠ .set key value ttl) ∧
      ∀ userId presented, ¬Passed request call userId presented := by
  cases request with
  | register dto =>
    rcases first with rfl | rfl
    · exact ⟨nofun, fun _ _ ⟨⟨_, same⟩, _⟩ => by cases same⟩
    · exact ⟨nofun, fun _ _ ⟨⟨_, same⟩, _⟩ => by cases same⟩
  | login dto =>
    cases first
    exact ⟨nofun, fun _ _ ⟨⟨_, same⟩, _⟩ => by cases same⟩
  | refresh userId email presented =>
    cases first
    exact ⟨nofun, fun _ _ ⟨_, before⟩ => before _ rfl⟩
  | logout userId =>
    cases first
    exact ⟨nofun, fun _ _ ⟨⟨_, same⟩, _⟩ => by cases same⟩

/-! ### The state after a call -/

/-- A call notes no acceptance. -/
theorem exec_accepted (h : AuthHelpers) (call : AuthCall) (input : Input) (state : AuthState) :
    (call.exec h input state).2.accepted = state.accepted := by
  cases call with
  | db call => rfl
  | sign payload use => cases use <;> rfl
  | get key => cases fault : input.fault <;> simp [AuthCall.exec, fault]
  | set key value ttl => cases fault : input.fault <;> simp [AuthCall.exec, fault, AuthState.set]
  | del key => cases fault : input.fault <;> simp [AuthCall.exec, fault, AuthState.del]

/-- The signed tokens stay, and only signing a refresh token adds one. -/
theorem exec_signed (h : AuthHelpers) (call : AuthCall) (input : Input) (state : AuthState) :
    ∀ entry ∈ state.signed, entry ∈ (call.exec h input state).2.signed := by
  intro entry member
  cases call with
  | db call => exact member
  | sign payload use =>
    cases use with
    | access => exact member
    | refresh => exact List.mem_cons_of_mem _ member
  | get key => cases fault : input.fault <;> simpa [AuthCall.exec, fault] using member
  | set key value ttl =>
    cases fault : input.fault <;> simpa [AuthCall.exec, fault, AuthState.set] using member
  | del key => cases fault :
      input.fault <;> simpa [AuthCall.exec, fault, AuthState.del] using member

/-- Only storing a token hands one out, and only storing or deleting changes the cache. -/
theorem exec_cache (h : AuthHelpers) (call : AuthCall) (input : Input) (state : AuthState) :
    ((call.exec h input state).2.handed = state.handed ∧
      ∀ key entry, (call.exec h input state).2.cache key = some entry →
        state.cache key = some entry) ∨
    ∃ key value ttl, call = .set key value ttl ∧
      (call.exec h input state).2.handed = value :: state.handed ∧
      (call.exec h input state).2.cache =
        Function.update state.cache key (some ⟨value, input.now + ttl⟩) := by
  cases call with
  | db call => exact .inl ⟨rfl, fun _ _ found => found⟩
  | sign payload use => cases use <;> exact .inl ⟨rfl, fun _ _ found => found⟩
  | get key =>
    left
    cases fault : input.fault <;> simp [AuthCall.exec, fault]
  | set key value ttl =>
    cases fault : input.fault with
    | some message => exact .inl (by simp [AuthCall.exec, fault])
    | none => exact .inr ⟨key, value, ttl, rfl, by simp [AuthCall.exec, fault, AuthState.set]⟩
  | del key =>
    left
    cases fault : input.fault with
    | some message => simp [AuthCall.exec, fault]
    | none =>
      simp only [AuthCall.exec, fault, AuthState.del, true_and]
      intro other entry found
      by_cases same : other = key
      · subst same
        rw [Function.update_self] at found
        cases found
      · rwa [Function.update_of_ne same] at found

/-- **A call keeps the invariant of the state**: what it stores is new. -/
theorem exec_kept {request : Request} {call : AuthCall} (input : Input) {state : AuthState}
    (kept : Kept h state) (sound : Sound h request call state) :
    Kept h (call.exec h input state).2 := by
  have accepted := exec_accepted h call input state
  have signed := exec_signed h call input state
  obtain ⟨handed, cache⟩ | ⟨key, value, ttl, rfl, handed, cache⟩ :=
    exec_cache h call input state
  · refine ⟨?_, ?_, ?_, fun key entry found => ?_⟩
    · rw [accepted]
      exact kept.once
    · rw [accepted, handed]
      exact kept.accepted
    · rw [handed]
      intro value member
      obtain ⟨entry, here, same⟩ := kept.handed value member
      exact ⟨entry, signed entry here, same⟩
    · rw [handed, accepted]
      exact kept.cached key entry (cache key entry found)
  · obtain ⟨fresh, entry, here, of_key, of_value⟩ := sound.pending key value ttl rfl
    refine ⟨?_, ?_, ?_, fun other stored found => ?_⟩
    · rw [accepted]
      exact kept.once
    · rw [accepted, handed]
      exact fun noted member => List.mem_cons_of_mem _ (kept.accepted noted member)
    · rw [handed]
      intro given member
      rcases List.mem_cons.mp member with rfl | before
      · exact ⟨entry, signed entry here, of_value⟩
      · obtain ⟨older, there, same⟩ := kept.handed given before
        exact ⟨older, signed older there, same⟩
    · rw [handed, accepted]
      rw [cache] at found
      by_cases same : other = key
      · subst same
        rw [Function.update_self] at found
        cases found
        exact ⟨List.mem_cons_self, fun noted => fresh (kept.accepted _ noted),
          entry.1, entry.2, of_key, of_value⟩
      · rw [Function.update_of_ne same] at found
        obtain ⟨given, unnoted, owner⟩ := kept.cached other stored found
        exact ⟨List.mem_cons_of_mem _ given, unnoted, owner⟩

/-- What another request's call leaves of the invariant of a waiting one. -/
theorem exec_sound {request other : Request} {call waiting : AuthCall} (input : Input)
    {state : AuthState} (apart : Apart request call other waiting)
    (sound : Sound h other waiting state) : Sound h other waiting (call.exec h input state).2 := by
  have accepted := exec_accepted h call input state
  have signed := exec_signed h call input state
  refine ⟨fun key value ttl stores => ?_, fun userId presented passed => ?_⟩
  · obtain ⟨fresh, entry, here, of_key, of_value⟩ := sound.pending key value ttl stores
    refine ⟨?_, entry, signed entry here, of_key, of_value⟩
    obtain ⟨handed, _⟩ | ⟨key', value', ttl', stores', handed, _⟩ :=
      exec_cache h call input state
    · rwa [handed]
    · rw [handed]
      intro member
      rcases List.mem_cons.mp member with same | before
      · exact apart.stores _ _ _ _ _ _ stores' stores same.symm
      · exact fresh before
  · obtain ⟨given, unnoted, owner⟩ := sound.passed userId presented passed
    refine ⟨?_, by rwa [accepted], owner⟩
    obtain ⟨handed, _⟩ | ⟨_, _, _, _, handed, _⟩ := exec_cache h call input state
    · rwa [handed]
    · rw [handed]
      exact List.mem_cons_of_mem _ given

/-! ### The request that moves -/

/-- The token of an accepted refresh is stored in the cache. -/
theorem kept_cached {state : AuthState} {key value : String} {now : Time} (kept : Kept h state)
    (found : state.cached key now = some value) :
    value ∈ state.handed ∧ value ∉ state.accepted ∧ Of h key value := by
  obtain ⟨entry, present, rfl⟩ := Option.map_eq_some_iff.mp found
  exact kept.cached key entry (Option.filter_eq_some_iff.mp present).1

/-- The invariant of the request that moved, at its next call. -/
theorem advances_sound {request : Request} {call next : AuthCall} {input : Input}
    {state : AuthState} (distinct : Distinct h) (kept : Kept h state)
    (sound : Sound h request call state) (advances : Advances h input state request call next)
    (fresh : ∀ payload, call = .sign payload .refresh →
      (payload, seconds input.now) ∉ state.signed) :
    Sound h request next (call.exec h input state).2 := by
  cases advances with
  | opening first second => exact sound_plain (opens_plain second).1 (opens_plain second).2
  | register =>
    refine sound_plain (fun _ _ _ wrong => by cases wrong) fun _ _ passed => ?_
    obtain ⟨_, same⟩ := passed.1
    cases same
  | login =>
    refine sound_plain (fun _ _ _ wrong => by cases wrong) fun _ _ passed => ?_
    obtain ⟨_, same⟩ := passed.1
    cases same
  | @refresh userId email presentedToken same =>
    have unmoved : (AuthCall.exec h (.get (AuthService.refreshKey userId)) input state).2 =
        state := by
      cases fault : input.fault <;> simp [AuthCall.exec, fault]
    rw [unmoved]
    refine ⟨fun _ _ _ wrong => (by cases wrong), fun other presented passed => ?_⟩
    obtain ⟨⟨_, is_request⟩, _⟩ := passed
    cases is_request
    exact kept_cached kept same
  | access own =>
    exact ⟨fun _ _ _ wrong => (by cases wrong), fun other presented passed =>
      sound.passed other presented ⟨passed.1, fun _ wrong => (by cases wrong)⟩⟩
  | @store _ payload own =>
    refine ⟨fun key value ttl stores => ?_, fun other presented passed =>
      sound.passed other presented ⟨passed.1, fun _ wrong => (by cases wrong)⟩⟩
    cases stores
    refine ⟨fun given => ?_, (payload, seconds input.now), List.mem_cons_self, rfl, rfl⟩
    obtain ⟨entry, here, same⟩ := kept.handed _ given
    obtain ⟨payloads, issued⟩ := distinct payload entry.1 _ entry.2 same
    refine fresh payload rfl ?_
    rw [payloads, issued]
    exact here

/-- The request that moved and another one, at the next call. -/
theorem advances_apart {request other : Request} {call next waiting : AuthCall} {input : Input}
    {state : AuthState} (distinct : Distinct h) (apart : Apart request call other waiting)
    (sound : Sound h other waiting state) (advances : Advances h input state request call next)
    (reads : ∀ userId email presented key, request = .refresh userId email presented →
      call = .get key → ∀ value, ¬Passed other waiting userId value)
    (fresh : ∀ payload, call = .sign payload .refresh →
      (payload, seconds input.now) ∉ state.signed) :
    Apart request next other waiting := by
  cases advances with
  | opening first second =>
    exact ⟨fun key value ttl _ _ _ stores => absurd stores ((opens_plain second).1 key value ttl),
      fun userId presented _ passed => absurd passed ((opens_plain second).2 userId presented)⟩
  | register => exact ⟨nofun, fun _ _ _ ⟨⟨_, same⟩, _⟩ => by cases same⟩
  | login => exact ⟨nofun, fun _ _ _ ⟨⟨_, same⟩, _⟩ => by cases same⟩
  | @refresh userId email presentedToken same =>
    refine ⟨nofun, fun _ _ value ⟨⟨_, is_request⟩, _⟩ => ?_⟩
    cases is_request
    exact reads userId email presentedToken _ rfl rfl value
  | access own =>
    exact ⟨nofun, fun userId presented value passed =>
      apart.refreshes userId presented value ⟨passed.1, nofun⟩⟩
  | @store _ payload own =>
    refine ⟨fun key value ttl key' value' ttl' stores stores' same => ?_,
      fun userId presented value passed =>
        apart.refreshes userId presented value ⟨passed.1, nofun⟩⟩
    cases stores
    obtain ⟨_, entry, here, _, of_value⟩ := sound.pending key' value' ttl' stores'
    obtain ⟨payloads, issued⟩ := distinct payload entry.1 _ entry.2 (same.trans of_value)
    refine fresh payload rfl ?_
    rw [payloads, issued]
    exact here

/-! ### The end of a refresh -/

/-- The state once a refresh has stored the successor of its token and is noted. -/
def noted (state : AuthState) (presented : String) : AuthState :=
  { state with accepted := presented :: state.accepted }

/-- **Noting an accepted token** keeps the invariant of the state, once its successor is stored. -/
theorem noted_kept {request : Request} {userId : Uuid} {presented value : String} {ttl : Nat}
    {input : Input} {state : AuthState} (distinct : Distinct h) (clear : input.fault = none)
    (kept : Kept h state)
    (sound : Sound h request (.set (AuthService.refreshKey userId) value ttl) state)
    (passed : Passed request (.set (AuthService.refreshKey userId) value ttl) userId presented) :
    Kept h (noted
      (AuthCall.exec h (.set (AuthService.refreshKey userId) value ttl) input state).2
        presented) := by
  obtain ⟨given, unnoted, owner⟩ := sound.passed userId presented passed
  have fresh := (sound.pending _ _ _ rfl).1
  have after := exec_kept input kept sound
  have effect : (AuthCall.exec h (.set (AuthService.refreshKey userId) value ttl) input state).2 =
      state.set (AuthService.refreshKey userId) value (input.now + ttl) := by
    simp only [AuthCall.exec, clear]
  rw [effect] at after ⊢
  refine ⟨List.nodup_cons.mpr ⟨unnoted, after.once⟩, fun other member => ?_, after.handed,
    fun key entry found => ?_⟩
  · rcases List.mem_cons.mp member with rfl | before
    · exact List.mem_cons_of_mem _ given
    · exact after.accepted other before
  · obtain ⟨handed, unaccepted, owned⟩ := after.cached key entry found
    refine ⟨handed, fun member => ?_, owned⟩
    rcases List.mem_cons.mp member with same | before
    · by_cases replaced : key = AuthService.refreshKey userId
      · -- the entry is the successor, which was not handed out before
        subst replaced
        simp only [noted, AuthState.set, Function.update_self, Option.some.injEq] at found
        rw [← found] at same
        have here : value = presented := same
        exact fresh (here ▸ given)
      · exact replaced ((same ▸ owned).same_key distinct owner)
    · exact unaccepted before

/-- What noting an accepted token leaves of the invariant of another request: it is not a refresh of
that user past its check. -/
theorem noted_sound {other : Request} {waiting : AuthCall} {state : AuthState} {userId : Uuid}
    {presented : String} (distinct : Distinct h) (sound : Sound h other waiting state)
    (owner : Of h (AuthService.refreshKey userId) presented)
    (apart : ∀ value, ¬Passed other waiting userId value) :
    Sound h other waiting (noted state presented) := by
  refine ⟨sound.pending, fun user value passed => ?_⟩
  obtain ⟨given, unnoted, owned⟩ := sound.passed user value passed
  refine ⟨given, fun member => ?_, owned⟩
  rcases List.mem_cons.mp member with rfl | before
  · have same := refreshKey_injective (owned.same_key distinct owner)
    exact apart value (same ▸ passed)
  · exact unnoted before

/-! ### The step -/

theorem leave_error (state : AuthState) (request : Request) (error : Err) :
    request.leave state (.error error) = state := by
  cases request <;> rfl

/-- A request that waits at a call. -/
theorem rotation_calls {pool : Pool} {slot : Nat} {request : Request} {call : AuthCall}
    {next : Except Err (AuthResp call) → AuthSvc Reply} {state : AuthState}
    (rotation : Rotation h pool) (kept : Kept h state) (sound : Sound h request call state)
    (sounds : ∀ (other : Nat) (waiting : Thread), other ≠ slot →
      pool.thread other = some waiting → Sound h waiting.label waiting.request state)
    (apart : ∀ (other : Nat) (waiting : Thread), other ≠ slot →
      pool.thread other = some waiting → Apart request call waiting.label waiting.request) :
    Rotation h ((system h).place slot request (.calling call next) state pool.thread) := by
  refine ⟨kept, ?_, ?_⟩
  · refine (system h).attached_place (fun call next stops => ?_)
      fun other waiting different found call next same => ?_
    · cases stops
      intro call next same
      cases same
      exact sound
    · cases same
      exact sounds other waiting different found
  · refine (system h).compatible_place apart_symm rotation.apart
      fun call next stops other waiting different found => ?_
    cases stops
    exact apart other waiting different found

/-- A request that starts. -/
theorem rotation_start {pool : Pool} {slot : Nat} {request : Request} {call : AuthCall}
    {next : Except Err (AuthResp call) → AuthSvc Reply} (rotation : Rotation h pool)
    (first : opens h request call) :
    Rotation h ((system h).place slot request (.calling call next) pool.shared pool.thread) := by
  obtain ⟨quiet, before⟩ := opens_plain first
  refine rotation_calls rotation rotation.kept (sound_plain quiet before)
    (fun other waiting _ found => rotation.sound other waiting found _ _ rfl) fun _ _ _ _ => ?_
  exact ⟨fun key value ttl _ _ _ stores => absurd stores (quiet key value ttl),
    fun userId presented _ passed => absurd passed (before userId presented)⟩

/-- A request that ends. -/
theorem rotation_ends {pool : Pool} {slot : Nat} {request : Request} {result : Except Err Reply}
    {state : AuthState} (rotation : Rotation h pool) (kept : Kept h (request.leave state result))
    (sounds : ∀ (other : Nat) (waiting : Thread), other ≠ slot →
      pool.thread other = some waiting →
        Sound h waiting.label waiting.request (request.leave state result)) :
    Rotation h ((system h).place slot request (.finished result) state pool.thread) := by
  refine ⟨kept, ?_, ?_⟩
  · refine (system h).attached_place (fun _ _ stops => by cases stops)
      fun other waiting different found call next same => ?_
    cases same
    exact sounds other waiting different found
  · exact (system h).compatible_place apart_symm rotation.apart
      fun _ _ stops => by cases stops

/-- A request that goes on, or ends. -/
theorem rotation_resume {pool : Pool} {slot : Nat} {input : Input} {thread : Thread}
    {stop : Stop Err Input AuthCall AuthResp Reply} (distinct : Distinct h)
    (rotation : Rotation h pool) (orderly : Orderly pool (.resume slot input))
    (busy : pool.thread slot = some thread) (here : Stands h thread.label thread.request)
    (goes : Goes h thread.label thread.request (thread.request.exec h input pool.shared).1 stop) :
    Rotation h ((system h).place slot thread.label stop (thread.request.exec h input pool.shared).2
      pool.thread) := by
  have own : Sound h thread.label thread.request pool.shared :=
    rotation.sound slot thread busy _ _ rfl
  have kept := exec_kept input rotation.kept own
  obtain ⟨reads, fresh⟩ := orderly thread busy
  have others (other : Nat) (waiting : Thread) (different : other ≠ slot)
      (found : pool.thread other = some waiting) :
      Apart thread.label thread.request waiting.label waiting.request ∧
        Sound h waiting.label waiting.request pool.shared :=
    ⟨rotation.apart slot other thread waiting (Ne.symm different) busy found,
      rotation.sound other waiting found _ _ rfl⟩
  have sounds (other : Nat) (waiting : Thread) (different : other ≠ slot)
      (found : pool.thread other = some waiting) :
      Sound h waiting.label waiting.request (thread.request.exec h input pool.shared).2 :=
    exec_sound input (others other waiting different found).1
      (others other waiting different found).2
  cases stop with
  | calling call next =>
    have advances := goes_advances here goes
    refine rotation_calls rotation kept (advances_sound distinct rotation.kept own advances fresh)
      sounds fun other waiting different found => ?_
    obtain ⟨apart, sound⟩ := others other waiting different found
    exact advances_apart distinct apart sound advances
      (fun userId email presented key is_request reads_key =>
        reads userId email presented key is_request reads_key other waiting different found) fresh
  | finished result =>
    cases result with
    | error error =>
      refine rotation_ends rotation ?_ fun other waiting different found => ?_
      · rw [leave_error]
        exact kept
      · rw [leave_error]
        exact sounds other waiting different found
    | ok reply =>
      cases label : thread.label with
      | refresh userId email presented =>
        obtain ⟨payload, value, own_payload, clear, stores⟩ | ⟨_, logout⟩ := goes_returns here goes
        · have passed : Passed thread.label thread.request userId presented :=
            ⟨⟨email, label⟩, fun key same => by rw [stores] at same; cases same⟩
          have is_user : payload = ⟨userId, email⟩ := by
            rw [label] at own_payload
            exact own_payload
          subst is_user
          have owner := (own.passed userId presented passed).2.2
          refine rotation_ends rotation ?_ fun other waiting different found => ?_
          · rw [stores] at own passed ⊢
            exact noted_kept distinct clear rotation.kept own passed
          · exact noted_sound distinct (sounds other waiting different found) owner
              fun value => (others other waiting different found).1.refreshes userId presented value
                passed
        · rw [label] at logout
          cases logout
      | register dto => exact rotation_ends rotation kept sounds
      | login dto => exact rotation_ends rotation kept sounds
      | logout userId => exact rotation_ends rotation kept sounds

/-- **An orderly move keeps the invariant.** -/
theorem rotation_act {pool pool' : Pool} {move : Move} (distinct : Distinct h)
    (shaped : Shaped h pool) (rotation : Rotation h pool) (orderly : Orderly pool move)
    (moved : (system h).act pool move = some pool') : Rotation h pool' := by
  obtain ⟨slot, request, input, call, next, rfl, _, first, rfl⟩ |
    ⟨slot, input, thread, stop, rfl, busy, here, goes, _, rfl⟩ := act_goes shaped moved
  · exact rotation_start rotation first
  · exact rotation_resume distinct rotation orderly busy here goes

end Steps

/-! ### Orderly runs -/

/-- **Every refresh token is accepted at most once**, in every orderly run from an empty cache. -/
theorem accepted_once (h : AuthHelpers) (distinct : Distinct h) (store : Store) (moves : List Move)
    (pool : Pool)
    (orderly :
      (system h).Meets Orderly (Machine.Pool.idle ⟨store, fun _ => none, [], [], []⟩) moves)
    (reached : (system h).run (Machine.Pool.idle ⟨store, fun _ => none, [], [], []⟩) moves =
      some pool) :
    pool.shared.accepted.Nodup := by
  have begins : Rotation h (Machine.Pool.idle ⟨store, fun _ => none, [], [], []⟩) := by
    refine ⟨⟨List.nodup_nil, nofun, nofun, nofun⟩, ?_, ?_⟩
    · intro slot thread busy
      cases busy
    · intro slot other thread waiting _ busy
      cases busy
  exact ((system h).run_reached begins (fun _ _ _ _ here rotation met moved =>
    rotation_act distinct (run_shaped here) rotation met moved) orderly reached).kept.once

namespace Example

/-- The characters of a text, set off from a separator. -/
def quoted (text : String) : List Char := text.toList.flatMap fun char => ['.', char]

theorem quoted_inj {first second : List Char} :
    ∀ {other rest : List Char},
      first.flatMap (fun char => ['.', char]) ++ '|' :: other =
        second.flatMap (fun char => ['.', char]) ++ '|' :: rest → first = second ∧
          other = rest := by
  induction first generalizing second with
  | nil =>
    intro other rest same
    cases second with
    | nil => simpa using same
    | cons char second => simp at same
  | cons char first ih =>
    intro other rest same
    cases second with
    | nil => simp at same
    | cons char' second =>
      simp only [List.flatMap_cons, List.cons_append, List.nil_append, List.cons.injEq, true_and]
        at same
      obtain ⟨rfl, later⟩ := same
      obtain ⟨rfl, rfl⟩ := ih later
      exact ⟨rfl, rfl⟩

/-- A signature that shows the payload and the second. -/
def helpers : AuthHelpers where
  signAsync payload _ second := String.ofList
    (quoted payload.sub ++ '|' :: (quoted payload.email ++ '|' :: List.replicate second '1'))
  secret _ := ""
  hash password _ := password
  compare _ _ := true
  lower text := text

theorem distinct : Distinct helpers := by
  intro payload payload' second second' same
  have chars := congrArg String.toList same
  simp only [token, helpers, String.toList_ofList, quoted] at chars
  obtain ⟨subs, rest⟩ := quoted_inj chars
  obtain ⟨emails, times⟩ := quoted_inj rest
  have issued := congrArg List.length times
  simp only [List.length_replicate] at issued
  cases payload
  cases payload'
  exact ⟨by rw [JwtPayload.mk.injEq]; exact ⟨String.toList_inj.mp subs,
    String.toList_inj.mp emails⟩,
    issued⟩

/-- One user. -/
def store : Store :=
  ⟨fun | .users => [⟨"u", "Ann", "a", "", true⟩] | _ => [], [], 0, [], fun _ _ => none⟩

def start : AuthState := ⟨store, fun _ => none, [], [], []⟩

/-- An input of a second. -/
def at_ (second : Nat) : Input := { WaAutomation.Example.fine with now := second * 1000 }

/-- The token of the first second. -/
def first : String := token helpers ⟨"u", "a"⟩ 1

/-- A login in the first second. -/
def login : List Move :=
  .start 0 (.login ⟨"a", ""⟩) (at_ 1) :: List.replicate 4 (.resume 0 (at_ 1))

/-- A refresh in a later second. -/
def refresh : List Move :=
  .start 0 (.refresh "u" "a" first) (at_ 2) :: List.replicate 4 (.resume 0 (at_ 2))

/-- Two refreshes that both read the cache before either stores its token. -/
def overlapping : List Move :=
  [.start 1 (.refresh "u" "a" first) (at_ 2), .start 2 (.refresh "u" "a" first) (at_ 2),
    .resume 1 (at_ 2), .resume 2 (at_ 2)] ++
  List.replicate 3 (.resume 1 (at_ 3)) ++ List.replicate 3 (.resume 2 (at_ 4))

end Example

/-- The second part of the condition, as a check. -/
def signsFresh (pool : Pool) : Move → Bool
  | .start _ _ _ => true
  | .resume slot input =>
      match (pool.thread slot).map Machine.Thread.request with
      | some (.sign payload .refresh) => (payload, seconds input.now) ∉ pool.shared.signed
      | _ => true

theorem orderly_of {pool : Pool} {move : Move}
    (free : ∀ other, other ≠ 0 → pool.thread other = none) (only : move.slot = 0)
    (fresh : signsFresh pool move = true) : Orderly pool move := by
  cases move with
  | start slot request input => trivial
  | resume slot input =>
    intro thread busy
    obtain rfl : slot = 0 := only
    refine ⟨fun _ _ _ _ _ _ other waiting different found => ?_, fun payload signs => ?_⟩
    · rw [free other different] at found
      cases found
    · simpa [signsFresh, busy, signs] using fresh

theorem accepted_once_example :
    ∃ pool, (system Example.helpers).run (Machine.Pool.idle Example.start)
      (Example.login ++ Example.refresh) = some pool ∧ pool.shared.accepted = [Example.first] ∧
        pool.shared.accepted.Nodup := by
  have only : ∀ move ∈ Example.login ++ Example.refresh, move.slot = 0 := by
    simp [Example.login, Example.refresh, Machine.Move.slot]
  have orderly : (system Example.helpers).Meets Orderly (Machine.Pool.idle Example.start)
      (Example.login ++ Example.refresh) := by
    have fresh := (system Example.helpers).meets_of_checks
      (show (system Example.helpers).checks signsFresh (Machine.Pool.idle Example.start)
        (Example.login ++ Example.refresh) = true from rfl)
    have single : (system Example.helpers).Meets
        (fun pool _ => ∀ other, other ≠ 0 → pool.thread other = none)
        (Machine.Pool.idle Example.start) (Example.login ++ Example.refresh) :=
      (system Example.helpers).meets_single only fun _ _ => rfl
    have slots := (system Example.helpers).meets_of_forall
      (fun move member _ => only move member) (Machine.Pool.idle Example.start)
    exact (system Example.helpers).meets_mono
      (fun _ _ all => orderly_of all.1 all.2.1 all.2.2)
      ((system Example.helpers).meets_and single
        ((system Example.helpers).meets_and slots fresh))
  exact ⟨_, rfl, rfl, accepted_once Example.helpers Example.distinct Example.store _ _ orderly rfl⟩

/-- **A token accepted twice**: two overlapping refreshes. -/
theorem accepted_twice :
    ∃ pool, (system Example.helpers).run (Machine.Pool.idle Example.start)
      (Example.login ++ Example.overlapping) = some pool ∧
        pool.shared.accepted = [Example.first, Example.first] ∧ ¬pool.shared.accepted.Nodup :=
  ⟨_, rfl, rfl, by decide⟩

/-- Two refreshes one after the other, in the second of the login. -/
example : ((system Example.helpers).run (Machine.Pool.idle Example.start)
    (Example.login ++
      .start 0 (.refresh "u" "a" Example.first) (Example.at_ 1) ::
        List.replicate 4 (.resume 0 (Example.at_ 1)) ++
      .start 0 (.refresh "u" "a" Example.first) (Example.at_ 1) ::
        List.replicate 4 (.resume 0 (Example.at_ 1)))).map (fun pool => pool.shared.accepted) =
    some [Example.first, Example.first] := rfl

end WaAutomation.Auth
