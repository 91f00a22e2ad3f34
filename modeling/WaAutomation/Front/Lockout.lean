/-
**The bearer tokens of a removed user are refused.**

A bearer token stays valid until it expires, also when its user is removed. The bearer guard loads
the user for each request, so from the removal on every request that presents such a token on a
route behind the guard is refused, unless the row comes back: `save` inserts an entity again whose
row is gone. A removal is undisturbed when no other request of the user is in flight. Registration,
login and refresh are not behind this guard, and a refresh token is no bearer token: what becomes of
it is not said here.

* `Out` is the invariant after the removal: no row of the user is stored, and whatever presents a
  token of the user waits at the lookup of the guard;
* `out_act` is its step lemma, `removal_out` says that it holds after the removal, and `locked_out`
  is about all runs from there.
-/

import WaAutomation.Front.Authentication

set_option linter.unusedSectionVars false

namespace WaAutomation.Front

open Library Program

/-! ### The invariant -/

/-- The request goes through the bearer guard with a token of the user. -/
def Presents (g : HttpHelpers) (uid : Uuid) : Request → Prop
  | .http ⟨some bearer, _, _, _, .guarded _⟩ =>
      ∃ payload, g.payload bearer = some payload ∧ payload.sub = uid
  | _ => False

def refused : Err := .http 401 "User no longer valid"

/-- The program waits at the lookup of the user, and is refused when that finds none or fails. -/
def Waits (uid : Uuid) (program : Svc Unit) : Prop :=
  ∃ payload next, payload.sub = uid ∧ program = Program.call (lookup payload) next ∧
    next (.ok []) = Program.throw refused ∧ ∀ error, next (.error error) = Program.throw refused

/-- No row of the user is stored, and whatever presents a token of the user waits at the guard. -/
structure Out (g : HttpHelpers) (uid : Uuid) (pool : Pool) : Prop where
  rows : ∀ user ∈ pool.shared.db .users, user.id ≠ uid
  waits : pool.Attached fun _ request program _ => Presents g uid request → Waits uid program

section Steps

variable {h : Helpers} {g : HttpHelpers} {uid : Uuid}

/-- A request with a token of the user stops at the lookup, or is refused at once. -/
theorem presents_settle {request : Request} (presents : Presents g uid request) (reading : Input) :
    (∃ error, (request.program h g).settle reading = .finished (.error error)) ∨
      ∃ call next, (request.program h g).settle reading = .calling call next ∧
        Waits uid (Program.call call next) := by
  cases request with
  | http incoming =>
    obtain ⟨token, masterKey, header, query, target⟩ := incoming
    cases token with
    | none => cases presents
    | some bearer =>
      cases target with
      | guarded route =>
        obtain ⟨payload, carries, sub⟩ := presents
        simp only [Request.program, Incoming.program, JwtAuthGuard.canActivate, Svc.now,
          Program.ambient_bind, Program.ret_bind, Program.settle_ambient, Option.bind_some]
        unfold HttpHelpers.verify
        by_cases fresh : g.fresh bearer reading.now = true
        · rw [if_pos fresh, carries]
          exact .inr ⟨_, _, rfl, payload, _, sub, rfl, rfl, fun _ => rfl⟩
        · rw [if_neg fresh]
          exact .inl ⟨_, rfl⟩
      | _ => cases presents
  | tick => cases presents
  | job data => cases presents

/-- A request that waits is refused when the row is gone. -/
theorem waits_refused {call : Call} {next : Except Err (Resp call) → Svc Unit} {input : Input}
    {store : Store} (waits : Waits uid (Program.call call next))
    (rows : ∀ user ∈ store.db .users, user.id ≠ uid) :
    next (exec call input store).1 = Program.throw refused ∧
      (exec call input store).2 = store := by
  obtain ⟨payload, rest, sub, same, none, fails⟩ := waits
  cases same
  refine ⟨?_, exec_reads rfl _ _⟩
  obtain ⟨error, failed⟩ | found :=
    exec_find .users (fun user => user.id == payload.sub) input store
  · rw [failed]
    exact fails error
  · rw [found]
    have empty : (store.db .users).filter (fun user => user.id == payload.sub) = [] :=
      List.filter_eq_nil_iff.mpr fun user member => by
        rw [beq_iff_eq, sub]
        exact rows user member
    exact empty ▸ none

/-- A token that the request did not present does not act for the user. -/
theorem authentic_presents {real : Input → Prop} {seen : User → Prop} {incoming : Incoming}
    {route : Route} (guarded : incoming.target = .guarded route)
    (authentic : Authentic g real seen incoming.token uid) : Presents g uid (.http incoming) := by
  obtain ⟨token, masterKey, header, query, target⟩ := incoming
  obtain ⟨payload, _, ⟨bearer, input, rfl, _, verified⟩, sub, _⟩ := authentic
  cases guarded
  refine ⟨payload, ?_, sub⟩
  unfold HttpHelpers.verify at verified
  by_cases fresh : g.fresh bearer input.now = true
  · rwa [if_pos fresh] at verified
  · rw [if_neg fresh] at verified
    cases verified

/-- **No call of another request brings the row of the user back.** -/
theorem allowed_out {real : Input → Prop} {stored : (table : Table) → Row table → Prop}
    {request : Request} {call : Call} {input : Input} {store : Store}
    (allowed : Allowed g real stored request call) (absent : ¬Presents g uid request)
    (fresh : input.ids 0 ≠ uid) (rows : ∀ user ∈ store.db .users, user.id ≠ uid) :
    ∀ user ∈ (exec call input store).2.db .users, user.id ≠ uid := by
  have quiet (kept : call.writes .users = false) :
      ∀ user ∈ (exec call input store).2.db .users, user.id ≠ uid := by
    rw [exec_other call input store kept]
    exact rows
  by_cases writes : call.writes .users = true
  swap
  · exact quiet (Bool.eq_false_iff.mpr writes)
  intro user member same
  cases request with
  | http incoming =>
    obtain ⟨token, masterKey, header, query, target⟩ := incoming
    cases target with
    | guarded route =>
      obtain ⟨payload, _, rfl⟩ | ⟨other, authentic, grants⟩ := allowed
      · cases writes
      · have apart : user.id ≠ other := fun is =>
          absent (authentic_presents rfl ((is.symm.trans same) ▸ authentic))
        exact rows user ((exec_own grants.own input store apart).mp member) same
    | inbound dto => cases List.mem_singleton.mp (allowed.2.rows .users writes)
    | register dto =>
      obtain reads | ⟨draft, rfl, id⟩ := allowed
      · rw [call.reads_writes reads] at writes
        cases writes
      · obtain ⟨_, failed⟩ | ⟨_, _, drafts, _, inserted⟩ :=
          exec_insert .users (some draft) input store
        · rw [failed] at member
          exact rows user member same
        · rw [inserted] at member
          cases drafts
          have listed : user ∈ store.db.push .users (draft input) .users := member
          rw [Db.push, Db.set_same, List.mem_append, List.mem_singleton] at listed
          obtain old | rfl := listed
          · exact rows user old same
          · exact fresh ((id input).symm.trans same)
    | hook token body => cases allowed.rows .users writes
    | health => exact allowed
  | tick => cases allowed.rows .users writes
  | job data =>
    have listed := allowed.rows .users writes
    cases data <;> simp [Authority.rows] at listed

/-- **The user stays out**: every move keeps the invariant, as long as no new user gets the id. -/
theorem out_act {start : Store} {past : List Move} {pool pool' : Pool} {move : Move}
    (reached : (system h g).run (Machine.Pool.idle start) past = some pool) (out : Out g uid pool)
    (fresh : move.input.ids 0 ≠ uid) (moved : (system h g).act pool move = some pool') :
    Out g uid pool' := by
  obtain ⟨slot, request, input, rfl, _, _, rfl⟩ | ⟨slot, input, thread, rfl, busy, rfl⟩ :=
    (system h g).act_cases moved
  · refine ⟨?_, (system h g).attached_place (fun call next stops presents => ?_)
      fun other waiting _ found => out.waits other waiting found⟩
    · rw [system, services_shared]
      exact out.rows
    · obtain ⟨error, ends⟩ | ⟨call', next', stops', waits⟩ := presents_settle presents input
      · cases ends.symm.trans stops
      · cases stops'.symm.trans stops
        exact waits
  · by_cases presents : Presents g uid thread.label
    · obtain ⟨refuses, same⟩ := waits_refused (out.waits slot thread busy presents) out.rows
      refine ⟨?_, (system h g).attached_place (fun call next stops _ => ?_)
        fun other waiting _ found => out.waits other waiting found⟩
      · rw [system, services_shared]
        show ∀ row ∈ (exec thread.request input pool.shared).2.db .users, row.id ≠ uid
        rw [same]
        exact out.rows
      · rw [show thread.next ((system h g).exec thread.request input pool.shared).1 = _
          from refuses] at stops
        cases stops
    · refine ⟨?_, (system h g).attached_place (fun call next _ here => absurd here presents)
        fun other waiting _ found => out.waits other waiting found⟩
      rw [system, services_shared]
      exact allowed_out (pending_allowed reached busy) presents fresh out.rows

/-- **The removal**, when no other request of the user is in flight. -/
theorem removal_out {pool pool' : Pool} {slot : Nat} {input : Input}
    {thread : Machine.Thread Err Input Call Resp Request Unit} {user : User}
    (busy : pool.thread slot = some thread) (removes : thread.request = .remove .users user)
    (clear : input.fault = none) (ends : (system h g).Ends pool slot thread.label input (.ok ()))
    (others : ∀ other waiting, other ≠ slot → pool.thread other = some waiting →
      ¬Presents g user.id waiting.label)
    (moved : (system h g).act pool (.resume slot input) = some pool') : Out g user.id pool' := by
  obtain ⟨_, _, _, same, _⟩ | ⟨_, _, _, same, found, rfl⟩ := (system h g).act_cases moved
  · cases same
  cases same
  cases busy.symm.trans found
  refine ⟨?_, (system h g).attached_place (fun call next stops _ => ?_)
    fun other waiting different found here => absurd here (others other waiting different found)⟩
  · rw [system, services_shared]
    show ∀ row ∈ (exec thread.request input pool.shared).2.db .users, row.id ≠ user.id
    rw [removes, exec_clear _ clear]
    intro row member same
    have listed : row ∈ pool.shared.db.remove .users user .users := member
    rw [Db.remove, Db.erase, Db.set_other _ (by decide), Db.erase, Db.set_same,
      List.mem_filter] at listed
    simp [Db.sameKey, Row.key, same] at listed
  · obtain ⟨_, busy', _, finishes⟩ := ends
    cases busy.symm.trans busy'
    cases finishes.symm.trans stops

end Steps

/-! ### Runs -/

section Runs

variable {h : Helpers} {g : HttpHelpers} {start : Store}

/-- **A removed user is locked out of the routes behind the bearer guard.** Once a removal has
returned during which no other request of the user was in flight, and as long as no new user gets
the same id, no row of the user is stored in any later state, and whatever presents a bearer token
of the user on such a route waits at the lookup of the guard and is refused there, without any
change. -/
theorem locked_out {moves later : List Move} {pool pool' pool'' : Pool} {slot : Nat}
    {input : Input} {thread : Machine.Thread Err Input Call Resp Request Unit} {user : User}
    (reached : (system h g).run (Machine.Pool.idle start) moves = some pool)
    (busy : pool.thread slot = some thread) (removes : thread.request = .remove .users user)
    (clear : input.fault = none) (ends : (system h g).Ends pool slot thread.label input (.ok ()))
    (others : ∀ other waiting, other ≠ slot → pool.thread other = some waiting →
      ¬Presents g user.id waiting.label)
    (moved : (system h g).act pool (.resume slot input) = some pool')
    (fresh : ∀ move ∈ later, move.input.ids 0 ≠ user.id)
    (reached' : (system h g).run pool' later = some pool'') :
    (∀ row ∈ pool''.shared.db .users, row.id ≠ user.id) ∧
    ∀ slot waiting, pool''.thread slot = some waiting → Presents g user.id waiting.label →
      (∃ payload, waiting.request = lookup payload) ∧
      ∀ input, (waiting.next (exec waiting.request input pool''.shared).1).settle input =
          .finished (.error refused) ∧
        (exec waiting.request input pool''.shared).2 = pool''.shared := by
  let held (past : List Move) (pool : Pool) : Prop :=
    (system h g).run (Machine.Pool.idle start) past = some pool ∧ Out g user.id pool
  have runs {past : List Move} {pool pool' : Pool} {move : Move}
      (here : (system h g).run (Machine.Pool.idle start) past = some pool)
      (moved : (system h g).act pool move = some pool') :
      (system h g).run (Machine.Pool.idle start) (past ++ [move]) = some pool' := by
    rw [Machine.run_append, here, Option.bind_some, Machine.run, moved]
    rfl
  have begins : held (moves ++ [.resume slot input]) pool' :=
    ⟨runs reached moved, removal_out busy removes clear ends others moved⟩
  have step (past : List Move) (pool : Pool) (move : Move) (pool' : Pool) (here : held past pool)
      (drawn : move ∈ later) (moved : (system h g).act pool move = some pool') :
      held (past ++ [move]) pool' :=
    ⟨runs here.1 moved, out_act here.1 here.2 (fresh move drawn) moved⟩
  have out := ((system h g).run_history begins step (fun before move after same => by
    rw [same]
    exact List.mem_append_right _ List.mem_cons_self) reached').2
  refine ⟨out.rows, fun slot waiting found presents => ?_⟩
  have waits := out.waits slot waiting found presents
  have refuses (input : Input) := @waits_refused user.id _ _ input _ waits out.rows
  obtain ⟨payload, _, _, same, _⟩ := id waits
  refine ⟨⟨payload, ?_⟩, fun input => ⟨?_, (refuses input).2⟩⟩
  · injection same
  · rw [(refuses input).1]
    rfl

end Runs

namespace Example

/-- The user removes the account, up to the deletion of the row. -/
def removal : List Move :=
  [.start 0 (.http ⟨some "t", none, none, none, .guarded .removeMe⟩) WaAutomation.Example.fine,
    .resume 0 WaAutomation.Example.fine, .resume 0 WaAutomation.Example.fine]

/-- The user adds a webhook. -/
def later : List Move := [.start 1 (.http incoming) WaAutomation.Example.fine]

theorem alone {pool : Pool}
    (reached : (system WaAutomation.Example.helpers helpers).run (Machine.Pool.idle Guard.shops)
      removal = some pool) {other : Nat} (different : other ≠ 0) : pool.thread other = none := by
  have unused : ∀ move ∈ removal, move.slot ≠ other := by
    simp [removal, Machine.Move.slot, Ne.symm different]
  rw [(system WaAutomation.Example.helpers helpers).run_other unused reached]
  rfl

end Example

/-- The webhook a removed user asks for is refused. -/
theorem locked_out_example :
    ∃ pool pool' pool'' waiting,
      (system WaAutomation.Example.helpers Example.helpers).run (Machine.Pool.idle Guard.shops)
        Example.removal = some pool ∧
      (system WaAutomation.Example.helpers Example.helpers).act pool
        (.resume 0 WaAutomation.Example.fine) = some pool' ∧
      (system WaAutomation.Example.helpers Example.helpers).run pool' Example.later = some pool'' ∧
      pool''.thread 1 = some waiting ∧
      (waiting.next (exec waiting.request WaAutomation.Example.fine pool''.shared).1).settle
        WaAutomation.Example.fine = .finished (.error refused) := by
  refine ⟨_, _, _, _, rfl, rfl, rfl, rfl, ?_⟩
  have out := @locked_out WaAutomation.Example.helpers Example.helpers Guard.shops Example.removal
    Example.later _ _ _ 0 WaAutomation.Example.fine _ ⟨"u", "Ann", "ann@example.com", "", true⟩ rfl
    rfl rfl rfl ⟨_, rfl, rfl, rfl⟩ (fun other waiting different found => ?_) rfl ?_ rfl
  · exact ((out.2 1 _ rfl ⟨_, rfl, rfl⟩).2 _).1
  · rw [Example.alone rfl different] at found
    cases found
  · intro move member
    cases List.mem_singleton.mp member
    decide

end WaAutomation.Front
