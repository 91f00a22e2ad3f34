/-
**Sequences of operations on users, workspaces and memberships.**

An operation is a call of `WorkspacesService`, or of `UsersService.create` or `remove`, with the
inputs of its calls (clock, ids, failures of the database); it runs alone on the store the
operations before it left.

* `Written` says what the write of one row does to the tables, `exec_save_written` and
  `exec_insert_written` that `save` and `insert` do that or nothing;
* `Acts` lists what an operation can do, with everything it found out before it did it, and
  `step_acts` says that it does nothing else.
-/

import WaAutomation.Model.Accounts
import WaAutomation.Tenancy.Guard

set_option linter.unusedSectionVars false

namespace WaAutomation.Accounts

open Library Program

/-! ### Operations -/

inductive Request where
  | create (userId : Uuid) (dto : CreateWorkspaceDto)
  | update (id userId : Uuid) (dto : UpdateWorkspaceDto)
  | remove (id userId : Uuid)
  | invite (id userId : Uuid) (dto : InviteMemberDto)
  | removeMember (id userId targetUserId : Uuid)
  | createUser (data : RegisterDto)
  | removeUser (id : Uuid)

def Request.program (k : AccountHelpers) : Request → Svc Unit
  | .create userId dto => do
      let _ ← WorkspacesService.create k userId dto
  | .update id userId dto => do
      let _ ← WorkspacesService.update k id userId dto
  | .remove id userId => WorkspacesService.remove id userId
  | .invite id userId dto => do
      let _ ← WorkspacesService.invite k id userId dto
  | .removeMember id userId targetUserId => do
      let _ ← WorkspacesService.removeMember id userId targetUserId
  | .createUser data => do
      let _ ← UsersService.create k data
  | .removeUser id => UsersService.remove id

/-- The operations that only delete. -/
def Request.removes : Request → Bool
  | .remove _ _ | .removeMember _ _ _ | .removeUser _ => true
  | _ => false

theorem Request.program_light (k : AccountHelpers) (request : Request)
    (removes : request.removes = true) : Light (request.program k) := by
  have managed (id userId : Uuid) (roles : List String) :=
    light_of_reads (WorkspacesService.assertRole_reads (some id) userId roles)
  cases request with
  | remove id userId =>
    refine calls_bind (managed id userId _) fun _ => calls_bind ?_ fun row => calls_call rfl
    refine calls_bind (calls_findOne rfl) fun found => ?_
    cases found <;> trivial
  | removeMember id userId targetUserId =>
    refine calls_bind (calls_bind (managed id userId _) fun _ =>
      calls_bind (calls_findOne rfl) fun found => ?_) fun _ => trivial
    cases found with
    | none => trivial
    | some member =>
      dsimp only
      split
      · trivial
      · exact remove_light .members member _
  | removeUser id =>
    refine calls_bind ?_ fun user => calls_call rfl
    refine calls_bind (calls_findOne rfl) fun found => ?_
    cases found <;> trivial
  | _ => cases removes

/-- An operation with the inputs of its calls. -/
structure Step where
  request : Request
  tape : Tape Input

def Step.after (k : AccountHelpers) (store : Store) (step : Step) : Store :=
  ((step.request.program k).run exec step.tape store).2.2

/-- The store after a sequence of operations. -/
def after (k : AccountHelpers) (start : Store) (steps : List Step) : Store :=
  steps.foldl (Step.after k) start

theorem after_append (k : AccountHelpers) (start : Store) (steps : List Step) (step : Step) :
    after k start (steps ++ [step]) = step.after k (after k start steps) :=
  List.foldl_append.trans rfl

/-! ### Writes of one row -/

/-- A row was written: over the stored one with its key, or as a new one. -/
structure Written (before after : Db) (table : Table) (row : Row table) : Prop where
  rows : ∀ other, other ∈ after table ↔
    other = row ∨ other ∈ before table ∧ other.key table ≠ row.key table
  others : ∀ other, other ≠ table → after other = before other

theorem put_written {db : Db} {table : Table} {row stored : Row table} (member : stored ∈ db table)
    (same : stored.key table = row.key table) : Written db (db.put table row) table row := by
  refine ⟨fun other => ?_, fun other different => Db.put_other db different row⟩
  rw [Db.put, Db.set_same, Rows.mem_put, or_comm]
  exact or_congr_left ⟨And.left, fun is => ⟨is, stored, member, same⟩⟩

theorem push_written {db : Db} {table : Table} {row : Row table}
    (fresh : (db table).any (Db.sameKey row) = false) :
    Written db (db.push table row) table row := by
  refine ⟨fun other => ?_, fun other different => Db.push_other db different row⟩
  rw [Db.push, Db.set_same, List.mem_append, List.mem_singleton, or_comm]
  refine or_congr_right ⟨fun member => ⟨member, fun same => ?_⟩, And.left⟩
  rw [List.any_eq_false] at fresh
  exact fresh other member (decide_eq_true same.symm)

/-- The outcomes of the `save` of an entity that is written as one row with its key, as the table
keeps it. -/
theorem exec_save_written (table : Table) (entity : Entity (Row table)) (row : Row table)
    (onto : ∀ stored written, entity.onto stored = some written → written = row)
    (anew : ∀ written, entity.anew = some written → written = row)
    (key : row.key table = entity.row.key table) (input : Input) (store : Store) :
    (∃ error, exec (.save table entity) input store = (.error error, store)) ∨
    ∃ db, input.fault = none ∧ store.db.check table row = .ok () ∧
      Written store.db db table (row.held table) ∧
      exec (.save table entity) input store = (.ok (), { store with db := db }) := by
  obtain failed | ⟨clear, performed⟩ := exec_storage (.save table entity) rfl input store
  · exact .inl failed
  rw [performed]
  obtain ⟨error, failed⟩ | ⟨stored, written, found, writes, checked, saved⟩ |
      ⟨written, gone, writes, checked, saved⟩ := store.save_cases table entity
  · exact .inl ⟨error, failed⟩
  · obtain rfl := onto stored written writes
    have same : entity.row.key table = stored.key table := by
      simpa [Db.sameKey] using List.find?_some found
    exact .inr ⟨_, clear, checked,
      put_written (List.mem_of_find?_eq_some found)
        ((same.symm.trans key.symm).trans (Row.held_key table _).symm), saved⟩
  · obtain rfl := anew written writes
    refine .inr ⟨_, clear, checked,
      push_written (List.any_eq_false.mpr fun other member same => ?_), saved⟩
    have missed := List.find?_eq_none.mp gone other member
    simp only [Db.sameKey, decide_eq_true_eq, Row.held_key] at same missed
    exact missed (key.symm.trans same)

/-- The outcomes of the `save` of an entity with every column loaded. -/
theorem exec_whole_written (table : Table) (row : Row table) (input : Input) (store : Store) :
    (∃ error, exec (.save table (.whole row)) input store = (.error error, store)) ∨
    ∃ db, input.fault = none ∧ store.db.check table row = .ok () ∧
      Written store.db db table (row.held table) ∧
      exec (.save table (.whole row)) input store = (.ok (), { store with db := db }) :=
  exec_save_written table (.whole row) row (fun _ _ writes => (Option.some.inj writes).symm)
    (fun _ writes => (Option.some.inj writes).symm) rfl input store

/-- A `save` of a row that meets every constraint. -/
theorem exec_whole_fits (store : Store) {table : Table} {row : Row table} {input : Input}
    (clear : input.fault = none) (checked : store.db.check table row = .ok ()) :
    (exec (.save table (.whole row)) input store).1 = .ok () := by
  rw [exec_clear _ clear]
  simp only [perform, Store.save, Entity.whole]
  cases found : (store.db table).find? (Db.sameKey row) with
  | some stored =>
    simp only [Db.replace, checked]
    rfl
  | none =>
    have fresh : (store.db table).any (Db.sameKey row) = false := by
      rw [List.any_eq_false]
      exact List.find?_eq_none.mp found
    simp only [Db.insert, fresh, checked]
    rfl

/-- The outcomes of an insert. -/
theorem exec_insert_written (table : Table) (draft : Input → Row table) (input : Input)
    (store : Store) :
    (∃ error, exec (.insert table (some draft)) input store = (.error error, store)) ∨
    ∃ db owner, input.fault = none ∧ store.db.insert table (draft input) = .ok db ∧
      exec (.insert table (some draft)) input store =
        (.ok (draft input), { store with db := db, owner := owner }) := by
  obtain failed | ⟨clear, performed⟩ := exec_storage (.insert table (some draft)) rfl input store
  · exact .inl failed
  rw [performed]
  simp only [perform, Store.insert]
  cases inserted : store.db.insert table (draft input) with
  | error error => exact .inl ⟨error, rfl⟩
  | ok db =>
    obtain ⟨owner, registered⟩ := Store.register_snd { store with db := db } table (draft input)
    exact .inr ⟨db, owner, clear, rfl, congrArg (Prod.mk _) registered⟩

/-! ### What an operation does -/

/-- The workspace a `create` inserts. -/
def newWorkspace (k : AccountHelpers) (userId : Uuid) (dto : CreateWorkspaceDto)
    (tape : Tape Input) : Workspace :=
  ⟨(tape.later 0).ids 0, dto.name, userId, dto.openwaBaseUrl,
    k.encrypt dto.openwaApiKey tape.now.bytes, true⟩

/-- The role of an invited member. -/
def invitedRole (dto : InviteMemberDto) : String := (orNull dto.role).getD "member"

/-- The user has an account. -/
def HasAccount (db : Db) (userId : Uuid) : Prop := ∃ user ∈ db .users, user.id = userId

/-- The membership a guard finds. -/
def Finds (store : Store) (id userId : Uuid) (member : WorkspaceMember) : Prop :=
  (store.db .members).find? (Guard.admits (some id) userId) = some member

/-- What an operation makes of the tables, with what it found out before. -/
inductive Acts (k : AccountHelpers) (store : Store) : Request → Tape Input → Db → Prop
  | idle (request : Request) (tape : Tape Input) : Acts k store request tape store.db
  | halved (userId : Uuid) (dto : CreateWorkspaceDto) (tape : Tape Input) (db : Db)
      (clear : (tape.later 0).fault = none)
      (inserts : store.db.insert .workspaces (newWorkspace k userId dto tape) = .ok db)
      (fails : ¬((tape.later 1).fault = none ∧ HasAccount store.db userId)) :
      Acts k store (.create userId dto) tape db
  | created (userId : Uuid) (dto : CreateWorkspaceDto) (tape : Tape Input) (first db : Db)
      (inserts : store.db.insert .workspaces (newWorkspace k userId dto tape) = .ok first)
      (parents :
        first.parents .members ⟨(newWorkspace k userId dto tape).id, userId, "owner"⟩ = true)
      (joins : Written first db .members ⟨(newWorkspace k userId dto tape).id, userId, "owner"⟩) :
      Acts k store (.create userId dto) tape db
  | updated (id userId : Uuid) (dto : UpdateWorkspaceDto) (tape : Tape Input) (db : Db)
      (stored row : Workspace) (member : stored ∈ store.db .workspaces) (key : row.id = stored.id)
      (owner : row.ownerId = stored.ownerId) (writes : Written store.db db .workspaces row) :
      Acts k store (.update id userId dto) tape db
  | removed (id userId : Uuid) (tape : Tape Input) (member : WorkspaceMember)
      (workspace : Workspace) (found : Finds store id userId member) (role : member.role = "owner")
      (own : workspace.id = id) :
      Acts k store (.remove id userId) tape (store.db.remove .workspaces workspace)
  | invited (id userId : Uuid) (dto : InviteMemberDto) (tape : Tape Input)
      (member : WorkspaceMember)
      (invitee : User) (db : Db) (clear : ∀ call < 4, (tape.later call).fault = none)
      (found : Finds store id userId member) (manages : managers.contains member.role = true)
      (known : (store.db .users).find? (fun user => user.email == k.lower dto.email) = some invitee)
      (fresh : ∀ other, ¬Finds store id invitee.id other)
      (parents : store.db.parents .members ⟨id, invitee.id, invitedRole dto⟩ = true)
      (writes : Written store.db db .members ⟨id, invitee.id, cut 20 (invitedRole dto)⟩) :
      Acts k store (.invite id userId dto) tape db
  | memberRemoved (id userId targetUserId : Uuid) (tape : Tape Input) (member : WorkspaceMember)
      (found : Finds store id targetUserId member) (role : member.role ≠ "owner") :
      Acts k store (.removeMember id userId targetUserId) tape (store.db.remove .members member)
  | registered (data : RegisterDto) (tape : Tape Input) (db : Db) (row : User)
      (writes : Written store.db db .users row) : Acts k store (.createUser data) tape db
  | userRemoved (id : Uuid) (tape : Tape Input) (user : User)
      (clear : ∀ call < 2, (tape.later call).fault = none)
      (member : user ∈ store.db .users) (key : user.id = id) :
      Acts k store (.removeUser id) tape (store.db.remove .users user)

section Runs

variable {k : AccountHelpers} {tape : Tape Input} {store : Store}

/-- The result of the last call does not matter to the store. -/
theorem run_last {α β : Type} (program : Svc α) (result : α → β) :
    ((program >>= fun value => pure (result value)).run exec tape store).2.2 =
      (program.run exec tape store).2.2 := by
  rw [run_bind]
  obtain ⟨result, _, _⟩ := program.run exec tape store
  cases result <;> rfl

/-- A lookup reads one row. -/
theorem run_lookup (table : Table) (matching : Row table → Bool) (tape : Tape Input)
    (store : Store) :
    ∃ result, (Svc.findOne table matching).run exec tape store = (result, tape.advance, store) ∧
      ∀ found, result = .ok found →
        (tape.later 0).fault = none ∧ (store.db table).find? matching = found := by
  rw [run_findOne]
  cases fault : (tape.later 0).fault with
  | some message => exact ⟨_, rfl, fun _ wrong => (by cases wrong)⟩
  | none => exact ⟨_, rfl, fun _ same => ⟨rfl, Except.ok.inj same⟩⟩

/-- The guard of an operation reads one membership. -/
theorem run_assertRole (id userId : Uuid) (roles : List String) (tape : Tape Input)
    (store : Store) :
    ∃ result, (WorkspacesService.assertRole (some id) userId roles).run exec tape store =
        (result, tape.advance, store) ∧
      ∀ member, result = .ok member → (tape.later 0).fault = none ∧
        Finds store id userId member ∧ roles.contains member.role = true := by
  unfold WorkspacesService.assertRole
  rw [run_bind, Guard.run_assertMember]
  cases fault : (tape.later 0).fault with
  | some message => exact ⟨_, rfl, fun _ wrong => (by cases wrong)⟩
  | none =>
    cases found : (store.db .members).find? (Guard.admits (some id) userId) with
    | none => exact ⟨_, rfl, fun _ wrong => (by cases wrong)⟩
    | some member =>
      dsimp only
      by_cases plays : roles.contains member.role = true
      · rw [if_pos plays]
        refine ⟨_, rfl, fun other same => ?_⟩
        cases same
        exact ⟨rfl, found, plays⟩
      · rw [if_neg plays]
        exact ⟨_, rfl, fun _ wrong => (by cases wrong)⟩

/-- The lookup of a workspace reads one row. -/
theorem run_findById (id : Uuid) (tape : Tape Input) (store : Store) :
    ∃ result, (WorkspacesService.findById id).run exec tape store =
        (result, tape.advance, store) ∧
      ∀ workspace, result = .ok workspace →
        workspace ∈ store.db .workspaces ∧ workspace.id = id := by
  unfold WorkspacesService.findById
  obtain ⟨result, looked, finds⟩ :=
    run_lookup .workspaces (fun workspace => workspace.id == id) tape store
  rw [run_bind, looked]
  cases result with
  | error error => exact ⟨_, rfl, fun _ wrong => (by cases wrong)⟩
  | ok answer =>
    cases answer with
    | none => exact ⟨_, rfl, fun _ wrong => (by cases wrong)⟩
    | some workspace =>
      refine ⟨_, rfl, fun other same => ?_⟩
      cases same
      have found := (finds _ rfl).2
      have hit := List.find?_some found
      exact ⟨List.mem_of_find?_eq_some found, beq_iff_eq.mp hit⟩

/-- The role of an owner has room in its column. -/
theorem held_owner (workspaceId userId : Uuid) :
    Row.held .members ⟨workspaceId, userId, "owner"⟩ = ⟨workspaceId, userId, "owner"⟩ := by
  have short : cut 20 "owner" = "owner" := cut_short (by decide +kernel)
  exact congrArg (WorkspaceMember.mk workspaceId userId) short

/-- A new workspace can be joined by its creator. -/
theorem owner_fits {db : Db} {workspace : Workspace} {userId : Uuid}
    (inserts : store.db.insert .workspaces workspace = .ok db)
    (known : HasAccount store.db userId) :
    db.check .members ⟨workspace.id, userId, "owner"⟩ = .ok () := by
  obtain ⟨_, _, rfl⟩ := Db.insert_ok inserts
  obtain ⟨user, member, rfl⟩ := known
  have there : Db.has (store.db.push .workspaces (Row.held .workspaces workspace)) .workspaces
      workspace.id = true := by
    simp [Db.has, Db.push, Row.key, Row.held]
  have known : Db.has (store.db.push .workspaces (Row.held .workspaces workspace)) .users
      user.id = true := by
    rw [Db.has, Db.push_other store.db (by decide), List.any_eq_true]
    exact ⟨user, member, by simp [Row.key]⟩
  have fits : varchar 20 "owner" = true := by decide +kernel
  simp [Db.check, Row.fits, Db.parents, Row.clash, there, known, fits]

theorem acts_create (userId : Uuid) (dto : CreateWorkspaceDto) :
    Acts k store (.create userId dto) tape
      (Step.after k store ⟨.create userId dto, tape⟩).db := by
  unfold Step.after Request.program
  rw [run_last]
  unfold WorkspacesService.create Svc.randomHex Svc.save Svc.call
  simp only [ambient_bind, ret_bind, run]
  rw [run_bind, run_perform]
  obtain ⟨error, failed⟩ | ⟨first, owner, clear, inserts, inserted⟩ :=
    exec_insert_written .workspaces (fun input => ⟨input.ids 0, dto.name, userId,
      dto.openwaBaseUrl, k.encrypt dto.openwaApiKey tape.now.bytes, true⟩) (tape.later 0) store
  · rw [failed]
    exact .idle _ _
  rw [inserted]
  dsimp only
  rw [run_bind, run_perform]
  obtain ⟨error, failed⟩ | ⟨db, _, checked, written, saved⟩ :=
    exec_whole_written .members ⟨(tape.later 0).ids 0, userId, "owner"⟩ (tape.advance.later 0)
      { store with db := first, owner := owner }
  · rw [failed]
    refine .halved userId dto tape first clear inserts fun fine => ?_
    have fits := exec_whole_fits { store with db := first, owner := owner } fine.1
      (owner_fits inserts fine.2)
    have wrong := congrArg Prod.fst failed
    cases fits.symm.trans wrong
  · rw [saved]
    rw [held_owner] at written
    exact .created userId dto tape first db inserts (Db.check_ok checked).2 written

/-- A call that only reads comes first. -/
theorem acts_after {α β : Type} {request : Request} {full : Tape Input} {program : Svc α}
    {rest : α → Svc β} {result : Except Err α} {tape' : Tape Input}
    (ran : program.run exec tape store = (result, tape', store))
    (later : ∀ value, result = .ok value →
      Acts k store request full ((rest value).run exec tape' store).2.2.db) :
    Acts k store request full ((program >>= rest).run exec tape store).2.2.db := by
  obtain ⟨_, _, ended⟩ | ⟨value, same, continued⟩ := run_after ran
  · rw [ended]
    exact .idle _ _
  · rw [continued]
    exact later value same

/-- What is assigned to a workspace leaves its id and its owner. -/
theorem assign_keeps {workspace row : Workspace} {dto : UpdateWorkspaceDto}
    {openwaApiKey : Field String}
    (assigned : WorkspacesService.assign workspace dto openwaApiKey = some row) :
    row.id = workspace.id ∧ row.ownerId = workspace.ownerId := by
  unfold WorkspacesService.assign at assigned
  split at assigned
  · cases assigned
    exact ⟨rfl, rfl⟩
  · cases assigned

/-- Encrypting needs no call. -/
theorem run_encryptKey (k : AccountHelpers) (field : Field String) (tape : Tape Input)
    (store : Store) :
    ∃ result, (WorkspacesService.encryptKey k field).run exec tape store =
      (result, tape, store) := by
  cases field <;> exact ⟨_, rfl⟩

theorem acts_update (id userId : Uuid) (dto : UpdateWorkspaceDto) :
    Acts k store (.update id userId dto) tape
      (Step.after k store ⟨.update id userId dto, tape⟩).db := by
  unfold Step.after Request.program
  rw [run_last]
  unfold WorkspacesService.update
  obtain ⟨_, guarded, _⟩ := run_assertRole id userId managers tape store
  refine acts_after guarded fun _ _ => ?_
  obtain ⟨_, looked, finds⟩ := run_findById id tape.advance store
  refine acts_after looked fun workspace same => ?_
  have member := (finds workspace same).1
  obtain ⟨_, encrypted⟩ := run_encryptKey k dto.openwaApiKey tape.advance.advance store
  refine acts_after encrypted fun openwaApiKey _ => ?_
  unfold Svc.call
  dsimp only
  rw [run_last, run_perform]
  obtain ⟨row, onto, key, owner⟩ : ∃ row, (∀ written,
      WorkspacesService.assign workspace dto openwaApiKey = some written → written = row) ∧
      row.id = workspace.id ∧ row.ownerId = workspace.ownerId := by
    cases assigned : WorkspacesService.assign workspace dto openwaApiKey with
    | none => exact ⟨workspace, fun _ wrong => (by cases wrong), rfl, rfl⟩
    | some row =>
      exact ⟨row, fun _ same => (Option.some.inj same).symm, assign_keeps assigned⟩
  obtain ⟨_, failed⟩ | ⟨db, _, _, written, saved⟩ := exec_save_written .workspaces
      ⟨workspace, fun _ => WorkspacesService.assign workspace dto openwaApiKey,
        WorkspacesService.assign workspace dto openwaApiKey⟩ row (fun _ => onto) onto
      (congrArg (·, "") key) (tape.advance.advance.later 0) store
  · rw [failed]
    exact .idle _ _
  · rw [saved]
    exact .updated id userId dto tape db workspace row member key owner written

theorem acts_remove (id userId : Uuid) :
    Acts k store (.remove id userId) tape (Step.after k store ⟨.remove id userId, tape⟩).db := by
  unfold Step.after Request.program WorkspacesService.remove
  obtain ⟨_, guarded, admits⟩ := run_assertRole id userId ["owner"] tape store
  refine acts_after guarded fun member same => ?_
  obtain ⟨_, found, plays⟩ := admits member same
  obtain ⟨_, looked, finds⟩ := run_findById id tape.advance store
  refine acts_after looked fun workspace same => ?_
  unfold Svc.remove Svc.call
  rw [run_perform]
  obtain ⟨_, failed⟩ | ⟨_, performed⟩ :=
    exec_storage (.remove .workspaces workspace) rfl (tape.advance.advance.later 0) store
  · rw [failed]
    exact .idle _ _
  · rw [performed]
    exact .removed id userId tape member workspace found (by simpa using plays)
      (finds workspace same).2

theorem acts_removeMember (id userId targetUserId : Uuid) :
    Acts k store (.removeMember id userId targetUserId) tape
      (Step.after k store ⟨.removeMember id userId targetUserId, tape⟩).db := by
  unfold Step.after Request.program
  rw [run_last]
  unfold WorkspacesService.removeMember WorkspacesService.findMember
  obtain ⟨_, guarded, _⟩ := run_assertRole id userId managers tape store
  refine acts_after guarded fun _ _ => ?_
  obtain ⟨_, looked, finds⟩ := run_lookup .members (fun member =>
    member.workspaceId == id && member.userId == targetUserId) tape.advance store
  refine acts_after looked fun found same => ?_
  cases found with
  | none => exact .idle _ _
  | some member =>
    dsimp only
    by_cases role : member.role = "owner"
    · rw [if_pos role]
      exact .idle _ _
    · rw [if_neg role]
      unfold Svc.remove Svc.call
      rw [run_last, run_perform]
      obtain ⟨_, failed⟩ | ⟨_, performed⟩ :=
        exec_storage (.remove .members member) rfl (tape.advance.advance.later 0) store
      · rw [failed]
        exact .idle _ _
      · rw [performed]
        exact .memberRemoved id userId targetUserId tape member (finds _ same).2 role

theorem acts_invite (id userId : Uuid) (dto : InviteMemberDto) :
    Acts k store (.invite id userId dto) tape
      (Step.after k store ⟨.invite id userId dto, tape⟩).db := by
  unfold Step.after Request.program
  rw [run_last]
  unfold WorkspacesService.invite UsersService.findByEmail WorkspacesService.findMember
  obtain ⟨_, guarded, admits⟩ := run_assertRole id userId managers tape store
  refine acts_after guarded fun member same => ?_
  obtain ⟨clear, found, manages⟩ := admits member same
  obtain ⟨_, looked, finds⟩ := run_lookup .users (fun user => user.email == k.lower dto.email)
    tape.advance store
  refine acts_after looked fun answer same => ?_
  obtain ⟨clear', known⟩ := finds answer same
  cases answer with
  | none => exact .idle _ _
  | some invitee =>
    dsimp only
    obtain ⟨_, looked, finds⟩ := run_lookup .members (fun member =>
      member.workspaceId == id && member.userId == invitee.id) tape.advance.advance store
    refine acts_after looked fun answer same => ?_
    obtain ⟨clear'', absent⟩ := finds answer same
    cases answer with
    | some existing => exact .idle _ _
    | none =>
      dsimp only
      unfold Svc.save Svc.call
      rw [run_last, run_perform]
      obtain ⟨_, failed⟩ | ⟨db, last, checked, written, saved⟩ :=
        exec_whole_written .members ⟨id, invitee.id, invitedRole dto⟩
          (tape.advance.advance.advance.later 0) store
      · rw [show exec (.save .members (.whole ⟨id, invitee.id, (orNull dto.role).getD "member"⟩))
          _ _ = _ from failed]
        exact .idle _ _
      · rw [show exec (.save .members (.whole ⟨id, invitee.id, (orNull dto.role).getD "member"⟩))
          _ _ = _ from saved]
        refine .invited id userId dto tape member invitee db (fun call bound => ?_)
          found manages known
          (fun other there => ?_) (Db.check_ok checked).2 written
        · obtain rfl | rfl | rfl | rfl : call = 0 ∨ call = 1 ∨ call = 2 ∨ call = 3 := by omega
          · exact clear
          · exact clear'
          · exact clear''
          · exact last
        · have wrong := absent.symm.trans there
          cases wrong

theorem acts_createUser (data : RegisterDto) :
    Acts k store (.createUser data) tape (Step.after k store ⟨.createUser data, tape⟩).db := by
  unfold Step.after Request.program
  rw [run_last]
  unfold UsersService.create UsersService.findByEmail
  obtain ⟨_, looked, _⟩ :=
    run_lookup .users (fun user => user.email == k.lower data.email) tape store
  refine acts_after looked fun found _ => ?_
  cases found with
  | some user => exact .idle _ _
  | none =>
    dsimp only
    unfold Svc.call
    rw [run_perform]
    obtain ⟨_, failed⟩ | ⟨db, owner, _, inserts, inserted⟩ :=
      exec_insert_written .users (fun input => ⟨input.ids 0, data.name, k.lower data.email,
        k.hash data.password input.bytes, true⟩) (tape.advance.later 0) store
    · rw [failed]
      exact .idle _ _
    · rw [inserted]
      obtain ⟨fresh, _, rfl⟩ := Db.insert_ok inserts
      exact .registered data tape _ _ (push_written fresh)

theorem acts_removeUser (id : Uuid) :
    Acts k store (.removeUser id) tape (Step.after k store ⟨.removeUser id, tape⟩).db := by
  unfold Step.after Request.program UsersService.remove UsersService.findById
  dsimp only
  rw [bind_assoc]
  obtain ⟨_, looked, finds⟩ := run_lookup .users (fun user => user.id == id) tape store
  refine acts_after looked fun found same => ?_
  cases found with
  | none => exact .idle _ _
  | some user =>
    unfold Svc.remove Svc.call
    simp only [pure_eq, ret_bind]
    rw [run_perform]
    obtain ⟨_, failed⟩ | ⟨last, performed⟩ :=
      exec_storage (.remove .users user) rfl (tape.advance.later 0) store
    · rw [failed]
      exact .idle _ _
    · rw [performed]
      obtain ⟨clear, known⟩ := finds _ same
      have hit := List.find?_some known
      refine .userRemoved id tape user (fun call bound => ?_) (List.mem_of_find?_eq_some known)
        (beq_iff_eq.mp hit)
      obtain rfl | rfl : call = 0 ∨ call = 1 := by omega
      · exact clear
      · exact last

/-- **What an operation does.** -/
theorem step_acts (k : AccountHelpers) (store : Store) (step : Step) :
    Acts k store step.request step.tape (step.after k store).db := by
  obtain ⟨request, tape⟩ := step
  cases request with
  | create userId dto => exact acts_create userId dto
  | update id userId dto => exact acts_update id userId dto
  | remove id userId => exact acts_remove id userId
  | invite id userId dto => exact acts_invite id userId dto
  | removeMember id userId targetUserId => exact acts_removeMember id userId targetUserId
  | createUser data => exact acts_createUser data
  | removeUser id => exact acts_removeUser id

end Runs

end WaAutomation.Accounts
