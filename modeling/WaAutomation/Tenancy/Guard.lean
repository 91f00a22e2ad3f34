/-
**The membership guard, and what it lets through without a workspace.**

Every workspace-scoped endpoint begins by looking up the user's membership. Given a workspace the
lookup is by workspace and user. Without one the `where` key is ignored, so any membership of the
user passes, and the queries that follow are not restricted to a workspace either.

* `Endpoint.program_guarded`: the guard comes first, in every endpoint;
* `run_outsider`: what a request comes to when the guard finds no membership;
* `refused_without_workspace`: requests without a workspace are all refused exactly when the user is
  a member of no workspace;
* `not_refused_without_workspace`: an owner of one workspace deletes a contact of another.
-/

import WaAutomation.Model.Api
import WaAutomation.Model.Calls

set_option linter.unusedSectionVars false

namespace WaAutomation

open Library Program

namespace Guard

/-! ### The lookup -/

/-- The exception of the guard, unless the database fails at its lookup. -/
def refusal (input : Input) : Err :=
  match input.fault with
  | some message => .database message
  | none => .forbidden "You are not a member of this workspace"

/-- The membership the guard looks for. -/
def admits (ws : Option Uuid) (uid : Uuid) (member : WorkspaceMember) : Bool :=
  Svc.whereIs ws member.workspaceId && member.userId == uid

/-- **What the guard does.** -/
theorem run_assertMember (ws : Option Uuid) (uid : Uuid) (tape : Tape Input) (store : Store) :
    (WorkspacesService.assertMember ws uid).run exec tape store =
      (match (tape.later 0).fault, (store.db .members).find? (admits ws uid) with
        | none, some member => .ok member
        | _, _ => .error (refusal (tape.later 0)),
        tape.advance, store) := by
  unfold WorkspacesService.assertMember
  rw [run_bind, run_findOne]
  unfold refusal
  cases (tape.later 0).fault with
  | some message => rfl
  | none =>
    unfold admits
    dsimp only
    cases (store.db .members).find? fun member =>
      Svc.whereIs ws member.workspaceId && member.userId == uid <;> rfl

/-! ### The endpoints -/

/-- **Every endpoint checks the membership first.** -/
theorem program_guarded (h : Helpers) (ws : Option Uuid) (uid : Uuid) (endpoint : Endpoint) :
    ∃ rest : WorkspaceMember → Svc endpoint.Answer,
      endpoint.program h ws uid = WorkspacesService.assertMember ws uid >>= rest := by
  cases endpoint <;>
    first
      | exact ⟨_, rfl⟩
      | exact ⟨_, Program.bind_assoc _ _ _⟩

/-- **The request of an outsider** ends at the guard. -/
theorem run_outsider {ws : Option Uuid} {uid : Uuid} {store : Store}
    (outsider : ∀ member ∈ store.db .members, admits ws uid member = false) (h : Helpers)
    (endpoint : Endpoint) (tape : Tape Input) :
    (endpoint.program h ws uid).run exec tape store =
      (.error (refusal (tape.later 0)), tape.advance, store) := by
  obtain ⟨rest, guarded⟩ := program_guarded h ws uid endpoint
  have nobody : (store.db .members).find? (admits ws uid) = none :=
    List.find?_eq_none.mpr fun member listed => Bool.eq_false_iff.mp (outsider member listed)
  rw [guarded, run_bind, run_assertMember, nobody]
  cases (tape.later 0).fault <;> rfl

/-! ### Requests without a workspace -/

/-- The request is refused: it fails, it leaves the database as it is, and its answer does not
depend on any table but the memberships. -/
structure Refused (h : Helpers) (request : HttpRequest) (uid : Uuid) (store : Store)
    (endpoint : Endpoint) (tape : Tape Input) : Prop where
  fails : ∃ error,
    ((endpoint.program h (WorkspaceId request) uid).run exec tape store).1 = .error error
  unchanged : ((endpoint.program h (WorkspaceId request) uid).run exec tape store).2.2.db = store.db
  silent : ∀ db : Db, db .members = store.db .members →
    ((endpoint.program h (WorkspaceId request) uid).run exec tape { store with db := db }).1 =
      ((endpoint.program h (WorkspaceId request) uid).run exec tape store).1

/-- **Requests without a workspace are refused exactly for the users of no workspace.** -/
theorem refused_without_workspace (h : Helpers) {request : HttpRequest}
    (absent : WorkspaceId request = none) (uid : Uuid) (store : Store) :
    (∀ endpoint tape, Refused h request uid store endpoint tape) ↔
      ∀ member ∈ store.db .members, member.userId ≠ uid := by
  constructor
  · intro refused member listed same
    obtain ⟨error, fails⟩ := (refused .listGroups ⟨Example.fine, fun _ => Example.fine⟩).fails
    obtain ⟨found, is_found⟩ : ∃ found, (store.db .members).find? (admits none uid) = some found :=
      Option.isSome_iff_exists.mp (List.find?_isSome.mpr ⟨member, listed, by simp [admits, same,
        Svc.whereIs]⟩)
    have lists : (Endpoint.program h (WorkspaceId request) uid .listGroups) =
        WorkspacesService.assertMember none uid >>= fun _ => Svc.find .groups fun _ => true := by
      rw [absent]
      rfl
    rw [lists, run_bind, run_assertMember, is_found] at fails
    cases fails
  · intro outsider endpoint tape
    have nobody (members : List WorkspaceMember) (same : members = store.db .members) :
        ∀ member ∈ members, admits (WorkspaceId request) uid member = false := by
      subst same
      intro member listed
      simp [admits, outsider member listed]
    have ends (other : Store) (same : other.db .members = store.db .members) :=
      run_outsider (nobody _ same) h endpoint tape
    refine ⟨⟨_, by rw [ends store rfl]⟩, by rw [ends store rfl], fun db same => ?_⟩
    rw [ends store rfl, ends { store with db := db } same]

/-! ### Two shops -/

/-- The user `u` owns the shop `w`; the shop `x` is somebody else's. -/
def shops : Store where
  db
    | .users => [⟨"u", "Ann", "ann@example.com", "", true⟩,
        ⟨"t", "Tom", "tom@example.com", "", true⟩]
    | .workspaces =>
        [⟨"w", "books", "u", "http://openwa", "key", true⟩,
          ⟨"x", "bikes", "t", "http://openwa", "key", true⟩]
    | .members => [⟨"w", "u", "owner"⟩, ⟨"x", "t", "owner"⟩]
    | .contacts => [⟨"c", "x", some "Eve", "621", [], false, none, 0⟩]
    | _ => []
  jobs := []
  jobIds := 0
  journal := []
  owner _ _ := none

/-- A tape on which nothing fails. -/
def calm : Tape Input := ⟨Example.fine, fun _ => Example.fine⟩

theorem refused_without_workspace_example :
    WorkspaceId ⟨none, some "", none⟩ = none ∧
      ∀ endpoint tape, Refused Example.helpers ⟨none, some "", none⟩ "v" shops endpoint tape :=
  ⟨rfl, (refused_without_workspace Example.helpers rfl "v" shops).mpr (by decide)⟩

/-- The owner of `w` deletes a contact of `x` with a request that names no workspace. -/
theorem not_refused_without_workspace :
    ((Endpoint.program Example.helpers (WorkspaceId ⟨none, none, none⟩) "u"
        (.removeContact "c")).run exec calm shops).1 = .ok "Contact deleted" ∧
      ((Endpoint.program Example.helpers (WorkspaceId ⟨none, none, none⟩) "u"
        (.removeContact "c")).run exec calm shops).2.2.db .contacts = [] ∧
      ¬ Refused Example.helpers ⟨none, none, none⟩ "u" shops (.removeContact "c") calm := by
  have deletes : ((Endpoint.program Example.helpers (WorkspaceId ⟨none, none, none⟩) "u"
      (.removeContact "c")).run exec calm shops).1 = .ok "Contact deleted" := rfl
  refine ⟨deletes, rfl, fun refused => ?_⟩
  obtain ⟨error, fails⟩ := refused.fails
  rw [deletes] at fails
  cases fails

end Guard

end WaAutomation
