/-
**Who owns a workspace.**

`create` makes its caller the owner of a new workspace in two writes. The role `owner` can also be
given away by an `invite`, whose `role` is any string, and an owner can disappear with the account.

* `owner_step`: a membership with the role `owner` was there before an operation, or the operation
  is the `create` of its workspace, or an `invite` that `Grants` it; `owner_created` is what follows
  for sequences in which nothing is granted, and `owner_gained` a sequence in which it is;
* `Kept` says that every workspace has its owner; `kept_step` that an operation keeps it when it is
  `Whole`, `owner_kept` is the run, and `owner_lost` shows both ways to lose an owner.
-/

import WaAutomation.Accounts.System
import WaAutomation.Model.Writes

set_option linter.unusedSectionVars false

namespace WaAutomation.Accounts

open Library Program

variable {k : AccountHelpers}

/-! ### The role of an owner -/

/-- The operation is a `create` of the user that inserts the workspace. -/
def Creates (k : AccountHelpers) (store : Store) (step : Step) (id userId : Uuid) : Prop :=
  ∃ dto db, step.request = .create userId dto ∧
    store.db.insert .workspaces (newWorkspace k userId dto step.tape) = .ok db ∧
    (newWorkspace k userId dto step.tape).id = id

/-- The user created the workspace, in one of the operations or before (`founded`). -/
def Created (k : AccountHelpers) (founded : Uuid → Uuid → Prop) (start : Store) (steps : List Step)
    (id userId : Uuid) : Prop :=
  founded id userId ∨ ∃ before step rest, steps = before ++ step :: rest ∧
    Creates k (after k start before) step id userId

/-- The operation is an `invite` with the role `owner` that passes every check: its caller manages
the workspace, and the invited user has an account and is not a member. -/
def Grants (k : AccountHelpers) (store : Store) (step : Step) (id userId : Uuid) : Prop :=
  ∃ caller dto member invitee, step.request = .invite id caller dto ∧ dto.role = some "owner" ∧
    Finds store id caller member ∧ managers.contains member.role = true ∧
    (store.db .users).find? (fun user => user.email == k.lower dto.email) = some invitee ∧
    invitee.id = userId ∧ (∀ other, ¬Finds store id userId other) ∧
    ∀ call < 4, (step.tape.later call).fault = none

/-- Only a body that says so invites an owner. -/
theorem invited_owner {dto : InviteMemberDto} (role : invitedRole dto = "owner") :
    dto.role = some "owner" := by
  unfold invitedRole orNull at role
  cases given : dto.role with
  | none =>
    rw [given] at role
    exact absurd role (by decide)
  | some text =>
    rw [given] at role
    by_cases empty : text = ""
    · rw [empty] at role
      exact absurd role (by decide)
    · simp only [Option.filter, bne_iff_ne, ne_eq, empty, not_false_eq_true,
        if_true, Option.getD_some] at role
      rw [role]

/-- **The step**: where a membership with the role `owner` comes from. -/
theorem owner_step (store : Store) (step : Step) {member : WorkspaceMember}
    (there : member ∈ (step.after k store).db .members) (role : member.role = "owner") :
    member ∈ store.db .members ∨ Creates k store step member.workspaceId member.userId ∨
      Grants k store step member.workspaceId member.userId := by
  have acts := step_acts k store step
  obtain ⟨request, tape⟩ := step
  generalize (Step.after k store ⟨request, tape⟩).db = db at acts there
  dsimp only at acts
  have erased {table : Table} {row : Row table}
      (kept : member ∈ store.db.remove table row .members) :
      member ∈ store.db .members :=
    ((store.db.remove_erases table row).rows .members member kept).resolve_right id
  cases acts with
  | idle => exact .inl there
  | halved userId dto _ _ clear inserts fails =>
    rw [Db.insert_other (by decide) inserts] at there
    exact .inl there
  | created userId dto _ first _ inserts parents joins =>
    obtain rfl | ⟨old, _⟩ := (joins.rows member).mp there
    · exact .inr (.inl ⟨dto, first, rfl, inserts, rfl⟩)
    · rw [Db.insert_other (by decide) inserts] at old
      exact .inl old
  | updated _ _ _ _ _ _ _ _ _ _ writes =>
    rw [writes.others .members (by decide)] at there
    exact .inl there
  | removed => exact .inl (erased there)
  | invited id userId dto _ guard invitee _ clear found manages known fresh parents writes =>
    obtain rfl | ⟨old, _⟩ := (writes.rows member).mp there
    · have named : invitedRole dto = "owner" := (cut_iff (by decide)).mp role
      exact .inr (.inr ⟨userId, dto, guard, invitee, rfl, invited_owner named, found, manages,
        known, rfl, fresh, clear⟩)
    · exact .inl old
  | memberRemoved => exact .inl (erased there)
  | registered _ _ _ _ writes =>
    rw [writes.others .members (by decide)] at there
    exact .inl there
  | userRemoved => exact .inl (erased there)

section Run

variable {founded : Uuid → Uuid → Prop} {start : Store} {steps : List Step} {id userId : Uuid}

theorem created_append (last : Step) (created : Created k founded start steps id userId) :
    Created k founded start (steps ++ [last]) id userId := by
  obtain before | ⟨before, step, rest, rfl, creates⟩ := created
  · exact .inl before
  · exact .inr ⟨before, step, rest ++ [last], by simp, creates⟩

theorem created_last {last : Step} (creates : Creates k (after k start steps) last id userId) :
    Created k founded start (steps ++ [last]) id userId :=
  .inr ⟨steps, last, [], rfl, creates⟩

/-- Every operation of the sequence satisfies a condition in the store it finds. -/
def Each (k : AccountHelpers) (start : Store) (steps : List Step)
    (holds : List Step → Store → Step → Prop) : Prop :=
  ∀ before step rest, steps = before ++ step :: rest → holds before (after k start before) step

/-- A condition on the operations of a sequence, one operation earlier. -/
theorem each_dropLast {holds : List Step → Store → Step → Prop} {last : Step}
    (each : Each k start (steps ++ [last]) holds) :
    Each k start steps holds ∧ holds steps (after k start steps) last := by
  refine ⟨fun before step rest same => each before step (rest ++ [last]) ?_, each steps last [] rfl⟩
  rw [same, List.append_assoc, List.cons_append]

theorem each_of_forall {holds : List Step → Store → Step → Prop}
    (all : ∀ step ∈ steps, ∀ past store, holds past store step) : Each k start steps holds := by
  intro before step rest same
  exact all step (by simp [same]) _ _

theorem each_single {holds : List Step → Store → Step → Prop} {step : Step}
    (here : holds [] start step) : Each k start [step] holds := by
  intro before last rest same
  cases before with
  | nil =>
    cases same
    exact here
  | cons first before => simp at same

/-- Nothing is granted but to the creator. -/
def Ungranted (k : AccountHelpers) (founded : Uuid → Uuid → Prop) (start : Store)
    (past : List Step) (store : Store) (step : Step) : Prop :=
  ∀ id userId, Grants k store step id userId → Created k founded start past id userId

/-- **The run**: owners are creators. -/
theorem owners_created
    (begins : ∀ member ∈ start.db .members, member.role = "owner" →
      founded member.workspaceId member.userId) :
    ∀ {steps}, Each k start steps (Ungranted k founded start) →
      ∀ member ∈ (after k start steps).db .members, member.role = "owner" →
        Created k founded start steps member.workspaceId member.userId := by
  intro steps
  induction steps using List.reverseRecOn with
  | nil => exact fun _ member there role => .inl (begins member there role)
  | append_singleton steps step ih =>
    intro each member there role
    obtain ⟨earlier, here⟩ := each_dropLast each
    rw [after_append] at there
    obtain old | creates | grants := owner_step (after k start steps) step there role
    · exact created_append step (ih earlier member old role)
    · exact created_last creates
    · exact created_append step (here _ _ grants)

end Run

/-- Only an owner can remove a workspace. -/
theorem remover_owns {store : Store} {tape : Tape Input} {id userId : Uuid}
    (removes : ((WorkspacesService.remove id userId).run exec tape store).1 = .ok ()) :
    ∃ member ∈ store.db .members, member.workspaceId = id ∧ member.userId = userId ∧
      member.role = "owner" := by
  unfold WorkspacesService.remove at removes
  obtain ⟨result, guarded, admits⟩ := run_assertRole id userId ["owner"] tape store
  rw [run_bind, guarded] at removes
  cases result with
  | error error => cases removes
  | ok member =>
    obtain ⟨_, found, plays⟩ := admits member rfl
    have hit := List.find?_some found
    simp only [Guard.admits, Svc.whereIs, Bool.and_eq_true, beq_iff_eq] at hit
    exact ⟨member, List.mem_of_find?_eq_some found, hit.1, hit.2, by simpa using plays⟩

/-- The guard never says that somebody is the owner. -/
theorem guard_error {store : Store} {tape : Tape Input} {id userId : Uuid} {roles : List String}
    {error : Err}
    (fails : ((WorkspacesService.assertRole (some id) userId roles).run exec tape store).1 =
      .error error) :
    error ≠ .forbidden "Cannot remove the workspace owner" := by
  unfold WorkspacesService.assertRole at fails
  rw [run_bind, Guard.run_assertMember] at fails
  cases fault : (tape.later 0).fault with
  | some message =>
    rw [fault] at fails
    simp only [Guard.refusal, fault] at fails
    cases fails
    simp
  | none =>
    rw [fault] at fails
    cases found : (store.db .members).find? (Guard.admits (some id) userId) with
    | none =>
      rw [found] at fails
      simp only [Guard.refusal, fault] at fails
      cases fails
      simp
    | some member =>
      rw [found] at fails
      dsimp only at fails
      by_cases plays : roles.contains member.role = true
      · rw [if_pos plays] at fails
        cases fails
      · rw [if_neg plays] at fails
        cases fails
        simp

/-- Only an owner cannot be removed from a workspace. -/
theorem irremovable_owns {store : Store} {tape : Tape Input} {id userId targetUserId : Uuid}
    (refuses : ((WorkspacesService.removeMember id userId targetUserId).run exec tape store).1 =
      .error (.forbidden "Cannot remove the workspace owner")) :
    ∃ member ∈ store.db .members, member.workspaceId = id ∧ member.userId = targetUserId ∧
      member.role = "owner" := by
  unfold WorkspacesService.removeMember WorkspacesService.findMember at refuses
  obtain ⟨result, guarded, _⟩ := run_assertRole id userId managers tape store
  rw [run_bind, guarded] at refuses
  cases result with
  | error error =>
    cases refuses
    exact absurd rfl (guard_error (congrArg Prod.fst guarded))
  | ok guard =>
    dsimp only at refuses
    rw [run_bind, run_findOne] at refuses
    cases fault : (tape.advance.later 0).fault with
    | some message =>
      rw [fault] at refuses
      cases refuses
    | none =>
      rw [fault] at refuses
      cases found : (store.db .members).find? fun member =>
          member.workspaceId == id && member.userId == targetUserId with
      | none =>
        rw [found] at refuses
        cases refuses
      | some member =>
        rw [found] at refuses
        dsimp only at refuses
        have hit := List.find?_some found
        simp only [Bool.and_eq_true, beq_iff_eq] at hit
        by_cases role : member.role = "owner"
        · exact ⟨member, List.mem_of_find?_eq_some found, hit.1, hit.2, role⟩
        · rw [if_neg role] at refuses
          unfold Svc.remove Svc.call at refuses
          rw [run_bind, run_perform] at refuses
          obtain ⟨_, _, _, failed⟩ | performed := exec_cases (.remove .members member)
            (tape.advance.advance.later 0) store
          · rw [failed] at refuses
            cases refuses
          · rw [performed] at refuses
            cases refuses

/-- **Only creators own**, as long as an `invite` with the role `owner` goes through for the creator
alone: whoever has the role `owner` created the workspace, so nobody else can remove it or stay in
it against its managers. -/
theorem owner_created (k : AccountHelpers) (founded : Uuid → Uuid → Prop) (start : Store)
    (steps : List Step)
    (begins : ∀ member ∈ start.db .members, member.role = "owner" →
      founded member.workspaceId member.userId)
    (ungranted : Each k start steps (Ungranted k founded start)) :
    (∀ member ∈ (after k start steps).db .members, member.role = "owner" →
      Created k founded start steps member.workspaceId member.userId) ∧
    (∀ id userId tape,
      ((WorkspacesService.remove id userId).run exec tape (after k start steps)).1 = .ok () →
        Created k founded start steps id userId) ∧
    ∀ id userId targetUserId tape,
      ((WorkspacesService.removeMember id userId targetUserId).run exec tape
        (after k start steps)).1 = .error (.forbidden "Cannot remove the workspace owner") →
        Created k founded start steps id targetUserId := by
  have created := owners_created begins ungranted
  refine ⟨created, fun id userId tape removes => ?_, fun id userId targetUserId tape refuses => ?_⟩
  · obtain ⟨member, there, rfl, rfl, role⟩ := remover_owns removes
    exact created member there role
  · obtain ⟨member, there, rfl, rfl, role⟩ := irremovable_owns refuses
    exact created member there role

namespace Example

/-- Nothing is encrypted or hashed. -/
def helpers : AccountHelpers := ⟨fun text _ => text, fun text _ => text, fun text => text⟩

/-- Inputs with which nothing fails, and a drawn id. -/
def drawing (id : Uuid) : Tape Input :=
  ⟨WaAutomation.Example.fine, fun _ => { WaAutomation.Example.fine with ids := fun _ => id }⟩

/-- Three accounts, and no workspace. -/
def start : Store :=
  ⟨fun
    | .users => [⟨"ann", "Ann", "ann@x", "", true⟩, ⟨"bob", "Bob", "bob@x", "", true⟩,
        ⟨"eve", "Eve", "eve@x", "", true⟩]
    | _ => [],
    [], 0, [], fun _ _ => none⟩

def creation : Step := ⟨.create "ann" ⟨"Shop", "", ""⟩, drawing "w"⟩

/-- Somebody with a role is invited. -/
def invitation (userId : Uuid) (email role : String) : Step :=
  ⟨.invite "w" userId ⟨email, some role⟩, drawing ""⟩

/-- Nobody created a workspace before. -/
def nobody : Uuid → Uuid → Prop := fun _ _ => False

end Example

theorem owner_created_example :
    ∃ steps, (after Example.helpers Example.start steps).db .members =
        [⟨"w", "ann", "owner"⟩, ⟨"w", "bob", "admin"⟩] ∧
      Created Example.helpers Example.nobody Example.start steps "w" "ann" := by
  refine ⟨[Example.creation, Example.invitation "ann" "bob@x" "admin"], by rfl, ?_⟩
  refine (owner_created Example.helpers Example.nobody Example.start _
    (fun _ member => (by cases member))
    (each_of_forall fun step member past store id userId grants => ?_)).1
      ⟨"w", "ann", "owner"⟩ (by exact List.mem_cons_self) rfl
  obtain ⟨caller, dto, _, _, same, role, _⟩ := grants
  rcases List.mem_cons.mp member with rfl | last
  · cases same
  · cases List.mem_singleton.mp last
    cases same
    exact absurd role (by decide)

/-- **The owner role gained**: an admin invites somebody as an owner, who can then remove the
workspace. -/
theorem owner_gained :
    ∃ steps, ⟨"w", "eve", "owner"⟩ ∈ (after Example.helpers Example.start steps).db .members ∧
      ¬Created Example.helpers Example.nobody Example.start steps "w" "eve" ∧
      ((WorkspacesService.remove "w" "eve").run exec (Example.drawing "")
        (after Example.helpers Example.start steps)).1 = .ok () := by
  refine ⟨[Example.creation, Example.invitation "ann" "bob@x" "admin",
    Example.invitation "bob" "eve@x" "owner"], ?_, fun created => ?_, by rfl⟩
  · exact List.mem_cons_of_mem _ (List.mem_cons_of_mem _ List.mem_cons_self)
  · obtain before | ⟨before, step, rest, same, dto, _, creates, _⟩ := created
    · exact before
    · have member : step ∈ [Example.creation, Example.invitation "ann" "bob@x" "admin",
          Example.invitation "bob" "eve@x" "owner"] := by
        rw [same]
        exact List.mem_append_right _ List.mem_cons_self
      simp only [List.mem_cons, List.not_mem_nil, or_false] at member
      obtain rfl | rfl | rfl := member
      · exact absurd (Request.create.inj creates).1 (by decide)
      · cases creates
      · cases creates

/-! ### The owner of a workspace -/

/-- Every workspace has its owner: an account that is a member with the role `owner`. A user has one
membership in a workspace. -/
structure Kept (db : Db) : Prop where
  owners : ∀ workspace ∈ db .workspaces, HasAccount db workspace.ownerId ∧
    ⟨workspace.id, workspace.ownerId, "owner"⟩ ∈ db .members
  single : ∀ member ∈ db .members, ∀ other ∈ db .members,
    other.key .members = member.key .members → other = member

/-- The operation is not a `create` that stops after its first write, and does not remove the
account of an owner. -/
structure Whole (k : AccountHelpers) (store : Store) (step : Step) : Prop where
  creates : ∀ userId dto db, step.request = .create userId dto → (step.tape.later 0).fault = none →
    store.db.insert .workspaces (newWorkspace k userId dto step.tape) = .ok db →
      (step.tape.later 1).fault = none ∧ HasAccount store.db userId
  leaves : ∀ id, step.request = .removeUser id → (∀ call < 2, (step.tape.later call).fault = none) →
    ∀ workspace ∈ store.db .workspaces, workspace.ownerId ≠ id

section Kept

variable {before after : Db}

/-- Memberships stay single when one is written. -/
theorem single_written {member : WorkspaceMember}
    (single : ∀ one ∈ before .members, ∀ other ∈ before .members,
      other.key .members = one.key .members → other = one)
    (writes : Written before after .members member) :
    ∀ one ∈ after .members, ∀ other ∈ after .members,
      other.key .members = one.key .members → other = one := by
  intro one there other there' same
  obtain rfl | ⟨old, different⟩ := (writes.rows one).mp there
  · obtain rfl | ⟨_, different'⟩ := (writes.rows other).mp there'
    · rfl
    · exact absurd same different'
  · obtain rfl | ⟨old', _⟩ := (writes.rows other).mp there'
    · exact absurd same.symm different
    · exact single one old other old' same

/-- A workspace is inserted, and its creator becomes a member. -/
theorem kept_creates {workspace : Workspace} (kept : Kept before) {first : Db}
    (inserts : before.insert .workspaces workspace = .ok first)
    (parents : first.parents .members ⟨workspace.id, workspace.ownerId, "owner"⟩ = true)
    (joins : Written first after .members ⟨workspace.id, workspace.ownerId, "owner"⟩) :
    Kept after := by
  obtain ⟨fresh, _, same⟩ := Db.insert_ok inserts
  obtain rfl : first = before.push .workspaces workspace := same
  have pushed {table : Table} (different : table ≠ .workspaces) :
      (before.push .workspaces workspace) table = before table :=
    Db.push_other before different workspace
  have members : (before.push .workspaces workspace) .members = before .members :=
    pushed (by decide)
  have users : after .users = before .users :=
    (joins.others .users (by decide)).trans (pushed (by decide))
  refine ⟨fun other there => ?_, single_written (by rw [members]; exact kept.single) joins⟩
  unfold HasAccount
  rw [users]
  rw [joins.others .workspaces (by decide), Db.push, Db.set_same, List.mem_append,
    List.mem_singleton] at there
  obtain old | rfl := there
  · obtain ⟨account, owns⟩ := kept.owners other old
    refine ⟨account, (joins.rows _).mpr (.inr ⟨by rw [members]; exact owns, fun same => ?_⟩)⟩
    rw [List.any_eq_false] at fresh
    exact fresh other old (by simpa [Db.sameKey, Row.key] using (congrArg Prod.fst same).symm)
  · refine ⟨?_, (joins.rows _).mpr (.inl rfl)⟩
    simp only [Db.parents, Db.has, Bool.and_eq_true, List.any_eq_true, beq_iff_eq] at parents
    obtain ⟨user, known, is⟩ := parents.2
    rw [pushed (by decide)] at known
    exact ⟨user, known, is⟩

/-- A membership is written under a key that is free. -/
theorem kept_joins {id userId : Uuid} {role : String} (kept : Kept before)
    (absent : ∀ member ∈ before .members, member.workspaceId = id → member.userId ≠ userId)
    (writes : Written before after .members ⟨id, userId, role⟩) : Kept after := by
  refine ⟨fun workspace there => ?_, single_written kept.single writes⟩
  unfold HasAccount
  rw [writes.others .users (by decide)]
  rw [writes.others .workspaces (by decide)] at there
  obtain ⟨account, owns⟩ := kept.owners workspace there
  exact ⟨account, (writes.rows _).mpr (.inr ⟨owns, fun same =>
    absent _ owns (congrArg Prod.fst same) (congrArg Prod.snd same)⟩)⟩

/-- An account is written. -/
theorem kept_registers {row : User} (kept : Kept before)
    (writes : Written before after .users row) :
    Kept after := by
  refine ⟨fun workspace there => ?_, ?_⟩
  · rw [writes.others .workspaces (by decide)] at there
    obtain ⟨⟨user, known, is⟩, owns⟩ := kept.owners workspace there
    refine ⟨?_, ?_⟩
    · by_cases same : Row.key .users user = Row.key .users row
      · exact ⟨row, (writes.rows row).mpr (.inl rfl), (congrArg Prod.fst same).symm.trans is⟩
      · exact ⟨user, (writes.rows user).mpr (.inr ⟨known, same⟩), is⟩
    · rw [writes.others .members (by decide)]
      exact owns
  · rw [writes.others .members (by decide)]
    exact kept.single

/-- A workspace is written with the id and the owner of a stored one. -/
theorem kept_updates {stored row : Workspace} (kept : Kept before)
    (member : stored ∈ before .workspaces) (key : row.id = stored.id)
    (owner : row.ownerId = stored.ownerId) (writes : Written before after .workspaces row) :
    Kept after := by
  refine ⟨fun workspace there => ?_, ?_⟩
  · unfold HasAccount
    rw [writes.others .users (by decide), writes.others .members (by decide)]
    obtain rfl | ⟨old, _⟩ := (writes.rows workspace).mp there
    · rw [key, owner]
      exact kept.owners stored member
    · exact kept.owners workspace old
  · rw [writes.others .members (by decide)]
    exact kept.single

/-- A workspace is deleted with its memberships. -/
theorem kept_removes {workspace : Workspace} (kept : Kept before) :
    Kept (before.remove .workspaces workspace) := by
  have members {member : WorkspaceMember} :
      member ∈ before.remove .workspaces workspace .members ↔
        member ∈ before .members ∧ member.workspaceId ≠ workspace.id := by
    simp [Db.remove, Db.erase, Db.set, List.mem_filter]
  refine ⟨fun other there => ?_, fun one there other there' same =>
    kept.single one (members.mp there).1 other (members.mp there').1 same⟩
  have still : other ∈ before .workspaces ∧ workspace.id ≠ other.id := by
    simpa [Db.remove, Db.erase, Db.set, List.mem_filter, Db.sameKey, Row.key] using there
  obtain ⟨account, owns⟩ := kept.owners other still.1
  exact ⟨account, members.mpr ⟨owns, Ne.symm still.2⟩⟩

/-- A membership without the role `owner` is deleted. -/
theorem kept_leaves {member : WorkspaceMember} (kept : Kept before)
    (there : member ∈ before .members)
    (role : member.role ≠ "owner") : Kept (before.remove .members member) := by
  have members {other : WorkspaceMember} : other ∈ before.remove .members member .members ↔
      other ∈ before .members ∧ Row.key .members member ≠ Row.key .members other := by
    simp [Db.remove, Db.erase, List.mem_filter, Db.sameKey]
  refine ⟨fun workspace stored => ?_, fun one there other there' same =>
    kept.single one (members.mp there).1 other (members.mp there').1 same⟩
  obtain ⟨account, owns⟩ := kept.owners workspace stored
  refine ⟨account, members.mpr ⟨owns, fun same => role ?_⟩⟩
  rw [kept.single _ owns member there same]

/-- An account is deleted with its memberships. -/
theorem kept_closes {user : User} (kept : Kept before)
    (others : ∀ workspace ∈ before .workspaces, workspace.ownerId ≠ user.id) :
    Kept (before.remove .users user) := by
  have members {member : WorkspaceMember} : member ∈ before.remove .users user .members ↔
      member ∈ before .members ∧ member.userId ≠ user.id := by
    simp [Db.remove, Db.erase, Db.set, List.mem_filter]
  refine ⟨fun workspace stored => ?_, fun one there other there' same =>
    kept.single one (members.mp there).1 other (members.mp there').1 same⟩
  have different := others workspace stored
  obtain ⟨⟨owner, known, is⟩, owns⟩ := kept.owners workspace stored
  refine ⟨⟨owner, ?_, is⟩, members.mpr ⟨owns, different⟩⟩
  have apart : user.id ≠ owner.id := fun same => different (is.symm.trans same.symm)
  simpa [Db.remove, Db.erase, Db.set, List.mem_filter, Db.sameKey, Row.key, known] using apart

end Kept

/-- **The step**: a whole operation keeps the owners. -/
theorem kept_step {store : Store} {step : Step} (kept : Kept store.db)
    (whole : Whole k store step) :
    Kept (step.after k store).db := by
  have acts := step_acts k store step
  obtain ⟨request, tape⟩ := step
  generalize (Step.after k store ⟨request, tape⟩).db = db at acts ⊢
  dsimp only at acts
  cases acts with
  | idle => exact kept
  | halved userId dto _ _ clear inserts fails =>
    exact absurd (whole.creates userId dto _ rfl clear inserts) fails
  | created userId dto _ first _ inserts parents joins =>
      exact kept_creates kept inserts parents joins
  | updated _ _ _ _ _ stored row member key owner writes =>
    exact kept_updates kept member key owner writes
  | removed id userId _ member workspace found role own => exact kept_removes kept
  | invited id userId dto _ guard invitee _ clear found manages known fresh parents writes =>
    refine kept_joins kept (fun member there same same' => ?_) writes
    have finds : ((store.db .members).find? (Guard.admits (some id) invitee.id)).isSome = true :=
      List.find?_isSome.mpr ⟨member, there, by simp [Guard.admits, Svc.whereIs, same, same']⟩
    obtain ⟨other, found⟩ := Option.isSome_iff_exists.mp finds
    exact fresh other found
  | memberRemoved id userId targetUserId _ member found role =>
    exact kept_leaves kept (List.mem_of_find?_eq_some found) role
  | registered _ _ _ _ writes => exact kept_registers kept writes
  | userRemoved id _ user clear member key =>
    refine kept_closes kept fun workspace stored => ?_
    rw [key]
    exact whole.leaves id rfl clear workspace stored

/-- **Every workspace keeps its owner**, as long as no `create` stops after its first write and no
account of an owner is removed. -/
theorem owner_kept (k : AccountHelpers) (start : Store) (steps : List Step) (begins : Kept start.db)
    (whole : Each k start steps fun _ store step => Whole k store step) :
    ∀ workspace ∈ (after k start steps).db .workspaces,
      HasAccount (after k start steps).db workspace.ownerId ∧
      ⟨workspace.id, workspace.ownerId, "owner"⟩ ∈ (after k start steps).db .members := by
  have kept : Kept (after k start steps).db := by
    induction steps using List.reverseRecOn with
    | nil => exact begins
    | append_singleton steps step ih =>
      obtain ⟨earlier, here⟩ := each_dropLast whole
      rw [after_append]
      exact kept_step (ih earlier) here
  exact kept.owners

namespace Example

/-- Ann's creation, whose second write fails. -/
def torn : Step :=
  ⟨creation.request, ⟨creation.tape.now, fun call =>
    if call = 1 then WaAutomation.Example.faulty else creation.tape.later call⟩⟩

/-- Ann's account is removed. -/
def closing : Step := ⟨.removeUser "ann", drawing ""⟩

end Example

theorem owner_kept_example :
    ∃ steps workspace, (after Example.helpers Example.start steps).db .workspaces = [workspace] ∧
      HasAccount (after Example.helpers Example.start steps).db workspace.ownerId ∧
      ⟨workspace.id, workspace.ownerId, "owner"⟩ ∈
        (after Example.helpers Example.start steps).db .members := by
  refine ⟨[Example.creation], _, by rfl, ?_⟩
  refine owner_kept Example.helpers Example.start _
    ⟨fun _ there => (by cases there), fun _ there => (by cases there)⟩ ?_ _
    (by exact List.mem_cons_self)
  refine each_single ⟨fun userId dto _ same _ _ => ?_, fun _ wrong => (by cases wrong)⟩
  cases same
  exact ⟨rfl, _, List.mem_cons_self, rfl⟩

/-- **Two ways to lose an owner**: a `create` whose second write fails, and the removal of the
owner's account. -/
theorem owner_lost :
    ((after Example.helpers Example.start [Example.torn]).db .workspaces).map Workspace.ownerId =
        ["ann"] ∧
      (after Example.helpers Example.start [Example.torn]).db .members = [] ∧
    ((after Example.helpers Example.start [Example.creation, Example.closing]).db .workspaces).map
        Workspace.ownerId = ["ann"] ∧
      (after Example.helpers Example.start [Example.creation, Example.closing]).db .members = [] ∧
      ¬HasAccount (after Example.helpers Example.start [Example.creation, Example.closing]).db
        "ann" := by
  refine ⟨by rfl, by rfl, by rfl, by rfl, fun account => ?_⟩
  obtain ⟨user, there, is⟩ := account
  have left : (after Example.helpers Example.start [Example.creation, Example.closing]).db .users =
      [⟨"bob", "Bob", "bob@x", "", true⟩, ⟨"eve", "Eve", "eve@x", "", true⟩] := by rfl
  rw [left] at there
  simp only [List.mem_cons, List.not_mem_nil, or_false] at there
  obtain rfl | rfl := there
  · exact absurd is (by decide)
  · exact absurd is (by decide)

end WaAutomation.Accounts
