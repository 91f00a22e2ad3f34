/-
**References between the tables.**

Tenant data names its workspace, and automations and broadcasts name the session they send through.
The schema of `plan.md` declares these columns with `REFERENCES`; of the entities only memberships,
recipients and actions declare the relation, so Postgres keeps no other reference valid.

* `Integrity`: every reference of a stored row names a stored row;
* `integrity_changes`: what a call has to put and to spare to keep it;
* `removeWorkspace_iff`, `removeSession_iff`: which deletes keep it;
* `Careful`: the deletes that leave no reference behind, and the automations that name no session or
  a stored one;
* `Keeps`: a careful call keeps the integrity of the store it finds. A delete always has this
  property, an insert or a `save` when the row it writes refers to stored rows.
-/

import WaAutomation.Model.Writes

set_option linter.unusedSectionVars false

namespace WaAutomation

open Library

/-! ### References -/

/-- The references of a row: the table and the id of the row it names. -/
def Row.refs : (table : Table) → Row table → List (Table × Uuid)
  | .members, row => [(.workspaces, row.workspaceId)]
  | .apiKeys, row => [(.workspaces, row.workspaceId)]
  | .sessions, row => [(.workspaces, row.workspaceId)]
  | .contacts, row => [(.workspaces, row.workspaceId)]
  | .groups, row => [(.workspaces, row.workspaceId)]
  | .webhooks, row => [(.workspaces, row.workspaceId)]
  | .broadcasts, row => [(.workspaces, row.workspaceId), (.sessions, row.sessionId)]
  | .automations, row =>
      (.workspaces, row.workspaceId) :: row.sessionId.toList.map fun id => (.sessions, id)
  | _, _ => []

/-- The rows a row refers to are stored. -/
def Db.Supports (db : Db) (table : Table) (row : Row table) : Prop :=
  ∀ ref ∈ Row.refs table row, db.has ref.1 ref.2 = true

instance (db : Db) (table : Table) (row : Row table) : Decidable (db.Supports table row) :=
  inferInstanceAs (Decidable (∀ ref ∈ Row.refs table row, db.has ref.1 ref.2 = true))

/-- **Referential integrity.** -/
def Db.Integrity (db : Db) : Prop := ∀ table, ∀ row ∈ db table, db.Supports table row

/-- No row refers to this one, memberships apart: they are deleted with it. -/
def Db.Unnamed (db : Db) (table : Table) (id : Uuid) : Prop :=
  ∀ other ≠ .members, ∀ row ∈ db other, (table, id) ∉ Row.refs other row

/-- No reference is cut. -/
theorem Row.refs_held (table : Table) (row : Row table) :
    Row.refs table (row.held table) = Row.refs table row := by
  cases table <;> rfl

theorem Db.supports_held {db : Db} {table : Table} {row : Row table}
    (supports : db.Supports table row) : db.Supports table (row.held table) := by
  unfold Supports
  rw [Row.refs_held]
  exact supports

/-- Only workspaces and sessions are referred to. -/
theorem Row.refs_table {table : Table} {row : Row table} {ref : Table × Uuid}
    (member : ref ∈ Row.refs table row) : ref.1 = .workspaces ∨ ref.1 = .sessions := by
  cases table with
  | broadcasts =>
    rcases List.mem_pair.mp member with rfl | rfl
    · exact .inl rfl
    · exact .inr rfl
  | automations =>
    rcases List.mem_cons.mp member with rfl | named
    · exact .inl rfl
    · obtain ⟨_, _, rfl⟩ := List.mem_map.mp named
      exact .inr rfl
  | users => cases member
  | workspaces => cases member
  | logs => cases member
  | recipients => cases member
  | actions => cases member
  | deliveries => cases member
  | _ =>
    obtain rfl := List.mem_singleton.mp member
    exact .inl rfl

section Changes

variable {puts drops : (table : Table) → Row table → Prop} {before after : Db}

theorem has_iff {db : Db} {table : Table} {id : Uuid} :
    db.has table id = true ↔ ∃ row ∈ db table, (row.key table).1 = id := by
  unfold Db.has
  simp only [List.any_eq_true, beq_iff_eq]

/-- A row that is not dropped is still there, with its key. -/
theorem has_kept (changes : Db.Changes puts drops before after) {table : Table} {id : Uuid}
    (there : before.has table id = true)
    (spared : ∀ row, drops table row → (row.key table).1 ≠ id) : after.has table id = true := by
  obtain ⟨row, member, is_id⟩ := has_iff.mp there
  obtain still | ⟨other, still, _, same⟩ | dropped := changes.kept table row member
  · exact has_iff.mpr ⟨row, still, is_id⟩
  · exact has_iff.mpr ⟨other, still, (congrArg Prod.fst same).trans is_id⟩
  · exact absurd is_id (spared row dropped)

/-- **How a change keeps integrity**: the rows it puts refer to stored ones, and no row left over
refers to one it drops. -/
theorem integrity_changes (changes : Db.Changes puts drops before after)
    (whole : before.Integrity) (new : ∀ table row, puts table row → before.Supports table row)
    (spared : ∀ table, ∀ row ∈ after table, ∀ ref ∈ Row.refs table row, ∀ stored,
      drops ref.1 stored → (stored.key ref.1).1 ≠ ref.2) : after.Integrity := by
  intro table row member ref names
  have there : before.has ref.1 ref.2 = true := by
    obtain old | written := changes.rows table row member
    · exact whole table row old ref names
    · exact new table row written ref names
  exact has_kept changes there (spared table row member ref names)

end Changes

/-! ### Careful calls -/

/-- The call does not delete what is still referred to, and writes no automation that names a
session which is not there. -/
def Careful (call : Call) (input : Input) (store : Store) : Prop :=
  match call with
  | .remove .workspaces row => store.db.Unnamed .workspaces row.id
  | .remove .sessions row => store.db.Unnamed .sessions row.id
  | .insertAutomation draft actions => ∀ row, Call.Puts input store
      (.insertAutomation draft actions)
      .automations row → ∀ id ∈ row.sessionId, store.db.has .sessions id = true
  | .saveAutomation entity actions => ∀ row, Call.Puts input store (.saveAutomation entity actions)
      .automations row → ∀ id ∈ row.sessionId, store.db.has .sessions id = true
  | _ => True

/-- A careful call keeps integrity; one that fails at the database leaves everything as it is. -/
def Keeps (call : Call) (input : Input) (store : Store) : Prop :=
  (input.fault = none → Careful call input store) → store.db.Integrity →
    (exec call input store).2.db.Integrity

section Calls

variable {input : Input} {store : Store}

/-- A call that reaches neither a table with references nor one that is referred to. -/
theorem keeps_quiet {call : Call} (quiet : ∀ table, call.writes table = false) :
    Keeps call input store := by
  intro _ whole
  have same : (exec call input store).2.db = store.db :=
    funext fun table => exec_other call input store (quiet table)
  rw [same]
  exact whole

/-- A call that drops neither workspaces nor sessions, and puts rows that refer to stored ones. -/
theorem keeps_puts {call : Call} (storage : call.storage = true) (plain : call.plain = true)
    (spares : ∀ table row, call.Drops table row → table ≠ .workspaces ∧ table ≠ .sessions)
    (new : Careful call input store → store.db.Integrity →
      ∀ table row, call.Puts input store table row → store.db.Supports table row) :
    Keeps call input store := by
  intro careful whole
  obtain ⟨error, failed⟩ | ⟨clear, _⟩ := exec_storage call storage input store
  · rw [failed]
    exact whole
  · refine integrity_changes (exec_changes call plain input store) whole (new (careful clear) whole)
      fun table row _ ref names stored dropped => ?_
    obtain ⟨notWorkspaces, notSessions⟩ := spares ref.1 stored dropped
    exact absurd (Row.refs_table names) (not_or.mpr ⟨notWorkspaces, notSessions⟩)

end Calls

/-! ### Deletes -/

section Deletes

variable {db : Db} {input : Input} {store : Store}

/-- **A workspace can be deleted exactly when nothing but memberships names it**: these go with
it. -/
theorem removeWorkspace_iff {workspace : Workspace} (whole : db.Integrity) :
    (db.remove .workspaces workspace).Integrity ↔ db.Unnamed .workspaces workspace.id := by
  refine ⟨fun kept other notMembers row listed names => ?_, fun unnamed => ?_⟩
  · have still : row ∈ db.remove .workspaces workspace other := by
      obtain still | ⟨_, _, put, _⟩ | dropped :=
        (db.remove_erases .workspaces workspace).kept other row listed
      · exact still
      · exact put.elim
      · cases dropped with
        | removed => cases names
        | ofWorkspace => exact absurd rfl notMembers
    obtain ⟨twin, left, is_id⟩ := has_iff.mp (kept other row still _ names)
    obtain ⟨_, stays⟩ := List.mem_filter.mp left
    have same : Db.sameKey workspace twin = true :=
      decide_eq_true (congrArg (fun id => (id, "")) is_id.symm)
    rw [same] at stays
    cases stays
  refine integrity_changes (db.remove_erases .workspaces workspace) whole
    (fun _ _ put => put.elim) ?_
  rintro table row left ⟨parent, id⟩ names stored dropped same
  cases dropped with
  | removed _ stored twin =>
    have is_id : workspace.id = id := (congrArg Prod.fst (of_decide_eq_true twin)).trans same
    subst is_id
    by_cases member : table = .members
    · subst member
      obtain ⟨_, stays⟩ := List.mem_filter.mp left
      have other : row.workspaceId ≠ workspace.id := by simpa using stays
      exact other (Prod.mk.inj (List.mem_singleton.mp names)).2.symm
    · have listed := ((db.remove_erases .workspaces workspace).rows table row left).resolve_right id
      exact unnamed table member row listed names
  | ofWorkspace =>
    obtain is | is := Row.refs_table names
    · cases is
    · cases is

theorem removeSession_iff {session : Session} (whole : db.Integrity) :
    (db.remove .sessions session).Integrity ↔ db.Unnamed .sessions session.id := by
  refine ⟨fun kept other _ row listed names => ?_, fun unnamed => ?_⟩
  · have still : row ∈ db.remove .sessions session other := by
      obtain still | ⟨_, _, put, _⟩ | dropped :=
        (db.remove_erases .sessions session).kept other row listed
      · exact still
      · exact put.elim
      · cases dropped
        exact absurd (Prod.mk.inj (List.mem_singleton.mp names)).1 (by decide)
    obtain ⟨twin, left, is_id⟩ := has_iff.mp (kept other row still _ names)
    obtain ⟨_, stays⟩ := List.mem_filter.mp left
    have same : Db.sameKey session twin = true :=
      decide_eq_true (congrArg (fun id => (id, "")) is_id.symm)
    rw [same] at stays
    cases stays
  refine integrity_changes (db.remove_erases .sessions session) whole
    (fun _ _ put => put.elim) ?_
  rintro table row left ⟨parent, id⟩ names stored dropped same
  cases dropped with
  | removed _ stored twin =>
    have is_id : session.id = id := (congrArg Prod.fst (of_decide_eq_true twin)).trans same
    subst is_id
    have listed := ((db.remove_erases .sessions session).rows table row left).resolve_right id
    refine unnamed table (fun member => ?_) row listed names
    subst member
    exact absurd (Prod.mk.inj (List.mem_singleton.mp names)).1 (by decide)

/-- Every `remove` keeps integrity when it is careful. -/
theorem keeps_remove (table : Table) (row : Row table) : Keeps (.remove table row) input store := by
  by_cases parent : table = .workspaces ∨ table = .sessions
  · intro careful whole
    obtain ⟨error, failed⟩ | ⟨clear, performed⟩ := exec_storage (.remove table row) rfl input store
    · rw [failed]
      exact whole
    · rw [performed]
      obtain rfl | rfl := parent
      · exact (removeWorkspace_iff whole).mpr (careful clear)
      · exact (removeSession_iff whole).mpr (careful clear)
  · refine keeps_puts rfl rfl (fun other stored dropped => ?_) fun _ _ _ _ put => (by cases put)
    cases dropped with
    | removed => exact not_or.mp parent
    | ofWorkspace => exact absurd (.inl rfl) parent
    | _ => exact ⟨by decide, by decide⟩

theorem keeps_deleteActions (automationId : Uuid) :
    Keeps (.deleteActions automationId) input store := by
  refine keeps_puts rfl rfl (fun other stored dropped => ?_) fun _ _ _ _ put => (by cases put)
  cases dropped
  exact ⟨by decide, by decide⟩

end Deletes

/-! ### Writes -/

section Writes

variable {input : Input} {store : Store}

theorem keeps_insert {table : Table} {draft : Input → Row table}
    (refers : store.db.Integrity → store.db.Supports table (draft input)) :
    Keeps (.insert table (some draft)) input store := by
  refine keeps_puts rfl rfl (fun _ _ dropped => (by cases dropped)) fun _ whole other row put => ?_
  cases put
  exact Db.supports_held (refers whole)

/-- An insert without a draft writes nothing. -/
theorem keeps_insert_none {table : Table} : Keeps (.insert table none) input store := by
  refine keeps_puts rfl rfl (fun _ _ dropped => (by cases dropped)) fun _ whole other row put => ?_
  cases put

theorem recipients_refs (db : Db) (row : BroadcastRecipient) : db.Supports .recipients row :=
  fun _ names => (by cases names)

theorem actions_refs (db : Db) (row : AutomationAction) : db.Supports .actions row :=
  fun _ names => (by cases names)

theorem keeps_insertBroadcast {draft : Option (Input → Broadcast)}
    {recipients : List (String × Record)}
    (refers : store.db.Integrity → ∀ build ∈ draft, store.db.Supports .broadcasts (build input)) :
    Keeps (.insertBroadcast draft recipients) input store := by
  refine keeps_puts rfl rfl (fun _ _ dropped => (by cases dropped)) fun _ whole other row put => ?_
  cases put with
  | broadcast draft => exact refers whole draft rfl
  | recipient _ _ row => exact recipients_refs store.db row

/-- The references of an automation: its workspace, and what a careful call answers for. -/
theorem supports_automation {db : Db} {row : Automation}
    (home : db.has .workspaces row.workspaceId = true)
    (session : ∀ id ∈ row.sessionId, db.has .sessions id = true) :
    db.Supports .automations row := by
  intro ref names
  rcases List.mem_cons.mp names with rfl | named
  · exact home
  · obtain ⟨id, listed, rfl⟩ := List.mem_map.mp named
    exact session id (Option.mem_toList.mp listed)

theorem keeps_insertAutomation {draft : Option (Input → Automation)} {actions : List ActionEntity}
    (refers : store.db.Integrity → ∀ build ∈ draft,
      store.db.has .workspaces (build input).workspaceId = true) :
    Keeps (.insertAutomation draft actions) input store := by
  refine keeps_puts rfl rfl (fun _ _ dropped => (by cases dropped))
    fun careful whole other row put => ?_
  cases put with
  | automation draft =>
    exact supports_automation (refers whole draft rfl) (careful _ (.automation draft actions))
  | action _ _ row => exact actions_refs store.db row

/-- The `save` of a loaded row that refers to the same rows as before. -/
theorem keeps_save {table : Table} {entity : Entity (Row table)} {old : Row table}
    (there : old ∈ store.db table)
    (loyal : ∀ row, entity.writes row → Row.refs table row = Row.refs table old) :
    Keeps (.save table entity) input store := by
  refine keeps_puts rfl rfl (fun _ _ dropped => (by cases dropped)) fun _ whole other row put => ?_
  have same {row : Row table} (same : Row.refs table row = Row.refs table old) :
      store.db.Supports table (row.held table) :=
    Db.supports_held fun ref names => whole table old there ref (same ▸ names)
  cases put with
  | onto _ stored row _ _ onto => exact same (loyal row (.inl ⟨stored, onto⟩))
  | anew _ row _ anew => exact same (loyal row (.inr anew))

/-- The `save` of a row whose references are stored. -/
theorem keeps_save_whole {table : Table} {row : Row table}
    (refers : store.db.Integrity → store.db.Supports table row) :
    Keeps (.save table (.whole row)) input store := by
  refine keeps_puts rfl rfl (fun _ _ dropped => (by cases dropped)) fun _ whole other row put => ?_
  cases put with
  | onto _ _ _ _ _ onto =>
    cases onto
    exact Db.supports_held (refers whole)
  | anew _ _ _ anew =>
    cases anew
    exact Db.supports_held (refers whole)

theorem keeps_saveAutomation {entity : Entity Automation} {actions : List ActionEntity}
    {old : Automation} (there : old ∈ store.db .automations)
    (loyal : ∀ row, entity.writes row → row.workspaceId = old.workspaceId) :
    Keeps (.saveAutomation entity actions) input store := by
  refine keeps_puts rfl rfl (fun _ _ dropped => (by cases dropped))
    fun careful whole other row put => ?_
  cases put with
  | saved _ _ row writes =>
    cases writes with
    | onto _ stored row was twin onto =>
      refine supports_automation ?_ (careful row
        (.saved entity actions row (.onto _ stored row was twin onto)))
      rw [show (Row.held .automations row).workspaceId = old.workspaceId from
        loyal row (.inl ⟨stored, onto⟩)]
      exact whole .automations old there _ List.mem_cons_self
    | anew _ row gone anew =>
      refine supports_automation ?_ (careful row
        (.saved entity actions row (.anew _ row gone anew)))
      rw [show (Row.held .automations row).workspaceId = old.workspaceId from
        loyal row (.inr anew)]
      exact whole .automations old there _ List.mem_cons_self
  | savedAction _ _ row => exact actions_refs store.db row

end Writes

end WaAutomation
