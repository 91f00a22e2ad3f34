/-
**The rows a call writes, keeps and drops.**

* `Call.Puts` names the rows a call can write, and `Call.Drops` those it deletes, with what cascades
  from them;
* `exec_rows`: a row stored after a call was stored before it, or the call put it;
* `exec_kept`: a row stored before is stored afterwards, overwritten by a row with its key, or
  dropped;
* `exec_keys`: primary keys stay unique.

Bulk `UPDATE`s and the changes of other modules are left out (`Call.plain`).
-/

import WaAutomation.Model.Calls

set_option linter.unusedSectionVars false

namespace WaAutomation

open Library

/-- The call writes and deletes single rows. -/
def Call.plain : Call → Bool
  | .update _ _ _ => false
  | .elsewhere _ => false
  | _ => true

/-- The rows a call can write, as their tables keep them. -/
inductive Call.Puts (input : Input) (store : Store) : (call : Call) → (table : Table) →
    Row table → Prop
  | inserted {table : Table} (draft : Input → Row table) :
      Puts input store (.insert table (some draft)) table ((draft input).held table)
  | broadcast (draft : Input → Broadcast) (recipients : List (String × Record)) :
      Puts input store (.insertBroadcast (some draft) recipients) .broadcasts (draft input)
  | recipient (draft : Input → Broadcast) (recipients : List (String × Record))
      (row : BroadcastRecipient)
      (member : row ∈ Store.recipientRows input (draft input).id 1 recipients) :
      Puts input store (.insertBroadcast (some draft) recipients) .recipients row
  | automation (draft : Input → Automation) (actions : List ActionEntity) :
      Puts input store (.insertAutomation (some draft) actions) .automations (draft input)
  | action (draft : Input → Automation) (actions : List ActionEntity) (row : AutomationAction)
      (member : row ∈ Store.actionRows input (draft input).id 1 actions) :
      Puts input store (.insertAutomation (some draft) actions) .actions row
  | onto {table : Table} (entity : Entity (Row table)) (stored row : Row table)
      (was : stored ∈ store.db table) (same : Db.sameKey entity.row stored = true)
      (writes : entity.onto stored = some row) :
      Puts input store (.save table entity) table (row.held table)
  | anew {table : Table} (entity : Entity (Row table)) (row : Row table)
      (gone : (store.db table).find? (Db.sameKey entity.row) = none)
      (writes : entity.anew = some row) :
      Puts input store (.save table entity) table (row.held table)
  | saved {table : Table} (entity : Entity Automation) (actions : List ActionEntity)
      (row : Row table) (writes : Puts input store (.save .automations entity) table row) :
      Puts input store (.saveAutomation entity actions) table row
  | savedAction (entity : Entity Automation) (actions : List ActionEntity) (row : AutomationAction)
      (member : row ∈ Store.actionRows input entity.row.id 0 actions) :
      Puts input store (.saveAutomation entity actions) .actions row

/-- The rows a `save` of an entity can leave. -/
def Entity.writes {α : Type} (entity : Entity α) (row : α) : Prop :=
  (∃ stored, entity.onto stored = some row) ∨ entity.anew = some row

theorem Entity.writes_whole {α : Type} {row written : α} (writes : (whole row).writes written) :
    written = row := by
  obtain ⟨_, same⟩ | same := writes
  · exact (Option.some.inj same).symm
  · exact (Option.some.inj same).symm

/-- An entity that is written as one row, whatever is stored. -/
theorem Entity.writes_fixed {α : Type} {row written : α} {fixed : Option α}
    (writes : (⟨row, fun _ => fixed, fixed⟩ : Entity α).writes written) : fixed = some written := by
  obtain ⟨_, onto⟩ | anew := writes
  · exact onto
  · exact anew

/-- The rows an entity is written as have its key. -/
structure Entity.Keyed (table : Table) (entity : Entity (Row table)) : Prop where
  onto : ∀ stored row, entity.onto stored = some row → row.key table = entity.row.key table
  anew : ∀ row, entity.anew = some row → row.key table = entity.row.key table

theorem Entity.whole_keyed (table : Table) (row : Row table) : (Entity.whole row).Keyed table := by
  constructor
  · intro stored other writes
    cases writes
    rfl
  · intro other writes
    cases writes
    rfl

/-- The call is plain, and the entity it saves has one key. -/
def Call.Tidy : Call → Prop
  | .save table entity => entity.Keyed table
  | .saveAutomation entity _ => entity.Keyed .automations
  | call => call.plain = true

theorem Call.Tidy.plain {call : Call} (tidy : call.Tidy) : call.plain = true := by
  cases call <;> first | rfl | exact tidy

theorem Call.reads_tidy {call : Call} (reads : call.reads = true) : call.Tidy := by
  cases call <;> first | rfl | cases reads

theorem tidy_of_reads {α : Type} {program : Svc α} (reads : Reads program) :
    program.Calls Call.Tidy :=
  calls_of_reads reads fun _ => Call.reads_tidy

/-- Rows a call puts into a table that holds no children have one key. -/
theorem Call.Tidy.puts_key {input : Input} {store : Store} {call : Call} {table : Table}
    (tidy : call.Tidy) (notRecipients : table ≠ .recipients) (notActions : table ≠ .actions)
    {row other : Row table} (first : call.Puts input store table row)
    (second : call.Puts input store table other) : row.key table = other.key table := by
  have saved {entity : Entity (Row table)} (keyed : entity.Keyed table) {row : Row table}
      (puts : Call.Puts input store (.save table entity) table row) :
      row.key table = entity.row.key table := by
    cases puts with
    | onto _ stored row _ _ writes =>
      exact (Row.held_key table row).trans (keyed.onto stored row writes)
    | anew _ row _ writes => exact (Row.held_key table row).trans (keyed.anew row writes)
  cases first with
  | inserted draft =>
    cases second
    rfl
  | broadcast draft recipients =>
    cases second
    rfl
  | recipient => exact absurd rfl notRecipients
  | automation draft actions =>
    cases second
    rfl
  | action => exact absurd rfl notActions
  | onto entity stored row was same writes =>
    exact (saved tidy (.onto entity stored row was same writes)).trans (saved tidy second).symm
  | anew entity row gone writes =>
    exact (saved tidy (.anew entity row gone writes)).trans (saved tidy second).symm
  | saved entity actions _ writes =>
    cases second with
    | saved _ _ _ writes' =>
      cases writes with
      | onto _ stored _ _ _ writes =>
        exact (tidy.onto stored _ writes).trans (saved tidy writes').symm
      | anew _ _ _ writes => exact (tidy.anew _ writes).trans (saved tidy writes').symm
    | savedAction => exact absurd rfl notActions
  | savedAction => exact absurd rfl notActions

/-- A call that loads rows puts none. -/
theorem Call.reads_puts {input : Input} {store : Store} {call : Call} (reads : call.reads = true)
    {table : Table} {row : Row table} : ¬call.Puts input store table row := by
  intro puts
  cases puts <;> cases reads

/-- The rows a call deletes. -/
inductive Call.Drops : (call : Call) → (table : Table) → Row table → Prop
  | removed {table : Table} (row other : Row table) (same : Db.sameKey row other = true) :
      Drops (.remove table row) table other
  | ofUser (user : User) (member : WorkspaceMember) (own : member.userId = user.id) :
      Drops (.remove .users user) .members member
  | ofWorkspace (workspace : Workspace) (member : WorkspaceMember)
      (own : member.workspaceId = workspace.id) :
      Drops (.remove .workspaces workspace) .members member
  | ofBroadcast (broadcast : Broadcast) (recipient : BroadcastRecipient)
      (own : recipient.broadcastId = broadcast.id) :
      Drops (.remove .broadcasts broadcast) .recipients recipient
  | ofAutomation (automation : Automation) (action : AutomationAction)
      (own : action.automationId = automation.id) :
      Drops (.remove .automations automation) .actions action
  | actions (automationId : Uuid) (action : AutomationAction)
      (own : action.automationId = automationId) :
      Drops (.deleteActions automationId) .actions action

namespace Db

/-! ### Changes of the tables -/

/-- How tables change when rows are put and rows are dropped. -/
structure Changes (puts drops : (table : Table) → Row table → Prop) (before after : Db) : Prop where
  rows : ∀ table, ∀ row ∈ after table, row ∈ before table ∨ puts table row
  kept : ∀ table, ∀ row ∈ before table, row ∈ after table ∨
    (∃ other ∈ after table, puts table other ∧ other.key table = row.key table) ∨ drops table row
  keys : ∀ table, ((before table).map (Row.key table)).Nodup →
    ((after table).map (Row.key table)).Nodup

/-- Nothing is put. -/
abbrev Erases (drops : (table : Table) → Row table → Prop) (before after : Db) : Prop :=
  Changes (fun _ _ => False) drops before after

/-- Nothing is dropped. -/
abbrev Grows (puts : (table : Table) → Row table → Prop) (before after : Db) : Prop :=
  Changes puts (fun _ _ => False) before after

section Changes

variable {puts drops : (table : Table) → Row table → Prop} {before middle after : Db}

theorem changes_refl (db : Db) : Changes puts drops db db :=
  ⟨fun _ _ member => .inl member, fun _ _ member => .inl member, fun _ keys => keys⟩

theorem writes_trans (first : Grows puts before middle) (second : Grows puts middle after) :
    Grows puts before after := by
  refine ⟨fun table row member => ?_, fun table row member => ?_, fun table keys =>
    second.keys table (first.keys table keys)⟩
  · obtain earlier | written := second.rows table row member
    · exact first.rows table row earlier
    · exact .inr written
  · obtain there | ⟨other, there, written, same⟩ | dropped := first.kept table row member
    · exact second.kept table row there
    · obtain still | ⟨last, still, last_written, last_same⟩ | dropped :=
        second.kept table other there
      · exact .inr (.inl ⟨other, still, written, same⟩)
      · exact .inr (.inl ⟨last, still, last_written, last_same.trans same⟩)
      · exact dropped.elim
    · exact dropped.elim

theorem erases_trans (first : Erases drops before middle) (second : Erases drops middle after) :
    Erases drops before after := by
  refine ⟨fun table row member => ?_, fun table row member => ?_, fun table keys =>
    second.keys table (first.keys table keys)⟩
  · obtain earlier | written := second.rows table row member
    · exact first.rows table row earlier
    · exact written.elim
  · obtain there | ⟨_, _, written, _⟩ | dropped := first.kept table row member
    · exact second.kept table row there
    · exact written.elim
    · exact .inr (.inr dropped)

theorem changes_mono {puts' drops' : (table : Table) → Row table → Prop}
    (more : ∀ table row, puts table row → puts' table row)
    (gone : ∀ table row, drops table row → drops' table row)
    (changes : Changes puts drops before after) : Changes puts' drops' before after := by
  refine ⟨fun table row member => (changes.rows table row member).imp_right (more table row),
    fun table row member => ?_, changes.keys⟩
  obtain there | ⟨other, there, written, same⟩ | dropped := changes.kept table row member
  · exact .inl there
  · exact .inr (.inl ⟨other, there, more table other written, same⟩)
  · exact .inr (.inr (gone table row dropped))

variable {table : Table} {row : Row table} {db db' : Db}

/-- A change of one table. -/
theorem changes_set {rows : List (Row table)}
    (new : ∀ row ∈ rows, row ∈ db table ∨ puts table row)
    (old : ∀ row ∈ db table, row ∈ rows ∨
      (∃ other ∈ rows, puts table other ∧ other.key table = row.key table) ∨ drops table row)
    (keys : ((db table).map (Row.key table)).Nodup → (rows.map (Row.key table)).Nodup) :
    Changes puts drops db (db.set table rows) := by
  refine ⟨fun other row member => ?_, fun other row member => ?_, fun other unique => ?_⟩
  all_goals by_cases same : other = table
  · subst same
    rw [set_same] at member
    exact new row member
  · rw [set_other db same] at member
    exact .inl member
  · subst same
    rw [set_same]
    exact old row member
  · rw [set_other db same]
    exact .inl member
  · subst same
    rw [set_same]
    exact keys unique
  · rw [set_other db same]
    exact unique

theorem push_writes (fresh : (db table).any (sameKey row) = false)
    (written : puts table (row.held table)) : Grows puts db (db.push table (row.held table)) := by
  refine changes_set (fun other member => ?_) (fun other member => ?_) fun keys => ?_
  · rcases List.mem_append.mp member with old | new
    · exact .inl old
    · rw [List.mem_singleton.mp new]
      exact .inr written
  · exact .inl (List.mem_append_left _ member)
  · rw [List.map_append, List.nodup_append]
    refine ⟨keys, List.nodup_singleton _, fun key old other new same => ?_⟩
    obtain ⟨stored, member, rfl⟩ := List.mem_map.mp old
    rw [List.map_singleton, List.mem_singleton] at new
    rw [List.any_eq_false] at fresh
    exact fresh stored member
      (decide_eq_true ((same.trans new).trans (Row.held_key table row)).symm)

theorem put_writes (written : puts table row) : Grows puts db (db.put table row) := by
  refine changes_set (fun other member => ?_) (fun other member => ?_) fun keys => ?_
  · obtain ⟨old, _⟩ | ⟨rfl, _⟩ := Rows.mem_put.mp member
    · exact .inl old
    · exact .inr written
  · by_cases same : other.key table = row.key table
    · exact .inr (.inl ⟨row, Rows.mem_put.mpr (.inr ⟨rfl, other, member, same⟩),
        written, same.symm⟩)
    · exact .inl (Rows.mem_put.mpr (.inl ⟨member, same⟩))
  · rw [Rows.keys_put]
    exact keys

theorem erase_changes {gone : Row table → Bool}
    (dropped : ∀ row, gone row = true → drops table row) :
    Changes puts drops db (db.erase table gone) := by
  refine changes_set (fun other member => .inl (List.mem_filter.mp member).1)
    (fun other member => ?_) fun keys => keys.sublist (List.filter_sublist.map _)
  by_cases going : gone other = true
  · exact .inr (.inr (dropped other going))
  · exact .inl (List.mem_filter.mpr ⟨member, by simpa using going⟩)

end Changes

/-! ### Several rows -/

theorem insertAll_writes {puts : (table : Table) → Row table → Prop} {table : Table} :
    ∀ {rows : List (Row table)} {db db' : Db}, db.insertAll table rows = .ok db' →
      (∀ row ∈ rows, puts table (row.held table)) → Grows puts db db' := by
  intro rows
  induction rows with
  | nil =>
    intro db db' inserted _
    cases inserted
    exact changes_refl db
  | cons row rows ih =>
    intro db db' inserted all
    unfold insertAll at inserted
    cases first : db.insert table row with
    | error error =>
      rw [first] at inserted
      cases inserted
    | ok next =>
      rw [first] at inserted
      obtain ⟨fresh, _, rfl⟩ := insert_ok first
      exact writes_trans (push_writes fresh (all row List.mem_cons_self))
        (ih inserted fun other member => all other (List.mem_cons_of_mem _ member))

theorem putActions_writes {puts : (table : Table) → Row table → Prop} {carries : Uuid → Bool} :
    ∀ {rows : List AutomationAction} {db db' : Db}, Store.putActions carries db rows = .ok db' →
      (∀ row ∈ rows, puts .actions row) → Grows puts db db' := by
  intro rows
  induction rows with
  | nil =>
    intro db db' put _
    cases put
    exact changes_refl db
  | cons row rows ih =>
    intro db db' put all
    unfold Store.putActions at put
    cases first : Store.putAction carries db row with
    | error error =>
      rw [first] at put
      cases put
    | ok next =>
      rw [first] at put
      refine writes_trans ?_ (ih put fun other member => all other (List.mem_cons_of_mem _ member))
      have written := all row List.mem_cons_self
      unfold Store.putAction at first
      split at first
      · rw [(replace_ok first).2]
        exact put_writes written
      · obtain ⟨fresh, _, rfl⟩ := insert_ok first
        exact push_writes fresh written

end Db

/-! ### Calls -/

section Calls

variable {input : Input} {store : Store}

/-- An entity that is inserted anew has a key of its own. -/
theorem Store.save_fresh {table : Table} {entity : Entity (Row table)} {row : Row table}
    (gone : (store.db table).find? (Db.sameKey entity.row) = none) (anew : entity.anew = some row)
    (saved : (store.save table entity).1 = .ok ()) :
    (store.db table).any (Db.sameKey row) = false := by
  unfold Store.save at saved
  simp only [gone, anew] at saved
  cases inserted : store.db.insert table row with
  | error error =>
    rw [inserted] at saved
    cases saved
  | ok db => exact (Db.insert_ok inserted).1

theorem Store.save_writes (table : Table) (entity : Entity (Row table)) :
    Db.Grows (Call.Puts input store (.save table entity)) store.db
      (store.save table entity).2.db := by
  obtain ⟨_, failed⟩ | ⟨stored, row, found, onto, _, saved⟩ | ⟨row, gone, anew, _, saved⟩ :=
    store.save_cases table entity
  · rw [failed]
    exact Db.changes_refl _
  · rw [saved]
    exact Db.put_writes (.onto entity stored row (List.mem_of_find?_eq_some found)
      (List.find?_some found) onto)
  · have fresh := Store.save_fresh gone anew (congrArg Prod.fst saved)
    rw [saved]
    exact Db.push_writes fresh (.anew entity row gone anew)

/-- A delete erases rows. -/
theorem Db.remove_erases (db : Db) (table : Table) (row : Row table) :
    Db.Erases (Call.remove table row).Drops db (db.remove table row) := by
  have own : Db.Erases (Call.remove table row).Drops db (db.erase table (Db.sameKey row)) :=
    Db.erase_changes fun other same => .removed row other same
  cases table with
  | users =>
    exact Db.erases_trans own (Db.erase_changes fun member of => .ofUser row member
      (beq_iff_eq.mp of))
  | workspaces =>
    exact Db.erases_trans own
      (Db.erase_changes fun member of => .ofWorkspace row member (beq_iff_eq.mp of))
  | broadcasts =>
    exact Db.erases_trans own
      (Db.erase_changes fun recipient of => .ofBroadcast row recipient (beq_iff_eq.mp of))
  | automations =>
    exact Db.erases_trans own
      (Db.erase_changes fun action of => .ofAutomation row action (beq_iff_eq.mp of))
  | _ => exact own

/-- **What a call does to the tables.** -/
theorem exec_changes (call : Call) (plain : call.plain = true) (input : Input) (store : Store) :
    Db.Changes (call.Puts input store) call.Drops store.db (exec call input store).2.db := by
  have written {db : Db} (writes : Db.Grows (call.Puts input store) store.db db) :
      Db.Changes (call.Puts input store) call.Drops store.db db :=
    Db.changes_mono (fun _ _ put => put) (fun _ _ dropped => dropped.elim) writes
  have erased {db : Db} (erases : Db.Erases call.Drops store.db db) :
      Db.Changes (call.Puts input store) call.Drops store.db db :=
    Db.changes_mono (fun _ _ put => put.elim) (fun _ _ dropped => dropped) erases
  obtain ⟨_, _, _, failed⟩ | performed := exec_cases call input store
  · rw [failed]
    exact Db.changes_refl _
  cases call with
  | insert table draft =>
    rw [performed]
    obtain same | ⟨draft, db, owner, rfl, inserted, same⟩ := store.insert_snd input table draft
    · simp only [perform, same]
      exact Db.changes_refl _
    · obtain ⟨fresh, _, rfl⟩ := Db.insert_ok inserted
      simp only [perform, same]
      exact written (Db.push_writes fresh (.inserted draft))
  | insertBroadcast draft recipients =>
    rw [performed]
    obtain same | ⟨draft, db, db', rfl, inserted, all, same⟩ :=
      store.insertBroadcast_snd input recipients draft
    · simp only [perform, same]
      exact Db.changes_refl _
    · obtain ⟨fresh, _, rfl⟩ := Db.insert_ok inserted
      simp only [perform, same]
      exact written (Db.writes_trans (Db.push_writes fresh (.broadcast draft recipients))
        (Db.insertAll_writes all fun row => .recipient draft recipients row))
  | insertAutomation draft actions =>
    rw [performed]
    cases draft with
    | none => exact Db.changes_refl _
    | some draft =>
      simp only [perform, Store.insertAutomation]
      cases inserted : store.db.insert .automations (draft input) with
      | error error => exact Db.changes_refl _
      | ok db =>
        obtain ⟨fresh, _, rfl⟩ := Db.insert_ok inserted
        simp only
        cases all : (store.db.push .automations (Row.held .automations (draft input))).insertAll
            .actions
            (Store.actionRows input (draft input).id 1 actions) with
        | error error => exact Db.changes_refl _
        | ok db =>
          exact written (Db.writes_trans (Db.push_writes fresh (.automation draft actions))
            (Db.insertAll_writes all fun row => .action draft actions row))
  | save table entity =>
    rw [performed]
    exact written (store.save_writes table entity)
  | saveAutomation entity actions =>
    obtain ⟨_, failed⟩ | ⟨db, put, saved⟩ := exec_saveAutomation entity actions input store
    · rw [failed]
      exact Db.changes_refl _
    · rw [saved]
      have first : Db.Grows (Call.Puts input store (.saveAutomation entity actions)) store.db
          (store.save .automations entity).2.db :=
        Db.changes_mono (fun _ row put => .saved entity actions row put)
          (fun _ _ dropped => dropped) (store.save_writes .automations entity)
      exact written (Db.writes_trans first
        (Db.putActions_writes put fun row => .savedAction entity actions row))
  | remove table row =>
    rw [performed]
    exact erased (store.db.remove_erases table row)
  | deleteActions automationId =>
    rw [performed]
    exact erased (Db.erase_changes fun action of => .actions automationId action (beq_iff_eq.mp of))
  | openwa call =>
    rw [performed]
    simp only [perform, Store.openwa]
    split <;> exact Db.changes_refl _
  | post request =>
    rw [performed]
    show Db.Changes _ _ store.db (store.post input).2.db
    rw [store.post_snd]
    exact Db.changes_refl _
  | update table matching change => cases plain
  | elsewhere change => cases plain
  | _ =>
    rw [performed]
    exact Db.changes_refl _

end Calls

/-! ### What a body leaves of a row -/

theorem ContactsService.assign_keeps {contact row : Contact} {dto : UpdateContactDto}
    (assigned : assign contact dto = some row) :
    row.id = contact.id ∧ row.workspaceId = contact.workspaceId := by
  unfold assign at assigned
  split at assigned
  · cases assigned
    exact ⟨rfl, rfl⟩
  · cases assigned

theorem WebhooksService.assign_keeps {webhook row : Webhook} {dto : UpdateWebhookDto}
    (assigned : assign webhook dto = some row) :
    row.id = webhook.id ∧ row.workspaceId = webhook.workspaceId := by
  unfold assign at assigned
  split at assigned
  · cases assigned
    exact ⟨rfl, rfl⟩
  · cases assigned

theorem AutomationsService.assign_keeps {automation row : Automation} {dto : UpdateAutomationDto}
    (assigned : assign automation dto = some row) :
    row.id = automation.id ∧ row.workspaceId = automation.workspaceId ∧
      row.runCount = automation.runCount ∧
      row.sessionId = dto.sessionId.orElse automation.sessionId := by
  unfold assign at assigned
  split at assigned
  · cases assigned
    exact ⟨rfl, rfl, rfl, rfl⟩
  · cases assigned

theorem SessionsService.assign_keeps {session row : Session} {dto : UpdateSessionDto}
    (writes : (assign session dto).writes row) :
    row.id = session.id ∧ row.workspaceId = session.workspaceId := by
  unfold assign at writes
  cases given : dto.name with
  | undefined =>
    rw [given] at writes
    obtain ⟨_, onto⟩ | anew := writes
    · cases onto
      exact ⟨rfl, rfl⟩
    · cases anew
  | null =>
    rw [given] at writes
    obtain ⟨_, onto⟩ | anew := writes
    · cases onto
    · cases anew
  | value name =>
    rw [given] at writes
    rw [Entity.writes_whole writes]
    exact ⟨rfl, rfl⟩

end WaAutomation
