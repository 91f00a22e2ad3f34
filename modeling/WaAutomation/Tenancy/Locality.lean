/-
**Calls on behalf of a workspace.**

What a single call may do on behalf of a workspace, wherever in a run it is made: `Local` is a
condition on the call alone, and `Fair` is what its reply may be relied on for. `Store.part` is what
a workspace has to do with: its part of the database, its jobs without their numbers, and its
entries of the journal. BullMQ numbers the jobs of all tenants together, so the number `queue.add`
replies is the one thing that tells one tenant of another; `hear` leaves it out.

`exec_contained`: a local call replies and leaves rows at home, leaves what every other workspace
has to do with as it is, and its reply and what it leaves to its own workspace depend on what that
workspace has to do with.
-/

import WaAutomation.Model.Writes
import WaAutomation.Tenancy.Confinement
import WaAutomation.Tenancy.Parts

set_option linter.unusedSectionVars false

namespace WaAutomation

open Library

/-! ### What a workspace has to do with -/

/-- The workspace of a job. -/
def Job.workspace (home : Uuid → Uuid) : Job → Option Uuid
  | .message data => data.workspaceId
  | .broadcast data => some (home data.broadcastId)
  | .webhook data => some (home data.webhookId)
  | .automation data => some data.workspaceId

/-- The workspace of a socket event. -/
def Event.workspace : Event → Option Uuid
  | .sessionStatus workspaceId _ _ _ => some workspaceId
  | .sessionQr workspaceId _ _ => some workspaceId
  | .messageReceived workspaceId _ _ _ => some workspaceId
  | .messageSent workspaceId _ _ _ => workspaceId
  | .broadcastProgress workspaceId _ _ _ _ => some workspaceId
  | .automationTriggered workspaceId _ => some workspaceId

/-- The workspace of an entry of the journal. Nobody hears how long another one sleeps. -/
def Effect.workspace : Effect → Option Uuid
  | .openwa call _ => some call.creds.workspaceId
  | .emit event => event.workspace
  | .sleep _ => none

/-- A job without its number. -/
def QueuedJob.unnumbered (job : QueuedJob) : QueuedJob := { job with id := 0 }

namespace Store

/-- The jobs of a workspace. -/
def jobsIn (home : Uuid → Uuid) (w : Uuid) (jobs : List QueuedJob) : List QueuedJob :=
  (jobs.filter fun job => job.job.workspace home == some w).map QueuedJob.unnumbered

/-- What a workspace has to do with. -/
def part (home : Uuid → Uuid) (w : Uuid) (store : Store) : Store where
  db := store.db.part home w
  jobs := jobsIn home w store.jobs
  jobIds := 0
  journal := store.journal.filter fun effect => effect.workspace == some w
  owner _ _ := none

end Store

/-! ### Local calls -/

/-- The save of an entity, loaded by a workspace. -/
structure SavesOurs (home : Uuid → Uuid) (w : Uuid) (table : Table) (entity : Entity (Row table)) :
    Prop where
  here : home (Row.key table entity.row).1 = w
  ours : ∀ row, entity.writes row → Row.Ours home w table row

/-- The ids generated for the workspace. -/
def Input.homed (home : Uuid → Uuid) (w : Uuid) (input : Input) : Prop :=
  ∀ number, home (input.ids number) = w

/-- The actions of an entity of the workspace. -/
def OursLoaded (home : Uuid → Uuid) (w : Uuid) (actions : List ActionEntity) : Prop :=
  ∀ row, .loaded row ∈ actions → Row.Ours home w .actions row

/-- A call on behalf of a workspace. -/
def Local (home : Uuid → Uuid) (w : Uuid) : Call → Prop
  | .find table matching => table.shared = true ∨ ∀ row, Row.Homed home table row →
      matching row = true → home (Row.key table row).1 = w
  | .findStatus id => home id = w
  | .findAutomations matching => ∀ row, Row.Homed home .automations row →
      matching row = true → home row.id = w
  | .insert table draft => ∀ make, draft = some make → ∀ input, input.homed home w →
      Row.Ours home w table (make input)
  | .insertBroadcast draft _ => ∀ make, draft = some make → ∀ input, input.homed home w →
      Row.Ours home w .broadcasts (make input)
  | .insertAutomation draft actions => (∀ make, draft = some make → ∀ input, input.homed home w →
      Row.Ours home w .automations (make input)) ∧ OursLoaded home w actions
  | .save table entity => SavesOurs home w table entity
  | .saveAutomation entity actions =>
      SavesOurs home w .automations entity ∧ OursLoaded home w actions
  | .remove table row => table.written = true ∧ home (Row.key table row).1 = w
  | .deleteActions automationId => home automationId = w
  | .update _ _ _ => False
  | .add job _ _ => job.workspace home = some w
  | .openwa call => call.creds.workspaceId = w
  | .emit event => event.workspace = some w
  | .sleep _ | .post _ => True
  | .elsewhere _ => False

/-- Replies show rows that are at home and match what was asked for. -/
def Fair (home : Uuid → Uuid) : (call : Call) → Except Err (Resp call) → Prop
  | .find table matching, .ok rows =>
      ∀ row ∈ rows, Row.Homed home table row ∧ matching row = true
  | .findAutomations matching, .ok rows => ∀ loaded ∈ rows,
      Row.Homed home .automations loaded.1 ∧ matching loaded.1 = true ∧
        ∀ action ∈ loaded.2, Row.Homed home .actions action ∧
          action.automationId = loaded.1.id
  | _, _ => True

/-- A reply but for the number of a job. -/
def hear : (call : Call) → Except Err (Resp call) → Except Err (Resp call)
  | .add _ _ _, .ok _ => .ok 0
  | _, reply => reply

/-- The call stays inside the workspace, whatever store it finds. -/
structure Contained (home : Uuid → Uuid) (w : Uuid) (call : Call)
    (outcome : Store → Except Err (Resp call) × Store) : Prop where
  homed : ∀ store, store.db.Homed home →
    Fair home call (outcome store).1 ∧ (outcome store).2.db.Homed home
  own : ∀ store store', store.db.Homed home → store'.db.Homed home →
    store.part home w = store'.part home w →
      hear call (outcome store).1 = hear call (outcome store').1 ∧
        (outcome store).2.part home w = (outcome store').2.part home w
  hidden : ∀ store v, v ≠ w → store.db.Homed home →
    (outcome store).2.part home v = store.part home v

section Calls

variable {home : Uuid → Uuid} {w : Uuid} {input : Input}

/-- A call that leaves the store alone. -/
theorem contained_keep {call : Call} {reply : Store → Except Err (Resp call)}
    (fair : ∀ store, store.db.Homed home → Fair home call (reply store))
    (own : ∀ store store', store.db.Homed home → store'.db.Homed home →
      store.db.part home w = store'.db.part home w → reply store = reply store') :
    Contained home w call fun store => (reply store, store) :=
  ⟨fun store homed => ⟨fair store homed, homed⟩,
    fun store store' homed homed' same =>
      ⟨congrArg (hear call) (own store store' homed homed' (congrArg Store.db same)), same⟩,
    fun _ _ _ _ => rfl⟩

/-- A call that is a tame write of the database. -/
theorem contained_write {call : Call} {outcome : Store → Except Err (Resp call) × Store}
    (value : Resp call) {write : Db → Except Err Db} (tame : Db.Tame home w write)
    (fair : ∀ reply, Fair home call reply)
    (writes : ∀ store, ∃ failed owner, outcome store = match write store.db with
      | .error error => (.error error, { store with owner := failed })
      | .ok db => (.ok value, { store with db := db, owner := owner })) :
    Contained home w call outcome := by
  refine ⟨fun store homed => ⟨fair _, ?_⟩, fun store store' homed homed' same => ?_,
    fun store v different homed => ?_⟩
  · obtain ⟨failed, owner, shape⟩ := writes store
    rw [shape]
    cases done : write store.db with
    | error error => exact homed
    | ok db => exact tame.homed store.db db homed done
  · obtain ⟨failed, owner, shape⟩ := writes store
    obtain ⟨failed', owner', shape'⟩ := writes store'
    rw [shape, shape']
    obtain ⟨error, done, done'⟩ | ⟨db, db', done, done', alike⟩ := Db.map_part_cases
      (tame.own store.db store'.db homed homed' (congrArg Store.db same))
    · rw [done, done']
      exact ⟨rfl, same⟩
    · rw [done, done']
      refine ⟨rfl, ?_⟩
      have jobs := congrArg Store.jobs same
      have journal := congrArg Store.journal same
      simp only [Store.part] at jobs journal ⊢
      rw [alike, jobs, journal]
  · obtain ⟨failed, owner, shape⟩ := writes store
    rw [shape]
    cases done : write store.db with
    | error error => rfl
    | ok db =>
      simp only [Store.part]
      rw [tame.hidden store.db db v different homed done]

/-- A call that notes an effect of the workspace. -/
theorem contained_note {call : Call} {reply : Except Err (Resp call)} {effect : Effect}
    (ours : ∀ v, v ≠ w → (effect.workspace == some v) = false)
    (fair : Fair home call reply) :
    Contained home w call fun store => (reply, store.note effect) := by
  refine ⟨fun _ homed => ⟨fair, homed⟩, fun store store' _ _ same => ⟨rfl, ?_⟩,
    fun store v different _ => ?_⟩
  · have journal := congrArg Store.journal same
    have db := congrArg Store.db same
    have jobs := congrArg Store.jobs same
    simp only [Store.part, Store.note, List.filter_append] at db jobs journal ⊢
    rw [db, jobs, journal]
  · simp only [Store.part, Store.note, List.filter_append]
    rw [List.filter_cons_of_neg (by rw [ours v different]; decide), List.filter_nil,
      List.append_nil]

/-! #### Reads -/

theorem inPart_local {table : Table} {matching : Row table → Bool} {db : Db}
    (asks : table.shared = true ∨ ∀ row, Row.Homed home table row → matching row = true →
      home (Row.key table row).1 = w) (homed : db.Homed home) :
    ∀ row ∈ db table, matching row = true → Row.inPart home w table row = true := by
  intro row member hit
  obtain shared | inside := asks
  · rw [Row.inPart, shared, Bool.true_or]
  · exact Db.inPart_of_home (inside row (homed table row member) hit)

theorem contained_find {table : Table} {matching : Row table → Bool}
    (asks : Local home w (.find table matching)) :
    Contained home w (.find table matching)
      (fun store => perform input store (.find table matching)) := by
  refine contained_keep (fun store homed row member => ?_) fun store store' homed homed' same => ?_
  · obtain ⟨stored, hit⟩ := List.mem_filter.mp member
    exact ⟨homed table row stored, hit⟩
  · exact congrArg Except.ok
      (Db.filter_part same (inPart_local asks homed) (inPart_local asks homed'))

theorem contained_findStatus {id : Uuid} (here : home id = w) :
    Contained home w (.findStatus id) (fun store => perform input store (.findStatus id)) := by
  refine contained_keep (fun _ _ => trivial) fun store store' homed homed' same => ?_
  have inside (db : Db) : ∀ row ∈ db .broadcasts, (row.id == id) = true →
      Row.inPart home w .broadcasts row = true :=
    fun row _ hit => Db.inPart_of_home ((congrArg home (beq_iff_eq.mp hit)).trans here)
  exact congrArg (fun found => Except.ok (found.map Broadcast.status))
    (Db.find_part same (inside _) (inside _))

theorem contained_findAutomations {matching : Automation → Bool}
    (asks : Local home w (.findAutomations matching)) :
    Contained home w (.findAutomations matching)
      (fun store => perform input store (.findAutomations matching)) := by
  have inside {db : Db} (homed : db.Homed home) : ∀ row ∈ db .automations,
      matching row = true → Row.inPart home w .automations row = true :=
    fun row member hit => Db.inPart_of_home (asks row (homed .automations row member) hit)
  refine contained_keep (fun store homed loaded member => ?_)
    fun store store' homed homed' same => ?_
  · obtain ⟨row, listed, rfl⟩ := List.mem_map.mp member
    obtain ⟨stored, hit⟩ := List.mem_filter.mp listed
    refine ⟨homed .automations row stored, hit, fun action loaded => ?_⟩
    obtain ⟨stored_action, names⟩ := List.mem_filter.mp loaded
    exact ⟨homed .actions action stored_action, beq_iff_eq.mp names⟩
  · have rows := Db.filter_part same (inside homed) (inside homed')
    refine congrArg Except.ok ?_
    rw [rows]
    refine List.map_congr_left fun row listed => ?_
    obtain ⟨stored, hit⟩ := List.mem_filter.mp listed
    have here := asks row (homed' .automations row stored) hit
    have children {db : Db} (homed : db.Homed home) : ∀ action ∈ db .actions,
        (action.automationId == row.id) = true → Row.inPart home w .actions action = true := by
      intro action member names
      have parent := (homed .actions action member).parent _ rfl
      rw [beq_iff_eq.mp names] at parent
      exact Db.inPart_of_home (parent.symm.trans here)
    exact congrArg (Prod.mk row) (Db.filter_part same (children homed) (children homed'))

/-! #### Writes -/

/-- **The insert of a row of the workspace.** -/
theorem contained_insert {table : Table} {draft : Option (Input → Row table)}
    (asks : Local home w (.insert table draft)) (ids : input.homed home w) :
    Contained home w (.insert table draft) fun store => store.insert input table draft := by
  cases draft with
  | none => exact contained_keep (fun _ _ => trivial) fun _ _ _ _ _ => rfl
  | some make =>
    refine contained_write (make input) (Db.tame_insert (asks make rfl input ids))
      (fun _ => trivial) fun store => ⟨store.owner, (store.register table (make input)).owner, ?_⟩
    simp only [Store.insert]
    cases store.db.insert table (make input) with
    | error error => rfl
    | ok db => cases table <;> rfl

/-- A row under a parent of the workspace. -/
theorem ours_child {table : Table} {row : Row table} {parent : Uuid}
    (written : table.written = true) (nowhere : Row.workspace table row = none)
    (names : Row.parentId table row = some parent) (sessionless : Row.session table row = none)
    (here : home parent = w) (is_here : home (Row.key table row).1 = w) :
    Row.Ours home w table row := by
  refine ⟨written, is_here, ⟨fun id named => ?_, fun id named => ?_, fun id named => ?_⟩⟩
  · rw [nowhere] at named
    cases named
  · rw [names] at named
    cases named
    exact here.trans is_here.symm
  · rw [sessionless] at named
    cases named

/-- New recipients of a broadcast of the workspace. -/
theorem recipients_ours {broadcast : Uuid} (here : home broadcast = w) (ids : input.homed home w)
    (recipients : List (String × Record)) :
    ∀ row ∈ Store.recipientRows input broadcast 1 recipients,
      Row.Ours home w .recipients row := by
  intro row member
  obtain ⟨names, number, has_id⟩ := mem_recipientRows member
  exact ours_child rfl rfl (congrArg some names) rfl here
    ((congrArg home has_id).trans (ids number))

/-- The actions of an automation of the workspace. -/
theorem actions_ours {automation : Uuid} {actions : List ActionEntity} {index : Nat}
    (here : home automation = w) (ids : input.homed home w) (loaded : OursLoaded home w actions) :
    ∀ row ∈ Store.actionRows input automation index actions, Row.Ours home w .actions row := by
  intro row member
  obtain is_loaded | ⟨names, number, has_id⟩ := mem_actionRows member
  · exact loaded row is_loaded
  · exact ours_child rfl rfl (congrArg some names) rfl here
      ((congrArg home has_id).trans (ids number))

theorem contained_insertBroadcast {draft : Option (Input → Broadcast)}
    {recipients : List (String × Record)} (asks : Local home w (.insertBroadcast draft recipients))
    (ids : input.homed home w) :
    Contained home w (.insertBroadcast draft recipients) fun store =>
      store.insertBroadcast input recipients draft := by
  cases draft with
  | none => exact contained_keep (fun _ _ => trivial) fun _ _ _ _ _ => rfl
  | some make =>
    have ours := asks make rfl input ids
    have children : ∀ row ∈ Store.recipientRows input (make input).id 1 recipients,
        Row.Ours home w .recipients row := recipients_ours ours.here ids recipients
    refine contained_write (make input) (Db.tame_then (Db.tame_insert ours)
      (Db.tame_insertAll .recipients children)) (fun _ => trivial)
      fun store => ⟨store.owner, store.owner, ?_⟩
    simp only [Store.insertBroadcast]
    cases store.db.insert .broadcasts (make input) with
    | error error => rfl
    | ok db =>
      cases db.insertAll .recipients
        (Store.recipientRows input (make input).id 1 recipients) <;> rfl

theorem contained_insertAutomation {draft : Option (Input → Automation)}
    {actions : List ActionEntity} (asks : Local home w (.insertAutomation draft actions))
    (ids : input.homed home w) :
    Contained home w (.insertAutomation draft actions) fun store =>
      store.insertAutomation input actions draft := by
  cases draft with
  | none => exact contained_keep (fun _ _ => trivial) fun _ _ _ _ _ => rfl
  | some make =>
    have ours := asks.1 make rfl input ids
    have children : ∀ row ∈ Store.actionRows input (make input).id 1 actions,
        Row.Ours home w .actions row := actions_ours ours.here ids asks.2
    refine contained_write (make input, Store.actionRows input (make input).id 1 actions)
      (Db.tame_then (Db.tame_insert ours) (Db.tame_insertAll .actions children))
      (fun _ => trivial) fun store => ?_
    let noted := store.issue .automations (make input).id (make input).workspaceId
    simp only [Store.insertAutomation]
    cases store.db.insert .automations (make input) with
    | error error => exact ⟨store.owner, noted.owner, rfl⟩
    | ok db =>
      refine ⟨noted.owner, noted.owner, ?_⟩
      cases db.insertAll .actions (Store.actionRows input (make input).id 1 actions) <;> rfl

/-- What `save` does to the database. -/
def Db.saved (db : Db) (table : Table) (entity : Entity (Row table)) : Except Err Db :=
  match (db table).find? (Db.sameKey entity.row) with
  | some stored =>
      match entity.onto stored with
      | none => .error notNullViolation
      | some row => db.replace table row
  | none =>
      match entity.anew with
      | none => .error notNullViolation
      | some row => db.insert table row

theorem save_eq (store : Store) (table : Table) (entity : Entity (Row table)) :
    store.save table entity = store.commit () (store.db.saved table entity) := by
  unfold Store.save Db.saved
  cases (store.db table).find? (Db.sameKey entity.row) with
  | some stored =>
    dsimp only
    cases entity.onto stored <;> rfl
  | none =>
    dsimp only
    cases entity.anew <;> rfl

/-- What a save writes, given the row it finds. -/
def Db.savedOver (table : Table) (entity : Entity (Row table)) :
    Option (Row table) → Db → Except Err Db
  | some stored, db =>
      match entity.onto stored with
      | none => .error notNullViolation
      | some row => db.replace table row
  | none, db =>
      match entity.anew with
      | none => .error notNullViolation
      | some row => db.insert table row

/-- **The save of an entity of the workspace**, whether its row is still stored or not. -/
theorem tame_saved {table : Table} {entity : Entity (Row table)}
    (ours : SavesOurs home w table entity) : Db.Tame home w fun db => db.saved table entity := by
  have inside (rows : List (Row table)) := Db.inside_sameKey ours.here rows
  have saves (db : Db) : db.saved table entity =
      Db.savedOver table entity ((db table).find? (Db.sameKey entity.row)) db := by
    unfold Db.saved Db.savedOver
    cases (db table).find? (Db.sameKey entity.row) <;> rfl
  simp only [saves]
  refine Db.tame_ask (Db.savedOver table entity)
    (fun db db' _ _ same => Db.find_part same (inside _) (inside _)) fun db _ => ?_
  cases (db table).find? (Db.sameKey entity.row) with
  | some stored =>
    show Db.Tame home w fun db => match entity.onto stored with
      | none => .error notNullViolation
      | some row => db.replace table row
    cases onto : entity.onto stored with
    | none => exact Db.tame_error _
    | some row => exact Db.tame_replace (ours.ours row (.inl ⟨stored, onto⟩))
  | none =>
    show Db.Tame home w fun db => match entity.anew with
      | none => .error notNullViolation
      | some row => db.insert table row
    cases anew : entity.anew with
    | none => exact Db.tame_error _
    | some row => exact Db.tame_insert (ours.ours row (.inr anew))

theorem contained_save {table : Table} {entity : Entity (Row table)}
    (ours : SavesOurs home w table entity) :
    Contained home w (.save table entity) fun store => store.save table entity := by
  refine contained_write () (tame_saved ours) (fun _ => trivial)
    fun store => ⟨store.owner, store.owner, ?_⟩
  rw [save_eq]
  unfold Store.commit
  cases store.db.saved table entity <;> rfl

/-- Actions of the workspace, stored one after the other. -/
theorem tame_putActions (carries : Uuid → Bool) {rows : List AutomationAction} :
    (∀ row ∈ rows, Row.Ours home w .actions row) →
      Db.Tame home w fun db => Store.putActions carries db rows := by
  induction rows with
  | nil => exact fun _ => Db.tame_keep
  | cons row rows ih =>
    intro ours
    have first := ours row List.mem_cons_self
    refine Db.tame_then ?_ (ih fun other member => ours other (List.mem_cons_of_mem _ member))
    refine Db.tame_ask (fun stored db => if (carries row.id && stored) = true then
      db.replace .actions row else db.insert .actions row)
      (Db.agree_sameKey first.here) fun db _ => ?_
    cases carries row.id && (db .actions).any (Db.sameKey row) with
    | true => exact Db.tame_replace first
    | false => exact Db.tame_insert first

theorem contained_saveAutomation {entity : Entity Automation} {actions : List ActionEntity}
    (ours : SavesOurs home w .automations entity) (loaded : OursLoaded home w actions)
    (ids : input.homed home w) :
    Contained home w (.saveAutomation entity actions) fun store =>
      store.saveAutomation input entity actions := by
  have children : ∀ row ∈ Store.actionRows input entity.row.id 0 actions,
      Row.Ours home w .actions row := actions_ours ours.here ids loaded
  let rows := Store.actionRows input entity.row.id 0 actions
  let detaches (db : Db) : Bool := (db .actions).any fun stored =>
    stored.automationId == entity.row.id && !rows.any (Db.sameKey stored)
  have stores : Db.Tame home w fun db => if detaches db = true then .error notNullViolation
      else Store.putActions (Store.carries actions) db rows := by
    have inside {db : Db} (homed : db.Homed home) : ∀ stored ∈ db .actions,
        (stored.automationId == entity.row.id && !rows.any (Db.sameKey stored)) = true →
          Row.inPart home w .actions stored = true := by
      intro stored member hit
      have parent := (homed .actions stored member).parent _ rfl
      rw [beq_iff_eq.mp (Bool.and_eq_true_iff.mp hit).1] at parent
      exact Db.inPart_of_home (parent.symm.trans ours.here)
    refine Db.tame_ask (fun detached db => if detached = true then
      .error notNullViolation else Store.putActions (Store.carries actions) db rows)
      (fun db db' homed homed' same => Db.any_part same (inside homed) (inside homed'))
      fun db _ => ?_
    cases detaches db with
    | true => exact Db.tame_error _
    | false => exact tame_putActions _ children
  refine contained_write rows (Db.tame_then (tame_saved ours) stores) (fun _ => trivial)
    fun store => ⟨store.owner, store.owner, ?_⟩
  simp only [Store.saveAutomation, save_eq, Store.commit]
  cases store.db.saved .automations entity with
  | error error => rfl
  | ok db =>
    dsimp only
    cases detached : detaches db with
    | true => exact if_pos detached
    | false =>
      refine (if_neg (Bool.eq_false_iff.mp detached)).trans ?_
      show _ = match Store.putActions (Store.carries actions) db rows with
        | .error error => _
        | .ok db => _
      cases Store.putActions (Store.carries actions) db rows <;> rfl

/-! #### Deletes, jobs, and the outside -/

theorem contained_remove {table : Table} {row : Row table} (written : table.written = true)
    (here : home (Row.key table row).1 = w) :
    Contained home w (.remove table row)
      (fun store => perform input store (.remove table row)) := by
  have first : Db.Tame home w fun db => .ok (db.erase table (Db.sameKey row)) :=
    Db.tame_erase written fun other _ same => by
      have key : Row.key table row = Row.key table other := of_decide_eq_true same
      rwa [← key]
  -- what cascades names the deleted row as its parent
  have cascade {child : Table} (is_written : child.written = true) {gone : Row child → Bool}
      (names : ∀ other, gone other = true → Row.parentId child other = some (Row.key table row).1) :
      Db.Tame home w fun db => .ok ((db.erase table (Db.sameKey row)).erase child gone) :=
    Db.tame_then first (Db.tame_erase is_written fun other homed hit =>
      (homed.parent _ (names other hit)).symm.trans here)
  have writes (tame : Db.Tame home w fun db => .ok (db.remove table row)) :
      Contained home w (.remove table row)
        (fun store => perform input store (.remove table row)) :=
    contained_write () tame (fun _ => trivial) fun store => ⟨store.owner, store.owner, rfl⟩
  refine writes ?_
  cases table with
  | users => cases written
  | workspaces => cases written
  | broadcasts => exact cascade rfl fun other hit => congrArg some (beq_iff_eq.mp hit)
  | automations => exact cascade rfl fun other hit => congrArg some (beq_iff_eq.mp hit)
  | _ => exact first

theorem contained_deleteActions {automationId : Uuid} (here : home automationId = w) :
    Contained home w (.deleteActions automationId)
      (fun store => perform input store (.deleteActions automationId)) := by
  have erases : Db.Tame home w fun db =>
      .ok (db.erase .actions fun action => action.automationId == automationId) := by
    refine Db.tame_erase rfl fun action homed hit => ?_
    have parent := homed.parent _ rfl
    rw [beq_iff_eq.mp hit] at parent
    exact parent.symm.trans here
  exact contained_write () erases (fun _ => trivial) fun store => ⟨store.owner, store.owner, rfl⟩

theorem contained_add {job : Job} {attempts : Nat} {delay : Int}
    (ours : job.workspace home = some w) :
    Contained home w (.add job attempts delay)
      (fun store => perform input store (.add job attempts delay)) := by
  have queues (v : Uuid) (store : Store) :
      Store.jobsIn home v (store.enqueue job attempts delay).jobs =
        Store.jobsIn home v store.jobs ++
          (if some w == some v then [⟨0, job, attempts, 0, delay⟩] else []) := by
    simp only [Store.jobsIn, Store.enqueue, List.filter_append, List.map_append, List.filter_cons,
      List.filter_nil, ours]
    split <;> rfl
  refine ⟨fun _ homed => ⟨trivial, homed⟩, fun store store' _ _ same => ⟨rfl, ?_⟩,
    fun store v different _ => ?_⟩
  · have db := congrArg Store.db same
    have jobs := congrArg Store.jobs same
    have journal := congrArg Store.journal same
    show Store.part home w (store.enqueue job attempts delay) =
      Store.part home w (store'.enqueue job attempts delay)
    simp only [Store.part, queues] at db jobs journal ⊢
    simp only [Store.enqueue]
    rw [db, jobs, journal]
  · have foreign : (some w == some v) = false := by simpa using Ne.symm different
    show Store.part home v (store.enqueue job attempts delay) = _
    simp only [Store.part, queues, foreign, Bool.false_eq_true, if_false, List.append_nil]
    rfl

/-- An effect of the workspace is none of another. -/
theorem effect_foreign {effect : Effect} (ours : effect.workspace = some w) (v : Uuid)
    (different : v ≠ w) : (effect.workspace == some v) = false := by
  rw [ours]
  simpa using Ne.symm different

theorem contained_openwa {call : OpenwaCall} (ours : call.creds.workspaceId = w) :
    Contained home w (.openwa call) (fun store => perform input store (.openwa call)) := by
  have noted (accepted : Bool) : (Effect.openwa call accepted).workspace = some w :=
    congrArg some ours
  unfold perform Store.openwa
  cases input.openwa with
  | ok response => exact contained_note (effect_foreign (noted true)) trivial
  | error refused => exact contained_note (effect_foreign (noted false)) trivial

theorem contained_post {request : Post} :
    Contained home w (.post request) fun store => perform input store (.post request) := by
  unfold perform Store.post
  cases input.endpoint with
  | ok status => exact contained_keep (fun _ _ => trivial) fun _ _ _ _ _ => rfl
  | error refused => exact contained_keep (fun _ _ => trivial) fun _ _ _ _ _ => rfl

/-- **A local call stays inside the workspace**, wherever it is made. -/
theorem exec_contained {call : Call} (asks : Local home w call) (ids : input.homed home w) :
    Contained home w call fun store => exec call input store := by
  have performed : Contained home w call fun store => perform input store call := by
    cases call with
    | find table matching => exact contained_find asks
    | findStatus id => exact contained_findStatus asks
    | findAutomations matching => exact contained_findAutomations asks
    | insert table draft => exact contained_insert asks ids
    | insertBroadcast draft recipients => exact contained_insertBroadcast asks ids
    | insertAutomation draft actions => exact contained_insertAutomation asks ids
    | save table entity => exact contained_save asks
    | saveAutomation entity actions => exact contained_saveAutomation asks.1 asks.2 ids
    | remove table row => exact contained_remove asks.1 asks.2
    | deleteActions automationId => exact contained_deleteActions asks
    | update table matching change => cases asks
    | add job attempts delay => exact contained_add asks
    | openwa call => exact contained_openwa asks
    | post request => exact contained_post
    | emit event => exact contained_note (effect_foreign asks) trivial
    | sleep ms => exact contained_note (fun _ _ => rfl) trivial
    | elsewhere change => cases asks
  unfold exec
  cases call.storage with
  | false => exact performed
  | true =>
    cases input.fault with
    | none => exact performed
    | some message =>
      refine contained_keep (fun _ _ => ?_) fun _ _ _ _ _ => rfl
      cases call <;> trivial

end Calls

end WaAutomation
