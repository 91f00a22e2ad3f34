/-
**Calls that stay inside a workspace.**

A call is `Confined` to a workspace when its reply and what the workspace sees afterwards depend on
what the workspace saw before, and no other workspace sees a difference. Reads are confined when
they ask for rows of the workspace, writes when the row is the workspace's own (`Db.Claimed`).

* `Db.Wrote` has the two forms of a successful write, and `writeAll_alike` is the induction over
  several of them;
* `insert_confined`, `insertBroadcast_confined`, `insertAutomation_confined`, `save_confined`,
  `saveAutomation_confined`, `remove_confined`, `deleteActions_confined`: one rule for each call.
-/

import WaAutomation.Tenancy.Views

set_option linter.unusedSectionVars false

namespace WaAutomation

open Library

namespace Db

/-! ### Outcomes of writes -/

/-- Outcomes a workspace cannot tell apart. -/
def Alike (w : Uuid) (outcome outcome' : Except Err Db) : Prop :=
  outcome.map (fun db => db.view w) = outcome'.map fun db => db.view w

/-- A successful write of one row, as its table keeps it. -/
inductive Wrote (db : Db) (table : Table) (row : Row table) : Db → Prop
  | pushed (new : (db table).any (sameKey row) = false) :
      Wrote db table row (db.push table (row.held table))
  | replaced : Wrote db table row (db.put table (row.held table))

section Outcomes

variable {db db' next next' : Db} {w v : Uuid} {fresh : Uuid → Prop} {table : Table}
  {row : Row table}

theorem alike_cases {outcome outcome' : Except Err Db} (alike : Alike w outcome outcome') :
    (∃ error, outcome = .error error ∧ outcome' = .error error) ∨
      ∃ db db', outcome = .ok db ∧ outcome' = .ok db' ∧ db.view w = db'.view w := by
  unfold Alike at alike
  cases outcome with
  | error error =>
    cases outcome' with
    | error error' =>
      cases alike
      exact .inl ⟨error, rfl, rfl⟩
    | ok db' => cases alike
  | ok db =>
    cases outcome' with
    | error error' => cases alike
    | ok db' => exact .inr ⟨db, db', rfl, rfl, Except.ok.inj alike⟩

/-- Queries for visible rows. -/
theorem filter_alike (same : db.view w = db'.view w) {matching : Row table → Bool}
    (visible : ∀ row ∈ db table, matching row = true → db.sees w table row = true)
    (visible' : ∀ row ∈ db' table, matching row = true → db'.sees w table row = true) :
    (db table).filter matching = (db' table).filter matching := by
  have within (db : Db)
      (visible : ∀ row ∈ db table, matching row = true → db.sees w table row = true) :
      (db table).filter matching = (db.view w table).filter matching := by
    unfold view
    rw [List.filter_filter]
    refine List.filter_congr fun row member => ?_
    by_cases hit : matching row = true
    · rw [hit, visible row member hit, Bool.and_self]
    · rw [Bool.not_eq_true] at hit
      rw [hit, Bool.false_and]
  rw [within db visible, within db' visible', same]

theorem any_alike (same : db.view w = db'.view w) {matching : Row table → Bool}
    (visible : ∀ row ∈ db table, matching row = true → db.sees w table row = true)
    (visible' : ∀ row ∈ db' table, matching row = true → db'.sees w table row = true) :
    (db table).any matching = (db' table).any matching := by
  have filtered (rows : List (Row table)) :
      rows.any matching = (rows.filter matching).any fun _ => true := by
    rw [List.any_filter]
    simp only [Bool.and_true]
  rw [filtered, filtered, filter_alike same visible visible']

theorem keyed_visible (writable : Writable w db table row) :
    ∀ other ∈ db table, sameKey row other = true → db.sees w table other = true :=
  fun other member same => writable.clear other member (of_decide_eq_true same).symm

theorem parents_of_owned (written : table.written = true) (owned : db.owns w table row = true) :
    db.parents table row = true := by
  have has (parent : Table) (is_parent : table.parent = some parent) (id : Uuid)
      (names : Row.parentId table row = some id) : db.has parent id = true := by
    obtain ⟨above, member, same, _⟩ := (owns_child is_parent).mp owned
    refine List.any_eq_true.mpr ⟨above, member, ?_⟩
    rw [beq_iff_eq]
    exact (Option.some.inj (names.symm.trans same)).symm
  cases table with
  | members => cases written
  | recipients => exact has .broadcasts rfl _ rfl
  | actions => exact has .automations rfl _ rfl
  | _ => rfl

theorem clash_seen (written : table.written = true) (owned : db.owns w table row = true)
    {other : Row table} (clash : Row.clash table other row = true) :
    db.sees w table other = true := by
  cases table with
  | users => cases written
  | contacts =>
    rw [owns_root rfl, beq_iff_eq] at owned
    simp only [Row.clash, Bool.and_eq_true, beq_iff_eq] at clash
    refine sees_of_owns ?_
    rw [owns_root rfl, beq_iff_eq]
    exact (congrArg some clash.1).trans owned
  | _ => cases clash

theorem check_alike (same : db.view w = db'.view w) (writable : Writable w db table row)
    (writable' : Writable w db' table row) : db.check table row = db'.check table row := by
  have visible (db : Db) (writable : Writable w db table row) : ∀ other ∈ db table,
      (!sameKey other row && Row.clash table other row) = true → db.sees w table other = true :=
    fun other _ hit => clash_seen writable.written writable.owned (Bool.and_eq_true_iff.mp hit).2
  unfold check
  rw [parents_of_owned writable.written writable.owned,
    parents_of_owned writable'.written writable'.owned,
    any_alike same (visible db writable) (visible db' writable')]

theorem insert_alike (same : db.view w = db'.view w) (writable : Writable w db table row)
    (writable' : Writable w db' table row) :
    Alike w (db.insert table row) (db'.insert table row) := by
  unfold insert
  rw [any_alike same (keyed_visible writable) (keyed_visible writable'),
    check_alike same writable writable']
  split
  · rfl
  · cases db'.check table row with
    | error error => rfl
    | ok =>
      exact congrArg Except.ok
        (push_alike same (writable_held writable) (writable_held writable'))

theorem replace_alike (same : db.view w = db'.view w) (writable : Writable w db table row)
    (writable' : Writable w db' table row) :
    Alike w (db.replace table row) (db'.replace table row) := by
  unfold replace
  rw [check_alike same writable writable']
  cases db'.check table row with
  | error error => rfl
  | ok =>
    exact congrArg Except.ok
      (put_alike same (writable_held writable) (writable_held writable'))

theorem wrote_insert (inserted : db.insert table row = .ok next) : Wrote db table row next := by
  obtain ⟨new, _, rfl⟩ := insert_ok inserted
  exact .pushed new

theorem wrote_replace (replaced : db.replace table row = .ok next) : Wrote db table row next := by
  obtain ⟨_, rfl⟩ := replace_ok replaced
  exact .replaced

theorem wrote_tidy (tidy : Tidy w fresh db) (writable : Writable w db table row)
    (wrote : Wrote db table row next) : Tidy w fresh next := by
  cases wrote with
  | pushed new =>
    rw [← sameKey_held] at new
    exact tidy_push tidy (writable_held writable) new
  | replaced => exact tidy_put tidy (writable_held writable)

theorem wrote_out (tidy : Tidy w fresh db) (writable : Writable w db table row)
    (wrote : Wrote db table row next) (different : v ≠ w) : next.view v = db.view v := by
  cases wrote with
  | pushed new => exact push_out tidy (writable_held writable) different
  | replaced => exact put_out tidy (writable_held writable) different

theorem wrote_sees {other : Table} {child : Row other} (writable : Writable w db table row)
    (wrote : Wrote db table row next) (seen : db.sees w other child = true) :
    next.sees w other child = true := by
  cases wrote with
  | pushed new => exact push_grows seen
  | replaced => rwa [put_sees (writable_held writable)]

theorem wrote_owns {other : Table} {child : Row other} (secret : other.shared = false)
    (writable : Writable w db table row) (wrote : Wrote db table row next)
    (owned : db.owns w other child = true) : next.owns w other child = true := by
  rw [← sees_eq_owns secret] at owned ⊢
  exact wrote_sees writable wrote owned

/-- A row whose id the workspace has keeps it. -/
theorem wrote_claimed {other : Table} {child : Row other} (secret : other.shared = false)
    (writable : Writable w db table row) (wrote : Wrote db table row next)
    (claimed : Claimed w fresh db other child) : Claimed w fresh next other child := by
  refine claimed.imp_right fun ⟨old, member, same, owned⟩ => ?_
  have own := wrote_owns secret writable wrote owned
  cases wrote with
  | pushed new =>
    refine ⟨old, ?_, same, own⟩
    by_cases here : other = table
    · subst here
      rw [push, set_same]
      exact List.mem_append_left _ member
    · rwa [push, set_other _ here]
  | replaced =>
    by_cases here : other = table
    · subst here
      rw [put, set_same]
      by_cases hit : Row.key other old = Row.key other row
      · have key := hit.trans (Row.held_key other row).symm
        exact ⟨row.held other, Rows.mem_put.mpr (.inr ⟨rfl, old, member, key⟩),
          key.symm.trans same,
          wrote_owns secret writable .replaced (owns_held.trans writable.owned)⟩
      · refine ⟨old, Rows.mem_put.mpr (.inl ⟨member, ?_⟩), same, own⟩
        rwa [Row.held_key]
    · exact ⟨old, by rwa [put, set_other _ here], same, own⟩

/-! ### Several rows -/

/-- Write rows one after the other. -/
def writeAll (table : Table) (write : Db → Row table → Except Err Db) (db : Db) :
    List (Row table) → Except Err Db
  | [] => .ok db
  | row :: rows =>
      match write db row with
      | .error error => .error error
      | .ok next => writeAll table write next rows

/-- A way to write a row that stays inside the workspace. -/
structure Writes (w : Uuid) (table : Table) (write : Db → Row table → Except Err Db) : Prop where
  alike : ∀ {db db' : Db} {row : Row table}, db.view w = db'.view w → Writable w db table row →
    Writable w db' table row → Alike w (write db row) (write db' row)
  wrote : ∀ {db next : Db} {row : Row table}, write db row = .ok next → Wrote db table row next

variable {write : Db → Row table → Except Err Db}

/-- **Several writes stay inside the workspace.** -/
theorem writeAll_alike (writes : Writes w table write) (written : table.written = true) :
    ∀ {rows : List (Row table)} {db db' : Db}, Tidy w fresh db → Tidy w fresh db' →
      db.view w = db'.view w →
      (∀ row ∈ rows, db.owns w table row = true ∧ Claimed w fresh db table row) →
      (∀ row ∈ rows, db'.owns w table row = true ∧ Claimed w fresh db' table row) →
      Alike w (writeAll table write db rows) (writeAll table write db' rows) := by
  have secret := written_shared written
  intro rows
  induction rows with
  | nil => exact fun _ _ same _ _ => congrArg Except.ok same
  | cons row rows ih =>
    intro db db' tidy tidy' same ready ready'
    have later {db next : Db} (tidy : Tidy w fresh db)
        (ready : ∀ other ∈ row :: rows, db.owns w table other = true ∧
          Claimed w fresh db table other) (wrote : Wrote db table row next) :
        Tidy w fresh next ∧ ∀ other ∈ rows, next.owns w table other = true ∧
          Claimed w fresh next table other := by
      have writable := writable_of_claimed tidy written (ready row List.mem_cons_self).1
        (ready row List.mem_cons_self).2
      refine ⟨wrote_tidy tidy writable wrote, fun other member => ?_⟩
      obtain ⟨owned, claimed⟩ := ready other (List.mem_cons_of_mem _ member)
      exact ⟨wrote_owns secret writable wrote owned, wrote_claimed secret writable wrote claimed⟩
    have alike := writes.alike same
      (writable_of_claimed tidy written (ready row List.mem_cons_self).1
        (ready row List.mem_cons_self).2)
      (writable_of_claimed tidy' written (ready' row List.mem_cons_self).1
        (ready' row List.mem_cons_self).2)
    unfold writeAll
    obtain ⟨error, failed, failed'⟩ | ⟨next, next', done, done', still⟩ := alike_cases alike
    · rw [failed, failed']
      rfl
    · rw [done, done']
      obtain ⟨tidy, ready⟩ := later tidy ready (writes.wrote done)
      obtain ⟨tidy', ready'⟩ := later tidy' ready' (writes.wrote done')
      exact ih tidy tidy' still ready ready'

/-- Several writes leave the other workspaces alone. -/
theorem writeAll_out (writes : Writes w table write) (written : table.written = true)
    (different : v ≠ w) : ∀ {rows : List (Row table)} {db next : Db}, Tidy w fresh db →
      (∀ row ∈ rows, db.owns w table row = true ∧ Claimed w fresh db table row) →
      writeAll table write db rows = .ok next → next.view v = db.view v := by
  have secret := written_shared written
  intro rows
  induction rows with
  | nil =>
    intro db next _ _ all
    cases all
    rfl
  | cons row rows ih =>
    intro db next tidy ready all
    obtain ⟨owned, claimed⟩ := ready row List.mem_cons_self
    have writable := writable_of_claimed tidy written owned claimed
    unfold writeAll at all
    cases first : write db row with
    | error error =>
      rw [first] at all
      cases all
    | ok middle =>
      rw [first] at all
      have wrote := writes.wrote first
      refine (ih (wrote_tidy tidy writable wrote) (fun other member => ?_) all).trans
        (wrote_out tidy writable wrote different)
      obtain ⟨owned, claimed⟩ := ready other (List.mem_cons_of_mem _ member)
      exact ⟨wrote_owns secret writable wrote owned, wrote_claimed secret writable wrote claimed⟩

theorem insert_writes (w : Uuid) (table : Table) :
    Writes w table fun db row => db.insert table row :=
  ⟨fun same writable writable' => insert_alike same writable writable', wrote_insert⟩

theorem insertAll_eq : ∀ (rows : List (Row table)) (db : Db),
    db.insertAll table rows = writeAll table (fun db row => db.insert table row) db rows := by
  intro rows
  induction rows with
  | nil => exact fun _ => rfl
  | cons row rows ih =>
    intro db
    unfold insertAll writeAll
    cases db.insert table row with
    | error error => rfl
    | ok next => exact ih next

theorem putAction_writes (w : Uuid) (carries : Uuid → Bool) :
    Writes w .actions (Store.putAction carries) := by
  constructor
  · intro db db' row same writable writable'
    unfold Store.putAction
    rw [any_alike same (keyed_visible writable) (keyed_visible writable')]
    split
    · exact replace_alike same writable writable'
    · exact insert_alike same writable writable'
  · intro db next row put
    unfold Store.putAction at put
    split at put
    · exact wrote_replace put
    · exact wrote_insert put

theorem putActions_eq (carries : Uuid → Bool) : ∀ (rows : List AutomationAction) (db : Db),
    Store.putActions carries db rows = writeAll .actions (Store.putAction carries) db rows := by
  intro rows
  induction rows with
  | nil => exact fun _ => rfl
  | cons row rows ih =>
    intro db
    unfold Store.putActions writeAll
    cases Store.putAction carries db row with
    | error error => rfl
    | ok next => exact ih next

end Outcomes

end Db

/-! ### Calls -/

/-- What a workspace sees of a store. -/
def Store.view (store : Store) (w : Uuid) : Store := { store with db := store.db.view w }

/-- The outcome on a store, and on what the workspace sees of it: same reply, same rows in sight
afterwards, and nothing in sight of another workspace has changed. -/
structure Inside {α : Type} (w : Uuid) (store : Store) (outcome outcome' : Except Err α × Store) :
    Prop where
  reply : outcome.1 = outcome'.1
  rows : outcome.2.view w = outcome'.2.view w
  others : ∀ v, v ≠ w → outcome.2.db.view v = store.db.view v

/-- The call stays inside the workspace. -/
def Confined (w : Uuid) (call : Call) (input : Input) (store : Store) : Prop :=
  Inside w store (exec call input store) (exec call input (store.view w))

section Calls

variable {w v : Uuid} {fresh : Uuid → Prop} {input : Input} {store : Store} {table : Table}

theorem view_same (store : Store) (w : Uuid) : store.db.view w = (store.view w).db.view w :=
  (Db.view_view store.db w).symm

theorem inside_keep {α : Type} (reply : Except Err α) :
    Inside w store (reply, store) (reply, store.view w) :=
  ⟨rfl, congrArg (fun db => { store with db := db }) (view_same store w), fun _ _ => rfl⟩

theorem inside_commit {α : Type} (value : α) {outcome outcome' : Except Err Db}
    (alike : Db.Alike w outcome outcome')
    (out : ∀ db, outcome = .ok db → ∀ v, v ≠ w → db.view v = store.db.view v) :
    Inside w store (store.commit value outcome) ((store.view w).commit value outcome') := by
  obtain ⟨error, rfl, rfl⟩ | ⟨db, db', rfl, rfl, same⟩ := Db.alike_cases alike
  · exact inside_keep (.error error)
  · exact ⟨rfl, congrArg (fun db => { store with db := db }) same, out db rfl⟩

theorem confined_of_perform {call : Call}
    (inside : Inside w store (perform input store call) (perform input (store.view w) call)) :
    Confined w call input store := by
  unfold Confined exec
  cases call.storage with
  | false => exact inside
  | true =>
    cases input.fault with
    | none => exact inside
    | some message => exact inside_keep _

/-! #### Reads -/

/-- Rows in sight of a workspace are so for itself. -/
theorem visible_view {matching : Row table → Bool}
    (visible : ∀ row ∈ store.db table, matching row = true → store.db.sees w table row = true) :
    ∀ row ∈ (store.view w).db table, matching row = true →
      (store.view w).db.sees w table row = true := by
  intro row member hit
  rw [← Db.sees_of_view (view_same store w)]
  exact visible row (Db.mem_view.mp member).1 hit

theorem find_confined {matching : Row table → Bool}
    (visible : ∀ row ∈ store.db table, matching row = true → store.db.sees w table row = true) :
    Confined w (.find table matching) input store := by
  refine confined_of_perform ?_
  simp only [perform]
  rw [Db.filter_alike (view_same store w) visible (visible_view visible)]
  exact inside_keep _

theorem findAutomations_confined {matching : Automation → Bool}
    (visible : ∀ row ∈ store.db .automations, matching row = true → row.workspaceId = w) :
    Confined w (.findAutomations matching) input store := by
  have seen : ∀ row ∈ store.db .automations, matching row = true →
      store.db.sees w .automations row = true := by
    intro row member hit
    refine Db.sees_of_owns ?_
    rw [Db.owns_root rfl, beq_iff_eq]
    exact congrArg some (visible row member hit)
  refine confined_of_perform ?_
  simp only [perform]
  rw [Db.filter_alike (view_same store w) seen (visible_view seen)]
  have loaded : ((store.view w).db .automations).filter matching =
      (store.db .automations).filter matching :=
    (Db.filter_alike (view_same store w) seen (visible_view seen)).symm
  have actions : ∀ row ∈ ((store.view w).db .automations).filter matching,
      (store.db .actions).filter (fun action => action.automationId == row.id) =
        ((store.view w).db .actions).filter fun action => action.automationId == row.id := by
    intro row member
    rw [loaded, List.mem_filter] at member
    have children : ∀ action ∈ store.db .actions, (action.automationId == row.id) = true →
        store.db.sees w .actions action = true := by
      intro action _ names
      refine Db.sees_of_owns ((Db.owns_child rfl).mpr ⟨row, member.1, ?_, ?_⟩)
      · exact congrArg some (beq_iff_eq.mp names)
      · exact congrArg some (visible row member.1 member.2)
    exact Db.filter_alike (view_same store w) children (visible_view children)
  rw [List.map_congr_left fun row member => by rw [actions row member]]
  exact inside_keep _

/-! #### Calls that leave the tables alone -/

theorem add_confined (job : Job) (attempts : Nat) (delay : Int) :
    Confined w (.add job attempts delay) input store :=
  confined_of_perform ⟨rfl, congrArg
    (fun db => ({ store with db := db }).enqueue job attempts delay)
    (view_same store w), fun _ _ => rfl⟩

theorem openwa_confined (call : OpenwaCall) : Confined w (.openwa call) input store := by
  refine confined_of_perform ?_
  simp only [perform, Store.openwa]
  cases input.openwa with
  | ok response =>
    exact ⟨rfl, congrArg (fun db => ({ store with db := db }).note (.openwa call true))
      (view_same store w), fun _ _ => rfl⟩
  | error refused =>
    exact ⟨rfl, congrArg (fun db => ({ store with db := db }).note (.openwa call false))
      (view_same store w), fun _ _ => rfl⟩

theorem emit_confined (event : Event) : Confined w (.emit event) input store :=
  confined_of_perform ⟨rfl, congrArg (fun db => ({ store with db := db }).note (.emit event))
    (view_same store w), fun _ _ => rfl⟩

/-! #### Inserts -/

theorem tidy_store (tidy : Db.Tidy w fresh store.db) : Db.Tidy w fresh (store.view w).db :=
  Db.tidy_view tidy

/-- A new row for the workspace may be written, on the store and on what the workspace sees. -/
theorem writable_fresh {row : Row table} (tidy : Db.Tidy w fresh store.db)
    (written : table.written = true) (owned : store.db.owns w table row = true)
    (is_fresh : fresh (Row.key table row).1) :
    Db.Writable w store.db table row ∧ Db.Writable w (store.view w).db table row := by
  refine ⟨Db.writable_of_claimed tidy written owned (.inl is_fresh),
    Db.writable_of_claimed (tidy_store tidy) written ?_ (.inl is_fresh)⟩
  rwa [← Db.owns_congr fun parent _ => congrFun (view_same store w) parent]

theorem register_view (store : Store) (row : Row table) :
    (store.register table row).view w = (store.view w).register table row := by
  cases table <;> rfl

theorem register_db (store : Store) (row : Row table) :
    (store.register table row).db = store.db := by
  cases table <;> rfl

/-- **The insert of a new row of the workspace.** -/
theorem insert_confined (tidy : Db.Tidy w fresh store.db) (written : table.written = true)
    {draft : Input → Row table} (owned : store.db.owns w table (draft input) = true)
    (is_fresh : fresh (Row.key table (draft input)).1) :
    Confined w (.insert table (some draft)) input store ∧
      Db.Tidy w fresh (exec (.insert table (some draft)) input store).2.db := by
  obtain ⟨writable, writable'⟩ := writable_fresh tidy written owned is_fresh
  constructor
  · refine confined_of_perform ?_
    simp only [perform, Store.insert]
    obtain ⟨error, failed, failed'⟩ | ⟨db, db', done, done', same⟩ :=
      Db.alike_cases (Db.insert_alike (view_same store w) writable writable')
    · rw [failed, failed']
      exact inside_keep _
    · rw [done, done']
      refine ⟨rfl, ?_, fun v different => ?_⟩
      · dsimp only
        rw [register_view, register_view]
        exact congrArg (fun db => ({ store with db := db } : Store).register table
          (draft input)) same
      · dsimp only
        rw [register_db]
        exact Db.wrote_out tidy writable (Db.wrote_insert done) different
  · obtain ⟨_, _, _, failed⟩ | performed := exec_cases (.insert table (some draft)) input store
    · rw [failed]
      exact tidy
    · rw [performed]
      show Db.Tidy w fresh (store.insert input table (some draft)).2.db
      unfold Store.insert
      dsimp only
      cases done : store.db.insert table (draft input) with
      | error error => exact tidy
      | ok db =>
        dsimp only
        rw [register_db]
        exact Db.wrote_tidy tidy writable (Db.wrote_insert done)

/-- The insert of a row that lacks a column. -/
theorem insert_none_confined : Confined w (.insert table none) input store :=
  confined_of_perform (inside_keep _)

/-! #### Rows with their children -/

theorem mem_recipientRows {input : Input} {broadcastId : Uuid} {recipient : BroadcastRecipient} :
    ∀ {recipients : List (String × Record)} {index : Nat},
      recipient ∈ Store.recipientRows input broadcastId index recipients →
        recipient.broadcastId = broadcastId ∧ ∃ number, recipient.id = input.ids number := by
  intro recipients
  induction recipients with
  | nil => exact fun member => by cases member
  | cons first rest ih =>
    intro index member
    unfold Store.recipientRows at member
    rcases List.mem_cons.mp member with rfl | later
    · exact ⟨rfl, index, rfl⟩
    · exact ih later

theorem mem_actionRows {input : Input} {automationId : Uuid} {row : AutomationAction} :
    ∀ {actions : List ActionEntity} {index : Nat},
      row ∈ Store.actionRows input automationId index actions →
        .loaded row ∈ actions ∨ row.automationId = automationId ∧
          ∃ number, row.id = input.ids number
    := by
  intro actions
  induction actions with
  | nil => exact fun member => by cases member
  | cons first rest ih =>
    intro index member
    unfold Store.actionRows at member
    rcases List.mem_cons.mp member with is_first | later
    · cases first with
      | loaded row =>
        rw [is_first]
        exact .inl List.mem_cons_self
      | created order actionType actionConfig =>
        rw [is_first]
        exact .inr ⟨rfl, index, rfl⟩
    · exact (ih later).imp_left (List.mem_cons_of_mem _)

/-- New children of a stored row of the workspace. -/
theorem ready_children {db : Db} {parent : Table} (is_parent : table.parent = some parent)
    {above : Row parent} (stored : above ∈ db parent) (owner : Row.workspace parent above = some w)
    {row : Row table} (names : Row.parentId table row = some (Row.key parent above).1)
    (claimed : Db.Claimed w fresh db table row) :
    db.owns w table row = true ∧ Db.Claimed w fresh db table row :=
  ⟨(Db.owns_child is_parent).mpr ⟨above, stored, names, owner⟩, claimed⟩

theorem mem_push (db : Db) (row : Row table) : row ∈ db.push table row table := by
  rw [Db.push, Db.set_same]
  exact List.mem_append_right _ (List.mem_singleton_self row)

theorem insertBroadcast_confined (tidy : Db.Tidy w fresh store.db) {draft : Input → Broadcast}
    (recipients : List (String × Record)) (owner : (draft input).workspaceId = w)
    (is_fresh : fresh (draft input).id) (all_fresh : ∀ number, fresh (input.ids number)) :
    Confined w (.insertBroadcast (some draft) recipients) input store := by
  have owned : store.db.owns w .broadcasts (draft input) = true := by
    rw [Db.owns_root rfl, beq_iff_eq]
    exact congrArg some owner
  obtain ⟨writable, writable'⟩ := writable_fresh tidy rfl owned is_fresh
  have ready {db : Db} (inserted : draft input ∈ db .broadcasts) :
      ∀ row ∈ Store.recipientRows input (draft input).id 1 recipients,
        db.owns w .recipients row = true ∧ Db.Claimed w fresh db .recipients row := by
    intro row member
    obtain ⟨names, number, has_id⟩ := mem_recipientRows member
    exact ready_children rfl inserted (congrArg some owner) (congrArg some names)
      (.inl (show fresh row.id from has_id ▸ all_fresh number))
  refine confined_of_perform ?_
  simp only [perform, Store.insertBroadcast]
  obtain ⟨error, failed, failed'⟩ | ⟨db, db', done, done', same⟩ :=
    Db.alike_cases (Db.insert_alike (view_same store w) writable writable')
  · rw [failed, failed']
    exact inside_keep _
  · rw [done, done']
    obtain ⟨new, _, rfl⟩ := Db.insert_ok done
    obtain ⟨new', _, rfl⟩ := Db.insert_ok done'
    have tidy_next := Db.tidy_push tidy writable new
    have tidy_next' := Db.tidy_push (tidy_store tidy) writable' new'
    dsimp only
    refine inside_commit _ ?_ fun db all v different => ?_
    · rw [Db.insertAll_eq, Db.insertAll_eq]
      exact Db.writeAll_alike (Db.insert_writes w .recipients) rfl tidy_next tidy_next' same
        (ready (mem_push _ _)) (ready (mem_push _ _))
    · rw [Db.insertAll_eq] at all
      exact (Db.writeAll_out (Db.insert_writes w .recipients) rfl different tidy_next
        (ready (mem_push _ _)) all).trans (Db.push_out tidy writable different)

theorem insertAutomation_confined (tidy : Db.Tidy w fresh store.db) {draft : Input → Automation}
    {actions : List ActionEntity} (new_ones : ∀ row, .loaded row ∉ actions)
    (owner : (draft input).workspaceId = w) (is_fresh : fresh (draft input).id)
    (all_fresh : ∀ number, fresh (input.ids number)) :
    Confined w (.insertAutomation (some draft) actions) input store := by
  have owned : store.db.owns w .automations (draft input) = true := by
    rw [Db.owns_root rfl, beq_iff_eq]
    exact congrArg some owner
  obtain ⟨writable, writable'⟩ := writable_fresh tidy rfl owned is_fresh
  have ready {db : Db} (inserted : draft input ∈ db .automations) :
      ∀ row ∈ Store.actionRows input (draft input).id 1 actions,
        db.owns w .actions row = true ∧ Db.Claimed w fresh db .actions row := by
    intro row member
    obtain loaded | ⟨names, number, has_id⟩ := mem_actionRows member
    · exact absurd loaded (new_ones row)
    · exact ready_children rfl inserted (congrArg some owner) (congrArg some names)
        (.inl (show fresh row.id from has_id ▸ all_fresh number))
  refine confined_of_perform ?_
  simp only [perform, Store.insertAutomation]
  obtain ⟨error, failed, failed'⟩ | ⟨db, db', done, done', same⟩ :=
    Db.alike_cases (Db.insert_alike (view_same store w) writable writable')
  · rw [failed, failed']
    exact inside_keep _
  · rw [done, done']
    obtain ⟨new, _, rfl⟩ := Db.insert_ok done
    obtain ⟨new', _, rfl⟩ := Db.insert_ok done'
    have tidy_next := Db.tidy_push tidy writable new
    have tidy_next' := Db.tidy_push (tidy_store tidy) writable' new'
    let issued := store.issue .automations (draft input).id (draft input).workspaceId
    suffices inside : Inside w issued (issued.commit _ _) ((issued.view w).commit _ _) from
      ⟨inside.reply, inside.rows, inside.others⟩
    refine inside_commit _ ?_ fun db all v different => ?_
    · rw [Db.insertAll_eq, Db.insertAll_eq]
      exact Db.writeAll_alike (Db.insert_writes w .actions) rfl tidy_next tidy_next' same
        (ready (mem_push _ _)) (ready (mem_push _ _))
    · rw [Db.insertAll_eq] at all
      exact (Db.writeAll_out (Db.insert_writes w .actions) rfl different tidy_next
        (ready (mem_push _ _)) all).trans (Db.push_out tidy writable different)

/-! #### Saves -/

/-- The save of an entity whose row is stored. -/
theorem save_stored (keyed : ((store.db table).map (Row.key table)).Nodup)
    {entity : Entity (Row table)} {old : Row table} (stored : old ∈ store.db table)
    (same : Row.key table old = Row.key table entity.row) :
    store.save table entity =
      match entity.onto old with
      | none => (.error notNullViolation, store)
      | some row => store.commit () (store.db.replace table row) := by
  have found : (store.db table).find? (Db.sameKey entity.row) = some old := by
    have some_row : ((store.db table).find? (Db.sameKey entity.row)).isSome = true :=
      List.find?_isSome.mpr ⟨old, stored, decide_eq_true same.symm⟩
    obtain ⟨other, is_other⟩ := Option.isSome_iff_exists.mp some_row
    have hit := List.find?_some is_other
    have key : Row.key table entity.row = Row.key table other := of_decide_eq_true hit
    rw [is_other, Rows.unique keyed (List.mem_of_find?_eq_some is_other) stored
      (key.symm.trans same.symm)]
  cases onto : entity.onto old with
  | none => simp only [Store.save, found, onto]
  | some row => simp only [Store.save, found, onto]

/-- A row of the workspace, and what saving an entity makes of it. -/
structure Own (w : Uuid) (store : Store) (table : Table) (old : Row table) : Prop where
  written : table.written = true
  root : table.parent = none
  stored : old ∈ store.db table
  owner : Row.workspace table old = some w

theorem Own.owned {old : Row table} (own : Own w store table old) :
    store.db.owns w table old = true := by
  rw [Db.owns_root own.root, beq_iff_eq]
  exact own.owner

theorem Own.view {old : Row table} (own : Own w store table old) :
    Own w (store.view w) table old :=
  ⟨own.written, own.root, Db.mem_view.mpr ⟨own.stored, Db.sees_of_owns own.owned⟩, own.owner⟩

/-- A row with the key and the owner of an own one may be written. -/
theorem Own.writable {old row : Row table} (own : Own w store table old)
    (tidy : Db.Tidy w fresh store.db) (same : Row.key table row = Row.key table old)
    (owner : Row.workspace table row = some w) : Db.Writable w store.db table row := by
  refine Db.writable_of_claimed tidy own.written ?_ (.inr ⟨old, own.stored, same.symm, own.owned⟩)
  rw [Db.owns_root own.root, beq_iff_eq]
  exact owner

/-- A write over an own row leaves a row of the workspace under its key. -/
theorem Own.replaced {old row : Row table} (own : Own w store table old)
    (same : Row.key table row = Row.key table old) (owner : Row.workspace table row = some w)
    {db : Db} (replaced : store.db.replace table row = .ok db) :
    Own w { store with db := db } table (row.held table) := by
  obtain ⟨_, rfl⟩ := Db.replace_ok replaced
  refine ⟨own.written, own.root, ?_, (Row.workspace_held table row).trans owner⟩
  show row.held table ∈ store.db.put table (row.held table) table
  rw [Db.put, Db.set_same, Rows.mem_put]
  exact .inr ⟨rfl, old, own.stored, same.symm.trans (Row.held_key table row).symm⟩

/-- **The save of a row of the workspace.** -/
theorem save_confined {old : Row table} (own : Own w store table old)
    (tidy : Db.Tidy w fresh store.db) {entity : Entity (Row table)}
    (same : Row.key table old = Row.key table entity.row)
    (loyal : ∀ row, entity.onto old = some row →
      Row.key table row = Row.key table old ∧ Row.workspace table row = some w) :
    Confined w (.save table entity) input store ∧
      Db.Tidy w fresh (exec (.save table entity) input store).2.db ∧
      ∃ row, Row.key table row = Row.key table old ∧
        Own w (exec (.save table entity) input store).2 table row := by
  have saves := save_stored (tidy.keyed table) own.stored same
  have saves' := save_stored ((tidy_store tidy).keyed table) own.view.stored same
  constructor
  · refine confined_of_perform ?_
    simp only [perform]
    rw [saves, saves']
    cases onto : entity.onto old with
    | none => exact inside_keep _
    | some row =>
      obtain ⟨key, owner⟩ := loyal row onto
      have writable := own.writable tidy key owner
      have writable' := own.view.writable (tidy_store tidy) key owner
      exact inside_commit () (Db.replace_alike (view_same store w) writable writable')
        fun db done v different => Db.wrote_out tidy writable (Db.wrote_replace done) different
  · obtain ⟨_, _, _, failed⟩ | performed := exec_cases (.save table entity) input store
    · rw [failed]
      exact ⟨tidy, old, rfl, own⟩
    · rw [performed]
      show Db.Tidy w fresh (store.save table entity).2.db ∧
        ∃ row, _ ∧ Own w (store.save table entity).2 table row
      rw [saves]
      cases onto : entity.onto old with
      | none => exact ⟨tidy, old, rfl, own⟩
      | some row =>
        obtain ⟨key, owner⟩ := loyal row onto
        dsimp only
        cases done : store.db.replace table row with
        | error error => exact ⟨tidy, old, rfl, own⟩
        | ok db =>
          exact ⟨Db.wrote_tidy tidy (own.writable tidy key owner) (Db.wrote_replace done),
            row.held table, (Row.held_key table row).trans key, own.replaced key owner done⟩

/-- The actions of an entity are new, or stored actions of its automation. -/
def OwnActions (store : Store) (automationId : Uuid) (actions : List ActionEntity) : Prop :=
  ∀ row, .loaded row ∈ actions → row ∈ store.db .actions ∧ row.automationId = automationId

/-- The actions of an automation of the workspace are of the workspace. -/
theorem Own.action {row : Automation} (own : Own w store .automations row)
    {action : AutomationAction} (names : action.automationId = row.id) :
    store.db.owns w .actions action = true := by
  have parent : Row.parentId .actions action = some (Row.key .automations row).1 :=
    congrArg some names
  exact (Db.owns_child rfl).mpr ⟨row, own.stored, parent, own.owner⟩

/-- The workspace sees its own actions. -/
theorem OwnActions.view {row : Automation} {actions : List ActionEntity}
    (own : Own w store .automations row) (loaded : OwnActions store row.id actions) :
    OwnActions (store.view w) row.id actions := by
  intro action member
  obtain ⟨present, names⟩ := loaded action member
  exact ⟨Db.mem_view.mpr ⟨present, Db.sees_of_owns (own.action names)⟩, names⟩

/-- A write to another table leaves the actions as they are. -/
theorem OwnActions.replaced {id : Uuid} {actions : List ActionEntity}
    (loaded : OwnActions store id actions) {row : Automation} {db : Db}
    (done : store.db.replace .automations row = .ok db) :
    OwnActions { store with db := db } id actions := by
  intro action member
  show action ∈ db .actions ∧ _
  rw [Db.replace_other (by decide) done]
  exact loaded action member

/-- The actions that are written are of the workspace, and new or their own. -/
theorem ready_actions {row : Automation} {actions : List ActionEntity}
    (own : Own w store .automations row) (loaded : OwnActions store row.id actions)
    (all_fresh : ∀ number, fresh (input.ids number)) :
    ∀ action ∈ Store.actionRows input row.id 0 actions,
      store.db.owns w .actions action = true ∧ Db.Claimed w fresh store.db .actions action := by
  intro action member
  obtain is_loaded | ⟨names, number, has_id⟩ := mem_actionRows member
  · obtain ⟨present, names⟩ := loaded action is_loaded
    exact ⟨own.action names, .inr ⟨action, present, rfl, own.action names⟩⟩
  · exact ⟨own.action names, .inl (show fresh action.id from has_id ▸ all_fresh number)⟩

/-- The actions that would be detached are of the workspace. -/
theorem sees_detached {row : Automation} (own : Own w store .automations row)
    {rows : List AutomationAction} : ∀ action ∈ store.db .actions,
      (action.automationId == row.id && !rows.any (Db.sameKey action)) = true →
        store.db.sees w .actions action = true :=
  fun _ _ detached =>
    Db.sees_of_owns (own.action (beq_iff_eq.mp (Bool.and_eq_true_iff.mp detached).1))

theorem saveAutomation_confined {old : Automation} (own : Own w store .automations old)
    (tidy : Db.Tidy w fresh store.db) {entity : Entity Automation} {actions : List ActionEntity}
    (same : old.id = entity.row.id)
    (loyal : ∀ row, entity.onto old = some row → row.id = old.id ∧ row.workspaceId = w)
    (loaded : OwnActions store old.id actions) (all_fresh : ∀ number, fresh (input.ids number)) :
    Confined w (.saveAutomation entity actions) input store := by
  have same_key : Row.key .automations old = Row.key .automations entity.row :=
    congrArg (fun id => (id, "")) same
  have saves := save_stored (tidy.keyed _) own.stored same_key
  have saves' := save_stored ((tidy_store tidy).keyed _) own.view.stored same_key
  refine confined_of_perform ?_
  simp only [perform, Store.saveAutomation]
  rw [saves, saves', ← same]
  cases onto : entity.onto old with
  | none => exact inside_keep _
  | some row =>
    obtain ⟨id_same, owner⟩ := loyal row onto
    have key : Row.key .automations row = Row.key .automations old :=
      congrArg (fun id => (id, "")) id_same
    have writable := own.writable tidy key (congrArg some owner)
    have writable' := own.view.writable (tidy_store tidy) key (congrArg some owner)
    obtain ⟨error, failed, failed'⟩ | ⟨db, db', done, done', alike⟩ :=
      Db.alike_cases (Db.replace_alike (view_same store w) writable writable')
    · dsimp only
      rw [failed, failed']
      exact inside_keep _
    · have here : Own w { store with db := db } .automations row :=
        own.replaced key (congrArg some owner) done
      have here' : Own w { store.view w with db := db' } .automations row :=
        own.view.replaced key (congrArg some owner) done'
      have viewed := loaded.view own
      rw [← id_same] at loaded viewed ⊢
      have ready := ready_actions here (loaded.replaced done) all_fresh
      have ready' := ready_actions here' (viewed.replaced done') all_fresh
      have tidy_next := Db.wrote_tidy tidy writable (Db.wrote_replace done)
      have tidy_next' := Db.wrote_tidy (tidy_store tidy) writable' (Db.wrote_replace done')
      dsimp only
      rw [done, done']
      show Inside w store
        (if (db .actions).any _ then _ else _) (if (db' .actions).any _ then _ else _)
      rw [Db.any_alike alike (sees_detached here) (sees_detached here')]
      split
      · exact inside_keep _
      · rw [Db.putActions_eq, Db.putActions_eq]
        have writes := Db.putAction_writes w (Store.carries actions)
        refine inside_commit _
          (Db.writeAll_alike writes rfl tidy_next tidy_next' alike ready ready')
          fun last all v different => ?_
        exact (Db.writeAll_out writes rfl different tidy_next ready all).trans
          (Db.wrote_out tidy writable (Db.wrote_replace done) different)

/-! #### Deletes -/

/-- Two rows of one workspace, or of none, with the same id. -/
theorem foreign_children (keyed : ∀ table, ((store.db table).map (Row.key table)).Nodup)
    {parent : Table} (is_parent : table.parent = some parent) {above : Row parent}
    (stored : above ∈ store.db parent) (owner : Row.workspace parent above = some w)
    {child : Row table} (names : Row.parentId table child = some (Row.key parent above).1)
    (different : v ≠ w) : store.db.sees v table child = false := by
  by_contra seen
  rw [Db.sees_eq_owns (Db.child_secret is_parent), Bool.not_eq_false] at seen
  exact different (Db.owner_unique keyed
    ((Db.owns_child is_parent).mpr ⟨above, stored, names, owner⟩) seen)

theorem deleteActions_confined {old : Automation} (own : Own w store .automations old)
    (tidy : Db.Tidy w fresh store.db) :
    Confined w (.deleteActions old.id) input store := by
  refine confined_of_perform ?_
  simp only [perform]
  refine ⟨rfl, congrArg (fun db => { store with db := db })
    (Db.erase_alike (view_same store w) _), fun v different => Db.erase_out ?_⟩
  intro action _ names
  exact foreign_children tidy.keyed rfl own.stored own.owner
    (congrArg some (beq_iff_eq.mp names)) different

/-- What is left once the actions of an automation are deleted. -/
theorem deleteActions_leaves {old : Automation} (own : Own w store .automations old)
    (tidy : Db.Tidy w fresh store.db) :
    Own w (exec (.deleteActions old.id) input store).2 .automations old ∧
      Db.Tidy w fresh (exec (.deleteActions old.id) input store).2.db := by
  obtain ⟨_, _, _, failed⟩ | performed := exec_cases (.deleteActions old.id) input store
  · rw [failed]
    exact ⟨own, tidy⟩
  · rw [performed]
    have leaf (other : Table) : other.parent ≠ some .actions := by
      cases other <;> decide
    have left : Db.Tidy w fresh (store.db.erase .actions fun action =>
        action.automationId == old.id) := Db.tidy_erase_leaf tidy leaf
    exact ⟨⟨own.written, own.root, own.stored, own.owner⟩, left⟩

theorem sameKey_foreign {old row : Row table} (own : Own w store table old)
    (tidy : Db.Tidy w fresh store.db) (same : Row.key table row = Row.key table old)
    (different : v ≠ w) : ∀ other ∈ store.db table, Db.sameKey row other = true →
      store.db.sees v table other = false := by
  intro other member hit
  have key : Row.key table other = Row.key table old := (of_decide_eq_true hit).symm.trans same
  rw [Rows.unique (tidy.keyed table) member own.stored key]
  exact Db.writable_foreign tidy (own.writable tidy rfl own.owner) different

/-- **The removal of a row of the workspace**, and of what cascades from it. -/
theorem remove_confined {row : Row table} (own : Own w store table row)
    (tidy : Db.Tidy w fresh store.db) : Confined w (.remove table row) input store := by
  have alone (different : ∀ v, v ≠ w → ((store.db.remove table row).view v = store.db.view v))
      (alike : (store.db.remove table row).view w = ((store.db.view w).remove table row).view w) :
      Confined w (.remove table row) input store :=
    confined_of_perform ⟨rfl, congrArg (fun db => { store with db := db }) alike, different⟩
  have first (v : Uuid) (different : v ≠ w) :
      (store.db.erase table (Db.sameKey row)).view v = store.db.view v :=
    Db.erase_out (sameKey_foreign own tidy rfl different)
  have first_alike : (store.db.erase table (Db.sameKey row)).view w =
      ((store.db.view w).erase table (Db.sameKey row)).view w :=
    Db.erase_alike (view_same store w) _
  -- the children of the erased row belong to no one
  have orphans (child : Table) (is_parent : child.parent = some table) (gone : Row child → Bool)
      (names : ∀ other, gone other = true →
        Row.parentId child other = some (Row.key table row).1) (v : Uuid) :
      ((store.db.erase table (Db.sameKey row)).erase child gone).view v =
        (store.db.erase table (Db.sameKey row)).view v := by
    refine Db.erase_out fun other _ hit => ?_
    by_contra seen
    rw [Bool.not_eq_false] at seen
    obtain ⟨above, listed, same, _⟩ := (Db.sees_set_child is_parent).mp seen
    obtain ⟨_, left⟩ := List.mem_filter.mp listed
    have key : Row.key table row = Row.key table above := by
      have ids := Option.some.inj ((names other hit).symm.trans same)
      cases child <;> cases is_parent <;> exact Prod.ext ids rfl
    simp [Db.sameKey, key] at left
  cases table with
  | users => cases own.written
  | workspaces => cases own.written
  | broadcasts =>
    refine alone (fun v different => ?_) (Db.erase_alike first_alike _)
    exact (orphans .recipients rfl _ (fun other hit => congrArg some (beq_iff_eq.mp hit)) v).trans
      (first v different)
  | automations =>
    refine alone (fun v different => ?_) (Db.erase_alike first_alike _)
    exact (orphans .actions rfl _ (fun other hit => congrArg some (beq_iff_eq.mp hit)) v).trans
      (first v different)
  | _ => exact alone first first_alike

end Calls

end WaAutomation
