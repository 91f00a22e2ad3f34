/-
**What a workspace sees of the database.**

A row belongs to the workspace it names or, for recipients, actions and deliveries, to the workspace
of its parent. `Db.view` keeps the rows of one workspace, with the tables of users and memberships,
which the guards read.

* `view_set_alike`, `view_set_out`: what one changed table means for the view of a workspace;
* `Db.Writable` collects when a row may be written on behalf of a workspace, and `Db.Tidy` what
  every database has that a request finds: unique primary keys, and ids to come that nobody else
  uses;
* `insert_alike`, `replace_alike`, `erase_alike`: a write leaves a workspace's view in a state that
  depends on that view alone; `insert_out`, `replace_out`, `erase_out`: it leaves the view of every
  other workspace as it is.
-/

import WaAutomation.Model.Frame

set_option linter.unusedSectionVars false

namespace WaAutomation

open Library

/-! ### Owners -/

/-- The table of the parents, where a row belongs to the workspace of its parent. -/
def Table.parent : Table → Option Table
  | .recipients => some .broadcasts
  | .actions => some .automations
  | .deliveries => some .webhooks
  | _ => none

/-- The id of a row's parent. -/
def Row.parentId : (table : Table) → Row table → Option Uuid
  | .recipients, row => some row.broadcastId
  | .actions, row => some row.automationId
  | .deliveries, row => some row.webhookId
  | _, _ => none

/-- The workspace a row names. -/
def Row.workspace : (table : Table) → Row table → Option Uuid
  | .workspaces, row => some row.id
  | .members, row => some row.workspaceId
  | .apiKeys, row => some row.workspaceId
  | .sessions, row => some row.workspaceId
  | .contacts, row => some row.workspaceId
  | .groups, row => some row.workspaceId
  | .logs, row => some row.workspaceId
  | .broadcasts, row => some row.workspaceId
  | .automations, row => some row.workspaceId
  | .webhooks, row => some row.workspaceId
  | _, _ => none

/-- The workspace a row names is not cut. -/
theorem Row.workspace_held (table : Table) (row : Row table) :
    Row.workspace table (row.held table) = Row.workspace table row := by
  cases table <;> rfl

/-- The row has this id or names it as its parent. -/
def Row.mentions (table : Table) (row : Row table) (id : Uuid) : Bool :=
  (Row.key table row).1 == id || Row.parentId table row == some id

/-- The tables every workspace sees. -/
def Table.shared : Table → Bool
  | .users => true
  | .members => true
  | _ => false

/-- The tables requests write. -/
def Table.written : Table → Bool
  | .users => false
  | .workspaces => false
  | .members => false
  | .deliveries => false
  | _ => true

namespace Db

/-- The row belongs to the workspace. -/
def owns (db : Db) (workspace : Uuid) (table : Table) (row : Row table) : Bool :=
  match table.parent with
  | none => Row.workspace table row == some workspace
  | some parent => (db parent).any fun other =>
      Row.parentId table row == some (Row.key parent other).1 &&
        Row.workspace parent other == some workspace

/-- The workspace sees the row. -/
def sees (db : Db) (workspace : Uuid) (table : Table) (row : Row table) : Bool :=
  table.shared || db.owns workspace table row

/-- What the workspace sees. -/
def view (db : Db) (workspace : Uuid) : Db := fun table =>
  (db table).filter (db.sees workspace table)

section Owners

variable {db db' : Db} {w v : Uuid} {table other : Table}

theorem parent_root (parent : table.parent = some other) :
    other.parent = none ∧ other.shared = false ∧ other ≠ table := by
  cases table <;> cases parent <;> exact ⟨rfl, rfl, nofun⟩

theorem written_shared (written : table.written = true) : table.shared = false := by
  cases table <;> first | rfl | cases written

theorem owns_root (root : table.parent = none) (row : Row table) :
    db.owns w table row = (Row.workspace table row == some w) := by
  unfold owns
  rw [root]

theorem owns_child (parent : table.parent = some other) {row : Row table} :
    db.owns w table row = true ↔
      ∃ above ∈ db other, Row.parentId table row = some (Row.key other above).1 ∧
        Row.workspace other above = some w := by
  unfold owns
  rw [parent]
  simp only [List.any_eq_true, Bool.and_eq_true, beq_iff_eq]

theorem sees_of_owns {row : Row table} (owned : db.owns w table row = true) :
    db.sees w table row = true := by
  unfold sees
  rw [owned, Bool.or_true]

theorem sees_eq_owns (secret : table.shared = false) (row : Row table) :
    db.sees w table row = db.owns w table row := by
  unfold sees
  rw [secret, Bool.false_or]

theorem mem_view {row : Row table} :
    row ∈ db.view w table ↔ row ∈ db table ∧ db.sees w table row = true :=
  List.mem_filter

/-- Whose a row is depends on what its owner sees. -/
theorem owns_congr (same : ∀ parent, table.parent = some parent →
      db.view w parent = db'.view w parent) : db.owns w table = db'.owns w table := by
  funext row
  cases parent : table.parent with
  | none => rw [owns_root parent, owns_root parent]
  | some other =>
    obtain ⟨root, secret, _⟩ := parent_root parent
    rw [Bool.eq_iff_iff, owns_child parent, owns_child parent]
    have listed (db : Db) (above : Row other) :
        (above ∈ db other ∧ Row.workspace other above = some w) ↔ above ∈ db.view w other := by
      rw [mem_view, sees_eq_owns secret, owns_root root, beq_iff_eq]
    constructor
    · rintro ⟨above, member, names, owner⟩
      have seen := (listed db above).mp ⟨member, owner⟩
      rw [same other parent] at seen
      exact ⟨above, ((listed db' above).mpr seen).1, names, owner⟩
    · rintro ⟨above, member, names, owner⟩
      have seen := (listed db' above).mp ⟨member, owner⟩
      rw [← same other parent] at seen
      exact ⟨above, ((listed db above).mpr seen).1, names, owner⟩

theorem sees_congr (same : ∀ parent, table.parent = some parent →
      db.view w parent = db'.view w parent) : db.sees w table = db'.sees w table := by
  funext row
  unfold sees
  rw [owns_congr same]

theorem sees_root (root : table.parent = none) : db.sees w table = db'.sees w table :=
  sees_congr fun parent is_parent => by
    rw [root] at is_parent
    cases is_parent

theorem sees_of_view (same : db.view w = db'.view w) (table : Table) :
    db.sees w table = db'.sees w table :=
  sees_congr fun parent _ => congrFun same parent

theorem view_view (db : Db) (w : Uuid) : (db.view w).view w = db.view w := by
  have twice (table : Table) (seen : (db.view w).sees w table = db.sees w table) :
      (db.view w).view w table = db.view w table := by
    show ((db table).filter (db.sees w table)).filter ((db.view w).sees w table) = _
    rw [seen, List.filter_filter]
    simp only [Bool.and_self]
    rfl
  funext table
  exact twice table (sees_congr fun parent is_parent =>
    twice parent (sees_root (parent_root is_parent).1))

/-- Under unique keys a row belongs to one workspace. -/
theorem owner_unique (keyed : ∀ table, ((db table).map (Row.key table)).Nodup) {row : Row table}
    (here : db.owns w table row = true) (there : db.owns v table row = true) : v = w := by
  cases parent : table.parent with
  | none =>
    rw [owns_root parent, beq_iff_eq] at here there
    exact Option.some.inj (there.symm.trans here)
  | some other =>
    obtain ⟨above, member, names, owner⟩ := (owns_child parent).mp here
    obtain ⟨above', member', names', owner'⟩ := (owns_child parent).mp there
    have composite : ∀ first second : Row other, (Row.key other first).1 =
        (Row.key other second).1 →
        Row.key other first = Row.key other second := by
      intro first second same
      cases table <;> cases parent <;> exact Prod.ext same rfl
    have same := Rows.unique (keyed other) member member'
      (composite _ _ (Option.some.inj (names.symm.trans names')))
    subst same
    exact Option.some.inj (owner'.symm.trans owner)

end Owners

/-! ### One changed table -/

section Set

variable {db db' : Db} {w v : Uuid} {table : Table}

/-- A table whose rows look the same to a workspace. -/
theorem view_set_out {rows : List (Row table)}
    (same : rows.filter (db.sees v table) = db.view v table) :
    (db.set table rows).view v = db.view v := by
  have shows (other : Table) (seen : (db.set table rows).sees v other = db.sees v other) :
      (db.set table rows).view v other = db.view v other := by
    unfold view
    rw [seen]
    by_cases here : other = table
    · subst here
      rw [set_same]
      exact same
    · rw [set_other _ here]
  funext other
  exact shows other (sees_congr fun parent is_parent =>
    shows parent (sees_root (parent_root is_parent).1))

/-- **The view after a table changed**: two databases with one view, whose changed table shows the
same rows and makes no further row visible, have one view again. -/
theorem view_set_alike (same : db.view w = db'.view w) {rows rows' : List (Row table)}
    (alike : rows.filter (db.sees w table) = rows'.filter (db.sees w table))
    (shrinks : ∀ other, ∀ row ∈ db other, (db.set table rows).sees w other row = true →
      db.sees w other row = true)
    (shrinks' : ∀ other, ∀ row ∈ db' other, (db'.set table rows').sees w other row = true →
      db'.sees w other row = true) :
    (db.set table rows).view w = (db'.set table rows').view w := by
  have within (db : Db) (rows : List (Row table)) (other : Table) (here : other ≠ table)
      (shrinks : ∀ row ∈ db other, (db.set table rows).sees w other row = true →
        db.sees w other row = true) :
      (db.set table rows).view w other =
        (db.view w other).filter ((db.set table rows).sees w other) := by
    unfold view
    rw [set_other _ here, List.filter_filter]
    refine List.filter_congr fun row member => ?_
    by_cases hit : (db.set table rows).sees w other row = true
    · rw [hit, shrinks row member hit, Bool.and_self]
    · rw [Bool.not_eq_true] at hit
      rw [hit, Bool.false_and]
  have shows (other : Table)
      (seen : (db.set table rows).sees w other = (db'.set table rows').sees w other) :
      (db.set table rows).view w other = (db'.set table rows').view w other := by
    by_cases here : other = table
    · subst here
      have still (db : Db) (rows : List (Row other)) :
          (db.set other rows).sees w other = db.sees w other := by
        refine sees_congr fun parent is_parent => ?_
        unfold view
        rw [set_other _ (parent_root is_parent).2.2, sees_root (parent_root is_parent).1]
      unfold view
      rw [set_same, set_same, still, still, ← sees_of_view same]
      exact alike
    · rw [within db rows other here (shrinks other), within db' rows' other here (shrinks' other),
        seen, congrFun same other]
  funext other
  exact shows other (sees_congr fun parent is_parent =>
    shows parent (sees_root (parent_root is_parent).1))

end Set

/-! ### Databases a request finds -/

/-- Unique primary keys, and ids to come that are mentioned at most by what the workspace sees. A
deleted webhook leaves its deliveries behind, so these mention none at all. -/
structure Tidy (w : Uuid) (fresh : Uuid → Prop) (db : Db) : Prop where
  keyed : ∀ table, ((db table).map (Row.key table)).Nodup
  unused : ∀ table, ∀ row ∈ db table, table = .deliveries ∨ db.sees w table row = false →
    ∀ id, fresh id → Row.mentions table row id = false

/-- The row may be written for the workspace: it belongs to it, as do the row it replaces and the
children it finds. -/
structure Writable (w : Uuid) (db : Db) (table : Table) (row : Row table) : Prop where
  written : table.written = true
  owned : db.owns w table row = true
  clear : ∀ other ∈ db table, Row.key table other = Row.key table row →
    db.sees w table other = true
  unheard : ∀ other, other.parent = some table → ∀ child ∈ db other,
    Row.parentId other child = some (Row.key table row).1 → db.sees w other child = true

/-- The row has a fresh id, or the id of a row of the workspace. -/
def Claimed (w : Uuid) (fresh : Uuid → Prop) (db : Db) (table : Table) (row : Row table) : Prop :=
  fresh (Row.key table row).1 ∨
    ∃ old ∈ db table, Row.key table old = Row.key table row ∧ db.owns w table old = true

section Writes

variable {db db' : Db} {w v : Uuid} {fresh : Uuid → Prop} {table other : Table} {row : Row table}

theorem owns_held : db.owns w table (row.held table) = db.owns w table row := by
  cases table <;> rfl

/-- A row that may be written may be held as its table keeps it. -/
theorem writable_held (writable : Writable w db table row) :
    Writable w db table (row.held table) where
  written := writable.written
  owned := owns_held.trans writable.owned
  clear other member same := writable.clear other member (same.trans (Row.held_key table row))
  unheard other parent child member names :=
    writable.unheard other parent child member (Row.held_key table row ▸ names)

theorem writable_of_claimed (tidy : Tidy w fresh db) (written : table.written = true)
    (owned : db.owns w table row = true) (claimed : Claimed w fresh db table row) :
    Writable w db table row := by
  refine ⟨written, owned, fun other member same => ?_, fun other parent child member names => ?_⟩
  · rcases claimed with is_fresh | ⟨old, stored, same_old, own⟩
    · by_contra unseen
      have clean := tidy.unused table other member (.inr (Bool.eq_false_iff.mpr unseen)) _ is_fresh
      rw [Row.mentions, same, Bool.or_eq_false_iff, beq_eq_false_iff_ne] at clean
      exact clean.1 rfl
    · rw [Rows.unique (tidy.keyed table) member stored (same.trans same_old.symm)]
      exact sees_of_owns own
  · rcases claimed with is_fresh | ⟨old, stored, same_old, own⟩
    · by_contra unseen
      have clean := tidy.unused other child member (.inr (Bool.eq_false_iff.mpr unseen)) _ is_fresh
      rw [Row.mentions, names, beq_self_eq_true, Bool.or_true] at clean
      cases clean
    · rw [owns_root (parent_root parent).1, beq_iff_eq] at own
      exact sees_of_owns ((owns_child parent).mpr ⟨old, stored, by rw [names, same_old], own⟩)

theorem writable_foreign (tidy : Tidy w fresh db) (writable : Writable w db table row)
    (different : v ≠ w) : db.sees v table row = false := by
  rw [sees_eq_owns (written_shared writable.written)]
  by_contra seen
  exact different (owner_unique tidy.keyed writable.owned (Bool.not_eq_false _ ▸ seen))

theorem writable_foreign_old (tidy : Tidy w fresh db) (writable : Writable w db table row)
    (different : v ≠ w) : ∀ old ∈ db table, Row.key table old = Row.key table row →
      db.sees v table old = false := by
  intro old member same
  have secret := written_shared writable.written
  have seen := writable.clear old member same
  rw [sees_eq_owns secret] at seen ⊢
  by_contra theirs
  exact different (owner_unique tidy.keyed seen (Bool.not_eq_false _ ▸ theirs))

/-- What a table shows depends on the table of its parents only. -/
theorem sees_set_other (different : other.parent ≠ some table) (rows : List (Row table)) :
    (db.set table rows).sees w other = db.sees w other := by
  refine sees_congr fun parent is_parent => ?_
  have apart : parent ≠ table := fun same => different (same ▸ is_parent)
  unfold view
  rw [set_other _ apart, sees_root (parent_root is_parent).1]

theorem child_secret (parent : table.parent = some other) : table.shared = false := by
  cases table <;> first | rfl | cases parent

/-- The children a changed table shows. -/
theorem sees_set_child (parent : other.parent = some table) {rows : List (Row table)}
    {child : Row other} : (db.set table rows).sees w other child = true ↔
      ∃ above ∈ rows, Row.parentId other child = some (Row.key table above).1 ∧
        Row.workspace table above = some w := by
  rw [sees_eq_owns (child_secret parent), owns_child parent, set_same]

theorem sees_child (parent : other.parent = some table) {child : Row other} :
    db.sees w other child = true ↔
      ∃ above ∈ db table, Row.parentId other child = some (Row.key table above).1 ∧
        Row.workspace table above = some w := by
  rw [sees_eq_owns (child_secret parent), owns_child parent]

/-! #### A new row -/

theorem push_shrinks (writable : Writable w db table row) :
    ∀ other, ∀ child ∈ db other, (db.push table row).sees w other child = true →
      db.sees w other child = true := by
  intro other child member seen
  by_cases parent : other.parent = some table
  · obtain ⟨above, listed, names, owner⟩ := (sees_set_child parent).mp seen
    rcases List.mem_append.mp listed with old | new
    · exact (sees_child parent).mpr ⟨above, old, names, owner⟩
    · rw [List.mem_singleton.mp new] at names
      exact writable.unheard other parent child member names
  · rwa [push, sees_set_other parent] at seen

theorem push_grows {child : Row other} (seen : db.sees w other child = true) :
    (db.push table row).sees w other child = true := by
  by_cases parent : other.parent = some table
  · obtain ⟨above, listed, names, owner⟩ := (sees_child parent).mp seen
    exact (sees_set_child parent).mpr ⟨above, List.mem_append_left _ listed, names, owner⟩
  · rwa [push, sees_set_other parent]

theorem push_alike (same : db.view w = db'.view w) (writable : Writable w db table row)
    (writable' : Writable w db' table row) :
    (db.push table row).view w = (db'.push table row).view w := by
  refine view_set_alike same ?_ (push_shrinks writable) (push_shrinks writable')
  have here := congrFun same table
  unfold view at here
  rw [← sees_of_view same] at here
  rw [List.filter_append, List.filter_append, here]

theorem push_out (tidy : Tidy w fresh db) (writable : Writable w db table row)
    (different : v ≠ w) : (db.push table row).view v = db.view v := by
  refine view_set_out ?_
  rw [List.filter_append, List.filter_cons_of_neg
    (Bool.eq_false_iff.mp (writable_foreign tidy writable different)), List.filter_nil,
    List.append_nil]
  rfl

theorem tidy_push (tidy : Tidy w fresh db) (writable : Writable w db table row)
    (new : (db table).any (sameKey row) = false) : Tidy w fresh (db.push table row) := by
  constructor
  · intro other
    by_cases here : other = table
    · subst here
      rw [push, set_same, List.map_append, List.nodup_append]
      refine ⟨tidy.keyed other, List.nodup_singleton _, fun key listed key' listed' same => ?_⟩
      obtain ⟨old, member, rfl⟩ := List.mem_map.mp listed
      rw [List.map_singleton, List.mem_singleton] at listed'
      rw [List.any_eq_false] at new
      refine new old member ?_
      simp only [sameKey, decide_eq_true_eq]
      exact (same.trans listed').symm
    · rw [push, set_other _ here]
      exact tidy.keyed other
  · intro other child member hidden id is_fresh
    have unseen (away : other = .deliveries ∨ (db.push table row).sees w other child = false) :
        other = .deliveries ∨ db.sees w other child = false :=
      away.imp_right fun hidden => by
        by_contra seen
        rw [push_grows (Bool.not_eq_false _ ▸ seen)] at hidden
        cases hidden
    by_cases here : other = table
    · subst here
      rw [push, set_same, List.mem_append, List.mem_singleton] at member
      rcases member with old | rfl
      · exact tidy.unused other child old (unseen hidden) id is_fresh
      · rcases hidden with rfl | hidden
        · cases writable.written
        · rw [push_grows (sees_of_owns writable.owned)] at hidden
          cases hidden
    · rw [push, set_other _ here] at member
      exact tidy.unused other child member (unseen hidden) id is_fresh

/-! #### A replaced row -/

theorem put_sees (writable : Writable w db table row) (other : Table) :
    (db.put table row).sees w other = db.sees w other := by
  by_cases parent : other.parent = some table
  · funext child
    have root := (parent_root parent).1
    have ours (above : Row table) (owned : db.owns w table above = true) :
        Row.workspace table above = some w := by
      rwa [owns_root root, beq_iff_eq] at owned
    rw [Bool.eq_iff_iff, put, sees_set_child parent, sees_child parent]
    constructor
    · rintro ⟨above, listed, names, owner⟩
      rcases Rows.mem_put.mp listed with ⟨old, _⟩ | ⟨rfl, old, member, same⟩
      · exact ⟨above, old, names, owner⟩
      · have seen := writable.clear old member same
        rw [sees_eq_owns (written_shared writable.written)] at seen
        exact ⟨old, member, by rw [names, same], ours old seen⟩
    · rintro ⟨above, member, names, owner⟩
      by_cases same : Row.key table above = Row.key table row
      · exact ⟨row, Rows.mem_put.mpr (.inr ⟨rfl, above, member, same⟩), by rw [names, same],
          ours row writable.owned⟩
      · exact ⟨above, Rows.mem_put.mpr (.inl ⟨member, same⟩), names, owner⟩
  · exact sees_set_other parent _

theorem put_alike (same : db.view w = db'.view w) (writable : Writable w db table row)
    (writable' : Writable w db' table row) :
    (db.put table row).view w = (db'.put table row).view w := by
  refine view_set_alike same ?_
    (fun other child _ seen => (congrFun (put_sees writable other) child).symm.trans seen)
    fun other child _ seen => (congrFun (put_sees writable' other) child).symm.trans seen
  have here := congrFun same table
  unfold view at here
  rw [← sees_of_view same] at here
  rw [Rows.filter_put_in (sees_of_owns writable.owned) writable.clear,
    Rows.filter_put_in (sees_of_owns writable.owned), here]
  intro old member same_key
  rw [sees_of_view same]
  exact writable'.clear old member same_key

theorem put_out (tidy : Tidy w fresh db) (writable : Writable w db table row)
    (different : v ≠ w) : (db.put table row).view v = db.view v :=
  view_set_out (Rows.filter_put_out (writable_foreign tidy writable different)
    (writable_foreign_old tidy writable different))

theorem tidy_put (tidy : Tidy w fresh db) (writable : Writable w db table row) :
    Tidy w fresh (db.put table row) := by
  constructor
  · intro other
    by_cases here : other = table
    · subst here
      rw [put, set_same, Rows.keys_put]
      exact tidy.keyed other
    · rw [put, set_other _ here]
      exact tidy.keyed other
  · intro other child member hidden id is_fresh
    rw [put_sees writable] at hidden
    by_cases here : other = table
    · subst here
      rw [put, set_same, Rows.mem_put] at member
      rcases member with ⟨old, _⟩ | ⟨rfl, _⟩
      · exact tidy.unused other child old hidden id is_fresh
      · rcases hidden with rfl | hidden
        · cases writable.written
        · rw [sees_of_owns writable.owned] at hidden
          cases hidden
    · rw [put, set_other _ here] at member
      exact tidy.unused other child member hidden id is_fresh

/-- What a workspace sees is as tidy as the database. -/
theorem tidy_view (tidy : Tidy w fresh db) : Tidy w fresh (db.view w) := by
  refine ⟨fun table => ?_, fun table row member hidden => ?_⟩
  · exact (tidy.keyed table).sublist (List.filter_sublist.map _)
  · obtain ⟨stored, seen⟩ := mem_view.mp member
    refine tidy.unused table row stored (hidden.imp_right fun hidden => ?_)
    rwa [sees_of_view (view_view db w)] at hidden

/-! #### Deleted rows -/

theorem erase_alike (same : db.view w = db'.view w) (gone : Row table → Bool) :
    (db.erase table gone).view w = (db'.erase table gone).view w := by
  have shrinks (db : Db) (other : Table) (child : Row other)
      (seen : (db.erase table gone).sees w other child = true) : db.sees w other child = true := by
    by_cases parent : other.parent = some table
    · obtain ⟨above, listed, names, owner⟩ := (sees_set_child parent).mp seen
      exact (sees_child parent).mpr ⟨above, (List.mem_filter.mp listed).1, names, owner⟩
    · rwa [erase, sees_set_other parent] at seen
  refine view_set_alike same ?_ (fun other child _ => shrinks db other child)
    fun other child _ => shrinks db' other child
  have here := congrFun same table
  unfold view at here
  rw [← sees_of_view same] at here
  rw [List.filter_comm, here, List.filter_comm]

theorem erase_out {gone : Row table → Bool}
    (ours : ∀ row ∈ db table, gone row = true → db.sees v table row = false) :
    (db.erase table gone).view v = db.view v := by
  refine view_set_out ?_
  rw [List.filter_filter]
  refine List.filter_congr fun row member => ?_
  by_cases leaves : gone row = true
  · rw [ours row member leaves, Bool.false_and]
  · rw [Bool.not_eq_true] at leaves
    rw [leaves, Bool.not_false, Bool.and_true]

/-- Rows without children may be deleted. -/
theorem tidy_erase_leaf (tidy : Tidy w fresh db) (leaf : ∀ other : Table, other.parent ≠ some table)
    {gone : Row table → Bool} : Tidy w fresh (db.erase table gone) := by
  have kept (other : Table) (row : Row other) (member : row ∈ db.erase table gone other) :
      row ∈ db other := by
    by_cases here : other = table
    · subst here
      rw [erase, set_same] at member
      exact (List.mem_filter.mp member).1
    · rwa [erase, set_other _ here] at member
  refine ⟨fun other => ?_, fun other row member hidden => ?_⟩
  · by_cases here : other = table
    · subst here
      rw [erase, set_same]
      exact (tidy.keyed other).sublist (List.filter_sublist.map _)
    · rw [erase, set_other _ here]
      exact tidy.keyed other
  · rw [erase, sees_set_other (leaf other)] at hidden
    exact tidy.unused other row (kept other row member) hidden

end Writes

end Db

end WaAutomation
