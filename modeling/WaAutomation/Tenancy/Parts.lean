/-
**The part of the database a workspace works on.**

Under concurrency a row cannot be told to be a workspace's by looking for its parent, which another
call may have deleted. It can be told by its id, since ids are generated once: `home` is the
workspace an id was generated for.

* `Row.Homed` says that a row, its parent and the workspace it names agree on where they are at
  home; `Db.Homed` is the invariant that every stored row is so;
* `Db.part` keeps the rows at home in a workspace, and the tables of users and memberships;
* `Tame` is a write on behalf of a workspace: it keeps the invariant, its outcome depends on the
  part of that workspace only, and it leaves every other part as it is. `tame_insert`,
  `tame_replace` and `tame_erase` are the single writes, `tame_then`, `tame_ask` and
  `tame_insertAll` compose them.
-/

import WaAutomation.Tenancy.Views

set_option linter.unusedSectionVars false

namespace WaAutomation

open Library

/-! ### Rows at home -/

/-- The session a broadcast names. -/
def Row.session : (table : Table) → Row table → Option Uuid
  | .broadcasts, row => some row.sessionId
  | _, _ => none

/-- The workspace, the parent and the session of a row are at home where its id is. -/
structure Row.Homed (home : Uuid → Uuid) (table : Table) (row : Row table) : Prop where
  workspace : ∀ w, Row.workspace table row = some w → home (Row.key table row).1 = w
  parent : ∀ id, Row.parentId table row = some id → home id = home (Row.key table row).1
  session : ∀ id, Row.session table row = some id → home id = home (Row.key table row).1

instance (home : Uuid → Uuid) (table : Table) (row : Row table) :
    Decidable (Row.Homed home table row) :=
  decidable_of_iff
    ((∀ w ∈ Row.workspace table row, home (Row.key table row).1 = w) ∧
      (∀ id ∈ Row.parentId table row, home id = home (Row.key table row).1) ∧
      ∀ id ∈ Row.session table row, home id = home (Row.key table row).1)
    ⟨fun all => ⟨all.1, all.2.1, all.2.2⟩, fun homed => ⟨homed.workspace, homed.parent,
      homed.session⟩⟩

/-- A row a call may write on behalf of a workspace. -/
structure Row.Ours (home : Uuid → Uuid) (w : Uuid) (table : Table) (row : Row table) : Prop where
  written : table.written = true
  here : home (Row.key table row).1 = w
  homed : Row.Homed home table row

/-- A row is at home as its table keeps it. -/
theorem Row.Ours.held {home : Uuid → Uuid} {w : Uuid} {table : Table} {row : Row table}
    (ours : Row.Ours home w table row) : Row.Ours home w table (row.held table) := by
  cases table <;> exact ⟨ours.written, ours.here, ours.homed.workspace, ours.homed.parent,
    ours.homed.session⟩

/-- The workspace works on the row, or everyone does. -/
def Row.inPart (home : Uuid → Uuid) (w : Uuid) (table : Table) (row : Row table) : Bool :=
  table.shared || home (Row.key table row).1 == w

namespace Db

/-- Every stored row is at home somewhere. -/
def Homed (home : Uuid → Uuid) (db : Db) : Prop :=
  ∀ table, ∀ row ∈ db table, Row.Homed home table row

/-- The part of a workspace. -/
def part (home : Uuid → Uuid) (w : Uuid) (db : Db) : Db := fun table =>
  (db table).filter (Row.inPart home w table)

section Part

variable {home : Uuid → Uuid} {w v : Uuid} {db db' : Db} {table other : Table}

theorem inPart_of_home {row : Row table} (here : home (Row.key table row).1 = w) :
    Row.inPart home w table row = true := by
  rw [Row.inPart, here, beq_self_eq_true, Bool.or_true]

theorem inPart_secret (secret : table.shared = false) {row : Row table} :
    Row.inPart home w table row = true ↔ home (Row.key table row).1 = w := by
  rw [Row.inPart, secret, Bool.false_or, beq_iff_eq]

/-- What one workspace works on, no other does. -/
theorem inPart_foreign (written : table.written = true) {row : Row table}
    (here : home (Row.key table row).1 = w) (different : v ≠ w) :
    Row.inPart home v table row = false := by
  rw [Bool.eq_false_iff, Ne, inPart_secret (written_shared written), here]
  exact different.symm

/-! #### Queries -/

/-- **A query for rows of the part** finds the same in two databases that agree on it. -/
theorem filter_part (same : db.part home w = db'.part home w) {matching : Row table → Bool}
    (inside : ∀ row ∈ db table, matching row = true → Row.inPart home w table row = true)
    (inside' : ∀ row ∈ db' table, matching row = true → Row.inPart home w table row = true) :
    (db table).filter matching = (db' table).filter matching := by
  have within (db : Db)
      (inside : ∀ row ∈ db table, matching row = true → Row.inPart home w table row = true) :
      (db table).filter matching = (db.part home w table).filter matching := by
    rw [part, List.filter_filter]
    refine List.filter_congr fun row member => ?_
    by_cases hit : matching row = true
    · rw [hit, inside row member hit, Bool.and_self]
    · rw [Bool.not_eq_true] at hit
      rw [hit, Bool.false_and]
  rw [within db inside, within db' inside', same]

theorem find_part (same : db.part home w = db'.part home w) {matching : Row table → Bool}
    (inside : ∀ row ∈ db table, matching row = true → Row.inPart home w table row = true)
    (inside' : ∀ row ∈ db' table, matching row = true → Row.inPart home w table row = true) :
    (db table).find? matching = (db' table).find? matching := by
  rw [← List.head?_filter, ← List.head?_filter, filter_part same inside inside']

theorem any_part (same : db.part home w = db'.part home w) {matching : Row table → Bool}
    (inside : ∀ row ∈ db table, matching row = true → Row.inPart home w table row = true)
    (inside' : ∀ row ∈ db' table, matching row = true → Row.inPart home w table row = true) :
    (db table).any matching = (db' table).any matching := by
  have found := congrArg Option.isSome (find_part same inside inside')
  rwa [List.isSome_find?, List.isSome_find?] at found

/-- The rows with a key of the part are in the part. -/
theorem inside_sameKey {row : Row table} (here : home (Row.key table row).1 = w)
    (rows : List (Row table)) :
    ∀ stored ∈ rows, sameKey row stored = true → Row.inPart home w table stored = true := by
  intro stored _ same
  have key : Row.key table row = Row.key table stored := of_decide_eq_true same
  exact inPart_of_home (key ▸ here)

/-- A parent of the part is looked up in the part. -/
theorem has_part (same : db.part home w = db'.part home w) {id : Uuid} (here : home id = w) :
    db.has table id = db'.has table id := by
  have inside (rows : List (Row table)) : ∀ row ∈ rows, ((Row.key table row).1 == id) = true →
      Row.inPart home w table row = true :=
    fun row _ hit => inPart_of_home (beq_iff_eq.mp hit ▸ here)
  exact any_part same (inside _) (inside _)

/-- **What Postgres checks** of a row of the part depends on the part. -/
theorem check_part (homed : Homed home db) (homed' : Homed home db')
    (same : db.part home w = db'.part home w) {row : Row table} (ours : Row.Ours home w table row) :
    db.check table row = db'.check table row := by
  have parent (id : Uuid) (names : Row.parentId table row = some id) : home id = w :=
    (ours.homed.parent id names).trans ours.here
  have parents : db.parents table row = db'.parents table row := by
    cases table with
    | members => cases ours.written
    | recipients => exact has_part same (parent row.broadcastId rfl)
    | actions => exact has_part same (parent row.automationId rfl)
    | _ => rfl
  have clash (db : Db) (homed : Homed home db) : ∀ other ∈ db table,
      (!sameKey other row && Row.clash table other row) = true →
        Row.inPart home w table other = true := by
    intro other member hit
    have clashes := (Bool.and_eq_true_iff.mp hit).2
    cases table with
    | users => cases ours.written
    | contacts =>
      have named := beq_iff_eq.mp (Bool.and_eq_true_iff.mp clashes).1
      refine inPart_of_home (((homed .contacts other member).workspace _ rfl).trans ?_)
      rw [named]
      exact (ours.homed.workspace _ rfl).symm.trans ours.here
    | _ => cases clashes
  unfold check
  rw [parents, any_part same (clash db homed) (clash db' homed')]

/-! #### One changed table -/

theorem part_set (rows : List (Row table)) :
    (db.set table rows).part home w =
      (db.part home w).set table (rows.filter (Row.inPart home w table)) := by
  funext other
  by_cases here : other = table
  · subst here
    rw [part, set_same, set_same]
  · rw [part, set_other _ here, set_other _ here, part]

theorem part_set_same (same : db.part home w = db'.part home w) {rows rows' : List (Row table)}
    (alike : rows.filter (Row.inPart home w table) = rows'.filter (Row.inPart home w table)) :
    (db.set table rows).part home w = (db'.set table rows').part home w := by
  rw [part_set, part_set, same, alike]

theorem part_set_hidden {rows : List (Row table)}
    (kept : rows.filter (Row.inPart home v table) = (db table).filter (Row.inPart home v table)) :
    (db.set table rows).part home v = db.part home v := by
  funext other
  by_cases here : other = table
  · subst here
    rw [part, set_same, kept, part]
  · rw [part, set_other _ here, part]

theorem homed_set (homed : Homed home db) {rows : List (Row table)}
    (kept : ∀ row ∈ rows, Row.Homed home table row) : Homed home (db.set table rows) := by
  intro other row member
  by_cases here : other = table
  · subst here
    rw [set_same] at member
    exact kept row member
  · rw [set_other _ here] at member
    exact homed other row member

end Part

/-! ### Writes on behalf of a workspace -/

/-- A write on behalf of a workspace. -/
structure Tame (home : Uuid → Uuid) (w : Uuid) (write : Db → Except Err Db) : Prop where
  homed : ∀ db db', Homed home db → write db = .ok db' → Homed home db'
  own : ∀ db db', Homed home db → Homed home db' → db.part home w = db'.part home w →
    (write db).map (part home w) = (write db').map (part home w)
  hidden : ∀ db db' v, v ≠ w → Homed home db → write db = .ok db' →
    db'.part home v = db.part home v

section Tame

variable {home : Uuid → Uuid} {w : Uuid} {table : Table} {row : Row table}

/-- Outcomes that agree on the part. -/
theorem map_part_cases {outcome outcome' : Except Err Db}
    (same : outcome.map (part home w) = outcome'.map (part home w)) :
    (∃ error, outcome = .error error ∧ outcome' = .error error) ∨
      ∃ db db', outcome = .ok db ∧ outcome' = .ok db' ∧ db.part home w = db'.part home w := by
  cases outcome with
  | error error =>
    cases outcome' with
    | error error' => exact .inl ⟨error, rfl, congrArg _ (Except.error.inj same).symm⟩
    | ok db => cases same
  | ok db =>
    cases outcome' with
    | error error => cases same
    | ok db' => exact .inr ⟨db, db', rfl, rfl, Except.ok.inj same⟩

theorem tame_error (error : Err) : Tame home w fun _ => .error error := by
  refine ⟨fun _ _ _ done => ?_, fun _ _ _ _ _ => rfl, fun _ _ _ _ _ done => ?_⟩
  · cases done
  · cases done

theorem tame_keep : Tame home w .ok := by
  refine ⟨fun _ _ homed done => ?_, fun _ _ _ _ same => congrArg Except.ok same,
    fun _ _ _ _ _ done => ?_⟩
  · cases done
    exact homed
  · cases done
    rfl

/-- One write after another. -/
theorem tame_then {first second : Db → Except Err Db} (before : Tame home w first)
    (after : Tame home w second) :
    Tame home w fun db =>
      match first db with
      | .error error => .error error
      | .ok next => second next := by
  refine ⟨fun db db' homed done => ?_, fun db db' homed homed' same => ?_,
    fun db db' v different homed done => ?_⟩
  · cases begun : first db with
    | error error =>
      rw [begun] at done
      cases done
    | ok next =>
      rw [begun] at done
      exact after.homed next db' (before.homed db next homed begun) done
  · obtain ⟨error, begun, begun'⟩ | ⟨next, next', begun, begun', alike⟩ :=
      map_part_cases (before.own db db' homed homed' same)
    · rw [begun, begun']
    · rw [begun, begun']
      exact after.own next next' (before.homed db next homed begun)
        (before.homed db' next' homed' begun') alike
  · cases begun : first db with
    | error error =>
      rw [begun] at done
      cases done
    | ok next =>
      rw [begun] at done
      exact (after.hidden next db' v different (before.homed db next homed begun) done).trans
        (before.hidden db next v different homed begun)

/-- A write that depends on a question about the part. -/
theorem tame_ask {β : Type} {asks : Db → β} (answer : β → Db → Except Err Db)
    (agree : ∀ db db', Homed home db → Homed home db' → db.part home w = db'.part home w →
      asks db = asks db')
    (tame : ∀ db, Homed home db → Tame home w (answer (asks db))) :
    Tame home w fun db => answer (asks db) db := by
  refine ⟨fun db db' homed done => (tame db homed).homed db db' homed done,
    fun db db' homed homed' same => ?_,
    fun db db' v different homed done => (tame db homed).hidden db db' v different homed done⟩
  have outcomes := (tame db homed).own db db' homed homed' same
  rwa [agree db db' homed homed' same] at outcomes ⊢

/-- A change of one table. -/
theorem tame_set (rows : List (Row table) → List (Row table))
    (kept : ∀ old, (∀ row ∈ old, Row.Homed home table row) →
      ∀ row ∈ rows old, Row.Homed home table row)
    (own : ∀ old, (rows old).filter (Row.inPart home w table) =
      rows (old.filter (Row.inPart home w table)))
    (hidden : ∀ old v, v ≠ w → (rows old).filter (Row.inPart home v table) =
      old.filter (Row.inPart home v table)) :
    Tame home w fun db => .ok (db.set table (rows (db table))) := by
  refine ⟨fun db db' homed done => ?_, fun db db' _ _ same => ?_,
    fun db db' v different _ done => ?_⟩
  · cases done
    exact homed_set homed (kept _ (homed table))
  · have here := congrFun same table
    unfold part at here
    exact congrArg Except.ok (part_set_same same (by rw [own, own, here]))
  · cases done
    exact part_set_hidden (hidden _ v different)

/-- What a write becomes once a check is answered. -/
def checked (write : Db → Except Err Db) : Except Err Unit → Db → Except Err Db
  | .error error, _ => .error error
  | .ok (), db => write db

/-- A write of one row after what Postgres checks of it. -/
theorem tame_check (ours : Row.Ours home w table row) {write : Db → Except Err Db}
    (tame : Tame home w write) :
    Tame home w fun db => checked write (db.check table row) db := by
  refine tame_ask (checked write)
    (fun db db' homed homed' same => check_part homed homed' same ours) fun db _ => ?_
  cases db.check table row with
  | error error => exact tame_error error
  | ok _ => exact tame

/-- The rows with the key of an own row, as a question about the part. -/
theorem agree_sameKey (here : home (Row.key table row).1 = w) (db db' : Db)
    (_ : Homed home db) (_ : Homed home db') (same : db.part home w = db'.part home w) :
    (db table).any (sameKey row) = (db' table).any (sameKey row) :=
  any_part same (inside_sameKey here _) (inside_sameKey here _)

/-- **The insert of a row of the workspace.** -/
theorem tame_insert (ours : Row.Ours home w table row) : Tame home w fun db =>
    db.insert table row := by
  have kept := ours.held
  have pushes : Tame home w fun db => .ok (db.push table (row.held table)) := by
    refine tame_set (fun old => old ++ [row.held table]) (fun old homed other member => ?_)
      (fun old => ?_) fun old v different => ?_
    · rcases List.mem_append.mp member with before | new
      · exact homed other before
      · rw [List.mem_singleton.mp new]
        exact kept.homed
    · rw [List.filter_append, List.filter_cons_of_pos (inPart_of_home kept.here), List.filter_nil]
    · have foreign := inPart_foreign kept.written kept.here different
      rw [List.filter_append, List.filter_cons_of_neg (Bool.eq_false_iff.mp foreign),
        List.filter_nil, List.append_nil]
  have inserts (db : Db) : db.insert table row = if (db table).any (sameKey row) then
      .error uniqueViolation else checked (fun db => .ok (db.push table (row.held table)))
        (db.check table row) db := by
    unfold insert
    cases db.check table row <;> rfl
  simp only [inserts]
  refine tame_ask (fun stored db => if stored = true then .error uniqueViolation else
    checked (fun db => .ok (db.push table (row.held table))) (db.check table row) db)
    (agree_sameKey ours.here) fun db _ => ?_
  cases (db table).any (sameKey row) with
  | true => exact tame_error _
  | false => exact tame_check ours pushes

/-- **A row of the workspace written over the stored one.** -/
theorem tame_replace (ours : Row.Ours home w table row) : Tame home w fun db =>
    db.replace table row := by
  have kept := ours.held
  have puts : Tame home w fun db => .ok (db.put table (row.held table)) := by
    have keyed (old other : Row table)
        (same : Row.key table old = Row.key table (row.held table)) :
        home (Row.key table old).1 = w := same ▸ kept.here
    refine tame_set (Rows.put (Row.key table) (row.held table)) (fun old homed other member => ?_)
      (fun old => ?_) fun old v different => ?_
    · rcases Rows.mem_put.mp member with ⟨before, _⟩ | ⟨rfl, _⟩
      · exact homed other before
      · exact kept.homed
    · exact Rows.filter_put_in (inPart_of_home kept.here) fun other _ same =>
        inPart_of_home (keyed other other same)
    · exact Rows.filter_put_out (inPart_foreign kept.written kept.here different)
        fun other _ same => inPart_foreign kept.written (keyed other other same) different
  have replaces (db : Db) : db.replace table row =
      checked (fun db => .ok (db.put table (row.held table))) (db.check table row) db := by
    unfold replace
    cases db.check table row <;> rfl
  simp only [replaces]
  exact tame_check ours puts

/-- **A delete of rows of the workspace.** -/
theorem tame_erase (written : table.written = true) {gone : Row table → Bool}
    (inside : ∀ row, Row.Homed home table row → gone row = true → home (Row.key table row).1 = w) :
    Tame home w fun db => .ok (db.erase table gone) := by
  refine ⟨fun db db' homed done => ?_, fun db db' _ _ same => ?_,
    fun db db' v different homed done => ?_⟩
  · cases done
    exact homed_set homed fun row member => homed table row (List.mem_filter.mp member).1
  · have here := congrFun same table
    unfold part at here
    refine congrArg Except.ok (part_set_same same ?_)
    rw [List.filter_comm, here, List.filter_comm]
  · cases done
    refine part_set_hidden ?_
    rw [List.filter_filter]
    refine List.filter_congr fun row member => ?_
    by_cases leaves : gone row = true
    · rw [inPart_foreign written (inside row (homed table row member) leaves) different,
        Bool.false_and]
    · rw [Bool.not_eq_true] at leaves
      rw [leaves, Bool.not_false, Bool.and_true]

/-- Rows of the workspace inserted one after the other. -/
theorem tame_insertAll (table : Table) {rows : List (Row table)} :
    (∀ row ∈ rows, Row.Ours home w table row) → Tame home w fun db => db.insertAll table rows := by
  induction rows with
  | nil => exact fun _ => tame_keep
  | cons row rows ih =>
    exact fun ours => tame_then (tame_insert (ours row List.mem_cons_self))
      (ih fun other member => ours other (List.mem_cons_of_mem _ member))

end Tame

end Db

end WaAutomation
