/-
**What a call leaves alone, and what `save` leaves behind.**

* `Call.writes` lists the tables a call can change, and `exec_other` says the others are kept;
  `exec_queue` and `exec_journal` do the same for the queue and for the journal.
* `Store.save_cases` reduces a `save` to its outcomes: an error that changes nothing, or the row the
  entity amounts to, over the stored one or inserted anew.
-/

import WaAutomation.Model.Store

set_option linter.unusedSectionVars false

namespace WaAutomation

open Library

/-! ### Faults -/

/-- A call either fails before it does anything, or is performed. -/
theorem exec_cases (call : Call) (input : Input) (store : Store) :
    (∃ message, input.fault = some message ∧ call.storage = true ∧
      exec call input store = (.error (.database message), store)) ∨
    exec call input store = perform input store call := by
  unfold exec
  cases call.storage with
  | false =>
    right
    cases input.fault <;> rfl
  | true =>
    cases fault : input.fault with
    | none => exact .inr rfl
    | some message => exact .inl ⟨message, rfl, rfl, rfl⟩

/-- A call that nothing makes fail is performed. -/
theorem exec_clear (call : Call) {input : Input} (clear : input.fault = none) (store : Store) :
    exec call input store = perform input store call := by
  obtain ⟨message, fault, _, _⟩ | performed := exec_cases call input store
  · rw [clear] at fault
    cases fault
  · exact performed

/-- A database call that fails does nothing. -/
theorem exec_faulty {call : Call} (storage : call.storage = true) {input : Input} {message : String}
    (fault : input.fault = some message) (store : Store) :
    exec call input store = (.error (.database message), store) := by
  unfold exec
  rw [storage, fault]

/-- A database call that fails, or is performed. -/
theorem exec_storage (call : Call) (storage : call.storage = true) (input : Input) (store : Store) :
    (∃ error, exec call input store = (.error error, store)) ∨
      input.fault = none ∧ exec call input store = perform input store call := by
  cases fault : input.fault with
  | none => exact .inr ⟨rfl, exec_clear call fault store⟩
  | some message =>
    left
    unfold exec
    rw [storage, fault]
    exact ⟨_, rfl⟩

/-! ### Tables -/

/-- The tables a call can change. -/
def Call.writes : Call → Table → Bool
  | .insert table _, other => other == table
  | .insertBroadcast _ _, other => other == .broadcasts || other == .recipients
  | .insertAutomation _ _, other => other == .automations || other == .actions
  | .save table _, other => other == table
  | .saveAutomation _ _, other => other == .automations || other == .actions
  | .remove .users _, other => other == .users || other == .members
  | .remove .workspaces _, other => other == .workspaces || other == .members
  | .remove .broadcasts _, other => other == .broadcasts || other == .recipients
  | .remove .automations _, other => other == .automations || other == .actions
  | .remove table _, other => other == table
  | .deleteActions _, other => other == .actions
  | .update table _ _, other => other == table
  | .elsewhere _, other => other != .broadcasts && other != .recipients
  | _, _ => false

namespace Db

@[simp] theorem set_same (db : Db) (table : Table) (rows : List (Row table)) :
    db.set table rows table = rows :=
  Function.update_self _ _ _

theorem set_other (db : Db) {table other : Table} (different : other ≠ table)
    (rows : List (Row table)) : db.set table rows other = db other :=
  Function.update_of_ne different _ _

theorem push_other (db : Db) {table other : Table} (different : other ≠ table) (row : Row table) :
    db.push table row other = db other :=
  set_other db different _

theorem put_other (db : Db) {table other : Table} (different : other ≠ table) (row : Row table) :
    db.put table row other = db other :=
  set_other db different _

/-- A row is held under its own key. -/
theorem sameKey_held {table : Table} (row : Row table) :
    sameKey (row.held table) = sameKey row := by
  funext other
  unfold sameKey
  rw [Row.held_key]

theorem insert_ok {db db' : Db} {table : Table} {row : Row table}
    (inserted : db.insert table row = .ok db') :
    (db table).any (sameKey row) = false ∧ db.check table row = .ok () ∧
      db' = db.push table (row.held table) := by
  unfold insert at inserted
  split at inserted
  · cases inserted
  · rename_i fresh
    cases checked : db.check table row with
    | error error =>
      rw [checked] at inserted
      cases inserted
    | ok =>
      rw [checked] at inserted
      cases inserted
      exact ⟨Bool.eq_false_iff.mpr fresh, rfl, rfl⟩

/-- A new row that meets every constraint is inserted. -/
theorem insert_fits {db : Db} {table : Table} {row : Row table}
    (fresh : (db table).any (sameKey row) = false) (fits : row.fits table = true)
    (parents : db.parents table row = true)
    (distinct : ∀ other ∈ db table, Row.clash table other row = false) :
    db.insert table row = .ok (db.push table (row.held table)) := by
  have unique : ((db table).any fun other => !sameKey other row && Row.clash table other row) =
      false := by
    rw [List.any_eq_false]
    intro other member
    simp [distinct other member]
  simp [insert, check, fresh, fits, parents, unique]

theorem replace_ok {db db' : Db} {table : Table} {row : Row table}
    (replaced : db.replace table row = .ok db') :
    db.check table row = .ok () ∧ db' = db.put table (row.held table) := by
  unfold replace at replaced
  cases checked : db.check table row with
  | error error =>
    rw [checked] at replaced
    cases replaced
  | ok =>
    rw [checked] at replaced
    cases replaced
    exact ⟨rfl, rfl⟩

theorem update_ok {db db' : Db} {table : Table} {matching : Row table → Bool}
    {change : Row table → Row table} (updated : db.update table matching change = .ok db') :
    db' = db.set table ((db table).map fun row => if matching row then change row else row) := by
  unfold update at updated
  simp only at updated
  split at updated
  · cases updated
    rfl
  · cases updated

theorem insert_other {db db' : Db} {table other : Table} {row : Row table}
    (different : other ≠ table) (inserted : db.insert table row = .ok db') :
      db' other = db other := by
  rw [(insert_ok inserted).2.2]
  exact push_other db different _

theorem insertAll_other {table other : Table} (different : other ≠ table) :
    ∀ {rows : List (Row table)} {db db' : Db}, db.insertAll table rows = .ok db' →
      db' other = db other := by
  intro rows
  induction rows with
  | nil =>
    intro db db' inserted
    cases inserted
    rfl
  | cons row rows ih =>
    intro db db' inserted
    unfold insertAll at inserted
    cases first : db.insert table row with
    | error error =>
      rw [first] at inserted
      cases inserted
    | ok next =>
      rw [first] at inserted
      rw [ih inserted, insert_other different first]

/-- The rows are added behind those that are there. -/
theorem insertAll_rows {table : Table} :
    ∀ {rows : List (Row table)} {db db' : Db}, db.insertAll table rows = .ok db' →
      db' table = db table ++ rows.map (Row.held table) := by
  intro rows
  induction rows with
  | nil =>
    intro db db' inserted
    cases inserted
    exact (List.append_nil _).symm
  | cons row rows ih =>
    intro db db' inserted
    unfold insertAll at inserted
    cases first : db.insert table row with
    | error error =>
      rw [first] at inserted
      cases inserted
    | ok next =>
      rw [first] at inserted
      rw [ih inserted, (insert_ok first).2.2, push, set_same, List.append_assoc,
        List.singleton_append, List.map_cons]

/-- What a check refuses, it refuses with an error of the database. -/
theorem check_error {db : Db} {table : Table} {row : Row table} {error : Err}
    (refused : db.check table row = .error error) : ∃ message, error = .database message := by
  unfold check at refused
  split at refused
  · exact ⟨_, (Except.error.inj refused).symm⟩
  · split at refused
    · exact ⟨_, (Except.error.inj refused).symm⟩
    · split at refused
      · exact ⟨_, (Except.error.inj refused).symm⟩
      · cases refused

theorem insert_error {db : Db} {table : Table} {row : Row table} {error : Err}
    (refused : db.insert table row = .error error) : ∃ message, error = .database message := by
  unfold insert at refused
  split at refused
  · exact ⟨_, (Except.error.inj refused).symm⟩
  · cases checked : db.check table row with
    | error cause =>
      rw [checked] at refused
      exact check_error (checked.trans (congrArg _ (Except.error.inj refused)))
    | ok _ =>
      rw [checked] at refused
      cases refused

theorem insertAll_error {table : Table} {error : Err} :
    ∀ {rows : List (Row table)} {db : Db}, db.insertAll table rows = .error error →
      ∃ message, error = .database message := by
  intro rows
  induction rows with
  | nil =>
    intro db refused
    cases refused
  | cons row rows ih =>
    intro db refused
    unfold insertAll at refused
    cases first : db.insert table row with
    | error cause =>
      rw [first] at refused
      obtain rfl : cause = error := Except.error.inj refused
      exact insert_error first
    | ok next =>
      rw [first] at refused
      exact ih refused

theorem replace_other {db db' : Db} {table other : Table} {row : Row table}
    (different : other ≠ table) (replaced : db.replace table row = .ok db') :
    db' other = db other := by
  rw [(replace_ok replaced).2]
  exact put_other db different _

theorem erase_other (db : Db) {table other : Table} (different : other ≠ table)
    (gone : Row table → Bool) : db.erase table gone other = db other :=
  set_other db different _

/-- What checking a row establishes. -/
theorem check_ok {db : Db} {table : Table} {row : Row table}
    (checked : db.check table row = .ok ()) :
    row.fits table = true ∧ db.parents table row = true := by
  unfold check at checked
  split at checked
  · cases checked
  · rename_i fits
    split at checked
    · cases checked
    · rename_i parents
      exact ⟨by simpa using fits, by simpa using parents⟩

/-- A row that was checked clashes with no other. -/
theorem check_apart {db : Db} {table : Table} {row : Row table}
    (checked : db.check table row = .ok ())
    {other : Row table} (member : other ∈ db table) (different : sameKey other row = false) :
    Row.clash table other row = false := by
  unfold check at checked
  split at checked
  · cases checked
  · split at checked
    · cases checked
    · split at checked
      · cases checked
      · rename_i apart
        by_contra clash
        refine apart (List.any_eq_true.mpr ⟨other, member, ?_⟩)
        rw [different, Bool.not_false, Bool.true_and]
        exact Bool.of_not_eq_false clash

end Db

namespace Store

theorem commit_snd {α : Type} (store : Store) (value : α) (outcome : Except Err Db) :
    ∃ db, (store.commit value outcome).2 = { store with db := db } ∧
      (db = store.db ∨ outcome = .ok db) := by
  cases outcome with
  | error error => exact ⟨store.db, rfl, .inl rfl⟩
  | ok db => exact ⟨db, rfl, .inr rfl⟩

theorem register_snd (store : Store) (table : Table) (row : Row table) :
    ∃ owner, store.register table row = { store with owner := owner } := by
  cases table <;> exact ⟨_, rfl⟩

theorem insert_snd (store : Store) (input : Input) (table : Table)
    (draft : Option (Input → Row table)) :
    (store.insert input table draft).2 = store ∨
      ∃ draft' db owner, draft = some draft' ∧ store.db.insert table (draft' input) = .ok db ∧
        (store.insert input table draft).2 = { store with db := db, owner := owner } := by
  cases draft with
  | none => exact .inl rfl
  | some draft =>
    unfold insert
    cases inserted : store.db.insert table (draft input) with
    | error error => exact .inl (by simp only [inserted])
    | ok db =>
      obtain ⟨owner, registered⟩ := register_snd { store with db := db } table (draft input)
      exact .inr ⟨draft, db, owner, rfl, inserted, by simp only [inserted, registered]⟩

theorem insertBroadcast_snd (store : Store) (input : Input) (recipients : List (String × Record))
    (draft : Option (Input → Broadcast)) :
    (store.insertBroadcast input recipients draft).2 = store ∨
      ∃ draft' db db', draft = some draft' ∧
        store.db.insert .broadcasts (draft' input) = .ok db ∧
        db.insertAll .recipients (recipientRows input (draft' input).id 1 recipients) = .ok db' ∧
        (store.insertBroadcast input recipients draft).2 = { store with db := db' } := by
  cases draft with
  | none => exact .inl rfl
  | some draft =>
    unfold insertBroadcast
    cases inserted : store.db.insert .broadcasts (draft input) with
    | error error => exact .inl (by simp only [inserted])
    | ok db =>
      simp only [inserted]
      cases all : db.insertAll .recipients (recipientRows input (draft input).id 1 recipients) with
      | error error => exact .inl rfl
      | ok db' => exact .inr ⟨draft, db, db', rfl, inserted, all, rfl⟩

theorem insertAutomation_snd (store : Store) (input : Input) (actions : List ActionEntity)
    (draft : Option (Input → Automation)) :
    ∃ db owner, (store.insertAutomation input actions draft).2 =
        { store with db := db, owner := owner } ∧
      ∀ other, other ≠ .automations → other ≠ .actions → db other = store.db other := by
  cases draft with
  | none => exact ⟨store.db, store.owner, rfl, fun _ _ _ => rfl⟩
  | some draft =>
    unfold insertAutomation
    simp only
    cases inserted : store.db.insert .automations (draft input) with
    | error error => exact ⟨store.db, store.owner, rfl, fun _ _ _ => rfl⟩
    | ok db =>
      simp only
      cases all : db.insertAll .actions (actionRows input (draft input).id 1 actions) with
      | error error => exact ⟨store.db, _, rfl, fun _ _ _ => rfl⟩
      | ok db' =>
        refine ⟨db', _, rfl, fun other notAutomations notActions => ?_⟩
        rw [Db.insertAll_other notActions all, Db.insert_other notAutomations inserted]

/-- A request to an endpoint leaves the store alone. -/
theorem post_snd (store : Store) (input : Input) : (store.post input).2 = store := by
  unfold post
  split <;> rfl

/-- The two outcomes of a `save`. -/
theorem save_cases (store : Store) (table : Table) (entity : Entity (Row table)) :
    (∃ error, store.save table entity = (.error error, store)) ∨
    (∃ stored row, (store.db table).find? (Db.sameKey entity.row) = some stored ∧
      entity.onto stored = some row ∧ store.db.check table row = .ok () ∧
      store.save table entity =
        (.ok (), { store with db := store.db.put table (row.held table) })) ∨
    (∃ row, (store.db table).find? (Db.sameKey entity.row) = none ∧ entity.anew = some row ∧
      store.db.check table row = .ok () ∧
      store.save table entity =
        (.ok (), { store with db := store.db.push table (row.held table) })) := by
  unfold save
  cases stored : (store.db table).find? (Db.sameKey entity.row) with
  | some old =>
    dsimp only
    cases onto : entity.onto old with
    | none => exact .inl ⟨_, rfl⟩
    | some row =>
      dsimp only
      cases replaced : store.db.replace table row with
      | error error => exact .inl ⟨error, rfl⟩
      | ok db =>
        obtain ⟨checked, rfl⟩ := Db.replace_ok replaced
        exact .inr (.inl ⟨old, row, rfl, onto, checked, rfl⟩)
  | none =>
    dsimp only
    cases anew : entity.anew with
    | none => exact .inl ⟨_, rfl⟩
    | some row =>
      dsimp only
      cases inserted : store.db.insert table row with
      | error error => exact .inl ⟨error, rfl⟩
      | ok db =>
        obtain ⟨_, checked, rfl⟩ := Db.insert_ok inserted
        exact .inr (.inr ⟨row, rfl, rfl, checked, rfl⟩)

theorem save_snd (store : Store) (table : Table) (entity : Entity (Row table)) :
    ∃ db, (store.save table entity).2 = { store with db := db } ∧
      ∀ other, other ≠ table → db other = store.db other := by
  obtain ⟨error, failed⟩ | ⟨_, _, _, _, _, saved⟩ | ⟨_, _, _, _, saved⟩ :=
    store.save_cases table entity
  · exact ⟨store.db, by rw [failed], fun _ _ => rfl⟩
  · exact ⟨_, by rw [saved], fun _ different => Db.put_other _ different _⟩
  · exact ⟨_, by rw [saved], fun _ different => Db.push_other _ different _⟩

theorem putActions_other {carries : Uuid → Bool} : ∀ {rows : List AutomationAction} {db db' : Db},
    putActions carries db rows = .ok db' → ∀ other, other ≠ .actions → db' other = db other := by
  intro rows
  induction rows with
  | nil =>
    intro db db' put other _
    cases put
    rfl
  | cons row rows ih =>
    intro db db' put other different
    unfold putActions at put
    cases first : putAction carries db row with
    | error error =>
      rw [first] at put
      cases put
    | ok next =>
      rw [first] at put
      rw [ih put other different]
      unfold putAction at first
      split at first
      · exact Db.replace_other different first
      · exact Db.insert_other different first

theorem saveAutomation_snd (store : Store) (input : Input) (entity : Entity Automation)
    (actions : List ActionEntity) :
    ∃ db, (store.saveAutomation input entity actions).2 = { store with db := db } ∧
      ∀ other, other ≠ .automations → other ≠ .actions → db other = store.db other := by
  obtain ⟨written, same, others⟩ := store.save_snd .automations entity
  unfold saveAutomation
  simp only
  cases saved : store.save .automations entity with
  | mk result after =>
    rw [saved] at same
    simp only at same
    subst same
    cases result with
    | error error => exact ⟨store.db, rfl, fun _ _ _ => rfl⟩
    | ok =>
      simp only
      split
      · exact ⟨store.db, rfl, fun _ _ _ => rfl⟩
      · cases put : putActions (carries actions) written
            (actionRows input entity.row.id 0 actions) with
        | error error => exact ⟨store.db, rfl, fun _ _ _ => rfl⟩
        | ok db =>
          refine ⟨db, rfl, fun other notAutomations notActions => ?_⟩
          rw [putActions_other put other notActions, others other notAutomations]

end Store

theorem Db.remove_other (db : Db) {table other : Table} (row : Row table)
    (kept : (Call.remove table row).writes other = false) :
      db.remove table row other = db other := by
  cases table <;> simp only [Call.writes, Bool.or_eq_false_iff, beq_eq_false_iff_ne] at kept <;>
    simp only [Db.remove]
  case users | workspaces | broadcasts | automations =>
    rw [Db.erase_other _ kept.2, Db.erase_other _ kept.1]
  all_goals exact Db.erase_other _ kept _

/-- A performed call keeps the tables it does not write. -/
theorem perform_other (input : Input) (store : Store) (call : Call) {other : Table}
    (kept : call.writes other = false) :
      (perform input store call).2.db other = store.db other := by
  cases call with
  | find table matching => rfl
  | findStatus id => rfl
  | findAutomations matching => rfl
  | insert table draft =>
    simp only [Call.writes, beq_eq_false_iff_ne] at kept
    obtain same | ⟨_, db, _, _, inserted, same⟩ := store.insert_snd input table draft
    · exact congrArg (fun store => store.db other) same
    · exact (congrArg (fun store => store.db other) same).trans (Db.insert_other kept inserted)
  | insertBroadcast draft recipients =>
    simp only [Call.writes, Bool.or_eq_false_iff, beq_eq_false_iff_ne] at kept
    obtain same | ⟨_, db, db', _, inserted, all, same⟩ :=
      store.insertBroadcast_snd input recipients draft
    · exact congrArg (fun store => store.db other) same
    · refine (congrArg (fun store => store.db other) same).trans ?_
      exact (Db.insertAll_other kept.2 all).trans (Db.insert_other kept.1 inserted)
  | insertAutomation draft actions =>
    simp only [Call.writes, Bool.or_eq_false_iff, beq_eq_false_iff_ne] at kept
    obtain ⟨db, _, same, others⟩ := store.insertAutomation_snd input actions draft
    exact (congrArg (fun store => store.db other) same).trans (others other kept.1 kept.2)
  | save table entity =>
    simp only [Call.writes, beq_eq_false_iff_ne] at kept
    obtain ⟨db, same, others⟩ := store.save_snd table entity
    exact (congrArg (fun store => store.db other) same).trans (others other kept)
  | saveAutomation entity actions =>
    simp only [Call.writes, Bool.or_eq_false_iff, beq_eq_false_iff_ne] at kept
    obtain ⟨db, same, others⟩ := store.saveAutomation_snd input entity actions
    exact (congrArg (fun store => store.db other) same).trans (others other kept.1 kept.2)
  | remove table row => exact Db.remove_other store.db row kept
  | deleteActions automationId =>
    simp only [Call.writes, beq_eq_false_iff_ne] at kept
    exact Db.erase_other store.db kept _
  | update table matching change =>
    simp only [Call.writes, beq_eq_false_iff_ne] at kept
    obtain ⟨db, same, unchanged | updated⟩ :=
      store.commit_snd () (store.db.update table matching change)
    · exact (congrArg (fun store => store.db other) same).trans (congrFun unchanged other)
    · refine (congrArg (fun store => store.db other) same).trans ?_
      rw [Db.update_ok updated]
      exact Db.set_other store.db kept _
  | add job attempts delay => rfl
  | openwa call =>
    simp only [perform, Store.openwa]
    split <;> rfl
  | post request => exact congrArg (fun store : Store => store.db other) (store.post_snd input)
  | emit event => rfl
  | sleep ms => rfl
  | elsewhere change =>
    simp only [Call.writes, Bool.and_eq_false_iff, bne_eq_false_iff_eq] at kept
    obtain rfl | rfl := kept <;> rfl

/-- A call keeps the tables it does not write. -/
theorem exec_other (call : Call) (input : Input) (store : Store) {other : Table}
    (kept : call.writes other = false) : (exec call input store).2.db other = store.db other := by
  obtain ⟨_, _, _, failed⟩ | performed := exec_cases call input store
  · rw [failed]
  · rw [performed]
    exact perform_other input store call kept

/-! ### One table -/

/-- The two outcomes of an insert: an error that changes nothing, or a new row. -/
theorem exec_insert (table : Table) (draft : Option (Input → Row table)) (input : Input)
    (store : Store) :
    (∃ error, exec (.insert table draft) input store = (.error error, store)) ∨
    ∃ draft' owner, draft = some draft' ∧
      (store.db table).any (Db.sameKey (draft' input)) = false ∧
      exec (.insert table draft) input store =
        (.ok (draft' input),
          { store with
            db := store.db.push table ((draft' input).held table), owner := owner }) := by
  obtain ⟨_, _, _, failed⟩ | performed := exec_cases (.insert table draft) input store
  · exact .inl ⟨_, failed⟩
  rw [performed]
  cases draft with
  | none => exact .inl ⟨_, rfl⟩
  | some draft =>
    simp only [perform, Store.insert]
    cases inserted : store.db.insert table (draft input) with
    | error error => exact .inl ⟨error, rfl⟩
    | ok db =>
      obtain ⟨fresh, _, rfl⟩ := Db.insert_ok inserted
      obtain ⟨owner, registered⟩ := Store.register_snd
        { store with db := store.db.push table ((draft input).held table) } table (draft input)
      exact .inr ⟨draft, owner, rfl, fresh, congrArg (Prod.mk _) registered⟩

/-- The row an insert answers is stored, as its table keeps it. -/
theorem exec_insert_stored {table : Table} {draft : Option (Input → Row table)} {input : Input}
    {store : Store} {row : Row table}
    (replied : (exec (.insert table draft) input store).1 = .ok row) :
    row.held table ∈ (exec (.insert table draft) input store).2.db table := by
  obtain ⟨error, failed⟩ | ⟨draft, _, _, _, inserted⟩ := exec_insert table draft input store
  · rw [failed] at replied
    cases replied
  · rw [inserted] at replied ⊢
    obtain rfl := Except.ok.inj replied
    show (draft input).held table ∈ store.db.push table ((draft input).held table) table
    rw [Db.push, Db.set_same]
    exact List.mem_append_right _ List.mem_cons_self

/-- The two outcomes of an `UPDATE`. -/
theorem exec_update (table : Table) (matching : Row table → Bool) (change : Row table → Row table)
    (input : Input) (store : Store) :
    (∃ error, exec (.update table matching change) input store = (.error error, store)) ∨
    exec (.update table matching change) input store = (.ok (), { store with
      db := store.db.set table
        ((store.db table).map fun row => if matching row then change row else row) }) := by
  obtain ⟨_, _, _, failed⟩ | performed := exec_cases (.update table matching change) input store
  · exact .inl ⟨_, failed⟩
  rw [performed]
  simp only [perform]
  cases updated : store.db.update table matching change with
  | error error => exact .inl ⟨error, rfl⟩
  | ok db =>
    rw [Db.update_ok updated]
    exact .inr rfl

/-- What a `save` of an automation with its actions does, when it does not fail. -/
theorem exec_saveAutomation (entity : Entity Automation) (actions : List ActionEntity)
    (input : Input) (store : Store) :
    (∃ error, exec (.saveAutomation entity actions) input store = (.error error, store)) ∨
    ∃ db, Store.putActions (Store.carries actions) (store.save .automations entity).2.db
        (Store.actionRows input entity.row.id 0 actions) = .ok db ∧
      exec (.saveAutomation entity actions) input store =
        (.ok (Store.actionRows input entity.row.id 0 actions), { store with db := db }) := by
  obtain ⟨_, _, _, failed⟩ | performed :=
    exec_cases (.saveAutomation entity actions) input store
  · exact .inl ⟨_, failed⟩
  rw [performed]
  obtain ⟨written, same, _⟩ := store.save_snd .automations entity
  simp only [perform, Store.saveAutomation]
  cases saved : store.save .automations entity with
  | mk result after =>
    rw [saved] at same
    dsimp only at same
    subst same
    cases result with
    | error error => exact .inl ⟨_, rfl⟩
    | ok =>
      dsimp only
      split
      · exact .inl ⟨_, rfl⟩
      · cases put : Store.putActions (Store.carries actions) written
            (Store.actionRows input entity.row.id 0 actions) with
        | error error => exact .inl ⟨_, rfl⟩
        | ok db => exact .inr ⟨db, rfl, rfl⟩

/-- The automations after the `save` of one: unchanged, or what a `save` without its actions
leaves. -/
theorem exec_saveAutomation_rows (entity : Entity Automation) (actions : List ActionEntity)
    (input : Input) (store : Store) :
    (exec (.saveAutomation entity actions) input store).2.db .automations = store.db .automations ∨
      (exec (.saveAutomation entity actions) input store).2.db .automations =
        (store.save .automations entity).2.db .automations := by
  obtain ⟨_, failed⟩ | ⟨db, put, saved⟩ := exec_saveAutomation entity actions input store
  · exact .inl (by rw [failed])
  · rw [saved]
    exact .inr (Store.putActions_other put .automations nofun)

/-- The rows after the `save` of an entity with every column loaded: those before, and that one. -/
theorem exec_save_rows (table : Table) (row : Row table) (input : Input) (store : Store) :
    ∀ other ∈ (exec (.save table (.whole row)) input store).2.db table,
      other ∈ store.db table ∨ other = row.held table := by
  intro other member
  obtain ⟨_, _, _, failed⟩ | performed := exec_cases (.save table (.whole row)) input store
  · rw [failed] at member
    exact .inl member
  rw [performed] at member
  simp only [perform] at member
  obtain ⟨_, failed⟩ | ⟨_, written, _, onto, _, saved⟩ | ⟨written, _, anew, _, saved⟩ :=
    store.save_cases table (.whole row)
  · rw [failed] at member
    exact .inl member
  · cases onto
    rw [saved] at member
    simp only [Db.put, Db.set_same, Rows.mem_put] at member
    exact member.imp And.left And.left
  · cases anew
    rw [saved] at member
    simp only [Db.push, Db.set_same, List.mem_append, List.mem_singleton] at member
    exact member

/-! ### Queue and journal -/

/-- The call enqueues a job. -/
def Call.enqueues : Call → Bool
  | .add _ _ _ => true
  | _ => false

/-- The call shows something to the outside. -/
def Call.shows : Call → Bool
  | .openwa _ => true
  | .emit _ => true
  | .sleep _ => true
  | _ => false

/-- A call that neither enqueues nor shows anything changes the tables only. -/
theorem perform_tables (input : Input) (store : Store) (call : Call) (quiet : call.enqueues = false)
    (silent : call.shows = false) :
    ∃ db owner, (perform input store call).2 = { store with db := db, owner := owner } := by
  cases call with
  | insert table draft =>
    obtain same | ⟨_, db, owner, _, _, same⟩ := store.insert_snd input table draft
    · exact ⟨store.db, store.owner, same⟩
    · exact ⟨db, owner, same⟩
  | insertBroadcast draft recipients =>
    obtain same | ⟨_, _, db, _, _, _, same⟩ := store.insertBroadcast_snd input recipients draft
    · exact ⟨store.db, store.owner, same⟩
    · exact ⟨db, store.owner, same⟩
  | insertAutomation draft actions =>
    obtain ⟨db, owner, same, _⟩ := store.insertAutomation_snd input actions draft
    exact ⟨db, owner, same⟩
  | save table entity =>
    obtain ⟨db, same, _⟩ := store.save_snd table entity
    exact ⟨db, store.owner, same⟩
  | saveAutomation entity actions =>
    obtain ⟨db, same, _⟩ := store.saveAutomation_snd input entity actions
    exact ⟨db, store.owner, same⟩
  | update table matching change =>
    obtain ⟨db, same, _⟩ := store.commit_snd () (store.db.update table matching change)
    exact ⟨db, store.owner, same⟩
  | add job attempts delay => cases quiet
  | openwa call => cases silent
  | emit event => cases silent
  | sleep ms => cases silent
  | post request => exact ⟨store.db, store.owner, store.post_snd input⟩
  | _ => exact ⟨_, store.owner, rfl⟩

/-- A call other than `queue.add` keeps the queue. -/
theorem exec_queue (call : Call) (input : Input) (store : Store) (kept : call.enqueues = false) :
    (exec call input store).2.jobs = store.jobs ∧
      (exec call input store).2.jobIds = store.jobIds := by
  obtain ⟨_, _, _, failed⟩ | performed := exec_cases call input store
  · rw [failed]
    exact ⟨rfl, rfl⟩
  rw [performed]
  by_cases shows : call.shows = true
  · cases call with
    | openwa call =>
      simp only [perform, Store.openwa]
      split <;> exact ⟨rfl, rfl⟩
    | emit event => exact ⟨rfl, rfl⟩
    | sleep ms => exact ⟨rfl, rfl⟩
    | _ => cases shows
  · obtain ⟨_, _, same⟩ := perform_tables input store call kept (Bool.eq_false_iff.mpr shows)
    rw [same]
    exact ⟨rfl, rfl⟩

/-- A call that shows nothing keeps the journal. -/
theorem exec_journal (call : Call) (input : Input) (store : Store) (kept : call.shows = false) :
    (exec call input store).2.journal = store.journal := by
  obtain ⟨_, _, _, failed⟩ | performed := exec_cases call input store
  · rw [failed]
  rw [performed]
  by_cases enqueues : call.enqueues = true
  · cases call with
    | add job attempts delay => rfl
    | _ => cases enqueues
  · obtain ⟨_, _, same⟩ := perform_tables input store call (Bool.eq_false_iff.mpr enqueues) kept
    rw [same]

end WaAutomation
