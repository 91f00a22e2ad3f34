/-
**Isolation of the workspaces.**

A service call on behalf of a workspace is confined to it, one repository call after the other: the
guards and lookups ask for rows of the workspace, and what is written, deleted or looked up by an id
of its own afterwards is a row such a lookup has returned, or a new one.

* `isolated_own_bind` is the rule of a lookup: the row it finds is the workspace's own;
* `endpoint_isolated`: every endpoint, called with a workspace, is isolated;
* `isolation`: an outsider is turned away; everybody else changes no row of another workspace, and
  the outcome depends on users, memberships and the rows of the workspace only.
-/

import WaAutomation.Tenancy.Confinement
import WaAutomation.Tenancy.Guard
import WaAutomation.Broadcasts.System

set_option linter.unusedSectionVars false

namespace WaAutomation

open Library Program

namespace Isolation

/-! ### Calls that ask for rows of the workspace -/

/-- The call leaves the tables alone and shows rows of the workspace only. -/
def Scoped (w : Uuid) : Call → Prop
  | .find table matching => table.shared = true ∨
      table.parent = none ∧ ∀ row, matching row = true → Row.workspace table row = some w
  | .findAutomations matching => ∀ row, matching row = true → row.workspaceId = w
  | .add _ _ _ => True
  | .openwa _ => True
  | .emit _ => True
  | _ => False

/-- A program on its own, whose calls stay inside the workspace. -/
def around (w : Uuid) (fresh : Uuid → Prop) : Surroundings Input Call Store :=
  alone (fun input => ∀ number, fresh (input.ids number)) (Confined w)

/-- Every call of the program stays inside the workspace. -/
def Isolated {α : Type} (w : Uuid) (fresh : Uuid → Prop) (store : Store) (program : Svc α) : Prop :=
  program.Safe exec (around w fresh) (fun _ _ => True) store

section Rules

variable {w : Uuid} {fresh : Uuid → Prop} {store : Store} {α β : Type}

theorem scoped_confined {call : Call} (asks : Scoped w call) (input : Input) (store : Store) :
    Confined w call input store ∧ (exec call input store).2.db = store.db := by
  constructor
  · cases call with
    | find table matching =>
      refine find_confined fun row _ hit => ?_
      rcases asks with shared | ⟨root, inside⟩
      · rw [Db.sees, shared, Bool.true_or]
      · refine Db.sees_of_owns ?_
        rw [Db.owns_root root, beq_iff_eq]
        exact inside row hit
    | findAutomations matching => exact findAutomations_confined fun row _ hit => asks row hit
    | add job attempts delay => exact add_confined job attempts delay
    | openwa call => exact openwa_confined call
    | emit event => exact emit_confined event
    | _ => cases asks
  · funext table
    refine exec_other call input store ?_
    cases call <;> first | rfl | cases asks

theorem frames : Frames exec (around w fresh) Store.db (Scoped w) := by
  rintro call asks store _ input ⟨rfl, _⟩
  exact scoped_confined asks input _

theorem isolated_scoped {program : Svc α} (calls : program.Calls (Scoped w)) :
    Isolated w fresh store program :=
  safe_mono (fun _ _ _ => trivial) (safe_stable (stable_of_frames frames store) calls rfl)

theorem isolated_scoped_bind {program : Svc α} {rest : α → Svc β} (calls : program.Calls (Scoped w))
    (continues : ∀ value store', store'.db = store.db → Isolated w fresh store' (rest value)) :
    Isolated w fresh store (program >>= rest) :=
  safe_frame_bind frames calls (fun _ _ _ => trivial) continues

/-- **The rule of a lookup of one row of the workspace.** -/
theorem isolated_own_bind {table : Table} {matching : Row table → Bool}
    (written : table.written = true) (root : table.parent = none)
    (inside : ∀ row, matching row = true → Row.workspace table row = some w)
    {rest : Option (Row table) → Svc β}
    (missing : ∀ store', store'.db = store.db → Isolated w fresh store' (rest none))
    (found : ∀ row store', store'.db = store.db → Own w store' table row → matching row = true →
      Isolated w fresh store' (rest (some row))) :
    Isolated w fresh store (Svc.findOne table matching >>= rest) := by
  refine safe_findOne_bind (stable_of_frames frames store) (.inr ⟨root, inside⟩) rfl
    (fun _ _ _ => trivial) fun store' same => ?_
  cases is_found : (store'.db table).find? matching with
  | none => exact missing store' same
  | some row =>
    have hit := List.find?_some is_found
    exact found row store' same
      ⟨written, root, List.mem_of_find?_eq_some is_found, inside row hit⟩ hit

/-- The rule of a call that stays inside. -/
theorem isolated_call_bind {call : Call} {rest : Resp call → Svc β}
    (holds : ∀ input, (∀ number, fresh (input.ids number)) → Confined w call input store ∧
      ∀ value, (exec call input store).1 = .ok value →
        Isolated w fresh (exec call input store).2 (rest value)) :
    Isolated w fresh store (Svc.call call >>= rest) := by
  refine safe_bind (safe_perform ?_)
  rintro store' input ⟨rfl, admitted⟩
  obtain ⟨confined, continues⟩ := holds input admitted
  refine ⟨confined, ?_⟩
  cases reply : (exec call input store').1 with
  | ok value => exact continues value reply
  | error error => trivial

/-- The rule of a last call. -/
theorem isolated_call {call : Call}
    (holds : ∀ input, (∀ number, fresh (input.ids number)) → Confined w call input store) :
    Isolated w fresh store (Svc.call call) := by
  refine safe_perform ?_
  rintro _ input ⟨rfl, admitted⟩
  exact ⟨holds input admitted, trivial⟩

theorem own_same {store' : Store} {table : Table} {row : Row table}
    (same : store'.db = store.db) (own : Own w store table row) : Own w store' table row :=
  ⟨own.written, own.root, same ▸ own.stored, own.owner⟩

end Rules

/-! ### Guards and lookups -/

section Lookups

variable {w uid : Uuid} {fresh : Uuid → Prop} {store : Store} {β : Type}

theorem inside_where {table : Table} {column : Row table → Uuid}
    (names : ∀ row, Row.workspace table row = some (column row)) {rest : Row table → Bool} :
    ∀ row, (rest row && Svc.whereIs (some w) (column row)) = true →
      Row.workspace table row = some w := by
  intro row hit
  rw [names, beq_iff_eq.mp (Bool.and_eq_true_iff.mp hit).2]

theorem assertMember_scoped (uid : Uuid) :
    (WorkspacesService.assertMember (some w) uid).Calls (Scoped w) := by
  refine calls_bind (calls_findOne (.inl rfl)) fun found => ?_
  cases found <;> trivial

theorem assertRole_scoped (uid : Uuid) (roles : List String) :
    (WorkspacesService.assertRole (some w) uid roles).Calls (Scoped w) := by
  refine calls_bind (assertMember_scoped uid) fun member => ?_
  split <;> trivial

theorem getOpenwaCredentials_scoped (h : Helpers) :
    (WorkspacesService.getOpenwaCredentials h (some w)).Calls (Scoped w) := by
  refine calls_bind (calls_findOne (.inr ⟨rfl, fun row hit => ?_⟩)) fun found => ?_
  · exact congrArg some (beq_iff_eq.mp hit)
  · cases found with
    | none => trivial
    | some workspace => exact calls_bind (calls_lift _) fun _ => trivial

theorem openwa_scoped {creds : OpenwaCredentials} {method : OpenwaMethod} {session : SessionRef}
    {recipient : Option RecipientRef} :
    (OpenwaService.call creds method session recipient).Calls (Scoped w) :=
  OpenwaService.call_calls trivial

theorem resolvePhones_scoped (contactIds : List Uuid) :
    (ContactsService.resolvePhones (some w) contactIds).Calls (Scoped w) := by
  unfold ContactsService.resolvePhones
  split
  · trivial
  · refine calls_bind (calls_call (.inr ⟨rfl, fun row hit => ?_⟩)) fun _ => trivial
    exact congrArg some (beq_iff_eq.mp (Bool.and_eq_true_iff.mp hit).1)

/-- The lookups by id and workspace, one after the membership check. -/
theorem isolated_find_bind {table : Table} {column : Row table → Uuid}
    (written : table.written = true) (root : table.parent = none)
    (names : ∀ row, Row.workspace table row = some (column row)) {is_id : Row table → Bool}
    {rest : Option (Row table) → Svc β}
    (missing : ∀ store', store'.db = store.db → Isolated w fresh store' (rest none))
    (found : ∀ row store', store'.db = store.db → Own w store' table row → is_id row = true →
      Isolated w fresh store' (rest (some row))) :
    Isolated w fresh store
      (Svc.findOne table (fun row => is_id row && Svc.whereIs (some w) (column row)) >>= rest) :=
  isolated_own_bind written root (inside_where names) missing fun row store' same own hit =>
    found row store' same own (Bool.and_eq_true_iff.mp hit).1

theorem session_bind {id : Uuid} {rest : Session → Svc β}
    (found : ∀ row store', store'.db = store.db → Own w store' .sessions row → row.id = id →
      Isolated w fresh store' (rest row)) :
    Isolated w fresh store (SessionsService.findOne id (some w) uid >>= rest) := by
  unfold SessionsService.findOne
  simp only [Program.bind_assoc]
  refine isolated_scoped_bind (assertMember_scoped uid) fun _ _ same => ?_
  refine isolated_find_bind rfl rfl (fun _ => rfl) (fun _ _ => trivial)
    fun row store' same' own hit => ?_
  exact found row store' (same'.trans same) own (beq_iff_eq.mp hit)

theorem contact_bind {id : Uuid} {rest : Contact → Svc β}
    (found : ∀ row store', store'.db = store.db → Own w store' .contacts row →
      Isolated w fresh store' (rest row)) :
    Isolated w fresh store (ContactsService.findOne id (some w) uid >>= rest) := by
  unfold ContactsService.findOne
  simp only [Program.bind_assoc]
  refine isolated_scoped_bind (assertMember_scoped uid) fun _ _ same => ?_
  refine isolated_find_bind rfl rfl (fun _ => rfl) (fun _ _ => trivial)
    fun row store' same' own _ => ?_
  exact found row store' (same'.trans same) own

theorem group_bind {id : Uuid} {rest : ContactGroup → Svc β}
    (found : ∀ row store', store'.db = store.db → Own w store' .groups row →
      Isolated w fresh store' (rest row)) :
    Isolated w fresh store (ContactsService.findGroup id (some w) >>= rest) := by
  unfold ContactsService.findGroup
  simp only [Program.bind_assoc]
  refine isolated_find_bind rfl rfl (fun _ => rfl) (fun _ _ => trivial)
    fun row store' same own _ => ?_
  exact found row store' same own

theorem broadcast_bind {id : Uuid} {rest : Broadcast → Svc β}
    (found : ∀ row store', store'.db = store.db → Own w store' .broadcasts row → row.id = id →
      Isolated w fresh store' (rest row)) :
    Isolated w fresh store (BroadcastsService.findOne id (some w) uid >>= rest) := by
  unfold BroadcastsService.findOne
  simp only [Program.bind_assoc]
  refine isolated_scoped_bind (assertMember_scoped uid) fun _ _ same => ?_
  refine isolated_find_bind rfl rfl (fun _ => rfl) (fun _ _ => trivial)
    fun row store' same' own hit => ?_
  exact found row store' (same'.trans same) own (beq_iff_eq.mp hit)

theorem webhook_bind {id : Uuid} {rest : Webhook → Svc β}
    (found : ∀ row store', store'.db = store.db → Own w store' .webhooks row → row.id = id →
      Isolated w fresh store' (rest row)) :
    Isolated w fresh store (WebhooksService.findOne id (some w) uid >>= rest) := by
  unfold WebhooksService.findOne
  simp only [Program.bind_assoc]
  refine isolated_scoped_bind (assertMember_scoped uid) fun _ _ same => ?_
  refine isolated_find_bind rfl rfl (fun _ => rfl) (fun _ _ => trivial)
    fun row store' same' own hit => ?_
  exact found row store' (same'.trans same) own (beq_iff_eq.mp hit)

theorem automation_bind {id : Uuid} {rest : LoadedAutomation → Svc β}
    (found : ∀ row actions store', store'.db = store.db → Own w store' .automations row →
      row.id = id → OwnActions store' id (actions.map .loaded) →
        Isolated w fresh store' (rest (row, actions))) :
    Isolated w fresh store (AutomationsService.findOne id (some w) uid >>= rest) := by
  unfold AutomationsService.findOne
  simp only [Program.bind_assoc]
  refine isolated_scoped_bind (assertMember_scoped uid) fun _ store' same => ?_
  have inside : Scoped w (.findAutomations fun automation =>
      automation.id == id && Svc.whereIs (some w) automation.workspaceId) :=
    fun row hit => beq_iff_eq.mp (Bool.and_eq_true_iff.mp hit).2
  refine isolated_call_bind fun input _ => ⟨(scoped_confined inside input store').1,
    fun rows reply => ?_⟩
  have left := (scoped_confined inside input store').2
  obtain ⟨_, _, _, failed⟩ | performed := exec_cases (.findAutomations fun automation =>
    automation.id == id && Svc.whereIs (some w) automation.workspaceId) input store'
  · rw [failed] at reply
    cases reply
  · rw [performed] at reply
    have is_rows := Except.ok.inj reply
    cases rows with
    | nil => trivial
    | cons first others =>
      obtain ⟨row, listed, is_first⟩ : ∃ row ∈ (store'.db .automations).filter fun automation =>
          automation.id == id && Svc.whereIs (some w) automation.workspaceId,
          (row, (store'.db .actions).filter fun action => action.automationId == row.id) = first :=
        List.mem_map.mp (is_rows ▸ List.mem_cons_self)
      obtain ⟨stored, hit⟩ := List.mem_filter.mp listed
      have has_id : row.id = id := beq_iff_eq.mp (Bool.and_eq_true_iff.mp hit).1
      subst is_first
      refine found row _ _ (left.trans same) (own_same left
        ⟨rfl, rfl, stored, congrArg some (inside row hit)⟩) has_id fun action loaded => ?_
      obtain ⟨other, member, is_other⟩ := List.mem_map.mp loaded
      cases is_other
      obtain ⟨stored_action, names⟩ := List.mem_filter.mp member
      exact ⟨left ▸ stored_action, (beq_iff_eq.mp names).trans has_id⟩

end Lookups

/-! ### Programs that only ask -/

section Readers

variable {w uid : Uuid}

/-- A query for the rows of the workspace. -/
theorem find_scoped {table : Table} {matching : Row table → Bool} (root : table.parent = none)
    (inside : ∀ row, matching row = true → Row.workspace table row = some w) :
    (Svc.find table matching).Calls (Scoped w) :=
  calls_call (.inr ⟨root, inside⟩)

theorem count_scoped {table : Table} {matching : Row table → Bool} (root : table.parent = none)
    (inside : ∀ row, matching row = true → Row.workspace table row = some w) :
    (AnalyticsService.count table matching).Calls (Scoped w) :=
  calls_bind (find_scoped root inside) fun _ => trivial

/-- A lookup by id and workspace. -/
theorem lookup_scoped {table : Table} {column : Row table → Uuid} {is_id : Row table → Bool}
    (root : table.parent = none) (names : ∀ row, Row.workspace table row = some (column row)) :
    (Svc.findOne table fun row => is_id row && Svc.whereIs (some w) (column row)).Calls
      (Scoped w) :=
  calls_findOne (.inr ⟨root, inside_where names⟩)

theorem between_inside {start stop : Time} (rest : MessageLog → Bool) :
    ∀ row, (AnalyticsService.between (some w) start stop row && rest row) = true →
      Row.workspace .logs row = some w := by
  intro row hit
  simp only [AnalyticsService.between, Svc.whereIs, Bool.and_eq_true, beq_iff_eq] at hit
  exact congrArg some hit.1.1.1

theorem session_scoped (id : Uuid) :
    (SessionsService.findOne id (some w) uid).Calls (Scoped w) := by
  refine calls_bind (assertMember_scoped uid) fun _ => ?_
  refine calls_bind (lookup_scoped rfl fun _ => rfl) fun found => ?_
  cases found <;> trivial

theorem contact_scoped (id : Uuid) :
    (ContactsService.findOne id (some w) uid).Calls (Scoped w) := by
  refine calls_bind (assertMember_scoped uid) fun _ => ?_
  refine calls_bind (lookup_scoped rfl fun _ => rfl) fun found => ?_
  cases found <;> trivial

theorem broadcast_scoped (id : Uuid) :
    (BroadcastsService.findOne id (some w) uid).Calls (Scoped w) := by
  refine calls_bind (assertMember_scoped uid) fun _ => ?_
  refine calls_bind (lookup_scoped rfl fun _ => rfl) fun found => ?_
  cases found <;> trivial

theorem webhook_scoped (id : Uuid) :
    (WebhooksService.findOne id (some w) uid).Calls (Scoped w) := by
  refine calls_bind (assertMember_scoped uid) fun _ => ?_
  refine calls_bind (lookup_scoped rfl fun _ => rfl) fun found => ?_
  cases found <;> trivial

theorem automation_scoped (id : Uuid) :
    (AutomationsService.findOne id (some w) uid).Calls (Scoped w) := by
  refine calls_bind (assertMember_scoped uid) fun _ => ?_
  refine calls_bind (calls_call fun row hit => ?_) fun rows => ?_
  · exact beq_iff_eq.mp (Bool.and_eq_true_iff.mp hit).2
  · cases rows.head? <;> trivial

end Readers

/-! ### Programs that write -/

section Writers

variable {w uid : Uuid} {fresh : Uuid → Prop} {store : Store} {α β : Type} {table : Table}

theorem tidy_same {store' : Store} (same : store'.db = store.db)
    (tidy : Db.Tidy w fresh store.db) : Db.Tidy w fresh store'.db :=
  same ▸ tidy

/-- The rule of an insert for the workspace. -/
theorem isolated_insert_bind (tidy : Db.Tidy w fresh store.db) (written : table.written = true)
    (root : table.parent = none) {draft : Input → Row table} {rest : Row table → Svc β}
    (owner : ∀ input, Row.workspace table (draft input) = some w)
    (key : ∀ input, (Row.key table (draft input)).1 = input.ids 0)
    (continues : ∀ row store', Db.Tidy w fresh store'.db → Isolated w fresh store' (rest row)) :
    Isolated w fresh store (Svc.call (.insert table (some draft)) >>= rest) := by
  refine isolated_call_bind fun input admitted => ?_
  have owned : store.db.owns w table (draft input) = true := by
    rw [Db.owns_root root, beq_iff_eq]
    exact owner input
  obtain ⟨confined, tidy'⟩ := insert_confined tidy written owned (key input ▸ admitted 0)
  exact ⟨confined, fun row _ => continues row _ tidy'⟩

/-- An insert at the end. -/
theorem isolated_insert (tidy : Db.Tidy w fresh store.db) (written : table.written = true)
    (root : table.parent = none) {draft : Input → Row table}
    (owner : ∀ input, Row.workspace table (draft input) = some w)
    (key : ∀ input, (Row.key table (draft input)).1 = input.ids 0) :
    Isolated w fresh store (Svc.call (.insert table (some draft))) := by
  refine isolated_call fun input admitted => ?_
  have owned : store.db.owns w table (draft input) = true := by
    rw [Db.owns_root root, beq_iff_eq]
    exact owner input
  exact (insert_confined tidy written owned (key input ▸ admitted 0)).1

/-- The rule of a save over a row of the workspace. -/
theorem isolated_save_bind {old : Row table} (own : Own w store table old)
    (tidy : Db.Tidy w fresh store.db) {entity : Entity (Row table)} {rest : Unit → Svc β}
    (same : Row.key table old = Row.key table entity.row)
    (loyal : ∀ row, entity.onto old = some row →
      Row.key table row = Row.key table old ∧ Row.workspace table row = some w)
    (continues : ∀ row store', Row.key table row = Row.key table old → Own w store' table row →
      Db.Tidy w fresh store'.db → Isolated w fresh store' (rest ())) :
    Isolated w fresh store (Svc.call (.save table entity) >>= rest) := by
  refine isolated_call_bind fun input _ => ?_
  obtain ⟨confined, tidy', row, key, own'⟩ := save_confined own tidy same loyal
  exact ⟨confined, fun _ _ => continues row _ key own' tidy'⟩

/-- The save of a loaded row whose id and workspace are kept. -/
theorem isolated_whole_bind {old row : Row table} (own : Own w store table old)
    (tidy : Db.Tidy w fresh store.db) {rest : Unit → Svc β}
    (same : Row.key table row = Row.key table old)
    (owner : Row.workspace table row = Row.workspace table old)
    (continues : ∀ row store', Row.key table row = Row.key table old → Own w store' table row →
      Db.Tidy w fresh store'.db → Isolated w fresh store' (rest ())) :
    Isolated w fresh store (Svc.save table row >>= rest) := by
  refine isolated_save_bind own tidy same.symm (fun other is_other => ?_) continues
  cases is_other
  exact ⟨same, owner.trans own.owner⟩

/-- The rule of the removal of a row of the workspace, at the end. -/
theorem isolated_remove {row : Row table} (own : Own w store table row)
    (tidy : Db.Tidy w fresh store.db) (value : α) :
    Isolated w fresh store (Svc.remove table row >>= fun _ => Program.ret value) :=
  isolated_call_bind fun _ _ => ⟨remove_confined own tidy, fun _ _ => trivial⟩

/-- The lookup of an own row by its id alone. -/
theorem isolated_find_own {row : Row table} (own : Own w store table row)
    (tidy : Db.Tidy w fresh store.db) {matching : Row table → Bool}
    (pins : ∀ other, matching other = true → Row.key table other = Row.key table row) :
    Isolated w fresh store (Svc.findOne table matching) := by
  refine isolated_call_bind fun input _ => ⟨find_confined fun other member hit => ?_,
    fun _ _ => trivial⟩
  rw [Rows.unique (tidy.keyed table) member own.stored (pins other hit)]
  exact Db.sees_of_owns own.owned

/-- The lookup of the children of an own row. -/
theorem isolated_children_bind {parent : Table} {above : Row parent}
    (own : Own w store parent above) (is_parent : table.parent = some parent)
    {matching : Row table → Bool}
    (pins : ∀ row, matching row = true →
      Row.parentId table row = some (Row.key parent above).1)
    {rest : List (Row table) → Svc β}
    (continues : ∀ rows store', Isolated w fresh store' (rest rows)) :
    Isolated w fresh store (Svc.find table matching >>= rest) := by
  refine isolated_call_bind fun input _ => ⟨find_confined fun row _ hit => ?_,
    fun rows _ => continues rows _⟩
  exact Db.sees_of_owns ((Db.owns_child is_parent).mpr ⟨above, own.stored, pins row hit, own.owner⟩)

/-! #### Contacts -/

theorem updateContact_isolated (id : Uuid) (dto : UpdateContactDto)
    (tidy : Db.Tidy w fresh store.db) :
    Isolated w fresh store (ContactsService.update id (some w) uid dto) := by
  refine contact_bind fun row store' same own => ?_
  refine isolated_save_bind own (tidy_same same tidy) rfl (fun other assigned => ?_)
    fun _ _ _ _ _ => trivial
  obtain ⟨has_id, home⟩ := ContactsService.assign_keeps assigned
  exact ⟨congrArg (·, "") has_id, (congrArg some home).trans own.owner⟩

theorem importRow_bind (reply : ImportReply) (given : CsvContactRow)
    (tidy : Db.Tidy w fresh store.db) {rest : ImportReply → Svc β}
    (continues : ∀ reply store', Db.Tidy w fresh store'.db →
      Isolated w fresh store' (rest reply)) :
    Isolated w fresh store (ContactsService.importRow (some w) reply given >>= rest) := by
  unfold ContactsService.importRow
  dsimp only
  split
  · exact continues _ _ tidy
  · rw [Program.bind_assoc]
    refine isolated_own_bind rfl rfl (fun row hit => ?_) (fun store' same => ?_)
      fun row store' same own _ => ?_
    · exact congrArg some (beq_iff_eq.mp (Bool.and_eq_true_iff.mp hit).1)
    · dsimp only
      rw [Program.bind_assoc]
      exact isolated_insert_bind (tidy_same same tidy) rfl rfl (fun _ => rfl) (fun _ => rfl)
        fun _ _ tidy' => continues _ _ tidy'
    · dsimp only
      rw [Program.bind_assoc]
      exact isolated_whole_bind own (tidy_same same tidy) rfl rfl
        fun _ _ _ _ tidy' => continues _ _ tidy'

/-- Every row of an import finds a tidy database, and leaves one. -/
theorem importRows_isolated : ∀ (rows : List CsvContactRow) (reply : ImportReply) (store : Store),
    Db.Tidy w fresh store.db →
      Isolated w fresh store (ContactsService.importRows (some w) reply rows) := by
  intro rows
  induction rows with
  | nil => exact fun _ _ _ => trivial
  | cons first rest ih =>
    exact fun reply _ tidy => importRow_bind reply first tidy fun reply store' => ih reply store'

/-- An update of a group keeps its id and its workspace. -/
theorem assignGroup_onto {group stored other : ContactGroup} {dto : UpdateContactGroupDto}
    (onto : (ContactsService.assignGroup group dto).onto stored = some other) :
    other.id = group.id ∧ other.workspaceId = group.workspaceId := by
  simp only [ContactsService.assignGroup] at onto
  split at onto
  · cases onto
    exact ⟨rfl, rfl⟩
  · cases onto

theorem assignGroup_row (group : ContactGroup) (dto : UpdateContactGroupDto) :
    (ContactsService.assignGroup group dto).row.id = group.id := by
  simp only [ContactsService.assignGroup]
  split <;> rfl

theorem updateGroup_isolated (id : Uuid) (dto : UpdateContactGroupDto)
    (tidy : Db.Tidy w fresh store.db) :
    Isolated w fresh store (ContactsService.updateGroup id (some w) uid dto) := by
  refine isolated_scoped_bind (assertMember_scoped uid) fun _ _ same => ?_
  refine group_bind fun row store' same' own => ?_
  have key (other : ContactGroup) (has_id : other.id = row.id) :
      Row.key .groups other = Row.key .groups row :=
    congrArg (fun id => (id, "")) has_id
  refine isolated_save_bind own (tidy_same (same'.trans same) tidy)
    (key _ (assignGroup_row row dto)).symm (fun other onto => ?_) fun _ _ _ _ _ => trivial
  obtain ⟨has_id, home⟩ := assignGroup_onto onto
  exact ⟨key other has_id, (congrArg some home).trans own.owner⟩

/-! #### Sessions -/

theorem updateSession_isolated (id : Uuid) (dto : UpdateSessionDto)
    (tidy : Db.Tidy w fresh store.db) :
    Isolated w fresh store (SessionsService.update id (some w) uid dto) := by
  refine session_bind fun row store' same own _ => ?_
  have tidy' := tidy_same same tidy
  unfold SessionsService.assign
  cases dto.name with
  | undefined =>
    refine isolated_save_bind own tidy' rfl (fun _ onto => ?_) fun _ _ _ _ _ => trivial
    cases onto
    exact ⟨rfl, own.owner⟩
  | null =>
    exact isolated_save_bind own tidy' rfl (fun _ onto => by cases onto)
      fun _ _ _ _ _ => trivial
  | value name =>
    refine isolated_save_bind own tidy' rfl (fun _ onto => ?_) fun _ _ _ _ _ => trivial
    cases onto
    exact ⟨rfl, own.owner⟩

/-- The rule of a status change. -/
theorem setStatus_bind {session : Session} (own : Own w store .sessions session)
    (tidy : Db.Tidy w fresh store.db) (status : SessionStatus) (phone : Field String)
    {rest : Session → Svc β}
    (continues : ∀ row session' store', row.id = session.id → Own w store' .sessions row →
      Db.Tidy w fresh store'.db → Isolated w fresh store' (rest session')) :
    Isolated w fresh store (SessionsService.setStatus session status phone >>= rest) := by
  unfold SessionsService.setStatus
  simp only [Program.bind_assoc]
  refine safe_now fun now => ?_
  refine isolated_whole_bind own tidy rfl rfl fun row store' key own' tidy' => ?_
  refine isolated_scoped_bind (calls_call trivial) fun _ store'' same => ?_
  exact continues row _ _ (Prod.mk.inj key).1 (own_same same own') (tidy_same same tidy')

/-- The session is looked up again by its id alone. -/
theorem session_again {id : Uuid} {row : Session} (own : Own w store .sessions row)
    (tidy : Db.Tidy w fresh store.db) (has_id : row.id = id) :
    Isolated w fresh store (Svc.findOne .sessions fun session => session.id == id) :=
  isolated_find_own own tidy fun _ hit =>
    congrArg (fun id => (id, "")) ((beq_iff_eq.mp hit).trans has_id.symm)

theorem startSession_isolated (h : Helpers) (id : Uuid) (tidy : Db.Tidy w fresh store.db) :
    Isolated w fresh store (SessionsService.start h id (some w) uid) := by
  refine session_bind fun row store₁ same own has_id => ?_
  refine isolated_scoped_bind (getOpenwaCredentials_scoped h) fun creds store₂ same' => ?_
  refine setStatus_bind (own_same same' own) (tidy_same (same'.trans same) tidy) _ _
    fun row' session store₃ has_id' own' tidy' => ?_
  refine isolated_scoped_bind openwa_scoped fun _ store₄ same'' => ?_
  exact session_again (own_same same'' own') (tidy_same same'' tidy') (has_id'.trans has_id)

theorem stopSession_isolated (h : Helpers) (id : Uuid) (tidy : Db.Tidy w fresh store.db) :
    Isolated w fresh store (SessionsService.stop h id (some w) uid) := by
  refine session_bind fun row store₁ same own has_id => ?_
  refine isolated_scoped_bind (getOpenwaCredentials_scoped h) fun creds store₂ same' => ?_
  refine isolated_scoped_bind openwa_scoped fun _ store₃ same'' => ?_
  refine setStatus_bind (own_same (same''.trans same') own)
    (tidy_same (same''.trans (same'.trans same)) tidy) _ _
      fun row' session store₄ has_id' own' tidy' => ?_
  exact session_again own' tidy' (has_id'.trans has_id)

theorem sessionQr_isolated (h : Helpers) (id : Uuid) :
    Isolated w fresh store (SessionsService.getQr h id (some w) uid) := by
  refine isolated_scoped (calls_bind (session_scoped id) fun session =>
    calls_bind (getOpenwaCredentials_scoped h) fun creds => calls_bind openwa_scoped fun res => ?_)
  split
  · trivial
  · exact calls_bind (calls_call trivial) fun _ => trivial

theorem sessionStatus_isolated (h : Helpers) (id : Uuid) (tidy : Db.Tidy w fresh store.db) :
    Isolated w fresh store (SessionsService.getStatus h id (some w) uid) := by
  refine session_bind fun row store₁ same own _ => ?_
  refine isolated_scoped_bind (getOpenwaCredentials_scoped h) fun creds store₂ same' => ?_
  refine isolated_scoped_bind (calls_attempt openwa_scoped) fun res store₃ same'' => ?_
  dsimp only
  split
  · trivial
  · split
    · trivial
    · exact setStatus_bind (own_same (same''.trans same') own)
        (tidy_same (same''.trans (same'.trans same)) tidy) _ _ fun _ _ _ _ _ _ => trivial

theorem removeSession_isolated (h : Helpers) (id : Uuid) (tidy : Db.Tidy w fresh store.db) :
    Isolated w fresh store (SessionsService.remove h id (some w) uid) := by
  refine isolated_scoped_bind (assertRole_scoped uid _) fun _ store₁ same => ?_
  refine session_bind fun row store₂ same' own _ => ?_
  refine isolated_scoped_bind (getOpenwaCredentials_scoped h) fun creds store₃ same'' => ?_
  refine isolated_scoped_bind (calls_attempt openwa_scoped) fun _ store₄ last => ?_
  exact isolated_remove (own_same (last.trans same'') own)
    (tidy_same (last.trans (same''.trans (same'.trans same))) tidy) _

/-! #### Broadcasts -/

theorem createBroadcast_isolated (h : Helpers) (dto : CreateBroadcastDto)
    (tidy : Db.Tidy w fresh store.db) :
    Isolated w fresh store (BroadcastsService.create h (some w) uid dto) := by
  refine isolated_scoped_bind (assertRole_scoped uid _) fun _ store₁ same => ?_
  refine isolated_scoped_bind (session_scoped _) fun session store₂ same' => ?_
  refine isolated_scoped_bind (resolvePhones_scoped _) fun contacts store₃ same'' => ?_
  dsimp only
  split
  · trivial
  · exact isolated_call fun input admitted => insertBroadcast_confined
      (tidy_same (same''.trans (same'.trans same)) tidy) _ rfl (admitted 0) admitted

theorem updateBroadcast_isolated (id : Uuid) (dto : UpdateBroadcastDto)
    (tidy : Db.Tidy w fresh store.db) :
    Isolated w fresh store (BroadcastsService.update id (some w) uid dto) := by
  refine isolated_scoped_bind (assertRole_scoped uid _) fun _ store₁ same => ?_
  refine broadcast_bind fun row store₂ same' own _ => ?_
  split
  · trivial
  · have edited (other : Broadcast) (is_edit : Edited row other) :
        Row.key .broadcasts other = Row.key .broadcasts row ∧
          Row.workspace .broadcasts other = some w := by
      have home := own.owner
      rw [Edited] at is_edit
      rw [is_edit]
      exact ⟨rfl, home⟩
    exact isolated_save_bind own (tidy_same (same'.trans same) tidy)
      (edited _ (assign_row row dto)).1.symm (fun other onto => edited other (assign_over onto))
      fun _ _ _ _ _ => trivial

theorem sendBroadcast_isolated (id : Uuid) (tidy : Db.Tidy w fresh store.db) :
    Isolated w fresh store (BroadcastsService.send id (some w) uid) := by
  refine isolated_scoped_bind (assertRole_scoped uid _) fun _ store₁ same => ?_
  refine broadcast_bind fun row store₂ same' own _ => ?_
  split
  · trivial
  · refine isolated_whole_bind own (tidy_same (same'.trans same) tidy) rfl rfl
      fun _ store₃ _ _ _ => ?_
    exact isolated_scoped (calls_bind calls_now fun now =>
      calls_bind (calls_call trivial) fun _ => trivial)

theorem cancelBroadcast_isolated (id : Uuid) (tidy : Db.Tidy w fresh store.db) :
    Isolated w fresh store (BroadcastsService.cancel id (some w) uid) := by
  refine isolated_scoped_bind (assertRole_scoped uid _) fun _ store₁ same => ?_
  refine broadcast_bind fun row store₂ same' own _ => ?_
  exact isolated_whole_bind own (tidy_same (same'.trans same) tidy) rfl rfl
    fun _ _ _ _ _ => trivial

theorem removeBroadcast_isolated (id : Uuid) (tidy : Db.Tidy w fresh store.db) :
    Isolated w fresh store (BroadcastsService.remove id (some w) uid) := by
  refine isolated_scoped_bind (assertRole_scoped uid _) fun _ store₁ same => ?_
  refine broadcast_bind fun row store₂ same' own _ => ?_
  exact isolated_remove own (tidy_same (same'.trans same) tidy) _

theorem broadcastReport_isolated (id : Uuid) :
    Isolated w fresh store (BroadcastsService.report id (some w) uid) := by
  refine broadcast_bind fun row store' _ own has_id => ?_
  have pins (child : BroadcastRecipient) (hit : (child.broadcastId == id) = true) :
      Row.parentId .recipients child = some (Row.key .broadcasts row).1 :=
    congrArg some ((beq_iff_eq.mp hit).trans has_id.symm)
  exact isolated_children_bind own rfl pins fun _ _ => trivial

/-! #### Automations -/

theorem createAutomation_isolated (dto : CreateAutomationDto) (tidy : Db.Tidy w fresh store.db) :
    Isolated w fresh store (AutomationsService.create (some w) uid dto) := by
  refine isolated_scoped_bind (assertRole_scoped uid _) fun _ store₁ same => ?_
  refine isolated_scoped_bind (AutomationsService.withPath_calls dto) fun config store₂ same' => ?_
  have new_ones (row : AutomationAction) :
      ActionEntity.loaded row ∉ dto.actions.map AutomationsService.created := by
    intro listed
    obtain ⟨_, _, is_loaded⟩ := List.mem_map.mp listed
    cases is_loaded
  exact isolated_call fun input admitted => insertAutomation_confined
    (tidy_same (same'.trans same) tidy) new_ones rfl (admitted 0) admitted

/-- The rule of a save of an automation with its actions, at the end. -/
theorem isolated_saveAutomation {old : Automation} (own : Own w store .automations old)
    (tidy : Db.Tidy w fresh store.db) {entity : Entity Automation} {actions : List ActionEntity}
    (same : old.id = entity.row.id)
    (loyal : ∀ row, entity.onto old = some row → row.id = old.id ∧ row.workspaceId = w)
    (loaded : OwnActions store old.id actions) {rest : List AutomationAction → Svc β}
    (ends : ∀ rows store', Isolated w fresh store' (rest rows)) :
    Isolated w fresh store (Svc.call (.saveAutomation entity actions) >>= rest) :=
  isolated_call_bind fun _ admitted =>
    ⟨saveAutomation_confined own tidy same loyal loaded admitted, fun rows _ => ends rows _⟩

/-- The rule of the actions an update is to store. -/
theorem replaceActions_bind {row : Automation} (own : Own w store .automations row)
    (tidy : Db.Tidy w fresh store.db) {loaded : List AutomationAction}
    (stored : OwnActions store row.id (loaded.map .loaded)) (given : Field (List ActionDto))
    {rest : List ActionEntity → Svc β}
    (continues : ∀ actions store', Own w store' .automations row → Db.Tidy w fresh store'.db →
      OwnActions store' row.id actions → Isolated w fresh store' (rest actions)) :
    Isolated w fresh store (AutomationsService.replaceActions row.id loaded given >>= rest) := by
  cases given with
  | undefined => exact continues _ _ own tidy stored
  | null =>
    unfold AutomationsService.replaceActions
    rw [Program.bind_assoc]
    exact isolated_call_bind fun _ _ => ⟨deleteActions_confined own tidy, fun _ _ => trivial⟩
  | value actions =>
    unfold AutomationsService.replaceActions
    rw [Program.bind_assoc]
    refine isolated_call_bind fun input _ => ⟨deleteActions_confined own tidy, fun _ _ => ?_⟩
    obtain ⟨own', left⟩ := deleteActions_leaves own tidy
    refine continues _ _ own' left fun action listed => ?_
    obtain ⟨_, _, is_loaded⟩ := List.mem_map.mp listed
    cases is_loaded

theorem updateAutomation_isolated (id : Uuid) (dto : UpdateAutomationDto)
    (tidy : Db.Tidy w fresh store.db) :
    Isolated w fresh store (AutomationsService.update id (some w) uid dto) := by
  refine isolated_scoped_bind (assertRole_scoped uid _) fun _ store₁ same => ?_
  refine automation_bind fun row loaded store₂ same' own has_id stored => ?_
  have tidy' := tidy_same (same'.trans same) tidy
  have loyal (other : Automation) (assigned : AutomationsService.assign row dto = some other) :
      other.id = row.id ∧ other.workspaceId = w := by
    obtain ⟨same_id, home, _⟩ := AutomationsService.assign_keeps assigned
    exact ⟨same_id, home.trans (Option.some.inj own.owner)⟩
  subst has_id
  exact replaceActions_bind own tidy' stored dto.actions fun actions store₃ own' left mine =>
    isolated_saveAutomation own' left rfl loyal mine fun _ _ => trivial

theorem setActive_isolated (id : Uuid) (active : Bool) (tidy : Db.Tidy w fresh store.db) :
    Isolated w fresh store (AutomationsService.setActive id (some w) uid active) := by
  refine isolated_scoped_bind (assertRole_scoped uid _) fun _ store₁ same => ?_
  refine automation_bind fun row loaded store₂ same' own has_id stored => ?_
  subst has_id
  refine isolated_saveAutomation own (tidy_same (same'.trans same) tidy) rfl
    (fun other is_other => ?_)
    stored fun _ _ => trivial
  cases is_other
  exact ⟨rfl, Option.some.inj own.owner⟩

theorem removeAutomation_isolated (id : Uuid) (tidy : Db.Tidy w fresh store.db) :
    Isolated w fresh store (AutomationsService.remove id (some w) uid) := by
  refine isolated_scoped_bind (assertRole_scoped uid _) fun _ store₁ same => ?_
  refine automation_bind fun row loaded store₂ same' own _ _ => ?_
  exact isolated_remove own (tidy_same (same'.trans same) tidy) _

/-! #### Webhooks and API keys -/

theorem draft_cases (w : Uuid) (dto : CreateWebhookDto) :
    WebhooksService.draft (some w) dto = none ∨
      ∃ draft, WebhooksService.draft (some w) dto = some draft ∧
        ∀ input, (draft input).id = input.ids 0 ∧ (draft input).workspaceId = w := by
  unfold WebhooksService.draft
  cases dto.retryCount.orElse (some 3) with
  | none => exact .inl rfl
  | some retryCount =>
    cases dto.timeoutMs.orElse (some 10000) with
    | none => exact .inl rfl
    | some timeoutMs =>
      cases dto.isActive.orElse (some true) with
      | none => exact .inl rfl
      | some isActive => exact .inr ⟨_, rfl, fun _ => ⟨rfl, rfl⟩⟩

theorem createWebhook_isolated (dto : CreateWebhookDto) (tidy : Db.Tidy w fresh store.db) :
    Isolated w fresh store (WebhooksService.create (some w) uid dto) := by
  refine isolated_scoped_bind (assertRole_scoped uid _) fun _ store₁ same => ?_
  obtain lacks | ⟨draft, is_draft, names⟩ := draft_cases w dto
  · rw [lacks]
    exact isolated_call fun _ _ => insert_none_confined
  · rw [is_draft]
    exact isolated_insert (tidy_same same tidy) rfl rfl
      (fun input => congrArg some (names input).2) fun input => (names input).1

theorem updateWebhook_isolated (id : Uuid) (dto : UpdateWebhookDto)
    (tidy : Db.Tidy w fresh store.db) :
    Isolated w fresh store (WebhooksService.update id (some w) uid dto) := by
  refine isolated_scoped_bind (assertRole_scoped uid _) fun _ store₁ same => ?_
  refine webhook_bind fun row store₂ same' own _ => ?_
  refine isolated_save_bind own (tidy_same (same'.trans same) tidy) rfl (fun other assigned => ?_)
    fun _ _ _ _ _ => trivial
  obtain ⟨has_id, home⟩ := WebhooksService.assign_keeps assigned
  exact ⟨congrArg (·, "") has_id, (congrArg some home).trans own.owner⟩

theorem removeApiKey_isolated (id : Uuid) (tidy : Db.Tidy w fresh store.db) :
    Isolated w fresh store (ApiKeysService.remove id (some w) uid) := by
  refine isolated_scoped_bind (assertRole_scoped uid _) fun _ store₁ same => ?_
  refine isolated_find_bind rfl rfl (fun _ => rfl) (fun _ _ => trivial)
    fun row store₂ same' own _ => ?_
  exact isolated_remove own (tidy_same (same'.trans same) tidy) _

end Writers

/-! ### The endpoints -/

/-- **Every endpoint stays inside the workspace it is called for.** -/
theorem endpoint_isolated {w : Uuid} {fresh : Uuid → Prop} {store : Store} (h : Helpers)
    (uid : Uuid) (endpoint : Endpoint) (tidy : Db.Tidy w fresh store.db) :
    Isolated w fresh store (endpoint.program h (some w) uid) := by
  have guarded {α : Type} {rest : Svc α} (continues : ∀ store', store'.db = store.db →
      Isolated w fresh store' rest) :
      Isolated w fresh store (WorkspacesService.assertMember (some w) uid >>= fun _ => rest) :=
    isolated_scoped_bind (assertMember_scoped uid) fun _ => continues
  have asks {α : Type} {rest : Svc α} (calls : rest.Calls (Scoped w)) :
      Isolated w fresh store (WorkspacesService.assertMember (some w) uid >>= fun _ => rest) :=
    guarded fun _ _ => isolated_scoped calls
  have owned (row : Uuid) (hit : Svc.whereIs (some w) row = true) : some row = some w :=
    congrArg some (beq_iff_eq.mp hit)
  cases endpoint with
  | listGroups => exact asks (find_scoped rfl fun row => owned row.workspaceId)
  | createGroup dto =>
    exact guarded fun _ same =>
      isolated_insert (tidy_same same tidy) rfl rfl (fun _ => rfl) fun _ => rfl
  | updateGroup id dto => exact updateGroup_isolated id dto tidy
  | removeGroup id =>
    exact guarded fun _ same => group_bind fun _ _ same' own =>
      isolated_remove own (tidy_same (same'.trans same) tidy) _
  | findContacts query =>
    refine asks (calls_bind (find_scoped rfl fun row hit => ?_) fun _ => trivial)
    simp only [ContactsService.matching, Bool.and_eq_true, beq_iff_eq] at hit
    exact hit.1.1.1.symm
  | createContact dto =>
    exact guarded fun _ same =>
      isolated_insert (tidy_same same tidy) rfl rfl (fun _ => rfl) fun _ => rfl
  | importContacts rows =>
    exact guarded fun store' same => importRows_isolated rows _ store' (tidy_same same tidy)
  | findContact id => exact isolated_scoped (contact_scoped id)
  | updateContact id dto => exact updateContact_isolated id dto tidy
  | removeContact id =>
    exact contact_bind fun _ _ same own => isolated_remove own (tidy_same same tidy) _
  | blacklistContact id =>
    exact contact_bind fun _ _ same own => isolated_whole_bind own (tidy_same same tidy) rfl rfl
      fun _ _ _ _ _ => trivial
  | findSessions => exact asks (find_scoped rfl fun row => owned row.workspaceId)
  | createSession dto =>
    refine isolated_scoped_bind (assertRole_scoped uid _) fun _ _ same => ?_
    exact fun _ => isolated_insert (tidy_same same tidy) rfl rfl (fun _ => rfl) fun _ => rfl
  | findSession id => exact isolated_scoped (session_scoped id)
  | updateSession id dto => exact updateSession_isolated id dto tidy
  | sessionQr id => exact sessionQr_isolated h id
  | startSession id => exact startSession_isolated h id tidy
  | stopSession id => exact stopSession_isolated h id tidy
  | sessionStatus id => exact sessionStatus_isolated h id tidy
  | removeSession id => exact removeSession_isolated h id tidy
  | sendMessage dto =>
    exact asks (calls_bind (session_scoped _) fun _ => calls_bind (calls_call trivial) fun _ =>
      trivial)
  | sendBulk dto =>
    exact asks (calls_bind (session_scoped _) fun _ =>
      calls_bind (MessagesService.sendEach_calls fun _ _ _ => trivial) fun _ => trivial)
  | findLogs query =>
    refine asks (calls_bind (find_scoped rfl fun row hit => ?_) fun _ => trivial)
    simp only [MessagesService.matching, Bool.and_eq_true, beq_iff_eq] at hit
    exact hit.1.1.1.1.symm
  | findLog id =>
    refine asks (calls_bind (lookup_scoped rfl fun _ => rfl) fun found => ?_)
    cases found <;> trivial
  | findBroadcasts =>
    exact asks (calls_bind (find_scoped rfl fun row => owned row.workspaceId) fun _ =>
      trivial)
  | createBroadcast dto => exact createBroadcast_isolated h dto tidy
  | findBroadcast id => exact isolated_scoped (broadcast_scoped id)
  | updateBroadcast id dto => exact updateBroadcast_isolated id dto tidy
  | removeBroadcast id => exact removeBroadcast_isolated id tidy
  | sendBroadcast id => exact sendBroadcast_isolated id tidy
  | cancelBroadcast id => exact cancelBroadcast_isolated id tidy
  | broadcastStatus id =>
    exact isolated_scoped (calls_bind (broadcast_scoped id) fun _ => trivial)
  | broadcastReport id => exact broadcastReport_isolated id
  | findAutomations => exact asks (calls_call fun row hit => beq_iff_eq.mp hit)
  | createAutomation dto => exact createAutomation_isolated dto tidy
  | findAutomation id => exact isolated_scoped (automation_scoped id)
  | updateAutomation id dto => exact updateAutomation_isolated id dto tidy
  | removeAutomation id => exact removeAutomation_isolated id tidy
  | enableAutomation id => exact setActive_isolated id true tidy
  | disableAutomation id => exact setActive_isolated id false tidy
  | testAutomation id body =>
    exact isolated_scoped (calls_bind (automation_scoped id) fun _ =>
      calls_bind (calls_call trivial) fun _ => calls_bind (calls_call trivial) fun _ => trivial)
  | findWebhooks => exact asks (find_scoped rfl fun row => owned row.workspaceId)
  | createWebhook dto => exact createWebhook_isolated dto tidy
  | findWebhook id => exact isolated_scoped (webhook_scoped id)
  | updateWebhook id dto => exact updateWebhook_isolated id dto tidy
  | removeWebhook id =>
    refine isolated_scoped_bind (assertRole_scoped uid _) fun _ _ same => ?_
    exact webhook_bind fun _ _ same' own _ =>
      isolated_remove own (tidy_same (same'.trans same) tidy) _
  | testWebhook id =>
    exact isolated_scoped (calls_bind (webhook_scoped id) fun _ => calls_bind calls_now fun _ =>
      calls_bind (calls_call trivial) fun _ => trivial)
  | webhookLogs id =>
    refine webhook_bind fun row store' _ own has_id => ?_
    have pins (child : WebhookDelivery) (hit : (child.webhookId == id) = true) :
        Row.parentId .deliveries child = some (Row.key .webhooks row).1 :=
      congrArg some ((beq_iff_eq.mp hit).trans has_id.symm)
    exact isolated_children_bind own rfl pins fun _ _ => trivial
  | findApiKeys => exact asks (find_scoped rfl fun row => owned row.workspaceId)
  | createApiKey dto =>
    refine isolated_scoped_bind (assertRole_scoped uid _) fun _ _ same => ?_
    exact fun _ => isolated_insert_bind (tidy_same same tidy) rfl rfl (fun _ => rfl) (fun _ => rfl)
      fun _ _ _ => trivial
  | removeApiKey id => exact removeApiKey_isolated id tidy
  | overview =>
    refine asks (calls_bind calls_now fun now => ?_)
    refine calls_bind (count_scoped rfl fun row hit => ?_) fun _ =>
      calls_bind (count_scoped rfl (between_inside _)) fun _ =>
        calls_bind (count_scoped rfl (between_inside _)) fun _ =>
          calls_bind (count_scoped rfl (between_inside _)) fun _ =>
            calls_bind (count_scoped rfl fun row hit => ?_) fun _ =>
              calls_bind (count_scoped rfl fun row hit => ?_) fun _ => trivial
    · exact between_inside (fun _ => true) row (by rw [hit, Bool.and_true])
    · exact owned row.workspaceId (Bool.and_eq_true_iff.mp hit).1
    · exact owned row.workspaceId (Bool.and_eq_true_iff.mp hit).1
  | messages sent until_ =>
    refine asks (calls_bind calls_now fun now => calls_bind (find_scoped rfl fun row hit => ?_)
      fun _ => trivial)
    simp only [Bool.and_eq_true, beq_iff_eq] at hit
    exact hit.1.1.symm
  | automationStats =>
    exact asks (calls_bind (find_scoped rfl fun row => owned row.workspaceId) fun _ =>
      trivial)
  | sessionStats =>
    refine asks (calls_bind (find_scoped rfl fun row hit => ?_) fun _ =>
      calls_bind (find_scoped rfl fun row => owned row.workspaceId) fun _ => trivial)
    exact (beq_iff_eq.mp hit).symm
  | broadcastStats =>
    exact asks (calls_bind (find_scoped rfl fun row => owned row.workspaceId) fun _ =>
      trivial)

/-! ### Whole calls -/

/-- A database with unique primary keys, in which the ids a call may generate are new: no row has
one of them or names it as its parent. -/
structure Sound (tape : Tape Input) (db : Db) : Prop where
  keyed : ∀ table, ((db table).map (Row.key table)).Nodup
  unused : ∀ call number table, ∀ row ∈ db table,
    Row.mentions table row ((tape.later call).ids number) = false

/-- The ids of a tape. -/
def generated (tape : Tape Input) (id : Uuid) : Prop :=
  ∃ call number, id = (tape.later call).ids number

theorem tidy_of_sound {w : Uuid} {tape : Tape Input} {db : Db} (sound : Sound tape db) :
    Db.Tidy w (generated tape) db := by
  refine ⟨sound.keyed, fun table row member _ id is_generated => ?_⟩
  obtain ⟨call, number, rfl⟩ := is_generated
  exact sound.unused call number table row member

/-- **The workspaces are isolated.** For every endpoint, called with a workspace:
an outsider is turned away and nothing changes;
what other workspaces see, users and memberships included, stays as it is;
and on any database that shows the workspace the same users, memberships and rows, the call has the
same result, leaves the same queue and shows the same rows afterwards. -/
theorem isolation (h : Helpers) (w uid : Uuid) (endpoint : Endpoint) (tape : Tape Input)
    (store : Store) (sound : Sound tape store.db) :
    ((∀ member ∈ store.db .members, ¬ (member.workspaceId = w ∧ member.userId = uid)) →
      ((endpoint.program h (some w) uid).run exec tape store).1 =
          .error (Guard.refusal (tape.later 0)) ∧
        ((endpoint.program h (some w) uid).run exec tape store).2.2 = store) ∧
    (∀ v, v ≠ w → ((endpoint.program h (some w) uid).run exec tape store).2.2.db.view v =
      store.db.view v) ∧
    ∀ db : Db, Sound tape db → db.view w = store.db.view w →
      ((endpoint.program h (some w) uid).run exec tape { store with db := db }).1 =
          ((endpoint.program h (some w) uid).run exec tape store).1 ∧
        ((endpoint.program h (some w) uid).run exec tape { store with db := db }).2.2.jobs =
          ((endpoint.program h (some w) uid).run exec tape store).2.2.jobs ∧
        ((endpoint.program h (some w) uid).run exec tape { store with db := db }).2.2.db.view w =
          ((endpoint.program h (some w) uid).run exec tape store).2.2.db.view w := by
  have admitted : tape.Admits fun input => ∀ number, generated tape (input.ids number) :=
    fun call number => ⟨call, number, rfl⟩
  have isolated (store : Store) (sound : Sound tape store.db) :
      Isolated w (generated tape) store (endpoint.program h (some w) uid) :=
    endpoint_isolated h uid endpoint (tidy_of_sound sound)
  refine ⟨fun outsider => ?_, fun v different => ?_, fun db sound' same => ?_⟩
  · have nobody : ∀ member ∈ store.db .members, Guard.admits (some w) uid member = false := by
      intro member listed
      have not_here := outsider member listed
      simp only [Guard.admits, Svc.whereIs, Bool.and_eq_false_iff, beq_eq_false_iff_ne]
      exact not_and_or.mp not_here
    rw [Guard.run_outsider nobody h endpoint tape]
    exact ⟨rfl, rfl⟩
  · have kept : ∀ call input store', Confined w call input store' →
        (exec call input store').2.db.view v = store'.db.view v :=
      fun _ _ _ confined => confined.others v different
    exact run_relates (fun before after : Store => after.db.view v = before.db.view v)
      (fun _ => rfl) (fun first second => second.trans first) kept admitted (isolated store sound)
  · have views : Store.view { store with db := db } w = store.view w :=
      congrArg (fun db => { store with db := db }) same
    obtain ⟨results, seen⟩ := run_same (fun store => Store.view store w)
      (fun call input seen => (exec call input seen).1)
      (fun call input seen => (exec call input seen).2.view w)
      (fun _ _ _ confined => ⟨confined.reply, confined.rows⟩) admitted
      (isolated { store with db := db } sound') (isolated store sound) views
    have queue := congrArg Store.jobs seen
    have rows := congrArg Store.db seen
    exact ⟨results, queue, rows⟩

theorem shops_sound : Sound Guard.calm Guard.shops.db := by
  refine ⟨fun table => ?_, fun call number table row member => ?_⟩
  · cases table <;> decide
  · show Row.mentions table row "" = false
    revert row
    cases table <;> decide

/-- The owner of `x` deletes a contact: what `w` sees is as before. -/
theorem isolation_example :
    ((Endpoint.program Example.helpers (some "x") "t" (.removeContact "c")).run exec Guard.calm
        Guard.shops).1 = .ok "Contact deleted" ∧
      ((Endpoint.program Example.helpers (some "x") "t" (.removeContact "c")).run exec Guard.calm
        Guard.shops).2.2.db.view "w" = Guard.shops.db.view "w" :=
  ⟨rfl, (isolation Example.helpers "x" "t" (.removeContact "c") Guard.calm Guard.shops
    shops_sound).2.1 "w" (by decide)⟩

end Isolation

end WaAutomation
