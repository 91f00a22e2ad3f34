/-
**Programs on behalf of a workspace.**

Every endpoint called for a workspace, and every run of the broadcast and the message processor on a
job of the workspace, makes local calls only, as long as the replies are fair; nothing is assumed of
the store the calls find. What a lookup has returned stays at home even when another call deletes
the row meanwhile, so the later writes are local too.

* `Tenant` is that property of a program, with what its value is known to be;
* `tenant_lookup` is the rule of a lookup by id and workspace;
* `endpoint_tenant`, `broadcast_tenant` and `message_tenant` are the results.
-/

import WaAutomation.Library.Noninterference
import WaAutomation.Model.Api
import WaAutomation.Tenancy.Isolation
import WaAutomation.Tenancy.Locality

set_option linter.unusedSectionVars false

namespace WaAutomation

open Library Program

namespace Tenants

/-- The program makes calls on behalf of the workspace, and its value satisfies `ends`. -/
def Tenant {α : Type} (home : Uuid → Uuid) (w : Uuid) (ends : α → Prop) (program : Svc α) : Prop :=
  program.Discreet (Fair home) hear (Local home w) ends

/-! ### Rows of the workspace -/

section Rows

variable {home : Uuid → Uuid} {w : Uuid} {table : Table}

/-- A row that names its workspace. -/
theorem ours_root {row : Row table} (written : table.written = true)
    (orphan : Row.parentId table row = none) (sessionless : Row.session table row = none)
    (names : Row.workspace table row = some w) (here : home (Row.key table row).1 = w) :
    Row.Ours home w table row := by
  refine ⟨written, here, ⟨fun v named => ?_, fun id named => ?_, fun id named => ?_⟩⟩
  · rw [names] at named
    cases named
    exact here
  · rw [orphan] at named
    cases named
  · rw [sessionless] at named
    cases named

/-- A row with the id, the workspace, the parent and the session of an own one. -/
theorem ours_same {old row : Row table} (ours : Row.Ours home w table old)
    (key : Row.key table row = Row.key table old)
    (owner : Row.workspace table row = Row.workspace table old)
    (parent : Row.parentId table row = Row.parentId table old)
    (session : Row.session table row = Row.session table old) : Row.Ours home w table row := by
  have ⟨written, here, homed⟩ := ours
  refine ⟨written, key ▸ here, ⟨fun v named => ?_, fun id named => ?_, fun id named => ?_⟩⟩
  · rw [key]
    exact homed.workspace v (owner ▸ named)
  · rw [key]
    exact homed.parent id (parent ▸ named)
  · rw [key]
    exact homed.session id (session ▸ named)

/-- The workspace an own row names. -/
theorem ours_workspace {row : Row table} (ours : Row.Ours home w table row) {v : Uuid}
    (names : Row.workspace table row = some v) : v = w :=
  (ours.homed.workspace v names).symm.trans ours.here

/-- The save of an own row with every column loaded. -/
theorem saves_whole {row : Row table} (ours : Row.Ours home w table row) :
    SavesOurs home w table (.whole row) :=
  ⟨ours.here, fun _ writes => Entity.writes_whole writes ▸ ours⟩

/-- The save of what an assignment makes of an own row. -/
theorem saves_assigned {row : Row table} {assigned : Option (Row table)}
    (ours : Row.Ours home w table row)
    (keeps : ∀ other, assigned = some other → Row.Ours home w table other) :
    SavesOurs home w table ⟨row, fun _ => assigned, assigned⟩ := by
  refine ⟨ours.here, fun other writes => ?_⟩
  obtain ⟨_, is_other⟩ | is_other := writes
  · exact keeps other is_other
  · exact keeps other is_other

end Rows

/-! ### Rules -/

section Rules

variable {home : Uuid → Uuid} {w : Uuid} {α β : Type}

theorem tenant_then {ends : α → Prop} {ends' : β → Prop} {program : Svc α} {rest : α → Svc β}
    (first : Tenant home w ends program)
    (later : ∀ value, ends value → Tenant home w ends' (rest value)) :
    Tenant home w ends' (program >>= rest) :=
  discreet_then first later

theorem tenant_any {ends : α → Prop} {program : Svc α} (held : Tenant home w ends program) :
    Tenant home w (fun _ => True) program :=
  discreet_mono (fun _ _ => trivial) held

/-- Sequencing from the right. -/
theorem tenant_assoc {γ : Type} {ends : γ → Prop} {program : Svc α} {first : α → Svc β}
    {second : β → Svc γ}
    (held : Tenant home w ends (program >>= fun value => first value >>= second)) :
    Tenant home w ends (program >>= first >>= second) := by
  rw [Program.bind_assoc]
  exact held

theorem tenant_attempt {ends : α → Prop} {program : Svc α} (held : Tenant home w ends program) :
    Tenant home w (fun result => ∀ value, result = .ok value → ends value) program.attempt := by
  refine discreet_attempt (discreet_mono (fun value holds other same => ?_) held)
    fun error value same => ?_
  · cases same
    exact holds
  · cases same

theorem tenant_lift {outcome : Except Err α} :
    Tenant home w (fun _ => True) (Svc.lift outcome) := by
  cases outcome <;> trivial

theorem tenant_now : Tenant home w (fun _ => True) Svc.now := fun _ => trivial

theorem tenant_randomHex : Tenant home w (fun _ => True) Svc.randomHex := fun _ => trivial

/-- One call whose reply is heard in full. -/
theorem tenant_call {call : Call} {ends : Resp call → Prop} (asks : Local home w call)
    (heard : ∀ reply, hear call reply = reply)
    (replies : ∀ value, Fair home call (.ok value) → ends value) :
    Tenant home w ends (Svc.call call) :=
  discreet_perform asks heard replies

/-- **A job is queued**, and its number is not used. -/
theorem tenant_add_bind {job : Job} {attempts : Nat} {delay : Int} {ends : β → Prop}
    {rest : Nat → Svc β} (ours : job.workspace home = some w)
    (unused : ∀ number number', rest number = rest number')
    (later : ∀ number, Tenant home w ends (rest number)) :
    Tenant home w ends (Svc.call (.add job attempts delay) >>= rest) :=
  discreet_ignore_bind ours (fun _ => rfl) (fun _ => ⟨0, rfl⟩) unused later

/-- A query for rows of the workspace. -/
theorem tenant_find {table : Table} {matching : Row table → Bool} (written : table.written = true)
    (inside : ∀ row, Row.Homed home table row → matching row = true →
      home (Row.key table row).1 = w) :
    Tenant home w (fun rows => ∀ row ∈ rows, Row.Ours home w table row ∧ matching row = true)
      (Svc.find table matching) := by
  refine tenant_call (.inr inside) (fun _ => rfl) fun rows fair row member => ?_
  obtain ⟨homed, hit⟩ := fair row member
  exact ⟨⟨written, inside row homed hit, homed⟩, hit⟩

/-- A lookup of a row of the workspace. -/
theorem tenant_findOne {table : Table} {matching : Row table → Bool}
    (written : table.written = true)
    (inside : ∀ row, Row.Homed home table row → matching row = true →
      home (Row.key table row).1 = w) :
    Tenant home w (fun found => ∀ row, found = some row →
      Row.Ours home w table row ∧ matching row = true) (Svc.findOne table matching) := by
  refine tenant_then (tenant_find written inside) fun rows all => ?_
  exact fun row is_first => all row (List.mem_of_mem_head? is_first)

/-- Rows with a workspace column are at home where it says. -/
theorem inside_where {table : Table} {column : Row table → Uuid}
    (names : ∀ row, Row.workspace table row = some (column row)) {is_id : Row table → Bool} :
    ∀ row, Row.Homed home table row →
      (is_id row && Svc.whereIs (some w) (column row)) = true →
        home (Row.key table row).1 = w := by
  intro row homed hit
  have named := homed.workspace _ (names row)
  rwa [beq_iff_eq.mp (Bool.and_eq_true_iff.mp hit).2] at named

theorem inside_column {table : Table} {column : Row table → Uuid}
    (names : ∀ row, Row.workspace table row = some (column row)) :
    ∀ row, Row.Homed home table row → Svc.whereIs (some w) (column row) = true →
      home (Row.key table row).1 = w := by
  intro row homed hit
  have named := homed.workspace _ (names row)
  rwa [beq_iff_eq.mp hit] at named

/-- **The rule of a lookup by id and workspace.** -/
theorem tenant_lookup_bind {table : Table} {column : Row table → Uuid} {is_id : Row table → Bool}
    {ends : β → Prop} {rest : Option (Row table) → Svc β} (written : table.written = true)
    (names : ∀ row, Row.workspace table row = some (column row))
    (missing : Tenant home w ends (rest none))
    (found : ∀ row, Row.Ours home w table row → is_id row = true →
      Tenant home w ends (rest (some row))) :
    Tenant home w ends
      (Svc.findOne table (fun row => is_id row && Svc.whereIs (some w) (column row)) >>= rest) := by
  refine tenant_then (tenant_findOne written (inside_where names)) fun result all => ?_
  cases result with
  | none => exact missing
  | some row =>
    obtain ⟨ours, hit⟩ := all row rfl
    exact found row ours (Bool.and_eq_true_iff.mp hit).1

end Rules

/-! ### Guards and lookups -/

section Lookups

variable {home : Uuid → Uuid} {w uid : Uuid} {α β : Type}

theorem assertMember_tenant (uid : Uuid) :
    Tenant home w (fun _ => True) (WorkspacesService.assertMember (some w) uid) := by
  have finds (matching : WorkspaceMember → Bool) :
      Tenant home w (fun _ => True) (Svc.findOne .members matching) := by
    have asks : Tenant home w (fun _ => True) (Svc.find .members matching) :=
      tenant_call (.inl rfl) (fun _ => rfl) fun _ _ => trivial
    exact tenant_then asks fun _ _ => trivial
  refine tenant_then (finds _) fun found _ => ?_
  cases found <;> trivial

theorem assertRole_tenant (uid : Uuid) (roles : List String) :
    Tenant home w (fun _ => True) (WorkspacesService.assertRole (some w) uid roles) := by
  refine tenant_then (assertMember_tenant uid) fun member _ => ?_
  split <;> trivial

/-- The credentials are those of the workspace. -/
theorem getOpenwaCredentials_tenant (h : Helpers) :
    Tenant home w (fun creds => creds.workspaceId = w)
      (WorkspacesService.getOpenwaCredentials h (some w)) := by
  have asks : Tenant home w (fun rows => ∀ row ∈ rows, row.id = w)
      (Svc.find .workspaces fun workspace => Svc.whereIs (some w) workspace.id) := by
    refine tenant_call (.inr fun row homed hit => ?_) (fun _ => rfl) fun rows fair row member => ?_
    · have named := homed.workspace _ rfl
      exact named.trans (beq_iff_eq.mp hit)
    · exact beq_iff_eq.mp (fair row member).2
  have finds := tenant_then asks fun rows all =>
    show Tenant home w (fun found => ∀ row, found = some row → row.id = w) (.ret rows.head?) from
      fun row is_first => all row (List.mem_of_mem_head? is_first)
  refine tenant_then finds fun found all => ?_
  cases found with
  | none => trivial
  | some workspace => exact tenant_then tenant_lift fun _ _ => all workspace rfl

theorem openwa_tenant {creds : OpenwaCredentials} (ours : creds.workspaceId = w)
    (method : OpenwaMethod) (session : SessionRef) (recipient : Option RecipientRef) :
    Tenant home w (fun _ => True) (OpenwaService.call creds method session recipient) := by
  have sends : Tenant home w (fun _ => True)
      (Svc.call (.openwa ⟨creds, method, session, recipient⟩)) :=
    tenant_call ours (fun _ => rfl) fun _ _ => trivial
  refine tenant_then (tenant_attempt sends) fun result _ => ?_
  cases result <;> trivial

theorem session_tenant (id : Uuid) :
    Tenant home w (fun row => Row.Ours home w .sessions row ∧ row.id = id)
      (SessionsService.findOne id (some w) uid) :=
  tenant_then (assertMember_tenant uid) fun _ _ =>
    tenant_lookup_bind rfl (fun _ => rfl) trivial fun _ ours has_id =>
      ⟨ours, beq_iff_eq.mp has_id⟩

theorem contact_tenant (id : Uuid) :
    Tenant home w (fun row => Row.Ours home w .contacts row ∧ row.id = id)
      (ContactsService.findOne id (some w) uid) :=
  tenant_then (assertMember_tenant uid) fun _ _ =>
    tenant_lookup_bind rfl (fun _ => rfl) trivial fun _ ours has_id =>
      ⟨ours, beq_iff_eq.mp has_id⟩

theorem group_tenant (id : Uuid) :
    Tenant home w (fun row => Row.Ours home w .groups row ∧ row.id = id)
      (ContactsService.findGroup id (some w)) :=
  tenant_lookup_bind rfl (fun _ => rfl) trivial fun _ ours has_id => ⟨ours, beq_iff_eq.mp has_id⟩

theorem broadcast_tenant (id : Uuid) :
    Tenant home w (fun row => Row.Ours home w .broadcasts row ∧ row.id = id)
      (BroadcastsService.findOne id (some w) uid) :=
  tenant_then (assertMember_tenant uid) fun _ _ =>
    tenant_lookup_bind rfl (fun _ => rfl) trivial fun _ ours has_id =>
      ⟨ours, beq_iff_eq.mp has_id⟩

theorem webhook_tenant (id : Uuid) :
    Tenant home w (fun row => Row.Ours home w .webhooks row ∧ row.id = id)
      (WebhooksService.findOne id (some w) uid) :=
  tenant_then (assertMember_tenant uid) fun _ _ =>
    tenant_lookup_bind rfl (fun _ => rfl) trivial fun _ ours has_id =>
      ⟨ours, beq_iff_eq.mp has_id⟩

/-- An automation comes with actions of its own. -/
theorem automation_tenant (id : Uuid) :
    Tenant home w (fun loaded => Row.Ours home w .automations loaded.1 ∧ loaded.1.id = id ∧
      OursLoaded home w (loaded.2.map .loaded)) (AutomationsService.findOne id (some w) uid) := by
  refine tenant_then (assertMember_tenant uid) fun _ _ => ?_
  have inside : ∀ row, Row.Homed home .automations row →
      (row.id == id && Svc.whereIs (some w) row.workspaceId) = true → home row.id = w :=
    inside_where fun _ => rfl
  have loads : Tenant home w (fun rows => ∀ loaded ∈ rows,
      Row.Ours home w .automations loaded.1 ∧ loaded.1.id = id ∧
        OursLoaded home w (loaded.2.map .loaded))
      (Svc.call (.findAutomations fun automation => automation.id == id &&
        Svc.whereIs (some w) automation.workspaceId)) := by
    refine tenant_call inside (fun _ => rfl) fun rows fair loaded member => ?_
    obtain ⟨homed, hit, children⟩ := fair loaded member
    have here := inside loaded.1 homed hit
    refine ⟨⟨rfl, here, homed⟩, beq_iff_eq.mp (Bool.and_eq_true_iff.mp hit).1,
      fun action listed => ?_⟩
    obtain ⟨other, is_listed, is_other⟩ := List.mem_map.mp listed
    cases is_other
    obtain ⟨homed_action, names⟩ := children action is_listed
    refine ⟨rfl, ?_, homed_action⟩
    have parent := homed_action.parent _ rfl
    rw [names] at parent
    exact parent.symm.trans here
  refine tenant_then loads fun rows all => ?_
  cases found : rows.head? with
  | none => trivial
  | some loaded => exact all loaded (List.mem_of_mem_head? found)

end Lookups

/-! ### Endpoints -/

section Endpoints

variable {home : Uuid → Uuid} {w uid : Uuid} {α β : Type}

/-- The guard first. -/
theorem member_bind {ends : β → Prop} {rest : WorkspaceMember → Svc β}
    (later : ∀ member, Tenant home w ends (rest member)) :
    Tenant home w ends (WorkspacesService.assertMember (some w) uid >>= rest) :=
  tenant_then (assertMember_tenant uid) fun member _ => later member

theorem role_bind {roles : List String} {ends : β → Prop} {rest : WorkspaceMember → Svc β}
    (later : ∀ member, Tenant home w ends (rest member)) :
    Tenant home w ends (WorkspacesService.assertRole (some w) uid roles >>= rest) :=
  tenant_then (assertRole_tenant uid roles) fun member _ => later member

/-- A write whose reply says nothing to rely on. -/
theorem write_tenant {call : Call} (asks : Local home w call)
    (heard : ∀ reply, hear call reply = reply) : Tenant home w (fun _ => True) (Svc.call call) :=
  tenant_call asks heard fun _ _ => trivial

/-- A write first. -/
theorem write_bind {call : Call} {ends : β → Prop} {rest : Resp call → Svc β}
    (asks : Local home w call) (heard : ∀ reply, hear call reply = reply)
    (later : ∀ value, Tenant home w ends (rest value)) :
    Tenant home w ends (Svc.call call >>= rest) :=
  tenant_then (write_tenant asks heard) fun value _ => later value

/-- The rows of a table of the workspace. -/
theorem rows_tenant {table : Table} {column : Row table → Uuid} (written : table.written = true)
    (names : ∀ row, Row.workspace table row = some (column row)) :
    Tenant home w (fun _ => True) (Svc.find table fun row => Svc.whereIs (some w) (column row)) :=
  tenant_any (tenant_find written (inside_column names))

/-- A query whose condition on the workspace comes with others. -/
theorem inside_query {table : Table} {matching : Row table → Bool}
    (named : ∀ row, matching row = true → Row.workspace table row = some w) :
    ∀ row, Row.Homed home table row → matching row = true → home (Row.key table row).1 = w :=
  fun row homed hit => homed.workspace w (named row hit)

theorem query_tenant {table : Table} {matching : Row table → Bool} (written : table.written = true)
    (named : ∀ row, matching row = true → Row.workspace table row = some w) :
    Tenant home w (fun _ => True) (Svc.find table matching) :=
  tenant_any (tenant_find written (inside_query named))

theorem count_tenant {table : Table} {matching : Row table → Bool} (written : table.written = true)
    (named : ∀ row, matching row = true → Row.workspace table row = some w) :
    Tenant home w (fun _ => True) (AnalyticsService.count table matching) :=
  tenant_then (query_tenant written named) fun _ _ => trivial

/-- A new row of the workspace. -/
theorem insert_local {table : Table} {draft : Input → Row table} (written : table.written = true)
    (orphan : ∀ row, Row.parentId table row = none)
    (sessionless : ∀ row, Row.session table row = none)
    (names : ∀ input, Row.workspace table (draft input) = some w)
    (key : ∀ input, (Row.key table (draft input)).1 = input.ids 0) :
    Local home w (.insert table (some draft)) := by
  intro make is_draft input ids
  cases is_draft
  exact ours_root written (orphan _) (sessionless _) (names input)
    ((congrArg home (key input)).trans (ids 0))

/-! #### Contacts -/

theorem importRow_tenant (reply : ImportReply) (row : CsvContactRow) :
    Tenant home w (fun _ => True) (ContactsService.importRow (some w) reply row) := by
  unfold ContactsService.importRow
  dsimp only
  split
  · trivial
  · have inside : ∀ contact, Row.Homed home .contacts contact →
        (Svc.whereIs (some w) contact.workspaceId &&
          contact.phone == ContactsService.normalizePhone row.phone) = true →
            home contact.id = w := by
      refine inside_query fun contact hit => congrArg some ?_
      exact beq_iff_eq.mp (Bool.and_eq_true_iff.mp hit).1
    refine tenant_then (tenant_findOne rfl inside) fun existing all => ?_
    cases existing with
    | none =>
      exact write_bind (insert_local rfl (fun _ => rfl) (fun _ => rfl) (fun _ => rfl) fun _ => rfl)
        (fun _ => rfl) fun _ => trivial
    | some contact =>
      have ours : Row.Ours home w .contacts (ContactsService.merge contact row) :=
        ours_same (all contact rfl).1 rfl rfl rfl rfl
      exact write_bind (saves_whole ours) (fun _ => rfl) fun _ => trivial

theorem importRows_tenant : ∀ (rows : List CsvContactRow) (reply : ImportReply),
    Tenant home w (fun _ => True) (ContactsService.importRows (some w) reply rows) := by
  intro rows
  induction rows with
  | nil => exact fun _ => trivial
  | cons row rows ih =>
    exact fun reply => tenant_then (importRow_tenant reply row) fun next _ => ih next

theorem updateContact_tenant (id : Uuid) (dto : UpdateContactDto) :
    Tenant home w (fun _ => True) (ContactsService.update id (some w) uid dto) := by
  refine tenant_then (contact_tenant id) fun contact found => ?_
  refine write_bind (saves_assigned found.1 fun other assigned => ?_) (fun _ => rfl)
    fun _ => trivial
  obtain ⟨same, owner⟩ := ContactsService.assign_keeps assigned
  exact ours_same found.1 (congrArg (·, "") same) (congrArg some owner) rfl rfl

/-- Whatever an update of a group writes keeps the id and the workspace. -/
theorem assignGroup_writes {group other : ContactGroup} {dto : UpdateContactGroupDto}
    (writes : (ContactsService.assignGroup group dto).writes other) :
    other.id = group.id ∧ other.workspaceId = group.workspaceId := by
  obtain ⟨stored, onto⟩ | anew := writes
  · exact Isolation.assignGroup_onto onto
  · simp only [ContactsService.assignGroup] at anew
    split at anew
    · cases anew
      exact ⟨rfl, rfl⟩
    · cases anew

theorem updateGroup_tenant (id : Uuid) (dto : UpdateContactGroupDto) :
    Tenant home w (fun _ => True) (ContactsService.updateGroup id (some w) uid dto) := by
  refine member_bind fun _ => tenant_then (group_tenant id) fun group found => ?_
  refine write_bind ⟨?_, fun other writes => ?_⟩ (fun _ => rfl) fun _ => trivial
  · exact (congrArg home (Isolation.assignGroup_row group dto)).trans found.1.here
  · obtain ⟨same, owner⟩ := assignGroup_writes writes
    exact ours_same found.1 (congrArg (·, "") same) (congrArg some owner) rfl rfl

/-! #### Sessions -/

theorem updateSession_tenant (id : Uuid) (dto : UpdateSessionDto) :
    Tenant home w (fun _ => True) (SessionsService.update id (some w) uid dto) := by
  refine tenant_then (session_tenant id) fun session found => ?_
  refine write_bind ⟨?_, fun other writes => ?_⟩ (fun _ => rfl) fun _ => trivial
  · have same : (SessionsService.assign session dto).row.id = session.id := by
      unfold SessionsService.assign
      cases dto.name <;> rfl
    exact (congrArg home same).trans found.1.here
  · obtain ⟨same, owner⟩ := SessionsService.assign_keeps writes
    exact ours_same found.1 (congrArg (·, "") same) (congrArg some owner) rfl rfl

theorem emit_bind {event : Event} {ends : β → Prop} {rest : Unit → Svc β}
    (ours : event.workspace = some w) (later : ∀ value, Tenant home w ends (rest value)) :
    Tenant home w ends (Svc.emit event >>= rest) :=
  write_bind ours (fun _ => rfl) later

theorem setStatus_tenant {session : Session} (ours : Row.Ours home w .sessions session)
    (status : SessionStatus) (phone : Field String) :
    Tenant home w (fun _ => True) (SessionsService.setStatus session status phone) := by
  refine tenant_then tenant_now fun now _ => ?_
  refine write_bind (saves_whole (ours_same ours rfl rfl rfl rfl)) (fun _ => rfl) fun _ => ?_
  exact emit_bind (congrArg some (ours_workspace ours rfl)) fun _ => trivial

/-- The lookup by id alone, of a row that was found before. -/
theorem again_tenant {session : Session} {id : Uuid} (ours : Row.Ours home w .sessions session)
    (has_id : session.id = id) :
    Tenant home w (fun _ => True) (Svc.findOne .sessions fun session => session.id == id) :=
  tenant_any (tenant_findOne rfl fun _ _ hit =>
    (congrArg home ((beq_iff_eq.mp hit).trans has_id.symm)).trans ours.here)

theorem startSession_tenant (h : Helpers) (id : Uuid) :
    Tenant home w (fun _ => True) (SessionsService.start h id (some w) uid) := by
  refine tenant_then (session_tenant id) fun session found => ?_
  refine tenant_then (getOpenwaCredentials_tenant h) fun creds is_ours => ?_
  refine tenant_then (setStatus_tenant found.1 _ _) fun _ _ => ?_
  refine tenant_then (openwa_tenant is_ours _ _ _) fun _ _ => ?_
  exact again_tenant found.1 found.2

theorem stopSession_tenant (h : Helpers) (id : Uuid) :
    Tenant home w (fun _ => True) (SessionsService.stop h id (some w) uid) := by
  refine tenant_then (session_tenant id) fun session found => ?_
  refine tenant_then (getOpenwaCredentials_tenant h) fun creds is_ours => ?_
  refine tenant_then (openwa_tenant is_ours _ _ _) fun _ _ => ?_
  refine tenant_then (setStatus_tenant found.1 _ _) fun _ _ => ?_
  exact again_tenant found.1 found.2

theorem removeSession_tenant (h : Helpers) (id : Uuid) :
    Tenant home w (fun _ => True) (SessionsService.remove h id (some w) uid) := by
  refine role_bind fun _ => tenant_then (session_tenant id) fun session found => ?_
  refine tenant_then (getOpenwaCredentials_tenant h) fun creds is_ours => ?_
  refine tenant_then (tenant_attempt (openwa_tenant is_ours _ _ _)) fun _ _ => ?_
  exact write_bind ⟨rfl, found.1.here⟩ (fun _ => rfl) fun _ => trivial

theorem sessionQr_tenant (h : Helpers) (id : Uuid) :
    Tenant home w (fun _ => True) (SessionsService.getQr h id (some w) uid) := by
  refine tenant_then (session_tenant id) fun session found => ?_
  refine tenant_then (getOpenwaCredentials_tenant h) fun creds is_ours => ?_
  refine tenant_then (openwa_tenant is_ours _ _ _) fun res _ => ?_
  split
  · trivial
  · exact emit_bind rfl fun _ => trivial

theorem sessionStatus_tenant (h : Helpers) (id : Uuid) :
    Tenant home w (fun _ => True) (SessionsService.getStatus h id (some w) uid) := by
  refine tenant_then (session_tenant id) fun session found => ?_
  refine tenant_then (getOpenwaCredentials_tenant h) fun creds is_ours => ?_
  refine tenant_then (tenant_attempt (openwa_tenant is_ours _ _ _)) fun res _ => ?_
  dsimp only
  split
  · trivial
  · split
    · trivial
    · exact tenant_then (setStatus_tenant found.1 _ _) fun _ _ => trivial

/-! #### Messages -/

theorem sendEach_tenant {session : Session} (content : String) (delay : Int) :
    ∀ (recipients : List String) (index : Nat), Tenant home w (fun _ => True)
      (MessagesService.sendEach (some w) session content delay index recipients) := by
  intro recipients
  induction recipients with
  | nil => exact fun _ => trivial
  | cons first rest ih =>
    exact fun index => tenant_add_bind rfl (fun _ _ => rfl) fun _ => ih (index + 1)

/-! #### Broadcasts -/

theorem resolvePhones_tenant (contactIds : List Uuid) :
    Tenant home w (fun _ => True) (ContactsService.resolvePhones (some w) contactIds) := by
  unfold ContactsService.resolvePhones
  split
  · trivial
  · refine tenant_then (query_tenant rfl fun row hit => congrArg some ?_) fun _ _ => trivial
    exact beq_iff_eq.mp (Bool.and_eq_true_iff.mp hit).1

theorem createBroadcast_tenant (h : Helpers) (dto : CreateBroadcastDto) :
    Tenant home w (fun _ => True) (BroadcastsService.create h (some w) uid dto) := by
  refine role_bind fun _ => tenant_then (session_tenant _) fun session found => ?_
  refine tenant_then (resolvePhones_tenant _) fun contacts _ => ?_
  dsimp only
  split
  · trivial
  · refine write_tenant (fun make is_draft input ids => ?_) fun _ => rfl
    cases is_draft
    have here : home (input.ids 0) = w := ids 0
    refine ⟨rfl, here, ⟨fun v named => ?_, fun _ named => ?_, fun sid named => ?_⟩⟩
    · cases named
      exact here
    · cases named
    · cases named
      exact found.1.here.trans here.symm

/-- An edited broadcast is the workspace's as before. -/
theorem ours_edited {broadcast other : Broadcast} (ours : Row.Ours home w .broadcasts broadcast)
    (edited : Edited broadcast other) : Row.Ours home w .broadcasts other := by
  rw [Edited] at edited
  rw [edited]
  exact ours_same ours rfl rfl rfl rfl

theorem updateBroadcast_tenant (id : Uuid) (dto : UpdateBroadcastDto) :
    Tenant home w (fun _ => True) (BroadcastsService.update id (some w) uid dto) := by
  refine role_bind fun _ => tenant_then (broadcast_tenant id) fun broadcast found => ?_
  split
  · trivial
  · refine write_bind ⟨?_, fun other writes => ?_⟩ (fun _ => rfl) fun _ => trivial
    · exact (ours_edited found.1 (assign_row broadcast dto)).here
    · exact ours_edited found.1 (assign_writes writes)

theorem sendBroadcast_tenant (id : Uuid) :
    Tenant home w (fun _ => True) (BroadcastsService.send id (some w) uid) := by
  refine role_bind fun _ => tenant_then (broadcast_tenant id) fun broadcast found => ?_
  split
  · trivial
  · refine write_bind (saves_whole (ours_same found.1 rfl rfl rfl rfl)) (fun _ => rfl) fun _ => ?_
    refine tenant_then tenant_now fun now _ => ?_
    exact tenant_add_bind (congrArg some found.1.here) (fun _ _ => rfl) fun _ => trivial

/-! #### Automations -/

/-- New actions carry no stored row. -/
theorem oursLoaded_created (given : List ActionDto) :
    OursLoaded home w (given.map AutomationsService.created) := by
  intro row loaded
  obtain ⟨_, _, is_loaded⟩ := List.mem_map.mp loaded
  cases is_loaded

theorem createAutomation_tenant (dto : CreateAutomationDto) :
    Tenant home w (fun _ => True) (AutomationsService.create (some w) uid dto) := by
  refine role_bind fun _ => ?_
  have path : Tenant home w (fun _ => True) (AutomationsService.withPath dto) := by
    unfold AutomationsService.withPath
    split
    · exact fun _ => trivial
    · trivial
  refine tenant_then path fun config _ => write_tenant ⟨fun make is_draft input ids => ?_,
    fun row loaded => ?_⟩ fun _ => rfl
  · cases is_draft
    exact ours_root rfl rfl rfl rfl (ids 0)
  · exact oursLoaded_created dto.actions row loaded

theorem replaceActions_tenant {id : Uuid} (here : home id = w) {actions : List AutomationAction}
    (loaded : OursLoaded home w (actions.map .loaded)) (given : Field (List ActionDto)) :
    Tenant home w (OursLoaded home w) (AutomationsService.replaceActions id actions given) := by
  cases given with
  | undefined => exact loaded
  | null => exact write_bind here (fun _ => rfl) fun _ => trivial
  | value given => exact write_bind here (fun _ => rfl) fun _ => oursLoaded_created given

theorem updateAutomation_tenant (id : Uuid) (dto : UpdateAutomationDto) :
    Tenant home w (fun _ => True) (AutomationsService.update id (some w) uid dto) := by
  refine role_bind fun _ => tenant_then (automation_tenant id) fun loaded found => ?_
  obtain ⟨ours, has_id, children⟩ := found
  have here : home id = w := has_id ▸ ours.here
  refine tenant_then (replaceActions_tenant here children dto.actions) fun actions kept => ?_
  refine write_bind ⟨saves_assigned ours fun other assigned => ?_, kept⟩ (fun _ => rfl)
    fun _ => trivial
  obtain ⟨same, owner, _⟩ := AutomationsService.assign_keeps assigned
  exact ours_same ours (congrArg (·, "") same) (congrArg some owner) rfl rfl

theorem setActive_tenant (id : Uuid) (active : Bool) :
    Tenant home w (fun _ => True) (AutomationsService.setActive id (some w) uid active) := by
  refine role_bind fun _ => tenant_then (automation_tenant id) fun loaded found => ?_
  exact write_bind ⟨saves_whole (ours_same found.1 rfl rfl rfl rfl), found.2.2⟩ (fun _ => rfl)
    fun _ => trivial

/-! #### Webhooks -/

theorem createWebhook_tenant (dto : CreateWebhookDto) :
    Tenant home w (fun _ => True) (WebhooksService.create (some w) uid dto) := by
  refine role_bind fun _ => write_tenant (fun make is_draft input ids => ?_) fun _ => rfl
  obtain lacks | ⟨draft, is_this, names⟩ := Isolation.draft_cases w dto
  · rw [lacks] at is_draft
    cases is_draft
  · rw [is_this] at is_draft
    cases is_draft
    exact ours_root rfl rfl rfl (congrArg some (names input).2)
      ((congrArg home (names input).1).trans (ids 0))

theorem updateWebhook_tenant (id : Uuid) (dto : UpdateWebhookDto) :
    Tenant home w (fun _ => True) (WebhooksService.update id (some w) uid dto) := by
  refine role_bind fun _ => tenant_then (webhook_tenant id) fun webhook found => ?_
  refine write_bind (saves_assigned found.1 fun other assigned => ?_) (fun _ => rfl)
    fun _ => trivial
  obtain ⟨same, owner⟩ := WebhooksService.assign_keeps assigned
  exact ours_same found.1 (congrArg (·, "") same) (congrArg some owner) rfl rfl

/-! #### All of them -/

/-- An answer but for the number of a job. -/
def unnumbered : (endpoint : Endpoint) → endpoint.Answer → endpoint.Answer
  | .sendMessage _, reply => { reply with jobId := 0 }
  | .testAutomation _ _, reply => { reply with jobId := 0 }
  | _, reply => reply

/-- A row of the workspace named by a column. -/
theorem named_where {table : Table} {column : Row table → Uuid}
    (names : ∀ row, Row.workspace table row = some (column row)) (row : Row table)
    (hit : Svc.whereIs (some w) (column row) = true) : Row.workspace table row = some w :=
  (names row).trans (congrArg some (beq_iff_eq.mp hit))

/-- The log rows of a time range. -/
theorem named_between {start stop : Time} (rest : MessageLog → Bool) (row : MessageLog)
    (hit : (AnalyticsService.between (some w) start stop row && rest row) = true) :
    Row.workspace .logs row = some w :=
  Isolation.between_inside rest row hit

/-- What is answered does not tell the number of a job. -/
theorem answered {endpoint : Endpoint} {program : Svc endpoint.Answer}
    (held : Tenant home w (fun _ => True) program) :
    Tenant home w (fun _ => True) (program >>= fun answer => .ret (unnumbered endpoint answer)) :=
  tenant_then held fun _ _ => trivial

/-- **Every endpoint** called for a workspace makes calls on its behalf only. -/
theorem endpoint_tenant (h : Helpers) (uid : Uuid) (endpoint : Endpoint) :
    Tenant home w (fun _ => True)
      (endpoint.program h (some w) uid >>= fun answer => .ret (unnumbered endpoint answer)) := by
  cases endpoint with
  | sendMessage dto =>
    refine tenant_assoc (member_bind fun _ => tenant_assoc ?_)
    refine tenant_then (session_tenant dto.sessionId) fun session _ => tenant_assoc ?_
    exact tenant_add_bind rfl (fun _ _ => rfl) fun _ => trivial
  | testAutomation id body =>
    refine tenant_assoc (tenant_then (automation_tenant id) fun loaded found => tenant_assoc ?_)
    have owner := ours_workspace found.1 rfl
    refine emit_bind (congrArg some owner) fun _ => tenant_assoc ?_
    exact tenant_add_bind (congrArg some owner) (fun _ _ => rfl) fun _ => trivial
  -- contacts
  | listGroups => exact answered (member_bind fun _ => rows_tenant rfl fun _ => rfl)
  | createGroup dto =>
    exact answered (member_bind fun _ => write_tenant
      (insert_local rfl (fun _ => rfl) (fun _ => rfl) (fun _ => rfl) fun _ => rfl) fun _ => rfl)
  | updateGroup id dto => exact answered (updateGroup_tenant id dto)
  | removeGroup id =>
    exact answered (member_bind fun _ => tenant_then (group_tenant id) fun group found =>
      write_bind ⟨rfl, found.1.here⟩ (fun _ => rfl) fun _ => trivial)
  | findContacts query =>
    refine answered (member_bind fun _ =>
      tenant_then (query_tenant rfl fun row hit => congrArg some ?_) fun _ _ => trivial)
    simp only [ContactsService.matching, Bool.and_eq_true, beq_iff_eq] at hit
    exact (Option.some.inj hit.1.1.1).symm
  | createContact dto =>
    exact answered (member_bind fun _ => write_tenant
      (insert_local rfl (fun _ => rfl) (fun _ => rfl) (fun _ => rfl) fun _ => rfl) fun _ => rfl)
  | importContacts rows => exact answered (member_bind fun _ => importRows_tenant rows _)
  | findContact id => exact answered (tenant_any (contact_tenant id))
  | updateContact id dto => exact answered (updateContact_tenant id dto)
  | removeContact id =>
    exact answered (tenant_then (contact_tenant id) fun contact found =>
      write_bind ⟨rfl, found.1.here⟩ (fun _ => rfl) fun _ => trivial)
  | blacklistContact id =>
    exact answered (tenant_then (contact_tenant id) fun contact found =>
      write_bind (saves_whole (ours_same found.1 rfl rfl rfl rfl)) (fun _ => rfl) fun _ => trivial)
  -- sessions
  | findSessions => exact answered (member_bind fun _ => rows_tenant rfl fun _ => rfl)
  | createSession dto =>
    exact answered (role_bind fun _ => tenant_then tenant_randomHex fun _ _ => write_tenant
      (insert_local rfl (fun _ => rfl) (fun _ => rfl) (fun _ => rfl) fun _ => rfl) fun _ => rfl)
  | findSession id => exact answered (tenant_any (session_tenant id))
  | updateSession id dto => exact answered (updateSession_tenant id dto)
  | sessionQr id => exact answered (sessionQr_tenant h id)
  | startSession id => exact answered (startSession_tenant h id)
  | stopSession id => exact answered (stopSession_tenant h id)
  | sessionStatus id => exact answered (sessionStatus_tenant h id)
  | removeSession id => exact answered (removeSession_tenant h id)
  -- messages
  | sendBulk dto =>
    exact answered (member_bind fun _ => tenant_then (session_tenant dto.sessionId) fun session _ =>
      tenant_then (sendEach_tenant _ _ _ _) fun _ _ => trivial)
  | findLogs query =>
    refine answered (member_bind fun _ =>
      tenant_then (query_tenant rfl fun row hit => congrArg some ?_) fun _ _ => trivial)
    simp only [MessagesService.matching, Bool.and_eq_true, beq_iff_eq] at hit
    exact (Option.some.inj hit.1.1.1.1).symm
  | findLog id =>
    exact answered (member_bind fun _ =>
      tenant_lookup_bind rfl (fun _ => rfl) trivial fun _ _ _ => trivial)
  -- broadcasts
  | findBroadcasts =>
    exact answered (member_bind fun _ =>
      tenant_then (rows_tenant rfl fun _ => rfl) fun _ _ => trivial)
  | createBroadcast dto => exact answered (createBroadcast_tenant h dto)
  | findBroadcast id => exact answered (tenant_any (broadcast_tenant id))
  | updateBroadcast id dto => exact answered (updateBroadcast_tenant id dto)
  | removeBroadcast id =>
    exact answered (role_bind fun _ => tenant_then (broadcast_tenant id) fun broadcast found =>
      write_bind ⟨rfl, found.1.here⟩ (fun _ => rfl) fun _ => trivial)
  | sendBroadcast id => exact answered (sendBroadcast_tenant id)
  | cancelBroadcast id =>
    exact answered (role_bind fun _ => tenant_then (broadcast_tenant id) fun broadcast found =>
      write_bind (saves_whole (ours_same found.1 rfl rfl rfl rfl)) (fun _ => rfl) fun _ => trivial)
  | broadcastStatus id =>
    exact answered (tenant_then (broadcast_tenant id) fun _ _ => trivial)
  | broadcastReport id =>
    refine answered (tenant_then (broadcast_tenant id) fun broadcast found => ?_)
    have inside : ∀ row, Row.Homed home .recipients row → (row.broadcastId == id) = true →
        home row.id = w := by
      intro row homed hit
      have parent := homed.parent _ rfl
      rw [beq_iff_eq.mp hit, ← found.2] at parent
      exact parent.symm.trans found.1.here
    exact tenant_then (tenant_find rfl inside) fun _ _ => trivial
  -- automations
  | findAutomations =>
    exact answered (member_bind fun _ => write_tenant (inside_column fun _ => rfl) fun _ => rfl)
  | createAutomation dto => exact answered (createAutomation_tenant dto)
  | findAutomation id => exact answered (tenant_any (automation_tenant id))
  | updateAutomation id dto => exact answered (updateAutomation_tenant id dto)
  | removeAutomation id =>
    exact answered (role_bind fun _ => tenant_then (automation_tenant id) fun loaded found =>
      write_bind ⟨rfl, found.1.here⟩ (fun _ => rfl) fun _ => trivial)
  | enableAutomation id => exact answered (setActive_tenant id true)
  | disableAutomation id => exact answered (setActive_tenant id false)
  -- webhooks
  | findWebhooks => exact answered (member_bind fun _ => rows_tenant rfl fun _ => rfl)
  | createWebhook dto => exact answered (createWebhook_tenant dto)
  | findWebhook id => exact answered (tenant_any (webhook_tenant id))
  | updateWebhook id dto => exact answered (updateWebhook_tenant id dto)
  | removeWebhook id =>
    exact answered (role_bind fun _ => tenant_then (webhook_tenant id) fun webhook found =>
      write_bind ⟨rfl, found.1.here⟩ (fun _ => rfl) fun _ => trivial)
  | testWebhook id =>
    exact answered (tenant_then (webhook_tenant id) fun webhook found =>
      tenant_then tenant_now fun _ _ =>
        tenant_add_bind (congrArg some found.1.here) (fun _ _ => rfl) fun _ => trivial)
  | webhookLogs id =>
    refine answered (tenant_then (webhook_tenant id) fun webhook found => ?_)
    have inside : ∀ row, Row.Homed home .deliveries row → (row.webhookId == id) = true →
        home row.id = w := by
      intro row homed hit
      have parent := homed.parent _ rfl
      rw [beq_iff_eq.mp hit, ← found.2] at parent
      exact parent.symm.trans found.1.here
    exact write_bind (.inr inside) (fun _ => rfl) fun _ => trivial
  -- API keys
  | findApiKeys => exact answered (member_bind fun _ => rows_tenant rfl fun _ => rfl)
  | createApiKey dto =>
    exact answered (role_bind fun _ => tenant_then tenant_randomHex fun _ _ => write_bind
      (insert_local rfl (fun _ => rfl) (fun _ => rfl) (fun _ => rfl) fun _ => rfl) (fun _ => rfl)
        fun _ => trivial)
  | removeApiKey id =>
    exact answered (role_bind fun _ => tenant_lookup_bind rfl (fun _ => rfl) trivial
      fun key ours _ => write_bind ⟨rfl, ours.here⟩ (fun _ => rfl) fun _ => trivial)
  -- analytics
  | overview =>
    refine answered (member_bind fun _ => tenant_then tenant_now fun _ _ => ?_)
    refine tenant_then (count_tenant rfl fun row hit => ?_) fun _ _ =>
      tenant_then (count_tenant rfl (named_between _)) fun _ _ =>
        tenant_then (count_tenant rfl (named_between _)) fun _ _ =>
          tenant_then (count_tenant rfl (named_between _)) fun _ _ =>
            tenant_then (count_tenant rfl fun row hit => ?_) fun _ _ =>
              tenant_then (count_tenant rfl fun row hit => ?_) fun _ _ => trivial
    · exact named_between (fun _ => true) row (by rw [hit, Bool.and_true])
    · exact named_where (fun _ => rfl) row (Bool.and_eq_true_iff.mp hit).1
    · exact named_where (fun _ => rfl) row (Bool.and_eq_true_iff.mp hit).1
  | messages sent until_ =>
    refine answered (member_bind fun _ => tenant_then tenant_now fun _ _ =>
      tenant_then (query_tenant rfl fun row hit => congrArg some ?_) fun _ _ => trivial)
    simp only [Bool.and_eq_true, beq_iff_eq] at hit
    exact (Option.some.inj hit.1.1).symm
  | automationStats =>
    exact answered (member_bind fun _ =>
      tenant_then (rows_tenant rfl fun _ => rfl) fun _ _ => trivial)
  | sessionStats =>
    refine answered (member_bind fun _ => tenant_then (query_tenant rfl fun row hit => ?_)
      fun _ _ => tenant_then (rows_tenant rfl fun _ => rfl) fun _ _ => trivial)
    exact congrArg some (Option.some.inj (beq_iff_eq.mp hit)).symm
  | broadcastStats =>
    exact answered (member_bind fun _ =>
      tenant_then (rows_tenant rfl fun _ => rfl) fun _ _ => trivial)

end Endpoints

/-! ### Processors -/

section Processors

variable {home : Uuid → Uuid} {w : Uuid}

/-- A log row of the workspace. -/
theorem record_tenant {data : MessageRecord} (ours : data.workspaceId = some w) :
    Tenant home w (fun _ => True) (MessagesService.record data) := by
  unfold MessagesService.record
  rw [ours]
  exact write_tenant
    (insert_local rfl (fun _ => rfl) (fun _ => rfl) (fun _ => rfl) fun _ => rfl) fun _ => rfl

theorem deliver_tenant {creds : OpenwaCredentials} (ours : creds.workspaceId = w)
    (data : SendMessageJob) :
    Tenant home w (fun _ => True) (MessageProcessor.deliver creds data) := by
  unfold MessageProcessor.deliver
  cases data.type <;> exact openwa_tenant ours _ _ _

/-- **A run of the message processor** on a job of the workspace. -/
theorem message_tenant (h : Helpers) {data : SendMessageJob} (ours : data.workspaceId = some w) :
    Tenant home w (fun _ => True) (MessageProcessor.process h data) := by
  have sends {creds : OpenwaCredentials} (is_ours : creds.workspaceId = w) :
      Tenant home w (fun _ => True) (MessageProcessor.attemptSend creds data) := by
    refine tenant_then (deliver_tenant is_ours data) fun res _ => ?_
    refine tenant_then (record_tenant ours) fun _ _ => ?_
    exact emit_bind ours fun _ => trivial
  unfold MessageProcessor.process
  rw [ours]
  refine tenant_then (getOpenwaCredentials_tenant h) fun creds is_ours => ?_
  refine tenant_then (tenant_attempt (sends is_ours)) fun result _ => ?_
  cases result with
  | ok waMessageId => trivial
  | error err => exact tenant_then (record_tenant ours) fun _ _ => trivial

/-- The entity a broadcast run keeps in memory stays a row of the workspace. -/
theorem recordFailure_tenant {broadcast : Broadcast} {recipient : BroadcastRecipient}
    (ours : Row.Ours home w .broadcasts broadcast) (theirs : Row.Ours home w .recipients recipient)
    (err : Err) : Tenant home w (Row.Ours home w .broadcasts)
      (BroadcastProcessor.recordFailure broadcast recipient err) :=
  write_bind (saves_whole (ours_same theirs rfl rfl rfl rfl)) (fun _ => rfl)
    fun _ => ours_same ours rfl rfl rfl rfl

theorem recordSuccess_tenant {ctx : BroadcastProcessor.Context} {broadcast : Broadcast}
    {recipient : BroadcastRecipient} (ours : Row.Ours home w .broadcasts broadcast)
    (theirs : Row.Ours home w .recipients recipient) (message : String) (res : OpenwaResponse) :
    Tenant home w (Row.Ours home w .broadcasts)
      (BroadcastProcessor.recordSuccess ctx broadcast recipient message res) := by
  refine tenant_then tenant_now fun now _ => ?_
  have sent : Row.Ours home w .recipients (BroadcastProcessor.recipientSent recipient now) :=
    ours_same theirs rfl rfl rfl rfl
  have saves : Tenant home w (fun _ => True)
      (Svc.save .recipients (BroadcastProcessor.recipientSent recipient now)) :=
    write_tenant (saves_whole sent) fun _ => rfl
  refine tenant_then (tenant_attempt saves) fun result _ => ?_
  cases result with
  | error err => exact recordFailure_tenant ours sent err
  | ok _ =>
    have owner : broadcast.workspaceId = w := ours_workspace ours rfl
    refine tenant_then (tenant_attempt (record_tenant (congrArg some owner))) fun _ _ => ?_
    exact ours_same ours rfl rfl rfl rfl

theorem sendLoop_tenant (h : Helpers) {ctx : BroadcastProcessor.Context}
    (is_ours : ctx.creds.workspaceId = w) :
    ∀ (pending : List BroadcastRecipient) (broadcast : Broadcast),
      Row.Ours home w .broadcasts broadcast →
        (∀ recipient ∈ pending, Row.Ours home w .recipients recipient) →
          Tenant home w (fun _ => True) (BroadcastProcessor.sendLoop h ctx broadcast pending) := by
  intro pending
  induction pending with
  | nil =>
    intro broadcast ours _
    refine tenant_then tenant_now fun now _ => ?_
    exact write_bind (saves_whole (ours_same ours rfl rfl rfl rfl)) (fun _ => rfl) fun _ => trivial
  | cons recipient pending ih =>
    intro broadcast ours all
    have theirs := all recipient List.mem_cons_self
    refine write_bind ours.here (fun _ => rfl) fun fresh => ?_
    split
    · trivial
    · refine tenant_then tenant_lift fun message _ => ?_
      have delivers : Tenant home w (Row.Ours home w .broadcasts)
          (BroadcastProcessor.deliver ctx broadcast recipient message) := by
        refine tenant_then (tenant_attempt (openwa_tenant is_ours _ _ _)) fun result _ => ?_
        cases result with
        | error err => exact recordFailure_tenant ours theirs err
        | ok res => exact recordSuccess_tenant ours theirs message res
      refine tenant_then delivers fun next ours_next => ?_
      refine write_bind (saves_whole ours_next) (fun _ => rfl) fun _ => ?_
      have announces : Tenant home w (fun _ => True) (BroadcastProcessor.announce next) :=
        emit_bind (congrArg some (ours_workspace ours_next rfl)) fun _ =>
          write_tenant trivial fun _ => rfl
      exact tenant_then announces fun _ _ =>
        ih next ours_next fun other member => all other (List.mem_cons_of_mem _ member)

/-- **A run of the broadcast processor** on a job of the workspace. -/
theorem broadcastRun_tenant (h : Helpers) {data : BroadcastJob} (here : home data.broadcastId = w) :
    Tenant home w (fun _ => True) (BroadcastProcessor.process h data) := by
  have finds : Tenant home w (fun found => ∀ row, found = some row →
      Row.Ours home w .broadcasts row ∧ (row.id == data.broadcastId) = true)
      (Svc.findOne .broadcasts fun broadcast => broadcast.id == data.broadcastId) :=
    tenant_findOne rfl fun row _ hit => (congrArg home (beq_iff_eq.mp hit)).trans here
  refine tenant_then finds fun found all => ?_
  cases found with
  | none => trivial
  | some broadcast =>
    have ours := (all broadcast rfl).1
    have session : home broadcast.sessionId = w :=
      (ours.homed.session _ rfl).trans ours.here
    have looks : Tenant home w (fun _ => True) (SessionsService.getById broadcast.sessionId) := by
      refine tenant_then (tenant_findOne rfl fun row _ hit => ?_) fun result _ => ?_
      · exact (congrArg home (beq_iff_eq.mp hit)).trans session
      · cases result <;> trivial
    have owner : broadcast.workspaceId = w := ours_workspace ours rfl
    subst owner
    refine tenant_then looks fun session _ => ?_
    refine tenant_then (getOpenwaCredentials_tenant h) fun creds is_ours => ?_
    refine tenant_then tenant_now fun now _ => ?_
    have started : Row.Ours home broadcast.workspaceId .broadcasts
        { broadcast with status := .sending, startedAt := some now } :=
      ours_same ours rfl rfl rfl rfl
    refine write_bind (saves_whole started) (fun _ => rfl) fun _ => ?_
    have pending : Tenant home broadcast.workspaceId (fun rows => ∀ row ∈ rows,
        Row.Ours home broadcast.workspaceId .recipients row ∧
          (row.broadcastId == broadcast.id && row.status == .pending) = true)
        (Svc.find .recipients fun recipient =>
          recipient.broadcastId == broadcast.id && recipient.status == .pending) := by
      refine tenant_find rfl fun row homed hit => ?_
      have parent := homed.parent _ rfl
      rw [beq_iff_eq.mp (Bool.and_eq_true_iff.mp hit).1] at parent
      exact parent.symm.trans ours.here
    exact tenant_then pending fun rows rows_ours =>
      sendLoop_tenant h is_ours rows _ started fun row member => (rows_ours row member).1

end Processors

end Tenants

end WaAutomation
