/-
**Referential integrity of the tenant data.**

Operations on accounts, workspaces and everything a workspace holds, one after the other. What an
operation writes refers to rows its guards and lookups have just seen; what it deletes may still be
referred to, and the session an automation names is never looked up.

* `Sound`: every call an operation makes keeps integrity when it is careful;
* `request_sound`: every operation is sound, whatever it finds;
* `integrity_kept`: a sequence of operations whose calls are careful keeps integrity, and for a
  workspace that is not there no API key validates and the scheduler enqueues nothing;
* `integrity_lost`: a workspace deleted with its API key and its automation still there.
-/

import WaAutomation.Accounts.Owners
import WaAutomation.Broadcasts.System
import WaAutomation.Model.Triggers
import WaAutomation.Tenancy.References

set_option linter.unusedSectionVars false

namespace WaAutomation.References

open Library Program

/-! ### Sound programs -/

/-- Every call of the program keeps integrity, in the store it finds. -/
def Sound {α : Type} (store : Store) (program : Svc α) : Prop :=
  program.Safe exec (alone (fun _ => True) Keeps) (fun _ _ => True) store

/-- The call changes no table. -/
def Quiet (call : Call) : Prop := ∀ table, call.writes table = false

/-- The call keeps integrity wherever it is made. -/
def Harmless (call : Call) : Prop := ∀ input store, Keeps call input store

theorem Quiet.harmless {call : Call} (quiet : Quiet call) : Harmless call :=
  fun _ _ => keeps_quiet quiet

theorem Quiet.reads {call : Call} (reads : call.reads = true) : Quiet call :=
  Call.reads_writes reads

theorem Harmless.light {call : Call} (light : call.light = true) : Harmless call := by
  cases call with
  | remove table row => exact fun _ _ => keeps_remove table row
  | deleteActions automationId => exact fun _ _ => keeps_deleteActions automationId
  | insert | insertBroadcast | insertAutomation => cases light
  | save | saveAutomation | update | elsewhere => cases light
  | _ => exact Quiet.harmless fun _ => rfl

section Rules

variable {store : Store} {α β : Type}

theorem frames : Frames exec (alone (fun _ => True) Keeps) Store.db Quiet := by
  rintro call quiet store _ input ⟨rfl, _⟩
  exact ⟨keeps_quiet quiet, funext fun table => exec_other call input _ (quiet table)⟩

/-- Calls that need no context. -/
theorem sound_harmless {program : Svc α} (calls : program.Calls Harmless) : Sound store program :=
  safe_of_calls (fun _ input store harmless => harmless input store) calls

theorem sound_light {program : Svc α} (light : Light program) : Sound store program :=
  sound_harmless (calls_mono (fun _ => Harmless.light) light)

/-- One sound program after another. -/
theorem sound_then {program : Svc α} {rest : α → Svc β} (first : Sound store program)
    (continues : ∀ value {store' : Store}, Sound store' (rest value)) :
    Sound store (program >>= rest) := by
  refine safe_bind (safe_mono (fun result store' _ => ?_) first)
  cases result with
  | ok value => exact continues value
  | error error => trivial

/-- Calls that change nothing come first. -/
theorem sound_quiet_bind {program : Svc α} {rest : α → Svc β} (calls : program.Calls Quiet)
    (continues : ∀ value store', store'.db = store.db → Sound store' (rest value)) :
    Sound store (program >>= rest) :=
  safe_frame_bind frames calls (fun _ _ _ => trivial) continues

theorem sound_reads_bind {program : Svc α} {rest : α → Svc β} (reads : Reads program)
    (continues : ∀ value store', store'.db = store.db → Sound store' (rest value)) :
    Sound store (program >>= rest) :=
  sound_quiet_bind (calls_of_reads reads fun _ => Quiet.reads) continues

/-- One call, and what it leaves. -/
theorem sound_call_bind {call : Call} {rest : Resp call → Svc β}
    (keeps : ∀ input, Keeps call input store)
    (continues : ∀ input value, (exec call input store).1 = .ok value →
      Sound (exec call input store).2 (rest value)) :
    Sound store (Svc.call call >>= rest) := by
  refine safe_bind (safe_perform ?_)
  rintro store' input ⟨rfl, _⟩
  refine ⟨keeps input, ?_⟩
  cases reply : (exec call input store').1 with
  | ok value => exact continues input value reply
  | error error => trivial

/-- A last call. -/
theorem sound_call {call : Call} (keeps : ∀ input, Keeps call input store) :
    Sound store (Svc.call call) := by
  refine safe_perform ?_
  rintro _ input ⟨rfl, _⟩
  exact ⟨keeps input, trivial⟩

/-- **The rule of a lookup**: the row it finds is stored. -/
theorem sound_findOne_bind {table : Table} {matching : Row table → Bool}
    {rest : Option (Row table) → Svc β}
    (missing : ∀ store', store'.db = store.db → Sound store' (rest none))
    (found : ∀ row store', store'.db = store.db → row ∈ store'.db table → matching row = true →
      Sound store' (rest (some row))) :
    Sound store (Svc.findOne table matching >>= rest) := by
  refine safe_findOne_bind (stable_of_frames frames store) (fun _ => rfl) rfl
    (fun _ _ _ => trivial) fun store' same => ?_
  cases is_found : (store'.db table).find? matching with
  | none => exact missing store' same
  | some row =>
    exact found row store' same (List.mem_of_find?_eq_some is_found) (List.find?_some is_found)

end Rules

/-! ### Guards and lookups -/

/-- The workspace of a request has a member. -/
def Joined (db : Db) (ws : Option Uuid) : Prop :=
  ∀ w ∈ ws, ∃ member ∈ db .members, member.workspaceId = w

theorem Joined.has {db : Db} {ws : Option Uuid} (joined : Joined db ws) (whole : db.Integrity) :
    ∀ w ∈ ws, db.has .workspaces w = true := by
  intro w is_ws
  obtain ⟨member, listed, rfl⟩ := joined w is_ws
  exact whole .members member listed _ List.mem_cons_self

section Lookups

variable {ws : Option Uuid} {uid id : Uuid} {store : Store} {β : Type}

theorem assertMember_bind {rest : WorkspaceMember → Svc β}
    (continues : ∀ member store', store'.db = store.db → Joined store'.db ws →
      Sound store' (rest member)) :
    Sound store (WorkspacesService.assertMember ws uid >>= rest) := by
  unfold WorkspacesService.assertMember
  rw [Program.bind_assoc]
  refine sound_findOne_bind (fun _ _ => trivial) fun member store' same listed hit => ?_
  refine continues member store' same fun w is_ws => ⟨member, listed, ?_⟩
  cases is_ws
  exact beq_iff_eq.mp (Bool.and_eq_true_iff.mp hit).1

theorem assertRole_bind {roles : List String} {rest : WorkspaceMember → Svc β}
    (continues : ∀ member store', store'.db = store.db → Joined store'.db ws →
      Sound store' (rest member)) :
    Sound store (WorkspacesService.assertRole ws uid roles >>= rest) := by
  unfold WorkspacesService.assertRole
  rw [Program.bind_assoc]
  refine assertMember_bind fun member store' same joined => ?_
  by_cases holds : roles.contains member.role
  · rw [if_pos holds]
    exact continues member store' same joined
  · rw [if_neg holds]
    trivial

theorem session_bind {rest : Session → Svc β}
    (found : ∀ row store', store'.db = store.db → row ∈ store'.db .sessions →
      Sound store' (rest row)) :
    Sound store (SessionsService.findOne id ws uid >>= rest) := by
  unfold SessionsService.findOne
  simp only [Program.bind_assoc]
  refine assertMember_bind fun _ _ same _ => ?_
  exact sound_findOne_bind (fun _ _ => trivial) fun row store' same' listed _ =>
    found row store' (same'.trans same) listed

theorem contact_bind {rest : Contact → Svc β}
    (found : ∀ row store', row ∈ store'.db .contacts → Sound store' (rest row)) :
    Sound store (ContactsService.findOne id ws uid >>= rest) := by
  unfold ContactsService.findOne
  simp only [Program.bind_assoc]
  refine assertMember_bind fun _ _ _ _ => ?_
  exact sound_findOne_bind (fun _ _ => trivial) fun row store' _ listed _ => found row store' listed

theorem group_bind {rest : ContactGroup → Svc β}
    (found : ∀ row store', row ∈ store'.db .groups → Sound store' (rest row)) :
    Sound store (ContactsService.findGroup id ws >>= rest) := by
  unfold ContactsService.findGroup
  simp only [Program.bind_assoc]
  exact sound_findOne_bind (fun _ _ => trivial) fun row store' _ listed _ => found row store' listed

theorem broadcast_bind {rest : Broadcast → Svc β}
    (found : ∀ row store', row ∈ store'.db .broadcasts → Sound store' (rest row)) :
    Sound store (BroadcastsService.findOne id ws uid >>= rest) := by
  unfold BroadcastsService.findOne
  simp only [Program.bind_assoc]
  refine assertMember_bind fun _ _ _ _ => ?_
  exact sound_findOne_bind (fun _ _ => trivial) fun row store' _ listed _ => found row store' listed

theorem webhook_bind {rest : Webhook → Svc β}
    (found : ∀ row store', row ∈ store'.db .webhooks → Sound store' (rest row)) :
    Sound store (WebhooksService.findOne id ws uid >>= rest) := by
  unfold WebhooksService.findOne
  simp only [Program.bind_assoc]
  refine assertMember_bind fun _ _ _ _ => ?_
  exact sound_findOne_bind (fun _ _ => trivial) fun row store' _ listed _ => found row store' listed

theorem automation_bind {rest : LoadedAutomation → Svc β}
    (found : ∀ row actions store', row ∈ store'.db .automations →
      Sound store' (rest (row, actions))) :
    Sound store (AutomationsService.findOne id ws uid >>= rest) := by
  unfold AutomationsService.findOne
  simp only [Program.bind_assoc]
  refine assertMember_bind fun _ store' _ _ => ?_
  refine safe_findAutomations_bind (stable_of_frames frames store') (fun _ => rfl) rfl
    (fun _ _ _ => trivial) fun store'' _ => ?_
  cases listed : (store''.db .automations).filter fun automation =>
      automation.id == id && Svc.whereIs ws automation.workspaceId with
  | nil => trivial
  | cons row rows =>
    have member : row ∈ store''.db .automations :=
      (List.mem_filter.mp (listed ▸ List.mem_cons_self)).1
    exact found row _ store'' member

end Lookups

/-! ### Programs that write -/

section Writers

variable {ws : Option Uuid} {uid : Uuid} {store : Store} {β : Type}

/-- A new row of the workspace of a request. -/
theorem keeps_new {table : Table} {build : Uuid → Input → Row table} (joined : Joined store.db ws)
    (refs : ∀ w input, Row.refs table (build w input) = [(.workspaces, w)]) (input : Input) :
    Keeps (.insert table (ws.map build)) input store := by
  cases ws with
  | none => exact keeps_insert_none
  | some w =>
    refine keeps_insert fun whole ref names => ?_
    rw [refs w input] at names
    obtain rfl := List.mem_singleton.mp names
    exact joined.has whole w rfl

/-! #### Contacts -/

theorem updateContact_sound (id : Uuid) (dto : UpdateContactDto) :
    Sound store (ContactsService.update id ws uid dto) := by
  refine contact_bind fun row store' listed => ?_
  refine sound_call_bind (fun _ => keeps_save listed fun other writes => ?_) fun _ _ _ => trivial
  have home := (ContactsService.assign_keeps (Entity.writes_fixed writes)).2
  show [(Table.workspaces, other.workspaceId)] = [(Table.workspaces, row.workspaceId)]
  rw [home]

/-- One row of an import: the memberships stay as they are. -/
theorem importRow_bind (reply : ImportReply) (given : CsvContactRow) {rest : ImportReply → Svc β}
    (joined : Joined store.db ws)
    (continues : ∀ reply store', Joined store'.db ws → Sound store' (rest reply)) :
    Sound store (ContactsService.importRow ws reply given >>= rest) := by
  have members {call : Call} (other : call.writes .members = false) {store' : Store}
      (same : store'.db = store.db) (input : Input) : Joined (exec call input store').2.db ws := by
    unfold Joined
    rw [exec_other call input store' other, same]
    exact joined
  unfold ContactsService.importRow
  dsimp only
  split
  · exact continues _ _ joined
  · rw [Program.bind_assoc]
    refine sound_findOne_bind (fun store' same => ?_) fun row store' same listed _ => ?_
    · dsimp only
      rw [Program.bind_assoc]
      exact sound_call_bind (keeps_new (same ▸ joined) fun _ _ => rfl) fun input _ _ =>
        continues _ _ (members rfl same input)
    · dsimp only
      rw [Program.bind_assoc]
      refine sound_call_bind (fun _ => keeps_save listed fun other writes => ?_) fun input _ _ =>
        continues _ _ (members rfl same input)
      rw [Entity.writes_whole writes]
      rfl

/-- The loop of an import. -/
theorem importRows_sound : ∀ (rows : List CsvContactRow) (reply : ImportReply) (store : Store),
    Joined store.db ws → Sound store (ContactsService.importRows ws reply rows) := by
  intro rows
  induction rows with
  | nil => exact fun _ _ _ => trivial
  | cons first rest ih =>
    exact fun reply _ joined => importRow_bind reply first joined fun reply store' =>
      ih reply store'

/-- An update of a group keeps its workspace. -/
theorem assignGroup_refs {group row : ContactGroup} {dto : UpdateContactGroupDto}
    (writes : (ContactsService.assignGroup group dto).writes row) :
    Row.refs .groups row = Row.refs .groups group := by
  obtain ⟨_, onto⟩ | anew := writes
  · simp only [ContactsService.assignGroup] at onto
    split at onto
    · cases onto
      rfl
    · cases onto
  · simp only [ContactsService.assignGroup] at anew
    split at anew
    · cases anew
      rfl
    · cases anew

theorem updateGroup_sound (id : Uuid) (dto : UpdateContactGroupDto) :
    Sound store (ContactsService.updateGroup id ws uid dto) := by
  refine assertMember_bind fun _ _ _ _ => group_bind fun row store' listed => ?_
  exact sound_call_bind (fun _ => keeps_save listed fun _ => assignGroup_refs) fun _ _ _ => trivial

/-! #### Sessions -/

theorem updateSession_sound (id : Uuid) (dto : UpdateSessionDto) :
    Sound store (SessionsService.update id ws uid dto) := by
  refine session_bind fun row store' _ listed => ?_
  refine sound_call_bind (fun _ => keeps_save listed fun other writes => ?_) fun _ _ _ => trivial
  show [(Table.workspaces, other.workspaceId)] = [(Table.workspaces, row.workspaceId)]
  rw [(SessionsService.assign_keeps writes).2]

theorem setStatus_bind {session : Session} (listed : session ∈ store.db .sessions)
    (status : SessionStatus) (phone : Field String) {rest : Session → Svc β}
    (continues : ∀ session, Light (rest session)) :
    Sound store (SessionsService.setStatus session status phone >>= rest) := by
  unfold SessionsService.setStatus
  simp only [Program.bind_assoc]
  refine safe_now fun now => ?_
  refine sound_call_bind (fun _ => keeps_save listed fun other writes => ?_) fun _ _ _ => ?_
  · rw [Entity.writes_whole writes]
    rfl
  · exact sound_light (calls_bind (calls_call rfl) fun _ => continues _)

theorem openwa_quiet {creds : OpenwaCredentials} {method : OpenwaMethod} {session : SessionRef}
    {recipient : Option RecipientRef} :
    (OpenwaService.call creds method session recipient).Calls Quiet :=
  OpenwaService.call_calls fun _ => rfl

theorem startSession_sound (h : Helpers) (id : Uuid) :
    Sound store (SessionsService.start h id ws uid) := by
  refine session_bind fun row store₁ _ listed => ?_
  refine sound_reads_bind (WorkspacesService.getOpenwaCredentials_reads h ws)
    fun _ store₂ same => ?_
  exact setStatus_bind (same ▸ listed) _ _ fun _ =>
    calls_bind (OpenwaService.call_calls rfl) fun _ => calls_findOne rfl

theorem stopSession_sound (h : Helpers) (id : Uuid) :
    Sound store (SessionsService.stop h id ws uid) := by
  refine session_bind fun row store₁ _ listed => ?_
  refine sound_reads_bind (WorkspacesService.getOpenwaCredentials_reads h ws)
    fun _ store₂ same => ?_
  refine sound_quiet_bind openwa_quiet fun _ store₃ same' => ?_
  exact setStatus_bind ((same'.trans same) ▸ listed) _ _ fun _ => calls_findOne rfl

theorem sessionStatus_sound (h : Helpers) (id : Uuid) :
    Sound store (SessionsService.getStatus h id ws uid) := by
  refine session_bind fun row store₁ _ listed => ?_
  refine sound_reads_bind (WorkspacesService.getOpenwaCredentials_reads h ws)
    fun _ store₂ same => ?_
  refine sound_quiet_bind (calls_attempt openwa_quiet) fun _ store₃ same' => ?_
  dsimp only
  split
  · trivial
  · split
    · trivial
    · exact setStatus_bind ((same'.trans same) ▸ listed) _ _ fun _ => trivial

/-! #### Broadcasts -/

theorem createBroadcast_sound (h : Helpers) (dto : CreateBroadcastDto) :
    Sound store (BroadcastsService.create h ws uid dto) := by
  refine assertRole_bind fun _ store₁ _ joined => ?_
  refine session_bind fun session store₂ same listed => ?_
  refine sound_reads_bind (ContactsService.resolvePhones_reads ws _) fun _ store₃ same' => ?_
  dsimp only
  split
  · trivial
  · refine sound_call fun input => keeps_insertBroadcast fun whole build drafted ref names => ?_
    obtain ⟨w, is_ws, rfl⟩ := Option.map_eq_some_iff.mp drafted
    rcases List.mem_pair.mp names with rfl | rfl
    · rw [same', same] at whole ⊢
      exact joined.has whole w is_ws
    · rw [same']
      exact has_iff.mpr ⟨session, listed, rfl⟩

theorem updateBroadcast_sound (id : Uuid) (dto : UpdateBroadcastDto) :
    Sound store (BroadcastsService.update id ws uid dto) := by
  refine assertRole_bind fun _ _ _ _ => broadcast_bind fun row store' listed => ?_
  split
  · trivial
  · refine sound_call_bind (fun _ => keeps_save listed fun other writes => ?_) fun _ _ _ => trivial
    rw [assign_writes writes]
    rfl

theorem sendBroadcast_sound (id : Uuid) : Sound store (BroadcastsService.send id ws uid) := by
  refine assertRole_bind fun _ _ _ _ => broadcast_bind fun row store' listed => ?_
  split
  · trivial
  · refine sound_call_bind (fun _ => keeps_save listed fun other writes => ?_) fun _ _ _ => ?_
    · rw [Entity.writes_whole writes]
      rfl
    · exact sound_light (calls_bind calls_now fun _ => calls_bind (calls_call rfl) fun _ => trivial)

theorem cancelBroadcast_sound (id : Uuid) : Sound store (BroadcastsService.cancel id ws uid) := by
  refine assertRole_bind fun _ _ _ _ => broadcast_bind fun row store' listed => ?_
  refine sound_call_bind (fun _ => keeps_save listed fun other writes => ?_) fun _ _ _ => trivial
  rw [Entity.writes_whole writes]
  rfl

/-! #### Automations -/

theorem createAutomation_sound (dto : CreateAutomationDto) :
    Sound store (AutomationsService.create ws uid dto) := by
  refine assertRole_bind fun _ store₁ _ joined => ?_
  refine sound_quiet_bind (AutomationsService.withPath_calls dto) fun config store₂ same => ?_
  refine sound_call fun input => keeps_insertAutomation fun whole build drafted => ?_
  obtain ⟨w, is_ws, rfl⟩ := Option.map_eq_some_iff.mp drafted
  rw [same] at whole ⊢
  exact joined.has whole w is_ws

/-- Deleting the actions leaves the automations alone. -/
theorem replaceActions_bind {row : Automation} (listed : row ∈ store.db .automations) (id : Uuid)
    (loaded : List AutomationAction) (given : Field (List ActionDto))
    {rest : List ActionEntity → Svc β}
    (continues : ∀ actions store', row ∈ store'.db .automations → Sound store' (rest actions)) :
    Sound store (AutomationsService.replaceActions id loaded given >>= rest) := by
  have kept (input : Input) : row ∈ (exec (.deleteActions id) input store).2.db .automations := by
    rw [exec_other (.deleteActions id) input store rfl]
    exact listed
  cases given with
  | undefined => exact continues _ _ listed
  | null =>
    unfold AutomationsService.replaceActions
    rw [Program.bind_assoc]
    exact sound_call_bind (fun _ => keeps_deleteActions id) fun _ _ _ => trivial
  | value actions =>
    unfold AutomationsService.replaceActions
    rw [Program.bind_assoc]
    exact sound_call_bind (fun _ => keeps_deleteActions id) fun input _ _ =>
      continues _ _ (kept input)

theorem updateAutomation_sound (id : Uuid) (dto : UpdateAutomationDto) :
    Sound store (AutomationsService.update id ws uid dto) := by
  refine assertRole_bind fun _ _ _ _ => automation_bind fun row loaded store₁ listed => ?_
  refine replaceActions_bind listed id loaded dto.actions fun actions store₂ listed' => ?_
  refine sound_call_bind (fun _ => keeps_saveAutomation listed' fun other writes => ?_)
    fun _ _ _ => trivial
  exact (AutomationsService.assign_keeps (Entity.writes_fixed writes)).2.1

theorem setActive_sound (id : Uuid) (active : Bool) :
    Sound store (AutomationsService.setActive id ws uid active) := by
  refine assertRole_bind fun _ _ _ _ => automation_bind fun row loaded store₁ listed => ?_
  refine sound_call_bind (fun _ => keeps_saveAutomation listed fun other writes => ?_)
    fun _ _ _ => trivial
  rw [Entity.writes_whole writes]

/-! #### Webhooks -/

theorem createWebhook_sound (dto : CreateWebhookDto) :
    Sound store (WebhooksService.create ws uid dto) := by
  refine assertRole_bind fun _ store₁ _ joined => sound_call fun input => ?_
  cases drafted : WebhooksService.draft ws dto with
  | none => exact keeps_insert_none
  | some build =>
    refine keeps_insert fun whole ref names => ?_
    have owner : ∃ w ∈ ws, (build input).workspaceId = w := by
      unfold WebhooksService.draft at drafted
      split at drafted
      · cases drafted
        exact ⟨_, rfl, rfl⟩
      · cases drafted
    obtain ⟨w, is_ws, same⟩ := owner
    obtain rfl := List.mem_singleton.mp names
    rw [same]
    exact joined.has whole w is_ws

theorem updateWebhook_sound (id : Uuid) (dto : UpdateWebhookDto) :
    Sound store (WebhooksService.update id ws uid dto) := by
  refine assertRole_bind fun _ _ _ _ => webhook_bind fun row store' listed => ?_
  refine sound_call_bind (fun _ => keeps_save listed fun other writes => ?_) fun _ _ _ => trivial
  show [(Table.workspaces, other.workspaceId)] = [(Table.workspaces, row.workspaceId)]
  rw [(WebhooksService.assign_keeps (Entity.writes_fixed writes)).2]

/-! #### Workspaces -/

theorem createWorkspace_sound (k : AccountHelpers) (userId : Uuid) (dto : CreateWorkspaceDto) :
    Sound store (WorkspacesService.create k userId dto) := by
  intro reading
  refine sound_call_bind (fun _ => keeps_insert fun _ _ names => (by cases names))
    fun input saved replied => ?_
  refine sound_call_bind (fun _ => keeps_save_whole fun _ ref names => ?_) fun _ _ _ => trivial
  obtain rfl := List.mem_singleton.mp names
  exact has_iff.mpr ⟨saved, exec_insert_stored replied, rfl⟩

theorem findById_bind {id : Uuid} {rest : Workspace → Svc β}
    (found : ∀ row store', row ∈ store'.db .workspaces → Sound store' (rest row)) :
    Sound store (WorkspacesService.findById id >>= rest) := by
  unfold WorkspacesService.findById
  simp only [Program.bind_assoc]
  exact sound_findOne_bind (fun _ _ => trivial) fun row store' _ listed _ => found row store' listed

theorem updateWorkspace_sound (k : AccountHelpers) (id userId : Uuid) (dto : UpdateWorkspaceDto) :
    Sound store (WorkspacesService.update k id userId dto) := by
  have encrypts : (WorkspacesService.encryptKey k dto.openwaApiKey).Calls Quiet := by
    cases dto.openwaApiKey with
    | undefined => trivial
    | null => trivial
    | value openwaApiKey => exact calls_bind calls_randomHex fun _ => trivial
  refine assertRole_bind fun _ _ _ _ => findById_bind fun row store₁ listed => ?_
  refine sound_quiet_bind encrypts fun _ store₂ same => ?_
  exact sound_call_bind (fun _ => keeps_save (same ▸ listed) fun _ _ => rfl) fun _ _ _ => trivial

theorem invite_sound (k : AccountHelpers) (id userId : Uuid) (dto : InviteMemberDto) :
    Sound store (WorkspacesService.invite k id userId dto) := by
  refine assertRole_bind fun _ store₁ _ joined => ?_
  refine sound_findOne_bind (fun _ _ => trivial) fun invitee store₂ same _ _ => ?_
  refine sound_findOne_bind (fun store₃ same' => ?_) fun _ _ _ _ _ => trivial
  refine sound_call_bind (fun _ => keeps_save_whole fun whole ref names => ?_) fun _ _ _ => trivial
  obtain rfl := List.mem_singleton.mp names
  rw [same', same] at whole ⊢
  exact joined.has whole id rfl

end Writers

/-! ### The operations -/

/-- **Every endpoint is sound.** -/
theorem endpoint_sound {store : Store} (h : Helpers) (ws : Option Uuid) (uid : Uuid)
    (endpoint : Endpoint) : Sound store (endpoint.program h ws uid) := by
  cases endpoint with
  | createGroup dto =>
    exact assertMember_bind fun _ _ _ joined => sound_call (keeps_new joined fun _ _ => rfl)
  | updateGroup id dto => exact updateGroup_sound id dto
  | createContact dto =>
    exact assertMember_bind fun _ _ _ joined => sound_call (keeps_new joined fun _ _ => rfl)
  | importContacts rows =>
    exact assertMember_bind fun _ store' _ joined => importRows_sound rows _ store' joined
  | updateContact id dto => exact updateContact_sound id dto
  | blacklistContact id =>
    refine contact_bind fun row store' listed => ?_
    refine sound_call_bind (fun _ => keeps_save listed fun other writes => ?_) fun _ _ _ => trivial
    rw [Entity.writes_whole writes]
    rfl
  | createSession dto =>
    exact assertRole_bind fun _ _ _ joined => fun _ => sound_call (keeps_new joined fun _ _ => rfl)
  | updateSession id dto => exact updateSession_sound id dto
  | startSession id => exact startSession_sound h id
  | stopSession id => exact stopSession_sound h id
  | sessionStatus id => exact sessionStatus_sound h id
  | sendMessage dto =>
    exact assertMember_bind fun _ _ _ _ => session_bind fun _ _ _ _ =>
      sound_harmless (calls_bind (calls_call (Quiet.harmless fun _ => rfl)) fun _ => trivial)
  | sendBulk dto =>
    exact assertMember_bind fun _ _ _ _ => session_bind fun _ _ _ _ =>
      sound_harmless (calls_bind
        (MessagesService.sendEach_calls fun _ _ _ => Quiet.harmless fun _ => rfl) fun _ => trivial)
  | createBroadcast dto => exact createBroadcast_sound h dto
  | updateBroadcast id dto => exact updateBroadcast_sound id dto
  | sendBroadcast id => exact sendBroadcast_sound id
  | cancelBroadcast id => exact cancelBroadcast_sound id
  | createAutomation dto => exact createAutomation_sound dto
  | updateAutomation id dto => exact updateAutomation_sound id dto
  | enableAutomation id => exact setActive_sound id true
  | disableAutomation id => exact setActive_sound id false
  | testAutomation id body =>
    exact automation_bind fun _ _ _ _ =>
      sound_harmless (calls_bind (calls_call (Quiet.harmless fun _ => rfl)) fun _ =>
        calls_bind (calls_call (Quiet.harmless fun _ => rfl)) fun _ => trivial)
  | createWebhook dto => exact createWebhook_sound dto
  | updateWebhook id dto => exact updateWebhook_sound id dto
  | createApiKey dto =>
    exact assertRole_bind fun _ _ _ joined => fun _ =>
      sound_call_bind (keeps_new joined fun _ _ => rfl) fun _ _ _ => trivial
  | _ => exact sound_light (Endpoint.program_light h ws uid _ rfl)

theorem account_sound {store : Store} (k : AccountHelpers) (request : Accounts.Request) :
    Sound store (request.program k) := by
  cases request with
  | create userId dto =>
    exact sound_then (createWorkspace_sound k userId dto) fun _ => trivial
  | update id userId dto =>
    exact sound_then (updateWorkspace_sound k id userId dto) fun _ => trivial
  | invite id userId dto =>
    exact sound_then (invite_sound k id userId dto) fun _ => trivial
  | createUser data =>
    refine sound_then (sound_findOne_bind (fun store' _ => ?_) fun _ _ _ _ _ => trivial)
      fun _ => trivial
    exact sound_call fun _ => keeps_insert fun _ _ names => (by cases names)
  | _ => exact sound_light (Accounts.Request.program_light k _ rfl)

/-! ### Sequences of operations -/

/-- An operation on accounts and workspaces, or on what a workspace holds. -/
inductive Request
  | account (request : Accounts.Request)
  | endpoint (ws : Option Uuid) (uid : Uuid) (given : Endpoint)

def Request.program (h : Helpers) (k : AccountHelpers) : Request → Svc Unit
  | .account request => request.program k
  | .endpoint ws uid given => do
      let _ ← given.program h ws uid

/-- **Every operation is sound.** -/
theorem request_sound {store : Store} (h : Helpers) (k : AccountHelpers) (request : Request) :
    Sound store (request.program h k) := by
  cases request with
  | account request => exact account_sound k request
  | endpoint ws uid given =>
    exact sound_then (endpoint_sound h ws uid given) fun _ => trivial

/-- An operation with the inputs of its calls. -/
structure Step where
  request : Request
  tape : Tape Input

section Sequences

variable (h : Helpers) (k : AccountHelpers)

def Step.after (store : Store) (step : Step) : Store :=
  ((step.request.program h k).run exec step.tape store).2.2

/-- The store after a sequence of operations. -/
def after (start : Store) (steps : List Step) : Store := steps.foldl (Step.after h k) start

/-- Every call the operation makes is careful, unless the database fails at it. -/
def Step.Careful (store : Store) (step : Step) : Prop :=
  ∀ visit ∈ (step.request.program h k).visits exec step.tape store,
    visit.2.1.fault = none → WaAutomation.Careful visit.1 visit.2.1 visit.2.2

/-- Every operation of the sequence is careful in the store it finds. -/
def AllCareful : Store → List Step → Prop
  | _, [] => True
  | store, step :: rest => step.Careful h k store ∧ AllCareful (step.after h k store) rest

/-- Nothing acts for the workspace: no API key is accepted for it, and no tick of the scheduler
enqueues a run for it. -/
structure Retired (store : Store) (w : Uuid) : Prop where
  keys : ∀ rawKey tape, ((ApiKeysService.validate h rawKey).run exec tape store).1 ≠ .ok (some w)
  runs : ∀ tape, ∀ queued ∈ ((AutomationScheduler.tick h).run exec tape store).2.2.jobs,
    queued ∈ store.jobs ∨ ∀ data, queued.job = .automation data → data.workspaceId ≠ w

variable {h k}

/-- **The step.** -/
theorem step_integrity {store : Store} {step : Step} (whole : store.db.Integrity)
    (careful : step.Careful h k store) : (step.after h k store).db.Integrity :=
  run_visits (fun visit : Call × Input × Store =>
      visit.2.1.fault = none → WaAutomation.Careful visit.1 visit.2.1 visit.2.2)
    (fun before after : Store => before.db.Integrity → after.db.Integrity) (fun _ whole => whole)
    (fun first second whole => second (first whole))
    (fun _ _ _ keeps careful whole => keeps careful whole) (fun _ => trivial)
    (request_sound h k step.request) careful whole

theorem run_integrity {steps : List Step} : ∀ {store : Store}, store.db.Integrity →
    AllCareful h k store steps → (after h k store steps).db.Integrity := by
  induction steps with
  | nil => exact fun whole _ => whole
  | cons step rest ih => exact fun whole careful => ih (step_integrity whole careful.1) careful.2

end Sequences

/-! ### Workspaces that are not there -/

section Missing

variable {h : Helpers} {store : Store} {w : Uuid}

/-- No row of a table with references names a workspace that is not there. -/
theorem unowned (whole : store.db.Integrity) (missing : store.db.has .workspaces w = false)
    {table : Table} {row : Row table} (listed : row ∈ store.db table) :
    (.workspaces, w) ∉ Row.refs table row := by
  intro names
  rw [whole table row listed _ names] at missing
  cases missing

theorem validate_other (whole : store.db.Integrity) (missing : store.db.has .workspaces w = false)
    (rawKey : String) (tape : Tape Input) :
    ((ApiKeysService.validate h rawKey).run exec tape store).1 ≠ .ok (some w) := by
  have nobody : (.ok none : Except Err (Option Uuid)) ≠ .ok (some w) := fun same => (by cases same)
  have safe : (ApiKeysService.validate h rawKey).Safe exec (alone (fun _ => True) Keeps)
      (fun result _ => result ≠ .ok (some w)) store := by
    refine safe_findOne_bind (stable_of_frames frames store) (fun _ => rfl) rfl
      (fun _ _ _ same => (by cases same)) fun store' left => ?_
    cases found : (store'.db .apiKeys).find? fun key => key.keyHash == h.sha256 rawKey with
    | none => exact nobody
    | some key =>
      have listed : key ∈ store'.db .apiKeys := List.mem_of_find?_eq_some found
      have other : key.workspaceId ≠ w := by
        rintro rfl
        exact unowned whole missing (left ▸ listed) List.mem_cons_self
      dsimp only
      split
      · exact nobody
      · refine safe_now fun now => ?_
        split
        · exact nobody
        · refine safe_now fun now => safe_bind (safe_perform ?_)
          rintro store'' input ⟨rfl, _⟩
          refine ⟨keeps_save listed fun row writes => ?_, ?_⟩
          · rw [Entity.writes_whole writes]
            rfl
          · cases (exec (.save .apiKeys (.whole { key with lastUsedAt := some now })) input
                store'').1 with
            | error error => exact fun same => (by cases same)
            | ok _ => exact fun same => other (Option.some.inj (Except.ok.inj same))
  have alone (request : Call) (input : Input) (store : Store) : store = store ∧ True :=
    ⟨rfl, trivial⟩
  exact safe_run alone tape safe

/-- A call that enqueues no run for the workspace. -/
def Spares (w : Uuid) (call : Call) : Prop :=
  ∀ data attempts delay, call = .add (.automation data) attempts delay → data.workspaceId ≠ w

theorem enqueueRun_spares {automation : Automation} (other : automation.workspaceId ≠ w)
    (context : Record) : (AutomationsService.enqueueRun automation context).Calls (Spares w) := by
  refine calls_bind (calls_call fun _ _ _ same => (by cases same)) fun _ => ?_
  refine calls_bind (calls_call fun data _ _ same => ?_) fun _ => trivial
  cases same
  exact other

theorem enqueueTargets_spares {automation : Automation} (other : automation.workspaceId ≠ w) :
    ∀ phones, (AutomationScheduler.enqueueTargets automation phones).Calls (Spares w) := by
  intro phones
  induction phones with
  | nil => trivial
  | cons phone rest ih => exact calls_bind (enqueueRun_spares other _) fun _ => ih

theorem fire_spares {automation : Automation} (other : automation.workspaceId ≠ w) (now : Time)
    (cron : Json) : (AutomationScheduler.fire h now automation cron).Calls (Spares w) := by
  refine calls_bind (calls_lift _) fun next => ?_
  split
  · exact calls_bind (calls_lift _) fun phones => enqueueTargets_spares other phones
  · trivial

theorem fireEach_spares (now : Time) : ∀ scheduled : List Automation,
    (∀ automation ∈ scheduled, automation.workspaceId ≠ w) →
      (AutomationScheduler.fireEach h now scheduled).Calls (Spares w) := by
  intro scheduled
  induction scheduled with
  | nil => exact fun _ => trivial
  | cons automation rest ih =>
    intro others
    have later := ih fun other listed => others other (List.mem_cons_of_mem _ listed)
    unfold AutomationScheduler.fireEach
    cases truthyGet automation.triggerConfig "cron" with
    | none => exact later
    | some cron =>
      exact calls_bind (calls_attempt (fire_spares (others automation List.mem_cons_self) now cron))
        fun _ => later

theorem tick_other (whole : store.db.Integrity) (missing : store.db.has .workspaces w = false)
    (tape : Tape Input) :
    ∀ queued ∈ ((AutomationScheduler.tick h).run exec tape store).2.2.jobs,
      queued ∈ store.jobs ∨ ∀ data, queued.job = .automation data → data.workspaceId ≠ w := by
  have others (now : Time) (rows : List LoadedAutomation)
      (listed : ∀ loaded ∈ rows, loaded.1 ∈ store.db .automations) :
      (AutomationScheduler.fireEach h now (rows.map Prod.fst)).Calls (Spares w) := by
    refine fireEach_spares now _ fun automation member => ?_
    obtain ⟨loaded, is_row, rfl⟩ := List.mem_map.mp member
    rintro rfl
    exact unowned whole missing (listed loaded is_row) List.mem_cons_self
  have safe : (AutomationScheduler.tick h).Safe exec
      (alone (fun _ => True) fun call _ _ => Spares w call) (fun _ _ => True) store := by
    refine safe_now fun now => safe_bind (safe_perform ?_)
    rintro store' input ⟨rfl, _⟩
    refine ⟨fun _ _ _ same => (by cases same), ?_⟩
    obtain ⟨error, failed⟩ | found := exec_findAutomations (fun automation =>
      automation.isActive && automation.triggerType == .schedule) input store'
    · rw [failed]
      trivial
    · rw [found]
      refine safe_of_calls (fun _ _ _ spares => spares) (others now _ ?_)
      intro loaded member
      obtain ⟨row, matches_, rfl⟩ := List.mem_map.mp member
      exact (List.mem_filter.mp matches_).1
  have adds (call : Call) (input : Input) (store : Store) (spares : Spares w call) :
      ∀ queued ∈ (exec call input store).2.jobs,
        queued ∈ store.jobs ∨ ∀ data, queued.job = .automation data → data.workspaceId ≠ w := by
    intro queued listed
    by_cases enqueues : call.enqueues = false
    · rw [(exec_queue call input store enqueues).1] at listed
      exact .inl listed
    · cases call with
      | add job attempts delay =>
        obtain ⟨error, failed⟩ | ⟨_, performed⟩ :=
          exec_storage (.add job attempts delay) rfl input store
        · rw [failed] at listed
          exact .inl listed
        · rw [performed] at listed
          rcases List.mem_append.mp listed with old | new
          · exact .inl old
          · obtain rfl := List.mem_singleton.mp new
            refine .inr fun data is_run => spares data attempts delay ?_
            rw [show job = .automation data from is_run]
      | _ => exact absurd rfl enqueues
  refine run_relates (fun before after : Store => ∀ queued ∈ after.jobs,
    queued ∈ before.jobs ∨ ∀ data, queued.job = .automation data → data.workspaceId ≠ w)
    (fun _ _ listed => .inl listed) (fun first second queued listed => ?_) adds
    (fun _ => trivial) safe
  obtain earlier | other := second queued listed
  · exact first queued earlier
  · exact .inr other

end Missing

/-- **Careful operations keep the integrity of the tenant data**, and nothing acts for a workspace
that is not there. A beginning of a sequence is a sequence too, so this is about every state it
reaches. -/
theorem integrity_kept (h : Helpers) (k : AccountHelpers) (start : Store) (steps : List Step)
    (whole : start.db.Integrity) (careful : AllCareful h k start steps) :
    (after h k start steps).db.Integrity ∧
      ∀ w, (after h k start steps).db.has .workspaces w = false →
        Retired h (after h k start steps) w := by
  have kept : (after h k start steps).db.Integrity := run_integrity whole careful
  exact ⟨kept, fun w missing => ⟨validate_other kept missing, tick_other kept missing⟩⟩

namespace Example

open Accounts.Example (drawing)

/-- Ann opens the workspace `w`. -/
def creation : Step := ⟨.account Accounts.Example.creation.request, drawing "w"⟩

def apiKey : Step := ⟨.endpoint (some "w") "ann" (.createApiKey ⟨"key", none⟩), drawing "k"⟩

def automation : Step :=
  ⟨.endpoint (some "w") "ann" (.createAutomation ⟨"reminder", none, none, .schedule,
    [("cron", .str "* * * * *"), ("target_phones", .arr [.str "628111"])], []⟩), drawing "a"⟩

def enabling : Step := ⟨.endpoint (some "w") "ann" (.enableAutomation "a"), drawing ""⟩

/-- Ann deletes the workspace. -/
def removal : Step := ⟨.account (.remove "w" "ann"), drawing ""⟩

def operations : List Step := [creation, apiKey, automation, enabling, removal]

/-- The store after operations on one that holds three accounts. -/
def store (steps : List Step) : Store :=
  after WaAutomation.Example.helpers Accounts.Example.helpers Accounts.Example.start steps

end Example

theorem integrity_kept_example :
    (Example.store [Example.creation, Example.removal]).db.Integrity ∧
      Retired WaAutomation.Example.helpers (Example.store [Example.creation, Example.removal])
        "w" := by
  have begins : Accounts.Example.start.db.Integrity := by
    intro table
    cases table <;> decide
  have careful : AllCareful WaAutomation.Example.helpers Accounts.Example.helpers
      Accounts.Example.start [Example.creation, Example.removal] := by
    refine ⟨fun visit member _ => ?_, fun visit member _ => ?_, trivial⟩
    · rcases List.mem_cons.mp member with rfl | member
      · trivial
      · rcases List.mem_cons.mp member with rfl | member
        · trivial
        · cases member
    · rcases List.mem_cons.mp member with rfl | member
      · trivial
      · rcases List.mem_cons.mp member with rfl | member
        · trivial
        · rcases List.mem_cons.mp member with rfl | member
          · intro other
            cases other <;> decide
          · cases member
  obtain ⟨kept, retired⟩ := integrity_kept WaAutomation.Example.helpers Accounts.Example.helpers
    Accounts.Example.start [Example.creation, Example.removal] begins careful
  exact ⟨kept, retired "w" (by decide)⟩

/-- **A workspace deleted with an API key and an automation**: the key is still accepted for it, and
the scheduler enqueues a run. -/
theorem integrity_lost :
    (Example.store Example.operations).db .workspaces = [] ∧
      ¬(Example.store Example.operations).db.Integrity ∧
      ((ApiKeysService.validate WaAutomation.Example.helpers "wa_").run exec
        (Accounts.Example.drawing "") (Example.store Example.operations)).1 = .ok (some "w") ∧
      (((AutomationScheduler.tick WaAutomation.Example.helpers).run exec
        (Accounts.Example.drawing "") (Example.store Example.operations)).2.2.jobs.map
          QueuedJob.job) = [.automation ⟨"a", "w",
            [("to", .str "628111"), ("from", .str "628111"), ("sessionId", .null)]⟩] := by
  have gone : (Example.store Example.operations).db .workspaces = [] := by rfl
  have keys : ((Example.store Example.operations).db .apiKeys) =
      [⟨"k", "w", "key", "wa_", "wa_", none, none, true⟩] := by rfl
  refine ⟨gone, fun whole => ?_, by rfl, by rfl⟩
  have named := whole .apiKeys ⟨"k", "w", "key", "wa_", "wa_", none, none, true⟩
    (keys ▸ List.mem_cons_self) _ List.mem_cons_self
  unfold Db.has at named
  rw [gone] at named
  cases named

end WaAutomation.References
