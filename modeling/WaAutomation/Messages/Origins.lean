/-
**Which workspace sessions, automations and jobs belong to.**

`Store.owner` notes the workspace a session or an automation was created in. Rows and jobs that name
a session belong to the workspace it was created in, if whoever wrote them looked it up there.

* `Belongs` and `Proper`: a row belongs to a workspace, and a job names sessions of its own;
* `Request.Own` says that what a request names without a check is of its workspace;
* `Rightful` lists the calls that leave rows and jobs that belong, and `exec_rooted` is the step;
* `program_given`: shown rows that belong, a request makes such calls only, as long as what it names
  is its own.
-/

import WaAutomation.Broadcasts.System
import WaAutomation.Accounts.System
import WaAutomation.Model.Deliveries
import WaAutomation.Model.Services
import WaAutomation.Model.Triggers

set_option linter.unusedSectionVars false

namespace WaAutomation.Origins

open Library Program

/-! ### Owners -/

/-- The workspaces rows were created in. -/
abbrev Owners := Table → Uuid → Option Uuid

/-- Everything noted in `first` is noted in `second`. -/
def Extends (first second : Owners) : Prop :=
  ∀ table id w, first table id = some w → second table id = some w

theorem extends_refl (owners : Owners) : Extends owners owners := fun _ _ _ noted => noted

theorem extends_trans {first second third : Owners} (one : Extends first second)
    (two : Extends second third) : Extends first third :=
  fun table id w noted => two table id w (one table id w noted)

/-- The row and the sessions it names are of one workspace. -/
def Belongs (owners : Owners) : (table : Table) → Row table → Prop
  | .sessions, row => owners .sessions row.id = some row.workspaceId
  | .broadcasts, row => owners .sessions row.sessionId = some row.workspaceId
  | .automations, row => owners .automations row.id = some row.workspaceId ∧
      ∀ id ∈ row.sessionId, owners .sessions id = some row.workspaceId
  | _, _ => True

/-- The session a context names, if it does, is one of the workspace. -/
def Names (owners : Owners) (w : Uuid) (context : Record) : Prop :=
  ∀ id, truthyGet context "sessionId" = some (.str id) → owners .sessions id = some w

/-- The message is to be sent through this session, for its workspace. -/
structure Carries (data : SendMessageJob) (session : Session) : Prop where
  id : data.sessionId = session.id
  openwa : data.openwaSessionId = session.sessionId
  home : ∀ w, data.workspaceId = some w → session.workspaceId = w

/-- The job is for a workspace and names sessions of that workspace only; `seen` are the session
rows that were stored at some time. -/
def Proper (seen : Session → Prop) (owners : Owners) : Job → Prop
  | .message data => data.workspaceId ≠ none ∧ ∃ session, seen session ∧ Carries data session
  | .automation data => owners .automations data.automationId = some data.workspaceId ∧
      Names owners data.workspaceId data.context
  | _ => True

/-- Rows and jobs belong to the workspaces that are noted. -/
structure Rooted (seen : Session → Prop) (store : Store) : Prop where
  rows : ∀ table, ∀ row ∈ store.db table, Belongs store.owner table row
  jobs : ∀ queued ∈ store.jobs, Proper seen store.owner queued.job

section Mono

variable {owners owners' : Owners}

/-- What a table cuts does not matter. -/
theorem belongs_held {table : Table} {row : Row table} (belongs : Belongs owners table row) :
    Belongs owners table (row.held table) := by
  cases table <;> exact belongs

theorem belongs_mono (more : Extends owners owners') {table : Table} {row : Row table}
    (belongs : Belongs owners table row) : Belongs owners' table row := by
  cases table with
  | sessions => exact more _ _ _ belongs
  | broadcasts => exact more _ _ _ belongs
  | automations =>
    exact ⟨more _ _ _ belongs.1, fun id named => more _ _ _ (belongs.2 id named)⟩
  | _ => trivial

theorem names_mono (more : Extends owners owners') {w : Uuid} {context : Record}
    (names : Names owners w context) : Names owners' w context :=
  fun id named => more _ _ _ (names id named)

theorem proper_mono (more : Extends owners owners') {seen : Session → Prop} {job : Job}
    (proper : Proper seen owners job) : Proper seen owners' job := by
  cases job with
  | message data => exact proper
  | automation data => exact ⟨more _ _ _ proper.1, names_mono more proper.2⟩
  | _ => trivial

end Mono

/-! ### Requests -/

/-- What the application is asked for, and the runs of its jobs. -/
inductive Request where
  | endpoint (ws : Option Uuid) (uid : Uuid) (given : Endpoint)
  | account (given : Accounts.Request)
  | onMessage (dto : Record)
  | webhookTrigger (token : String) (body : Record)
  | tick
  | job (data : Job)

/-- The run of a job. -/
def runJob (h : Helpers) : Job → Svc Unit
  | .message data => do
      let _ ← MessageProcessor.process h data
  | .broadcast data => do
      let _ ← BroadcastProcessor.process h data
  | .automation data => do
      let _ ← AutomationProcessor.process h data
  | .webhook data => WebhookProcessor.job h data

def Request.program (h : Helpers) (k : AccountHelpers) : Request → Svc Unit
  | .endpoint ws uid given => do
      let _ ← given.program h ws uid
  | .account given => given.program k
  | .onMessage dto => do
      let _ ← InboundController.onMessage h dto
  | .webhookTrigger token body => do
      let _ ← InboundController.webhookTrigger h token body
  | .tick => AutomationScheduler.tick h
  | .job data => runJob h data

/-- What the request names without a check is of its workspace: the session of an automation that is
stored, and the session in the body of a test; a message is sent for a workspace. -/
def Request.Own (owners : Owners) : Request → Prop
  | .endpoint ws _ (.createAutomation dto) =>
      ∀ w ∈ ws, ∀ id ∈ orNull dto.sessionId, owners .sessions id = some w
  | .endpoint _ _ (.updateAutomation id dto) =>
      ∀ w, owners .automations id = some w →
        ∀ given, dto.sessionId = .value given → owners .sessions given = some w
  | .endpoint _ _ (.testAutomation id body) =>
      ∀ w, owners .automations id = some w → Names owners w (body.getD [])
  | .endpoint ws _ (.sendMessage _) => ws ≠ none
  | .endpoint ws _ (.sendBulk _) => ws ≠ none
  | _ => True

/-- The calls that pass on what a request names. -/
def Call.commits : Call → Bool
  | .insertAutomation _ _ => true
  | .saveAutomation _ _ => true
  | .add _ _ _ => true
  | _ => false

/-- The call is of a request whose names are its own. -/
def Careful (request : Request) (call : Call) (store : Store) : Prop :=
  Call.commits call = true → request.Own store.owner

/-- The id of a new session or automation is new. -/
def Fresh (call : Call) (input : Input) (store : Store) : Prop :=
  match call with
  | .insert .sessions draft => ∀ build ∈ draft, store.owner .sessions (build input).id = none
  | .insertAutomation draft _ => ∀ build ∈ draft, store.owner .automations (build input).id = none
  | _ => True

/-- The call leaves rows and jobs that belong. -/
def Rightful (seen : Session → Prop) (owners : Owners) (call : Call) : Prop :=
  match call with
  | .insert .broadcasts _ => False
  | .insert .automations _ => False
  | .insertBroadcast draft _ => ∀ build ∈ draft, ∀ input, Belongs owners .broadcasts (build input)
  | .insertAutomation draft _ => ∀ build ∈ draft, ∀ input, ∀ id ∈ (build input).sessionId,
      owners .sessions id = some (build input).workspaceId
  | .save table entity => ∀ row, entity.writes row → Belongs owners table row
  | .saveAutomation entity _ => ∀ row, entity.writes row → Belongs owners .automations row
  | .update table _ change => ∀ row, Belongs owners table row → Belongs owners table (change row)
  | .add job _ _ => Proper seen owners job
  | .elsewhere _ => False
  | _ => True

/-- What a request may call. -/
def Allowed (seen : Session → Prop) (owners : Owners) (request : Request) (call : Call) : Prop :=
  (Call.commits call = true → request.Own owners) → Rightful seen owners call

/-! ### What a call notes -/

section Notes

variable {input : Input} {store : Store}

/-- The outcomes of the insert of a session. -/
theorem exec_insert_session (draft : Option (Input → Session)) (input : Input) (store : Store) :
    (exec (.insert .sessions draft) input store).2 = store ∨
    ∃ build, draft = some build ∧
      (exec (.insert .sessions draft) input store).2.db = store.db.push .sessions (build input) ∧
      (exec (.insert .sessions draft) input store).2.owner =
        (store.issue .sessions (build input).id (build input).workspaceId).owner := by
  obtain ⟨_, _, _, failed⟩ | performed := exec_cases (.insert .sessions draft) input store
  · exact .inl (congrArg Prod.snd failed)
  rw [performed]
  cases draft with
  | none => exact .inl rfl
  | some build =>
    simp only [perform, Store.insert]
    cases inserted : store.db.insert .sessions (build input) with
    | error error => exact .inl rfl
    | ok db =>
      obtain ⟨_, _, rfl⟩ := Db.insert_ok inserted
      exact .inr ⟨build, rfl, rfl, rfl⟩

/-- The insert of an automation notes its workspace. -/
theorem exec_insertAutomation_owner (draft : Option (Input → Automation))
    (actions : List ActionEntity) (input : Input) (store : Store) :
    (exec (.insertAutomation draft actions) input store).2 = store ∨
    ∃ build, draft = some build ∧ (exec (.insertAutomation draft actions) input store).2.owner =
      (store.issue .automations (build input).id (build input).workspaceId).owner := by
  obtain ⟨_, _, _, failed⟩ | performed := exec_cases (.insertAutomation draft actions) input store
  · exact .inl (congrArg Prod.snd failed)
  rw [performed]
  cases draft with
  | none => exact .inl rfl
  | some build =>
    simp only [perform, Store.insertAutomation]
    cases inserted : store.db.insert .automations (build input) with
    | error error => exact .inl rfl
    | ok db =>
      refine .inr ⟨build, rfl, ?_⟩
      simp only
      cases db.insertAll .actions (Store.actionRows input (build input).id 1 actions) <;> rfl

/-- The other calls note nothing. -/
theorem exec_owner {call : Call} (notSession : ∀ draft, call ≠ .insert .sessions draft)
    (notAutomation : ∀ draft actions, call ≠ .insertAutomation draft actions) (input : Input)
    (store : Store) : (exec call input store).2.owner = store.owner := by
  obtain ⟨_, _, _, failed⟩ | performed := exec_cases call input store
  · rw [failed]
  rw [performed]
  cases call with
  | insert table draft =>
    cases draft with
    | none => rfl
    | some build =>
      simp only [perform, Store.insert]
      cases store.db.insert table (build input) with
      | error error => rfl
      | ok db =>
        cases table with
        | sessions => exact absurd rfl (notSession _)
        | _ => rfl
  | insertBroadcast draft recipients =>
    obtain same | ⟨_, _, db, _, _, _, same⟩ := store.insertBroadcast_snd input recipients draft
    · simp only [perform, same]
    · simp only [perform, same]
  | insertAutomation draft actions => exact absurd rfl (notAutomation _ _)
  | save table entity =>
    obtain ⟨db, same, _⟩ := store.save_snd table entity
    simp only [perform, same]
  | saveAutomation entity actions =>
    obtain ⟨db, same, _⟩ := store.saveAutomation_snd input entity actions
    simp only [perform, same]
  | update table matching change =>
    obtain ⟨db, same, _⟩ := store.commit_snd () (store.db.update table matching change)
    simp only [perform, same]
  | openwa call =>
    simp only [perform, Store.openwa]
    split <;> rfl
  | post request => exact congrArg Store.owner (store.post_snd input)
  | _ => rfl

/-- A new id does not hide an old one. -/
theorem issue_extends {table : Table} {id w : Uuid} (new : store.owner table id = none) :
    Extends store.owner (store.issue table id w).owner := by
  intro other key v noted
  by_cases same : other = table ∧ key = id
  · obtain ⟨rfl, rfl⟩ := same
    rw [new] at noted
    cases noted
  · exact (if_neg same).trans noted

theorem issue_noted (store : Store) (table : Table) (id w : Uuid) :
    (store.issue table id w).owner table id = some w :=
  if_pos ⟨rfl, rfl⟩

/-- Nothing noted is forgotten. -/
theorem exec_extends {call : Call} (fresh : Fresh call input store) :
    Extends store.owner (exec call input store).2.owner := by
  by_cases session : ∃ draft, call = .insert .sessions draft
  · obtain ⟨draft, rfl⟩ := session
    obtain same | ⟨build, rfl, _, noted⟩ := exec_insert_session draft input store
    · rw [same]
      exact extends_refl _
    · rw [noted]
      exact issue_extends (fresh build rfl)
  by_cases automation : ∃ draft actions, call = .insertAutomation draft actions
  · obtain ⟨draft, actions, rfl⟩ := automation
    obtain same | ⟨build, rfl, noted⟩ := exec_insertAutomation_owner draft actions input store
    · rw [same]
      exact extends_refl _
    · rw [noted]
      exact issue_extends (fresh build rfl)
  rw [exec_owner (fun draft is => session ⟨draft, is⟩)
    (fun draft actions is => automation ⟨draft, actions, is⟩)]
  exact extends_refl _

end Notes

/-! ### The step -/

section Step

variable {seen : Session → Prop} {call : Call} {input : Input} {store : Store}

/-- A row that a call writes belongs. -/
theorem put_belongs (rightful : Rightful seen store.owner call) (fresh : Fresh call input store)
    (changed : (exec call input store).2 ≠ store) {table : Table} {row : Row table}
    (put : call.Puts input store table row) :
    Belongs (exec call input store).2.owner table row := by
  have more := exec_extends fresh
  cases put with
  | inserted draft =>
    cases table with
    | sessions =>
      obtain same | ⟨build, is_draft, _, noted⟩ := exec_insert_session (some draft) input store
      · exact absurd same changed
      · cases is_draft
        show (exec (.insert .sessions (some draft)) input store).2.owner .sessions _ = _
        rw [noted]
        exact issue_noted store .sessions _ _
    | broadcasts => exact rightful.elim
    | automations => exact rightful.elim
    | _ => trivial
  | broadcast draft recipients => exact belongs_mono more (rightful draft rfl input)
  | recipient => trivial
  | automation draft actions =>
    obtain same | ⟨build, is_draft, noted⟩ :=
      exec_insertAutomation_owner (some draft) actions input store
    · exact absurd same changed
    · cases is_draft
      refine ⟨?_, fun id named => more _ _ _ (rightful draft rfl input id named)⟩
      rw [noted]
      exact issue_noted store .automations _ _
  | action => trivial
  | onto entity stored row was twin onto =>
    exact belongs_mono more (belongs_held (rightful row (.inl ⟨stored, onto⟩)))
  | anew entity row gone anew => exact belongs_mono more (belongs_held (rightful row (.inr anew)))
  | saved entity actions row writes =>
    cases writes with
    | onto _ stored row was twin onto =>
      exact belongs_mono more (rightful row (.inl ⟨stored, onto⟩))
    | anew _ row gone anew => exact belongs_mono more (rightful row (.inr anew))
  | savedAction => trivial

/-- **The step.** -/
theorem exec_rooted (rightful : Rightful seen store.owner call) (fresh : Fresh call input store)
    (rooted : Rooted seen store) : Rooted seen (exec call input store).2 := by
  have more := exec_extends fresh
  have old (table : Table) (row : Row table) (member : row ∈ store.db table) :
      Belongs (exec call input store).2.owner table row :=
    belongs_mono more (rooted.rows table row member)
  by_cases unchanged : (exec call input store).2 = store
  · rw [unchanged]
    exact rooted
  constructor
  · intro table row member
    cases call with
    | update other matching change =>
      obtain ⟨error, failed⟩ | updated := exec_update other matching change input store
      · exact absurd (congrArg Prod.snd failed) unchanged
      · have listed : row ∈ store.db.set other ((store.db other).map fun row =>
            if matching row then change row else row) table := by
          rw [updated] at member
          exact member
        by_cases same : table = other
        · subst same
          rw [Db.set_same] at listed
          obtain ⟨before, is_row, rfl⟩ := List.mem_map.mp listed
          split
          · exact belongs_mono more (rightful before (rooted.rows table before is_row))
          · exact old table before is_row
        · rw [Db.set_other store.db same] at listed
          exact old table row listed
    | elsewhere change => exact rightful.elim
    | _ =>
      obtain before | put := (exec_changes _ rfl input store).rows table row member
      · exact old table row before
      · exact put_belongs rightful fresh unchanged put
  · intro queued member
    by_cases enqueues : call.enqueues = true
    · cases call with
      | add job attempts delay =>
        obtain ⟨error, failed⟩ | ⟨_, performed⟩ :=
          exec_storage (.add job attempts delay) rfl input store
        · exact absurd (congrArg Prod.snd failed) unchanged
        · rw [performed] at member
          rcases List.mem_append.mp member with before | new
          · exact proper_mono more (rooted.jobs queued before)
          · obtain rfl := List.mem_singleton.mp new
            exact proper_mono more rightful
      | _ => cases enqueues
    · rw [(exec_queue call input store (Bool.eq_false_iff.mpr enqueues)).1] at member
      exact proper_mono more (rooted.jobs queued member)

end Step

/-! ### Calls that are rightful anyway -/

/-- The call writes no row that belongs to a workspace, or a new session. -/
def Call.aside : Call → Bool
  | .insert .broadcasts _ | .insert .automations _ => false
  | .insert _ _ => true
  | .save .sessions _ | .save .broadcasts _ | .save .automations _ => false
  | .save _ _ => true
  | other => other.light

/-- The program makes such calls only. -/
abbrev Aside {α : Type} (program : Svc α) : Prop := program.Calls fun call => Call.aside call = true

theorem aside_of_light {call : Call} (light : call.light = true) : Call.aside call = true := by
  cases call with
  | insert | save => cases light
  | _ => exact light

theorem aside_light {α : Type} {program : Svc α} (light : Light program) : Aside program :=
  calls_mono (fun _ => aside_of_light) light

theorem aside_reads {α : Type} {program : Svc α} (reads : Reads program) : Aside program :=
  aside_light (light_of_reads reads)

theorem aside_rightful {seen : Session → Prop} {owners : Owners} {call : Call}
    (aside : Call.aside call = true) : Rightful seen owners call := by
  cases call with
  | insert table draft => cases table <;> trivial
  | save table entity => cases table <;> first | exact fun _ _ => trivial | cases aside
  | add job attempts delay => cases job <;> trivial
  | _ => trivial

/-! ### What a program finds -/

/-- The row belongs, and if it is a session it is one that was seen. -/
def Shown (seen : Session → Prop) (owners : Owners) : (table : Table) → Row table → Prop
  | .sessions, row => Belongs owners .sessions row ∧ seen row
  | table, row => Belongs owners table row

section Finds

variable {seen : Session → Prop} {owners : Owners} {allowed : Call → Prop} {α β : Type}

/-- Shown rows that belong, the program makes allowed calls only and ends in `ends`. -/
abbrev Stays (seen : Session → Prop) (owners : Owners) (allowed : Call → Prop) (program : Svc α)
    (ends : α → Prop) : Prop :=
  program.Given (Shows (Shown seen owners)) allowed ends

theorem stays_calls {program : Svc α} (calls : program.Calls allowed) :
    Stays seen owners allowed program fun _ => True :=
  given_calls (fun _ => trivial) calls

/-- Calls whose replies do not matter come first. -/
theorem stays_then {program : Svc α} {rest : α → Svc β} {ends : β → Prop}
    (calls : program.Calls allowed)
    (later : ∀ value, Stays seen owners allowed (rest value) ends) :
    Stays seen owners allowed (program >>= rest) ends :=
  given_then (stays_calls calls) fun value _ => later value

/-- Lookups are allowed. -/
abbrev Looks (allowed : Call → Prop) : Prop := ∀ call : Call, call.reads = true → allowed call

/-- Lookups whose replies do not matter come first. -/
theorem reads_then (reads : Looks allowed) {program : Svc α} {rest : α → Svc β} {ends : β → Prop}
    (looks : Reads program)
    (later : ∀ value, Stays seen owners allowed (rest value) ends) :
    Stays seen owners allowed (program >>= rest) ends :=
  stays_then (calls_of_reads looks reads) later

theorem findOne_stays (reads : Looks allowed) {table : Table} {matching : Row table → Bool} :
    Stays seen owners allowed (Svc.findOne table matching) fun found =>
      ∀ row, found = some row → Shown seen owners table row ∧ matching row = true :=
  given_then (given_perform (reads _ rfl) fun _ shown => shown) fun _ shown row head =>
    shown row (List.mem_of_head? head)

theorem findSession_stays (reads : Looks allowed) (id : Uuid) (ws : Option Uuid) (uid : Uuid) :
    Stays seen owners allowed (SessionsService.findOne id ws uid) fun session =>
      Shown seen owners .sessions session ∧ ∀ w ∈ ws, session.workspaceId = w := by
  refine reads_then reads (WorkspacesService.assertMember_reads ws uid) fun _ => ?_
  refine given_then (findOne_stays reads) fun found shown => ?_
  cases found with
  | none => trivial
  | some session =>
    obtain ⟨belongs, hit⟩ := shown session rfl
    refine ⟨belongs, fun w is_ws => ?_⟩
    cases is_ws
    exact beq_iff_eq.mp (Bool.and_eq_true_iff.mp hit).2

theorem getById_stays (reads : Looks allowed) (id : Uuid) :
    Stays seen owners allowed (SessionsService.getById id) fun session =>
      Shown seen owners .sessions session ∧ session.id = id := by
  refine given_then (findOne_stays reads) fun found shown => ?_
  cases found with
  | none => trivial
  | some session => exact (shown session rfl).imp_right beq_iff_eq.mp

theorem findBroadcast_stays (reads : Looks allowed) (id : Uuid) (ws : Option Uuid) (uid : Uuid) :
    Stays seen owners allowed (BroadcastsService.findOne id ws uid) fun broadcast =>
      Belongs owners .broadcasts broadcast := by
  refine reads_then reads (WorkspacesService.assertMember_reads ws uid) fun _ => ?_
  refine given_then (findOne_stays reads) fun found shown => ?_
  cases found with
  | none => trivial
  | some broadcast => exact (shown broadcast rfl).1

theorem findAutomation_stays (reads : Looks allowed) (id : Uuid) (ws : Option Uuid) (uid : Uuid) :
    Stays seen owners allowed (AutomationsService.findOne id ws uid) fun loaded =>
      Belongs owners .automations loaded.1 ∧ loaded.1.id = id := by
  refine reads_then reads (WorkspacesService.assertMember_reads ws uid) fun _ => ?_
  refine given_then (given_perform (reads _ rfl) fun _ shown => shown) fun rows shown => ?_
  cases head : rows.head? with
  | none => trivial
  | some loaded =>
    obtain ⟨belongs, hit⟩ := shown loaded (List.mem_of_head? head)
    exact ⟨belongs, beq_iff_eq.mp (Bool.and_eq_true_iff.mp hit).1⟩

/-- The credentials of a workspace. -/
theorem getOpenwaCredentials_stays (reads : Looks allowed) (h : Helpers) (ws : Option Uuid) :
    Stays seen owners allowed (WorkspacesService.getOpenwaCredentials h ws) fun creds =>
      ∀ w ∈ ws, creds.workspaceId = w := by
  refine given_then (findOne_stays reads) fun found shown => ?_
  cases found with
  | none => trivial
  | some workspace =>
    have asked : ∀ w ∈ ws, workspace.id = w := by
      intro w is_ws
      cases is_ws
      exact beq_iff_eq.mp (shown workspace rfl).2
    exact stays_then (calls_lift _) fun _ => asked

end Finds

/-! ### Requests that write what belongs -/

section Writers

variable {seen : Session → Prop} {owners : Owners} {request : Request}
  {ws : Option Uuid} {uid : Uuid}

/-- Shown rows that belong, the program makes calls the request may make. -/
abbrev Kept (seen : Session → Prop) (owners : Owners) (request : Request) {α : Type}
    (program : Svc α) : Prop :=
  Stays seen owners (Allowed seen owners request) program fun _ => True

theorem allowed_aside {call : Call} (aside : Call.aside call = true) :
    Allowed seen owners request call :=
  fun _ => aside_rightful aside

theorem allowed_reads : Looks (Allowed seen owners request) :=
  fun call reads => allowed_aside (by cases call <;> first | rfl | cases reads)

theorem kept_aside {α : Type} {program : Svc α} (aside : Aside program) :
    Kept seen owners request program :=
  stays_calls (calls_mono (fun _ => allowed_aside) aside)

theorem aside_bind {α β : Type} {program : Svc α} {rest : α → Svc β} {ends : β → Prop}
    (aside : Aside program)
    (later : ∀ value, Stays seen owners (Allowed seen owners request) (rest value) ends) :
    Stays seen owners (Allowed seen owners request) (program >>= rest) ends :=
  stays_then (calls_mono (fun _ => allowed_aside) aside) later

/-- One call that is rightful, and calls aside. -/
theorem kept_call {α : Type} {call : Call} {rest : Resp call → Svc α}
    (rightful : (Call.commits call = true → request.Own owners) → Rightful seen owners call)
    (later : ∀ value, Aside (rest value)) : Kept seen owners request (Svc.call call >>= rest) :=
  given_then (given_perform rightful fun _ _ => trivial) fun value _ => kept_aside (later value)

/-! #### Sessions -/

theorem updateSession_kept (id : Uuid) (dto : UpdateSessionDto) :
    Kept seen owners request (SessionsService.update id ws uid dto) := by
  refine given_then (findSession_stays allowed_reads id ws uid) fun session found => ?_
  refine kept_call (fun _ row writes => ?_) fun _ => trivial
  obtain ⟨has_id, home⟩ := SessionsService.assign_keeps writes
  show owners .sessions row.id = some row.workspaceId
  rw [has_id, home]
  exact found.1.1

theorem setStatus_kept {α : Type} {session : Session} (belongs : Belongs owners .sessions session)
    (status : SessionStatus) (phone : Field String) {rest : Session → Svc α}
    (later : ∀ session, Aside (rest session)) :
    Kept seen owners request (SessionsService.setStatus session status phone >>= rest) := by
  unfold SessionsService.setStatus
  simp only [Program.bind_assoc]
  intro reading
  refine kept_call (fun _ row writes => ?_) fun _ => calls_bind (calls_call rfl) fun _ => later _
  rw [Entity.writes_whole writes]
  exact belongs

theorem startSession_kept (h : Helpers) (id : Uuid) :
    Kept seen owners request (SessionsService.start h id ws uid) := by
  refine given_then (findSession_stays allowed_reads id ws uid) fun session found => ?_
  refine reads_then allowed_reads (WorkspacesService.getOpenwaCredentials_reads h ws) fun _ => ?_
  exact setStatus_kept found.1.1 _ _ fun _ =>
    calls_bind (OpenwaService.call_calls rfl) fun _ => calls_findOne rfl

theorem stopSession_kept (h : Helpers) (id : Uuid) :
    Kept seen owners request (SessionsService.stop h id ws uid) := by
  refine given_then (findSession_stays allowed_reads id ws uid) fun session found => ?_
  refine reads_then allowed_reads (WorkspacesService.getOpenwaCredentials_reads h ws) fun _ => ?_
  refine aside_bind (OpenwaService.call_calls rfl) fun _ => ?_
  exact setStatus_kept found.1.1 _ _ fun _ => calls_findOne rfl

theorem sessionStatus_kept (h : Helpers) (id : Uuid) :
    Kept seen owners request (SessionsService.getStatus h id ws uid) := by
  refine given_then (findSession_stays allowed_reads id ws uid) fun session found => ?_
  refine reads_then allowed_reads (WorkspacesService.getOpenwaCredentials_reads h ws) fun _ => ?_
  refine aside_bind (calls_attempt (OpenwaService.call_calls rfl)) fun _ => ?_
  dsimp only
  split
  · trivial
  · split
    · trivial
    · exact setStatus_kept found.1.1 _ _ fun _ => trivial

/-! #### Messages -/

theorem message_proper {session : Session} {toPhone : String} {type : MessageType}
    {content mediaUrl caption filename : Option String}
    (found : Shown seen owners .sessions session ∧ ∀ w ∈ ws, session.workspaceId = w)
    (named : ws ≠ none) :
    Proper seen owners (.message ⟨ws, session.id, session.sessionId, toPhone, type,
      content, mediaUrl,
      caption, filename, none, none⟩) :=
  ⟨named, session, found.1.2, rfl, rfl, found.2⟩

theorem send_kept (dto : SendMessageDto) :
    Kept seen owners (.endpoint ws uid (.sendMessage dto)) (MessagesService.send ws uid dto) := by
  refine reads_then allowed_reads (WorkspacesService.assertMember_reads ws uid) fun _ => ?_
  refine given_then (findSession_stays allowed_reads dto.sessionId ws uid) fun session found => ?_
  exact kept_call (fun own => message_proper found (own rfl)) fun _ => trivial

theorem sendEach_kept {dto : SendBulkDto} {session : Session}
    (found : Shown seen owners .sessions session ∧ ∀ w ∈ ws, session.workspaceId = w)
    (content : String) (delay : Int) : ∀ (recipients : List String) (index : Nat),
      Kept seen owners (.endpoint ws uid (.sendBulk dto))
        (MessagesService.sendEach ws session content delay index recipients) := by
  intro recipients
  induction recipients with
  | nil => exact fun _ => trivial
  | cons first rest ih =>
    exact fun index => given_then
      (given_perform (fun own => message_proper found (own rfl)) fun _ _ => trivial)
      fun _ _ => ih (index + 1)

theorem sendBulk_kept (dto : SendBulkDto) :
    Kept seen owners (.endpoint ws uid (.sendBulk dto)) (MessagesService.sendBulk ws uid dto) := by
  refine reads_then allowed_reads (WorkspacesService.assertMember_reads ws uid) fun _ => ?_
  refine given_then (findSession_stays allowed_reads dto.sessionId ws uid) fun session found => ?_
  exact given_then (sendEach_kept found _ _ _ _) fun _ _ => trivial

/-! #### Broadcasts -/

theorem createBroadcast_kept (h : Helpers) (dto : CreateBroadcastDto) :
    Kept seen owners request (BroadcastsService.create h ws uid dto) := by
  refine reads_then allowed_reads (WorkspacesService.assertRole_reads ws uid managers) fun _ => ?_
  refine given_then (findSession_stays allowed_reads dto.sessionId ws uid) fun session found => ?_
  refine reads_then allowed_reads (ContactsService.resolvePhones_reads ws _) fun _ => ?_
  dsimp only
  split
  · trivial
  · refine given_perform (fun _ build drafted input => ?_) fun _ _ => trivial
    obtain ⟨w, is_ws, rfl⟩ := Option.map_eq_some_iff.mp drafted
    show owners .sessions session.id = some w
    rw [← found.2 w is_ws]
    exact found.1.1

/-- A broadcast of the workspace is written with its session. -/
theorem broadcast_kept {broadcast : Broadcast} {entity : Entity Broadcast} {α : Type}
    {rest : Unit → Svc α} (belongs : Belongs owners .broadcasts broadcast)
    (keeps : ∀ row, entity.writes row →
      row.sessionId = broadcast.sessionId ∧ row.workspaceId = broadcast.workspaceId)
    (later : ∀ value, Aside (rest value)) :
    Kept seen owners request (Svc.call (.save .broadcasts entity) >>= rest) := by
  refine kept_call (fun _ row writes => ?_) later
  obtain ⟨session, home⟩ := keeps row writes
  show owners .sessions row.sessionId = some row.workspaceId
  rw [session, home]
  exact belongs

theorem whole_keeps {row broadcast : Broadcast} (session : row.sessionId = broadcast.sessionId)
    (home : row.workspaceId = broadcast.workspaceId) :
    ∀ other, (Entity.whole row).writes other →
      other.sessionId = broadcast.sessionId ∧ other.workspaceId = broadcast.workspaceId := by
  intro other writes
  rw [Entity.writes_whole writes]
  exact ⟨session, home⟩

theorem updateBroadcast_kept (id : Uuid) (dto : UpdateBroadcastDto) :
    Kept seen owners request (BroadcastsService.update id ws uid dto) := by
  refine reads_then allowed_reads (WorkspacesService.assertRole_reads ws uid managers) fun _ => ?_
  refine given_then (findBroadcast_stays allowed_reads id ws uid) fun broadcast belongs => ?_
  split
  · trivial
  · refine broadcast_kept belongs (fun row writes => ?_) fun _ => trivial
    have edited : row = { broadcast with
        name := row.name, template := row.template, delayMs := row.delayMs } := assign_writes writes
    exact ⟨(congrArg Broadcast.sessionId edited).trans rfl,
      (congrArg Broadcast.workspaceId edited).trans rfl⟩

theorem sendBroadcast_kept (id : Uuid) :
    Kept seen owners request (BroadcastsService.send id ws uid) := by
  refine reads_then allowed_reads (WorkspacesService.assertRole_reads ws uid managers) fun _ => ?_
  refine given_then (findBroadcast_stays allowed_reads id ws uid) fun broadcast belongs => ?_
  split
  · trivial
  · exact broadcast_kept belongs (whole_keeps rfl rfl) fun _ =>
      calls_bind calls_now fun _ => calls_bind (calls_call rfl) fun _ => trivial

theorem cancelBroadcast_kept (id : Uuid) :
    Kept seen owners request (BroadcastsService.cancel id ws uid) := by
  refine reads_then allowed_reads (WorkspacesService.assertRole_reads ws uid managers) fun _ => ?_
  refine given_then (findBroadcast_stays allowed_reads id ws uid) fun broadcast belongs => ?_
  exact broadcast_kept belongs (whole_keeps rfl rfl) fun _ => trivial

/-! #### Automations -/

theorem createAutomation_kept (dto : CreateAutomationDto) :
    Kept seen owners (.endpoint ws uid (.createAutomation dto))
      (AutomationsService.create ws uid dto) := by
  refine reads_then allowed_reads (WorkspacesService.assertRole_reads ws uid managers) fun _ => ?_
  refine stays_then (AutomationsService.withPath_calls dto) fun config => ?_
  refine given_perform (fun own build drafted input => ?_) fun _ _ => trivial
  obtain ⟨w, is_ws, rfl⟩ := Option.map_eq_some_iff.mp drafted
  exact own rfl w is_ws

theorem updateAutomation_kept (id : Uuid) (dto : UpdateAutomationDto) :
    Kept seen owners (.endpoint ws uid (.updateAutomation id dto))
      (AutomationsService.update id ws uid dto) := by
  refine reads_then allowed_reads (WorkspacesService.assertRole_reads ws uid managers) fun _ => ?_
  refine given_then (findAutomation_stays allowed_reads id ws uid) fun loaded found => ?_
  refine aside_bind ?_ fun actions => ?_
  · cases dto.actions with
    | undefined => trivial
    | null => exact calls_bind (calls_call rfl) fun _ => trivial
    | value given => exact calls_bind (calls_call rfl) fun _ => trivial
  refine kept_call (fun own row writes => ?_) fun _ => trivial
  obtain ⟨⟨noted, names⟩, rfl⟩ := found
  obtain ⟨has_id, home, _, session⟩ := AutomationsService.assign_keeps (Entity.writes_fixed writes)
  refine ⟨?_, ?_⟩
  · rw [has_id, home]
    exact noted
  rw [session, home]
  intro given named
  cases field : dto.sessionId with
  | undefined =>
    rw [field] at named
    exact names given named
  | null =>
    rw [field] at named
    cases named
  | value other =>
    rw [field] at named
    cases named
    exact own rfl _ noted _ field

theorem setActive_kept (id : Uuid) (active : Bool) :
    Kept seen owners request (AutomationsService.setActive id ws uid active) := by
  refine reads_then allowed_reads (WorkspacesService.assertRole_reads ws uid managers) fun _ => ?_
  refine given_then (findAutomation_stays allowed_reads id ws uid) fun loaded found => ?_
  refine kept_call (fun _ row writes => ?_) fun _ => trivial
  rw [Entity.writes_whole writes]
  exact found.1

/-- A run is enqueued with a context that names a session of its automation's workspace. -/
theorem enqueueRun_kept {automation : Automation} {context : Record}
    (belongs : Belongs owners .automations automation)
    (names : request.Own owners → Names owners automation.workspaceId context) :
    Kept seen owners request (AutomationsService.enqueueRun automation context) :=
  aside_bind (calls_call rfl) fun _ =>
    kept_call (fun own => ⟨belongs.1, names (own rfl)⟩) fun _ => trivial

theorem test_kept (id : Uuid) (body : Option Record) :
    Kept seen owners (.endpoint ws uid (.testAutomation id body))
      (AutomationsService.test id ws uid body) := by
  refine given_then (findAutomation_stays allowed_reads id ws uid) fun loaded found => ?_
  obtain ⟨belongs, rfl⟩ := found
  exact enqueueRun_kept belongs fun own => own _ belongs.1

/-! #### Triggers -/

theorem names_of_get {w : Uuid} {context : Record} (value : Json)
    (found : context.get "sessionId" = some value)
    (own : ∀ id, value = .str id → owners .sessions id = some w) : Names owners w context := by
  intro id named
  unfold truthyGet at named
  rw [found] at named
  exact own id (Option.some.inj (Option.filter_eq_some_iff.mp named).1)

/-- The session of an automation, as the value a context holds. -/
theorem sessionJson_own {automation : Automation}
    (belongs : Belongs owners .automations automation) :
    ∀ id, sessionJson automation = .str id →
      owners .sessions id = some automation.workspaceId := by
  intro id same
  unfold sessionJson at same
  cases named : automation.sessionId with
  | none =>
    rw [named] at same
    cases same
  | some given =>
    rw [named] at same
    cases same
    exact belongs.2 id named

theorem enqueueEach_kept {w : Uuid} {context : Record} (names : Names owners w context)
    {automations : List Automation}
    (own : ∀ automation ∈ automations,
      Belongs owners .automations automation ∧ automation.workspaceId = w) :
    Kept seen owners request (AutomationsService.enqueueEach context automations) := by
  induction automations with
  | nil => trivial
  | cons automation rest ih =>
    obtain ⟨belongs, rfl⟩ := own automation List.mem_cons_self
    exact given_then (enqueueRun_kept belongs fun _ => names) fun _ _ =>
      ih fun other member => own other (List.mem_cons_of_mem _ member)

theorem dispatchIncomingMessage_kept {w : Uuid} {ctx : Record} (h : Helpers)
    (names : Names owners w (ctx.put "to" (ctx.get "from"))) :
    Kept seen owners request (AutomationsService.dispatchIncomingMessage h w ctx) := by
  refine given_then (given_perform (allowed_reads _ rfl) fun _ shown => shown)
    fun candidates shown => ?_
  cases matches_ : AutomationsService.matched h ctx (candidates.map Prod.fst) with
  | error error => trivial
  | ok matching =>
    simp only [Svc.lift, Program.ret_bind]
    refine given_then (enqueueEach_kept names fun automation member => ?_) fun _ _ => trivial
    obtain ⟨loaded, found, rfl⟩ :=
      List.mem_map.mp (AutomationsService.matched_subset matches_ member)
    obtain ⟨belongs, fits⟩ := shown loaded found
    simp only [Bool.and_eq_true] at fits
    exact ⟨belongs, beq_iff_eq.mp fits.1.1⟩

theorem dispatch_aside (w : Uuid) (event : String) (payload : Record) :
    Aside (WebhooksService.dispatch w event payload) := by
  have enqueues (hooks : List Webhook) :
      Aside (WebhooksService.enqueueEach event payload hooks) := by
    induction hooks with
    | nil => trivial
    | cons hook rest ih => exact calls_bind (calls_call rfl) fun _ => ih
  exact calls_bind (calls_call rfl) fun _ => calls_bind (enqueues _) fun _ => trivial

theorem onMessage_kept (h : Helpers) (dto : Record) :
    Kept seen owners request (InboundController.onMessage h dto) := by
  refine given_then (findOne_stays allowed_reads) fun found shown => ?_
  cases found with
  | none => trivial
  | some session =>
    obtain ⟨⟨belongs, _⟩, _⟩ := shown session rfl
    refine aside_bind (calls_attempt (MessagesService.record_calls fun _ _ => rfl)) fun _ => ?_
    refine aside_bind (calls_call rfl) fun _ => ?_
    refine aside_bind (dispatch_aside _ _ _) fun _ => ?_
    refine given_then (dispatchIncomingMessage_kept h ?_) fun _ _ => trivial
    refine names_of_get (.str session.id) ?_ fun id same => ?_
    · rw [Record.get_put_other (by decide)]
      unfold recordOf
      cases dto.get "body" <;> cases dto.get "from" <;> cases dto.get "isGroupMsg" <;> rfl
    · cases same
      exact belongs

theorem webhookTrigger_kept (h : Helpers) (token : String) (body : Record) :
    Kept seen owners request (InboundController.webhookTrigger h token body) := by
  refine given_then (findOne_stays allowed_reads) fun found shown => ?_
  cases found with
  | none => trivial
  | some automation =>
    have belongs : Belongs owners .automations automation := (shown automation rfl).1
    have here (field : String) : (InboundController.hookContext automation body field).get
        "sessionId" = some (sessionJson automation) := Record.get_set _
    have enqueues {context : Record}
        (found : context.get "sessionId" = some (sessionJson automation)) :
        Kept seen owners request (AutomationsService.enqueueRun automation context >>= fun reply =>
          Program.ret (InboundReply.queued reply.jobId)) :=
      given_then (enqueueRun_kept belongs fun _ => names_of_get _ found (sessionJson_own belongs))
        fun _ _ => trivial
    refine stays_then (calls_lift _) fun field => ?_
    dsimp only
    split
    · exact enqueues (here field)
    · exact stays_then (calls_lift _) fun message =>
        enqueues ((Record.get_set_other (by decide) _).trans (here field))

theorem enqueueTargets_kept {automation : Automation}
    (belongs : Belongs owners .automations automation) (phones : List Json) :
    Kept seen owners request (AutomationScheduler.enqueueTargets automation phones) := by
  induction phones with
  | nil => trivial
  | cons phone rest ih =>
    exact given_then (enqueueRun_kept belongs fun _ => names_of_get _ rfl (sessionJson_own belongs))
      fun _ _ => ih

theorem fireEach_kept (h : Helpers) (now : Time) {scheduled : List Automation}
    (belong : ∀ automation ∈ scheduled, Belongs owners .automations automation) :
    Kept seen owners request (AutomationScheduler.fireEach h now scheduled) := by
  induction scheduled with
  | nil => trivial
  | cons automation rest ih =>
    have later := ih fun other member => belong other (List.mem_cons_of_mem _ member)
    unfold AutomationScheduler.fireEach
    cases truthyGet automation.triggerConfig "cron" with
    | none => exact later
    | some cron =>
      have fires :
          Kept seen owners request (AutomationScheduler.fire h now automation cron).attempt := by
        refine given_attempt ?_ fun _ => trivial
        refine stays_then (calls_lift _) fun next => ?_
        split
        · exact stays_then (calls_lift _) fun phones =>
            enqueueTargets_kept (belong automation List.mem_cons_self) phones
        · trivial
      exact given_then fires fun _ _ => later

theorem tick_kept (h : Helpers) : Kept seen owners request (AutomationScheduler.tick h) := by
  refine stays_then calls_now fun now => ?_
  refine given_then (given_perform (allowed_reads _ rfl) fun _ shown => shown) fun rows shown => ?_
  refine fireEach_kept h now fun automation member => ?_
  obtain ⟨loaded, found, rfl⟩ := List.mem_map.mp member
  exact (shown loaded found).1

end Writers

end WaAutomation.Origins
