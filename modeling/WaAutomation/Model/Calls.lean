/-
**The calls service functions make.**

Guards and lookups only read (`Call.reads`), whatever they are answered; the other functions are
described by the few calls they add to that. The endpoints that neither write rows nor enqueue
messages or runs are the light ones (`Endpoint.program_light`). A property of every call a function
can make then follows from what those calls do, with no second look at the function's text.
-/

import WaAutomation.Model.Api
import WaAutomation.Model.Deliveries
import WaAutomation.Model.Frame

set_option linter.unusedSectionVars false

namespace WaAutomation

open Library Program

/-- The call loads rows. -/
def Call.reads : Call → Bool
  | .find _ _ => true
  | .findAutomations _ => true
  | _ => false

theorem Call.reads_writes {call : Call} (reads : call.reads = true) (table : Table) :
    call.writes table = false := by
  cases call <;> first | rfl | cases reads

theorem Call.reads_enqueues {call : Call} (reads : call.reads = true) : call.enqueues = false := by
  cases call <;> first | rfl | cases reads

theorem exec_reads {call : Call} (reads : call.reads = true) (input : Input) (store : Store) :
    (exec call input store).2 = store := by
  obtain ⟨_, _, _, failed⟩ | performed := exec_cases call input store
  · rw [failed]
  · rw [performed]
    cases call <;> first | rfl | cases reads

/-! ### Building blocks -/

section Blocks

variable {allowed : Call → Prop}

theorem calls_call {request : Call} (holds : allowed request) :
    (Svc.call request).Calls allowed :=
  calls_perform holds

theorem calls_findOne {table : Table} {matching : Row table → Bool}
    (holds : allowed (.find table matching)) : (Svc.findOne table matching).Calls allowed :=
  calls_bind (calls_perform holds) fun _ => trivial

theorem calls_lift {α : Type} (outcome : Except Err α) : (Svc.lift outcome).Calls allowed := by
  cases outcome <;> trivial

theorem calls_now : Svc.now.Calls allowed := fun _ => trivial

theorem calls_randomHex : Svc.randomHex.Calls allowed := fun _ => trivial

end Blocks

/-! ### Guards and lookups -/

/-- The program only loads rows. -/
abbrev Reads {α : Type} (program : Svc α) : Prop := program.Calls fun call => call.reads = true

theorem WorkspacesService.assertMember_calls {allowed : Call → Prop} (workspaceId : Option Uuid)
    (userId : Uuid) (holds : ∀ matching, allowed (.find .members matching)) :
    (WorkspacesService.assertMember workspaceId userId).Calls allowed := by
  refine calls_bind (calls_findOne (holds _)) fun found => ?_
  cases found <;> trivial

theorem WorkspacesService.assertRole_calls {allowed : Call → Prop} (workspaceId : Option Uuid)
    (userId : Uuid) (roles : List String) (holds : ∀ matching, allowed (.find .members matching)) :
    (WorkspacesService.assertRole workspaceId userId roles).Calls allowed := by
  refine calls_bind (assertMember_calls workspaceId userId holds) fun member => ?_
  by_cases holds : roles.contains member.role
  · rw [if_pos holds]
    trivial
  · rw [if_neg holds]
    trivial

theorem WorkspacesService.assertMember_reads (workspaceId : Option Uuid) (userId : Uuid) :
    Reads (WorkspacesService.assertMember workspaceId userId) :=
  assertMember_calls workspaceId userId fun _ => rfl

theorem WorkspacesService.assertRole_reads (workspaceId : Option Uuid) (userId : Uuid)
    (roles : List String) : Reads (WorkspacesService.assertRole workspaceId userId roles) :=
  assertRole_calls workspaceId userId roles fun _ => rfl

theorem WorkspacesService.getOpenwaCredentials_calls {allowed : Call → Prop} (h : Helpers)
    (workspaceId : Option Uuid) (holds : ∀ matching, allowed (.find .workspaces matching)) :
    (WorkspacesService.getOpenwaCredentials h workspaceId).Calls allowed := by
  refine calls_bind (calls_findOne (holds _)) fun found => ?_
  cases found with
  | none => trivial
  | some workspace => exact calls_bind (calls_lift _) fun _ => trivial

theorem WorkspacesService.getOpenwaCredentials_reads (h : Helpers) (workspaceId : Option Uuid) :
    Reads (WorkspacesService.getOpenwaCredentials h workspaceId) :=
  getOpenwaCredentials_calls h workspaceId fun _ => rfl

theorem SessionsService.findOne_reads (id : Uuid) (workspaceId : Option Uuid) (userId : Uuid) :
    Reads (SessionsService.findOne id workspaceId userId) := by
  refine calls_bind (WorkspacesService.assertMember_reads workspaceId userId) fun _ => ?_
  refine calls_bind (calls_findOne rfl) fun found => ?_
  cases found <;> trivial

theorem SessionsService.getById_calls {allowed : Call → Prop} (id : Uuid)
    (holds : ∀ matching, allowed (.find .sessions matching)) :
    (SessionsService.getById id).Calls allowed := by
  refine calls_bind (calls_findOne (holds _)) fun found => ?_
  cases found <;> trivial

theorem SessionsService.getById_reads (id : Uuid) : Reads (SessionsService.getById id) :=
  getById_calls id fun _ => rfl

theorem BroadcastsService.findOne_reads (id : Uuid) (workspaceId : Option Uuid) (userId : Uuid) :
    Reads (BroadcastsService.findOne id workspaceId userId) := by
  refine calls_bind (WorkspacesService.assertMember_reads workspaceId userId) fun _ => ?_
  refine calls_bind (calls_findOne rfl) fun found => ?_
  cases found <;> trivial

theorem ContactsService.resolvePhones_reads (workspaceId : Option Uuid) (contactIds : List Uuid) :
    Reads (ContactsService.resolvePhones workspaceId contactIds) := by
  unfold resolvePhones
  split
  · trivial
  · exact calls_bind (calls_perform rfl) fun _ => trivial

theorem ContactsService.findOne_reads (id : Uuid) (workspaceId : Option Uuid) (userId : Uuid) :
    Reads (ContactsService.findOne id workspaceId userId) := by
  refine calls_bind (WorkspacesService.assertMember_reads workspaceId userId) fun _ => ?_
  refine calls_bind (calls_findOne rfl) fun found => ?_
  cases found <;> trivial

theorem ContactsService.findGroup_reads (id : Uuid) (workspaceId : Option Uuid) :
    Reads (ContactsService.findGroup id workspaceId) := by
  refine calls_bind (calls_findOne rfl) fun found => ?_
  cases found <;> trivial

theorem AutomationsService.findOne_reads (id : Uuid) (workspaceId : Option Uuid) (userId : Uuid) :
    Reads (AutomationsService.findOne id workspaceId userId) := by
  refine calls_bind (WorkspacesService.assertMember_reads workspaceId userId) fun _ => ?_
  refine calls_bind (calls_call rfl) fun rows => ?_
  cases rows.head? <;> trivial

theorem WebhooksService.findOne_reads (id : Uuid) (workspaceId : Option Uuid) (userId : Uuid) :
    Reads (WebhooksService.findOne id workspaceId userId) := by
  refine calls_bind (WorkspacesService.assertMember_reads workspaceId userId) fun _ => ?_
  refine calls_bind (calls_findOne rfl) fun found => ?_
  cases found <;> trivial

/-! ### Calls of the other functions -/

section Others

variable {allowed : Call → Prop}

theorem OpenwaService.call_calls {creds : OpenwaCredentials} {method : OpenwaMethod}
    {session : SessionRef} {recipient : Option RecipientRef}
    (holds : allowed (.openwa ⟨creds, method, session, recipient⟩)) :
    (OpenwaService.call creds method session recipient).Calls allowed := by
  refine calls_bind (calls_attempt (calls_perform holds)) fun result => ?_
  cases result <;> trivial

/-- What is drafted is a row of the workspace and the session. -/
def MessagesService.Drafts (workspaceId sessionId : Option Uuid)
    (draft : Option (Input → MessageLog)) : Prop :=
  ∀ build ∈ draft, ∀ input,
    workspaceId = some (build input).workspaceId ∧ (build input).sessionId = sessionId

theorem MessagesService.record_calls {data : MessageRecord}
    (holds : ∀ draft, Drafts data.workspaceId data.sessionId draft →
      allowed (.insert .logs draft)) :
    (MessagesService.record data).Calls allowed := by
  refine calls_perform (holds _ fun build drafted input => ?_)
  obtain ⟨w, is_ws, rfl⟩ := Option.map_eq_some_iff.mp drafted
  exact ⟨is_ws, rfl⟩

/-- The message of a job is one OpenWA call through its session. -/
theorem MessageProcessor.deliver_call (creds : OpenwaCredentials) (data : SendMessageJob) :
    ∃ method, deliver creds data =
      OpenwaService.call creds method ⟨data.openwaSessionId, data.sessionId⟩ none := by
  unfold deliver
  split
  · exact ⟨_, rfl⟩
  · exact ⟨_, rfl⟩
  · exact ⟨_, rfl⟩

theorem MessagesService.sendEach_calls {workspaceId : Option Uuid} {session : Session}
    {content : String} {delay : Int}
    (adds : ∀ job attempts delay, allowed (.add job attempts delay))
    {recipients : List String} : ∀ {index : Nat},
      (MessagesService.sendEach workspaceId session content delay index recipients).Calls
        allowed := by
  induction recipients with
  | nil => exact trivial
  | cons first rest ih => exact calls_bind (calls_call (adds _ _ _)) fun _ => ih

/-- A path of its own is drawn, and nothing called. -/
theorem AutomationsService.withPath_calls (dto : CreateAutomationDto) :
    (AutomationsService.withPath dto).Calls allowed := by
  unfold AutomationsService.withPath
  split
  · exact calls_bind calls_randomHex fun _ => trivial
  · trivial

/-- The automations a message satisfies are among those it is tried on. -/
theorem AutomationsService.matched_subset {h : Helpers} {ctx : Record}
    {automations : List Automation} :
    ∀ {matching : List Automation},
      matched h ctx automations = .ok matching → matching ⊆ automations := by
  induction automations with
  | nil =>
    intro matching found
    cases found
    exact fun _ member => member
  | cons automation rest ih =>
    intro matching found
    unfold matched at found
    cases fires : h.matchesMessage automation.triggerConfig ctx with
    | error error =>
      rw [fires] at found
      cases found
    | ok hit =>
      rw [fires] at found
      cases others : matched h ctx rest with
      | error error =>
        rw [others] at found
        cases found
      | ok more =>
        rw [others] at found
        cases found
        have later : more ⊆ automation :: rest :=
          fun other member => List.mem_cons_of_mem _ (ih others member)
        cases hit with
        | true => exact List.cons_subset.mpr ⟨List.mem_cons_self, later⟩
        | false => exact later

theorem calls_of_reads {α : Type} {program : Svc α} (reads : Reads program)
    (holds : ∀ call : Call, call.reads = true → allowed call) : program.Calls allowed :=
  calls_mono holds reads

theorem BroadcastProcessor.announce_calls {broadcast : Broadcast}
    (emits : ∀ event, allowed (.emit event)) (sleeps : ∀ ms, allowed (.sleep ms)) :
    (BroadcastProcessor.announce broadcast).Calls allowed :=
  calls_bind (calls_perform (emits _)) fun _ => calls_perform (sleeps _)

/-- The calls of an action. -/
theorem ActionEngine.execute_calls {h : Helpers} {action : AutomationAction}
    {ctx : ActionRunContext}
    (sends : ∀ method, allowed (.openwa ⟨ctx.creds, method, ctx.session, none⟩))
    (sleeps : ∀ ms, allowed (.sleep ms))
    (logs : ∀ draft, MessagesService.Drafts (some ctx.workspaceId) (some ctx.sessionId) draft →
      allowed (.insert .logs draft)) : (execute h action ctx).Calls allowed := by
  have logged (type : MessageType) (content : Option Json) :
      (log h ctx type content).Calls allowed :=
    calls_bind (calls_attempt (MessagesService.record_calls logs)) fun _ => trivial
  unfold execute
  cases action.actionType with
  | sendText =>
    refine calls_bind (calls_lift _) fun message => ?_
    dsimp only
    split
    · refine calls_bind (calls_call (sleeps _)) fun _ => calls_bind (calls_lift _) fun phone => ?_
      refine calls_bind (OpenwaService.call_calls (sends _)) fun _ => ?_
      exact calls_bind (logged _ _) fun _ => trivial
    · refine calls_bind (calls_lift _) fun phone => ?_
      refine calls_bind (OpenwaService.call_calls (sends _)) fun _ => ?_
      exact calls_bind (logged _ _) fun _ => trivial
  | sendImage =>
    refine calls_bind (calls_lift _) fun caption => calls_bind (calls_lift _) fun phone => ?_
    refine calls_bind (OpenwaService.call_calls (sends _)) fun _ => ?_
    exact calls_bind (logged _ _) fun _ => trivial
  | sendFile =>
    refine calls_bind (calls_lift _) fun caption => calls_bind (calls_lift _) fun phone => ?_
    refine calls_bind (OpenwaService.call_calls (sends _)) fun _ => ?_
    exact calls_bind (logged _ _) fun _ => trivial
  | forward =>
    refine calls_bind (calls_lift _) fun message => calls_bind (calls_lift _) fun phone => ?_
    exact calls_bind (OpenwaService.call_calls (sends _)) fun _ => trivial
  | delay => exact calls_bind (calls_call (sleeps _)) fun _ => trivial
  | condition =>
    refine calls_bind (calls_lift _) fun result => ?_
    split <;> trivial

theorem ActionEngine.loop_calls {h : Helpers} {sorted : List AutomationAction}
    {ctx : ActionRunContext}
    (sends : ∀ method, allowed (.openwa ⟨ctx.creds, method, ctx.session, none⟩))
    (sleeps : ∀ ms, allowed (.sleep ms))
    (logs : ∀ draft, MessagesService.Drafts (some ctx.workspaceId) (some ctx.sessionId) draft →
      allowed (.insert .logs draft)) (steps : Nat) : ∀ index,
        (loop h sorted ctx steps index).Calls allowed := by
  induction steps with
  | zero => exact fun _ => trivial
  | succ steps ih =>
    intro index
    unfold loop
    cases sorted[index]? with
    | none => trivial
    | some action =>
      refine calls_bind (execute_calls sends sleeps logs) fun next => ?_
      cases next with
      | none => exact ih _
      | some next => exact ih _

/-- The calls of a run of an automation: lookups, the messages and their log rows, and the
bookkeeping. -/
theorem AutomationProcessor.process_calls {h : Helpers} {data : AutomationJob}
    (reads : ∀ call : Call, call.reads = true → allowed call)
    (sends : ∀ call, allowed (.openwa call)) (sleeps : ∀ ms, allowed (.sleep ms))
    (logs : ∀ draft, allowed (.insert .logs draft))
    (marks : (AutomationsService.markRun data.automationId).Calls allowed) :
    (process h data).Calls allowed := by
  refine calls_bind (calls_call (reads _ rfl)) fun rows => ?_
  cases rows.head? with
  | none => trivial
  | some loaded =>
    dsimp only
    cases sessionOf loaded.1 data.context with
    | none => trivial
    | some dbSessionId =>
      have looks : (getByJson dbSessionId).Calls allowed := by
        cases dbSessionId with
        | str id => exact SessionsService.getById_calls id fun _ => reads _ rfl
        | _ => trivial
      refine calls_bind looks fun session => ?_
      refine calls_bind (WorkspacesService.getOpenwaCredentials_calls h _ fun _ => reads _ rfl)
        fun creds => ?_
      refine calls_bind (ActionEngine.loop_calls (fun _ => sends _) sleeps
        (fun draft _ => logs draft)
        _ _) fun _ => ?_
      exact calls_bind marks fun _ => trivial

/-- The call of a service function that a call of the delivery processor is. -/
def DeliveryCall.served : DeliveryCall → Call
  | .db base => base
  | .post request => .post request

/-- A function of the delivery processor keeps its calls among the service functions. -/
theorem ofDelivering_calls {α : Type} {program : Delivering α}
    (all : program.Calls fun request => allowed request.served) :
    (ofDelivering program).Calls allowed := by
  induction program with
  | ret value => trivial
  | throw error => trivial
  | ambient next ih => exact fun input => ih _ (all _)
  | call request next ih =>
    cases request with
    | db base => exact ⟨all.1, fun reply => ih reply (all.2 reply)⟩
    | post request => exact ⟨all.1, fun reply => ih reply (all.2 reply)⟩

/-- The calls of a delivery: the webhook, the endpoint, and the row of the delivery. -/
theorem WebhookProcessor.job_calls {h : Helpers} {data : WebhookJob}
    (finds : ∀ matching, allowed (.find .webhooks matching))
    (posts : ∀ request, allowed (.post request))
    (records : ∀ draft, allowed (.insert .deliveries draft)) : (job h data).Calls allowed := by
  have asks {request : DeliveryCall} (holds : allowed request.served) :
      (Delivering.call request).Calls fun request => allowed request.served := calls_perform holds
  refine calls_bind (fun input => trivial) fun attemptsMade =>
    calls_bind (ofDelivering_calls ?_) fun _ => trivial
  refine calls_bind (calls_bind (asks (finds _)) fun _ => trivial) fun found => ?_
  cases found with
  | none => trivial
  | some webhook =>
    dsimp only
    split
    · trivial
    refine calls_bind (fun _ => trivial) fun reading => calls_bind (calls_attempt ?_)
      fun outcome => ?_
    · exact calls_bind (asks (posts _)) fun _ => calls_bind (asks (records _)) fun _ => trivial
    · cases outcome with
      | ok result => trivial
      | error error => exact calls_bind (asks (records _)) fun _ => trivial

end Others

/-! ### Endpoints -/

/-- The call writes no row, and enqueues neither a message nor a run. -/
def Call.light : Call → Bool
  | .insert _ _ | .insertBroadcast _ _ | .insertAutomation _ _ => false
  | .save _ _ | .saveAutomation _ _ | .update _ _ _ | .elsewhere _ => false
  | .add (.message _) _ _ | .add (.automation _) _ _ => false
  | _ => true

/-- The program makes light calls only. -/
abbrev Light {α : Type} (program : Svc α) : Prop := program.Calls fun call => call.light = true

/-- The endpoints that make light calls only. -/
def Endpoint.light : Endpoint → Bool
  | .createGroup _ | .updateGroup _ _ | .createContact _ | .importContacts _ => false
  | .updateContact _ _ | .blacklistContact _ => false
  | .createSession _ | .updateSession _ _ => false
  | .startSession _ | .stopSession _ | .sessionStatus _ => false
  | .sendMessage _ | .sendBulk _ => false
  | .createBroadcast _ | .updateBroadcast _ _ | .sendBroadcast _ | .cancelBroadcast _ => false
  | .createAutomation _ | .updateAutomation _ _ => false
  | .enableAutomation _ | .disableAutomation _ | .testAutomation _ _ => false
  | .createWebhook _ | .updateWebhook _ _ | .createApiKey _ => false
  | _ => true

theorem light_of_reads {α : Type} {program : Svc α} (reads : Reads program) : Light program :=
  calls_of_reads reads fun call reads => (by cases call <;> first | rfl | cases reads)

theorem find_light {table : Table} {matching : Row table → Bool} :
    Light (Svc.find table matching) :=
  calls_call rfl

theorem remove_light {α : Type} (table : Table) (row : Row table) (value : α) :
    Light (Svc.remove table row >>= fun _ => Program.ret value) :=
  calls_bind (calls_call rfl) fun _ => trivial

theorem Endpoint.program_light (h : Helpers) (ws : Option Uuid) (uid : Uuid) (endpoint : Endpoint)
    (light : endpoint.light = true) : Light (endpoint.program h ws uid) := by
  have member := light_of_reads (WorkspacesService.assertMember_reads ws uid)
  have managed := light_of_reads (WorkspacesService.assertRole_reads ws uid managers)
  have creds := light_of_reads (WorkspacesService.getOpenwaCredentials_reads h ws)
  have session (id : Uuid) := light_of_reads (SessionsService.findOne_reads id ws uid)
  have contact (id : Uuid) := light_of_reads (ContactsService.findOne_reads id ws uid)
  have group (id : Uuid) := light_of_reads (ContactsService.findGroup_reads id ws)
  have broadcast (id : Uuid) := light_of_reads (BroadcastsService.findOne_reads id ws uid)
  have automation (id : Uuid) := light_of_reads (AutomationsService.findOne_reads id ws uid)
  have webhook (id : Uuid) := light_of_reads (WebhooksService.findOne_reads id ws uid)
  have openwa {creds : OpenwaCredentials} {method : OpenwaMethod} {session : SessionRef} :
      Light (OpenwaService.call creds method session none) := OpenwaService.call_calls rfl
  have lists {table : Table} {matching : Row table → Bool} :
      Light (WorkspacesService.assertMember ws uid >>= fun _ => Svc.find table matching) :=
    calls_bind member fun _ => find_light
  have count {table : Table} {matching : Row table → Bool} :
      Light (AnalyticsService.count table matching) :=
    calls_bind find_light fun _ => trivial
  cases endpoint with
  | listGroups => exact lists
  | removeGroup id =>
    exact calls_bind member fun _ => calls_bind (group id) fun row => remove_light .groups row _
  | findContacts query => exact calls_bind member fun _ => calls_bind find_light fun _ => trivial
  | findContact id => exact contact id
  | removeContact id => exact calls_bind (contact id) fun row => remove_light .contacts row _
  | findSessions => exact lists
  | findSession id => exact session id
  | sessionQr id =>
    refine calls_bind (session id) fun _ => calls_bind creds fun _ =>
      calls_bind openwa fun res => ?_
    split
    · trivial
    · exact calls_bind (calls_call rfl) fun _ => trivial
  | removeSession id =>
    exact calls_bind managed fun _ => calls_bind (session id) fun row => calls_bind creds fun _ =>
      calls_bind (calls_attempt openwa) fun _ => remove_light .sessions row _
  | findLogs query => exact calls_bind member fun _ => calls_bind find_light fun _ => trivial
  | findLog id =>
    refine calls_bind member fun _ => calls_bind (calls_findOne rfl) fun found => ?_
    cases found <;> trivial
  | findBroadcasts => exact calls_bind member fun _ => calls_bind find_light fun _ => trivial
  | findBroadcast id => exact broadcast id
  | removeBroadcast id =>
    exact calls_bind managed fun _ => calls_bind (broadcast id) fun row =>
      remove_light .broadcasts row _
  | broadcastStatus id => exact calls_bind (broadcast id) fun _ => trivial
  | broadcastReport id =>
    exact calls_bind (broadcast id) fun _ => calls_bind find_light fun _ => trivial
  | findAutomations => exact calls_bind member fun _ => calls_call rfl
  | findAutomation id => exact automation id
  | removeAutomation id =>
    exact calls_bind managed fun _ => calls_bind (automation id) fun loaded =>
      remove_light .automations loaded.1 _
  | findWebhooks => exact lists
  | findWebhook id => exact webhook id
  | removeWebhook id =>
    exact calls_bind managed fun _ => calls_bind (webhook id) fun row =>
      remove_light .webhooks row _
  | testWebhook id =>
    exact calls_bind (webhook id) fun _ => calls_bind calls_now fun _ =>
      calls_bind (calls_call rfl) fun _ => trivial
  | webhookLogs id => exact calls_bind (webhook id) fun _ => calls_bind find_light fun _ => trivial
  | findApiKeys => exact lists
  | removeApiKey id =>
    refine calls_bind managed fun _ => calls_bind (calls_findOne rfl) fun found => ?_
    cases found with
    | none => trivial
    | some key => exact remove_light .apiKeys key _
  | overview =>
    exact calls_bind member fun _ => calls_bind calls_now fun _ => calls_bind count fun _ =>
      calls_bind count fun _ => calls_bind count fun _ => calls_bind count fun _ =>
        calls_bind count fun _ => calls_bind count fun _ => trivial
  | messages sent until_ =>
    exact calls_bind member fun _ => calls_bind calls_now fun _ =>
      calls_bind find_light fun _ => trivial
  | automationStats => exact calls_bind member fun _ => calls_bind find_light fun _ => trivial
  | sessionStats =>
    exact calls_bind member fun _ => calls_bind find_light fun _ => calls_bind find_light fun _ =>
      trivial
  | broadcastStats => exact calls_bind member fun _ => calls_bind find_light fun _ => trivial
  | _ => cases light

/-! ### Rules -/

theorem safe_now {around : Surroundings Input Call Store} {α : Type} {rest : Time → Svc α}
    {post : Except Err α → Store → Prop} {store : Store}
    (holds : ∀ now, (rest now).Safe exec around post store) :
    (Svc.now >>= rest).Safe exec around post store :=
  fun input => holds input.now

theorem safe_lift {around : Surroundings Input Call Store} {α β : Type} {outcome : Except Err α}
    {rest : α → Svc β} {post : Except Err β → Store → Prop} {store : Store}
    (fails : ∀ error, outcome = .error error → post (.error error) store)
    (holds : ∀ value, outcome = .ok value → (rest value).Safe exec around post store) :
    (Svc.lift outcome >>= rest).Safe exec around post store := by
  cases outcome with
  | ok value => exact holds value rfl
  | error error => exact fails error rfl

/-- What a `find` answers, when it does not fail. -/
theorem exec_find (table : Table) (matching : Row table → Bool) (input : Input) (store : Store) :
    (∃ error, exec (.find table matching) input store = (.error error, store)) ∨
      exec (.find table matching) input store =
        (.ok ((store.db table).filter matching), store) := by
  obtain ⟨_, _, _, failed⟩ | performed := exec_cases (.find table matching) input store
  · exact .inl ⟨_, failed⟩
  · exact .inr performed

/-- What a `findOne` that returns found. -/
theorem findOne_answers {table : Table} {matching : Row table → Bool} {tape : Tape Input}
    {store : Store} {found : Option (Row table)}
    (ran : ((Svc.findOne table matching).run exec tape store).1 = .ok found) :
    found = (store.db table).find? matching := by
  unfold Svc.findOne Svc.find Svc.call at ran
  rw [run_bind, run_perform] at ran
  obtain ⟨error, failed⟩ | answered := exec_find table matching (tape.later 0) store
  · rw [failed] at ran
    cases ran
  · rw [answered] at ran
    cases ran
    exact List.head?_filter

section Alone

variable {tape : Tape Input} {store : Store}

theorem run_findOne (table : Table) (matching : Row table → Bool) (tape : Tape Input)
    (store : Store) :
    (Svc.findOne table matching).run exec tape store =
      (match (tape.later 0).fault with
        | some message => .error (.database message)
        | none => .ok ((store.db table).find? matching),
        tape.advance, store) := by
  unfold Svc.findOne Svc.find Svc.call
  rw [run_bind, run_perform]
  unfold exec
  cases (tape.later 0).fault with
  | some message => rfl
  | none =>
    rw [← List.head?_filter]
    rfl

theorem findOne_clear {table : Table} {matching : Row table → Bool}
    (clear : (tape.later 0).fault = none) :
    (Svc.findOne table matching).run exec tape store =
      (.ok ((store.db table).find? matching), tape.advance, store) := by
  rw [run_findOne, clear]

theorem findOne_fails {table : Table} {matching : Row table → Bool} {message : String}
    (fails : (tape.later 0).fault = some message) :
    (Svc.findOne table matching).run exec tape store =
      (.error (.database message), tape.advance, store) := by
  rw [run_findOne, fails]

/-- A call that only reads comes first: the rest runs on the same store, or the run ends. -/
theorem run_after {α β : Type} {program : Svc α} {rest : α → Svc β} {result : Except Err α}
    {tape' : Tape Input} (ran : program.run exec tape store = (result, tape', store)) :
    (∃ error, result = .error error ∧
      (program >>= rest).run exec tape store = (.error error, tape', store)) ∨
    ∃ value, result = .ok value ∧
      (program >>= rest).run exec tape store = (rest value).run exec tape' store := by
  rw [run_bind, ran]
  cases result with
  | error error => exact .inl ⟨error, rfl, rfl⟩
  | ok value => exact .inr ⟨value, rfl, rfl⟩

/-- One call, and a value made of its reply. -/
theorem call_return {α : Type} {call : Call} (value : Resp call → α) :
    (Svc.call call >>= fun reply => pure (value reply)).run exec tape store =
      ((exec call (tape.later 0) store).1.map value, tape.advance,
        (exec call (tape.later 0) store).2) := by
  unfold Svc.call
  rw [run_bind, run_perform]
  cases (exec call (tape.later 0) store).1 <;> rfl

/-- A lookup run alone leaves the store as it is, and gives this answer unless the database
fails. -/
def Answers {α : Type} (program : Svc α) (store : Store) (answer : Except Err α) : Prop :=
  ∀ tape, ∃ outcome tape', program.run exec tape store = (outcome, tape', store) ∧
    (outcome = answer ∨ ∃ message, outcome = .error (.database message))

theorem answers_ret {α : Type} (value : α) : Answers (Program.ret value) store (.ok value) :=
  fun tape => ⟨_, tape, rfl, .inl rfl⟩

theorem answers_throw {α : Type} (error : Err) :
    Answers (Program.throw error : Svc α) store (.error error) :=
  fun tape => ⟨_, tape, rfl, .inl rfl⟩

theorem answers_bind {α β : Type} {program : Svc α} {rest : α → Svc β} {value : α}
    {answer : Except Err β} (first : Answers program store (.ok value))
    (second : Answers (rest value) store answer) : Answers (program >>= rest) store answer := by
  intro tape
  obtain ⟨outcome, tape', ran, rfl | ⟨message, rfl⟩⟩ := first tape
  · rw [run_bind, ran]
    exact second tape'
  · rw [run_bind, ran]
    exact ⟨_, tape', rfl, .inr ⟨message, rfl⟩⟩

/-- A lookup in front of the rest of a run. -/
theorem answers_run {α β : Type} {program : Svc α} {rest : α → Svc β} {value : α}
    (first : Answers program store (.ok value)) (tape : Tape Input) :
    (∃ message tape', (program >>= rest).run exec tape store =
      (.error (.database message), tape', store)) ∨
    ∃ tape', (program >>= rest).run exec tape store = (rest value).run exec tape' store := by
  rw [run_bind]
  obtain ⟨outcome, tape', ran, rfl | ⟨message, rfl⟩⟩ := first tape
  · rw [ran]
    exact .inr ⟨tape', rfl⟩
  · rw [ran]
    exact .inl ⟨message, tape', rfl⟩

/-- Nothing is done after an error. -/
theorem answers_stop {α β : Type} {program : Svc α} {rest : α → Svc β} {error : Err}
    (first : Answers program store (.error error)) :
    Answers (program >>= rest) store (.error error) := by
  intro tape
  obtain ⟨outcome, tape', ran, rfl | ⟨message, rfl⟩⟩ := first tape
  · rw [run_bind, ran]
    exact ⟨_, tape', rfl, .inl rfl⟩
  · rw [run_bind, ran]
    exact ⟨_, tape', rfl, .inr ⟨message, rfl⟩⟩

theorem answers_find (table : Table) (matching : Row table → Bool) :
    Answers (Svc.find table matching) store (.ok ((store.db table).filter matching)) := by
  intro tape
  unfold Svc.find Svc.call
  rw [run_perform]
  obtain ⟨message, _, _, failed⟩ | performed :=
    exec_cases (.find table matching) (tape.later 0) store
  · rw [failed]
    exact ⟨_, _, rfl, .inr ⟨message, rfl⟩⟩
  · rw [performed]
    exact ⟨_, _, rfl, .inl rfl⟩

theorem answers_findOne (table : Table) (matching : Row table → Bool) :
    Answers (Svc.findOne table matching) store (.ok ((store.db table).find? matching)) := by
  refine answers_bind (answers_find table matching) ?_
  rw [← List.head?_filter]
  exact answers_ret _

theorem WorkspacesService.assertMember_eq {ws user : Uuid} : assertMember (some ws) user =
    Svc.findOne .members (fun member => member.workspaceId == ws && member.userId == user) >>=
      fun member => member.elim (.throw (.forbidden "You are not a member of this workspace"))
        pure := by
  unfold assertMember
  congr 1
  funext member
  cases member <;> rfl

section Membership

variable {ws user : Uuid}

theorem member_answers {member : WorkspaceMember}
    (found : (store.db .members).find? (fun member =>
      member.workspaceId == ws && member.userId == user) = some member) :
    Answers (WorkspacesService.assertMember (some ws) user) store (.ok member) := by
  rw [WorkspacesService.assertMember_eq]
  refine answers_bind (answers_findOne _ _) ?_
  rw [found]
  exact answers_ret member

theorem member_refused
    (none : (store.db .members).find? (fun member =>
      member.workspaceId == ws && member.userId == user) = none) :
    Answers (WorkspacesService.assertMember (some ws) user) store
      (.error (.forbidden "You are not a member of this workspace")) := by
  rw [WorkspacesService.assertMember_eq]
  refine answers_bind (answers_findOne _ _) ?_
  rw [none]
  exact answers_throw _

theorem role_answers {member : WorkspaceMember} {roles : List String}
    (found : (store.db .members).find? (fun member =>
      member.workspaceId == ws && member.userId == user) = some member)
    (role : roles.contains member.role = true) :
    Answers (WorkspacesService.assertRole (some ws) user roles) store (.ok member) := by
  refine answers_bind (member_answers found) ?_
  rw [if_pos role]
  exact answers_ret member

theorem role_refused (roles : List String)
    (denied : ∀ member, (store.db .members).find? (fun member =>
      member.workspaceId == ws && member.userId == user) = some member →
        roles.contains member.role = false) :
    ∃ message, Answers (WorkspacesService.assertRole (some ws) user roles) store
      (.error (.forbidden message)) := by
  cases found : (store.db .members).find? fun member =>
      member.workspaceId == ws && member.userId == user with
  | none => exact ⟨_, answers_stop (member_refused found)⟩
  | some member =>
    refine ⟨"Insufficient workspace role", answers_bind (member_answers found) ?_⟩
    rw [if_neg (Bool.eq_false_iff.mp (denied member found))]
    exact answers_throw _

end Membership

end Alone

/-- What a `findAutomations` answers, when it does not fail. -/
theorem exec_findAutomations (matching : Automation → Bool) (input : Input) (store : Store) :
    (∃ error, exec (.findAutomations matching) input store = (.error error, store)) ∨
      exec (.findAutomations matching) input store =
        (.ok (((store.db .automations).filter matching).map fun row =>
          (row, (store.db .actions).filter fun action => action.automationId == row.id)),
            store) := by
  obtain ⟨_, _, _, failed⟩ | performed := exec_cases (.findAutomations matching) input store
  · exact .inl ⟨_, failed⟩
  · exact .inr performed

section Lookups

variable {around : Surroundings Input Call Store} {quiet : Call → Prop} {inv : Store → Prop}
  {table : Table} {matching : Row table → Bool}

/-- The rule of `find`: the rest is met with the invariant, and with the rows that match in the
store of that moment. -/
theorem safe_find_bind (stable : Stable exec around quiet inv) (calm : quiet (.find table matching))
    {β : Type} {rest : List (Row table) → Svc β} {post : Except Err β → Store → Prop}
    {store : Store}
    (holds : inv store) (fails : ∀ error store', inv store' → post (.error error) store')
    (continues : ∀ store', inv store' →
      (rest ((store'.db table).filter matching)).Safe exec around post store') :
    (Svc.find table matching >>= rest).Safe exec around post store := by
  refine safe_bind (safe_perform fun store' input moved => ?_)
  obtain ⟨ok, kept⟩ := stable _ calm store store' input holds moved
  refine ⟨ok, ?_⟩
  obtain ⟨error, failed⟩ | found := exec_find table matching input store'
  · rw [failed] at kept ⊢
    exact fails error store' kept
  · rw [found] at kept ⊢
    exact continues store' kept

/-- The rule of `findOne`. -/
theorem safe_findOne_bind (stable : Stable exec around quiet inv)
    (calm : quiet (.find table matching)) {β : Type} {rest : Option (Row table) → Svc β}
    {post : Except Err β → Store → Prop} {store : Store} (holds : inv store)
    (fails : ∀ error store', inv store' → post (.error error) store')
    (continues : ∀ store', inv store' →
      (rest ((store'.db table).find? matching)).Safe exec around post store') :
    (Svc.findOne table matching >>= rest).Safe exec around post store := by
  unfold Svc.findOne
  rw [Program.bind_assoc]
  refine safe_find_bind stable calm holds fails fun store' kept => ?_
  show (rest ((store'.db table).filter matching).head?).Safe exec around post store'
  rw [List.head?_filter]
  exact continues store' kept

/-- The rule of `findAutomations`. -/
theorem safe_findAutomations_bind {matching : Automation → Bool}
    (stable : Stable exec around quiet inv) (calm : quiet (.findAutomations matching)) {β : Type}
    {rest : List LoadedAutomation → Svc β} {post : Except Err β → Store → Prop} {store : Store}
    (holds : inv store) (fails : ∀ error store', inv store' → post (.error error) store')
    (continues : ∀ store', inv store' →
      (rest (((store'.db .automations).filter matching).map fun row =>
        (row, store'.actionsOf row.id))).Safe exec around post store') :
    (Svc.call (.findAutomations matching) >>= rest).Safe exec around post store := by
  refine safe_bind (safe_perform fun store' input moved => ?_)
  obtain ⟨ok, kept⟩ := stable _ calm store store' input holds moved
  refine ⟨ok, ?_⟩
  obtain ⟨error, failed⟩ | found := exec_findAutomations matching input store'
  · rw [failed] at kept ⊢
    exact fails error store' kept
  · rw [found] at kept ⊢
    exact continues store' kept

end Lookups

end WaAutomation
