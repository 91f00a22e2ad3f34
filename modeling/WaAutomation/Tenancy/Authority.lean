/-
**Who may change what.**

A run of the application: requests of users, administration of workspaces and accounts, callbacks,
hooks, ticks and the jobs of the four queues, interleaved between their calls. A `Rank` is what a
user has to be in a workspace; `rank` says which one an endpoint's call takes, `May` who may change
the rows of a table, and `MayQueue` who may enqueue a job.

* `endpoint_ranked`: whatever it is answered, an endpoint makes a call only after it has been shown
  a membership that allows it; `request_permitted` does the same for every other request;
* `mediated`: so every pending call of a run is allowed by a membership that was stored at some
  time of the run;
* `changes_authorized`: and a row changes, or a job is enqueued, by a request that may do it only.
-/

import WaAutomation.Messages.Senders
import WaAutomation.Tenancy.Guard

set_option linter.unusedSectionVars false

namespace WaAutomation.Authority

open Library Program

/-! ### Ranks -/

/-- What a user has to be in a workspace. -/
inductive Rank where
  | anyone
  | member
  | manager
  | owner
  | nobody
  deriving DecidableEq, Repr

/-- The roles of a rank. -/
def Rank.roles : Rank → String → Prop
  | .anyone | .member => fun _ => True
  | .manager => fun role => role ∈ managers
  | .owner => fun role => role = "owner"
  | .nobody => fun _ => False

/-- Some membership that was seen gives the user the rank. A workspace id that is undefined puts no
constraint on the membership. -/
def Rank.Held (rank : Rank) (seen : WorkspaceMember → Prop) (ws : Option Uuid) (uid : Uuid) :
    Prop :=
  rank = .anyone ∨
    ∃ member, seen member ∧ Guard.admits ws uid member = true ∧ rank.roles member.role

/-- The lower ranks, for those who only read, and for those who manage. -/
def Rank.within : Rank → Rank → Bool
  | .anyone, _ => true
  | .member, limit => limit == .member || limit == .manager
  | .manager, limit => limit == .manager
  | _, _ => false

theorem held_within {rank limit : Rank} {seen : WorkspaceMember → Prop} {ws : Option Uuid}
    {uid : Uuid} (within : rank.within limit = true) {member : WorkspaceMember}
    (known : seen member) (admitted : Guard.admits ws uid member = true)
    (role : limit.roles member.role) : rank.Held seen ws uid := by
  cases rank with
  | anyone => exact .inl rfl
  | member => exact .inr ⟨member, known, admitted, trivial⟩
  | manager =>
    cases limit with
    | manager => exact .inr ⟨member, known, admitted, role⟩
    | _ => cases within
  | _ => cases within

/-! ### The calls of an endpoint -/

/-- What the user of an endpoint has to be for a call of it: nothing for the lookup of the
membership itself, a member to see rows, to work with contacts and groups, to change the state of
a session and to send, and an owner or admin for everything else. -/
def rank : Call → Rank
  | .find .members _ => .anyone
  | .find _ _ | .findStatus _ | .findAutomations _ => .member
  | .insert .contacts _ | .insert .groups _ => .member
  | .save .contacts _ | .save .groups _ | .save .sessions _ => .member
  | .remove .contacts _ | .remove .groups _ => .member
  | .insert .sessions _ | .insert .webhooks _ | .insert .apiKeys _ => .manager
  | .insertBroadcast _ _ | .insertAutomation _ _ => .manager
  | .save .broadcasts _ | .save .webhooks _ | .saveAutomation _ _ | .deleteActions _ => .manager
  | .remove .sessions _ | .remove .broadcasts _ | .remove .automations _ => .manager
  | .remove .webhooks _ | .remove .apiKeys _ => .manager
  | .add (.broadcast _) _ _ => .manager
  | .add _ _ _ | .openwa _ | .emit _ | .sleep _ => .member
  | _ => .nobody

/-- The endpoints that begin with a check of the role. -/
def manages : Endpoint → Bool
  | .createSession _ | .removeSession _ => true
  | .createBroadcast _ | .updateBroadcast _ _ | .removeBroadcast _ => true
  | .sendBroadcast _ | .cancelBroadcast _ => true
  | .createAutomation _ | .updateAutomation _ _ | .removeAutomation _ => true
  | .enableAutomation _ | .disableAutomation _ => true
  | .createWebhook _ | .updateWebhook _ _ | .removeWebhook _ => true
  | .createApiKey _ | .removeApiKey _ => true
  | _ => false

/-- What the check at the beginning of an endpoint finds out. -/
def limit (endpoint : Endpoint) : Rank := if manages endpoint then .manager else .member

/-- The call needs no more than the rank. -/
abbrev Within (limit : Rank) (call : Call) : Prop := (rank call).within limit = true

theorem within_reads {limit : Rank} (known : limit = .member ∨ limit = .manager) {call : Call}
    (reads : call.reads = true) : Within limit call := by
  cases call with
  | find table matching => rcases known with rfl | rfl <;> cases table <;> rfl
  | findAutomations matching => rcases known with rfl | rfl <;> rfl
  | _ => cases reads

section Endpoints

variable {allowed : Rank}

theorem within_of_reads {α : Type} {program : Svc α}
    (known : allowed = .member ∨ allowed = .manager) (reads : Reads program) :
    program.Calls (Within allowed) :=
  calls_of_reads reads fun _ => within_reads known

theorem import_within {ws : Option Uuid} {rows : List CsvContactRow} :
    ∀ {reply : ImportReply},
      (ContactsService.importRows ws reply rows).Calls (Within .member) := by
  induction rows with
  | nil => exact trivial
  | cons row rows ih =>
    refine calls_bind ?_ fun reply => ih
    unfold ContactsService.importRow
    dsimp only
    split
    · trivial
    · refine calls_bind (calls_findOne rfl) fun found => ?_
      cases found with
      | none => exact calls_bind (calls_call rfl) fun _ => trivial
      | some existing => exact calls_bind (calls_call rfl) fun _ => trivial

theorem sendEach_within {ws : Option Uuid} {session : Session} {content : String} {delay : Int}
    {recipients : List String} : ∀ {index : Nat},
      (MessagesService.sendEach ws session content delay index recipients).Calls
        (Within .member) := by
  induction recipients with
  | nil => exact trivial
  | cons first rest ih => exact calls_bind (calls_call rfl) fun _ => ih

theorem setStatus_within {session : Session} {status : SessionStatus} {phone : Field String} :
    (SessionsService.setStatus session status phone).Calls (Within .member) :=
  calls_bind calls_now fun _ => calls_bind (calls_call rfl) fun _ =>
    calls_bind (calls_call rfl) fun _ => trivial

/-- **No endpoint makes a call beyond what its check finds out.** -/
theorem endpoint_within (h : Helpers) (ws : Option Uuid) (uid : Uuid) (endpoint : Endpoint) :
    (endpoint.program h ws uid).Calls (Within (limit endpoint)) := by
  have member := within_of_reads (.inl rfl) (WorkspacesService.assertMember_reads ws uid)
  have managed := within_of_reads (.inr rfl) (WorkspacesService.assertRole_reads ws uid managers)
  have creds {allowed : Rank} (known : allowed = .member ∨ allowed = .manager) :=
    within_of_reads known (WorkspacesService.getOpenwaCredentials_reads h ws)
  have session {allowed : Rank} (known : allowed = .member ∨ allowed = .manager) (id : Uuid) :=
    within_of_reads known (SessionsService.findOne_reads id ws uid)
  have contact (id : Uuid) := within_of_reads (.inl rfl) (ContactsService.findOne_reads id ws uid)
  have group (id : Uuid) := within_of_reads (.inl rfl) (ContactsService.findGroup_reads id ws)
  have broadcast {allowed : Rank} (known : allowed = .member ∨ allowed = .manager) (id : Uuid) :=
    within_of_reads known (BroadcastsService.findOne_reads id ws uid)
  have automation {allowed : Rank} (known : allowed = .member ∨ allowed = .manager) (id : Uuid) :=
    within_of_reads known (AutomationsService.findOne_reads id ws uid)
  have webhook {allowed : Rank} (known : allowed = .member ∨ allowed = .manager) (id : Uuid) :=
    within_of_reads known (WebhooksService.findOne_reads id ws uid)
  have openwa {creds : OpenwaCredentials} {method : OpenwaMethod} {session : SessionRef}
      {allowed : Rank} (known : allowed = .member ∨ allowed = .manager) :
      (OpenwaService.call creds method session none).Calls (Within allowed) :=
    OpenwaService.call_calls (by rcases known with rfl | rfl <;> rfl)
  have lists {table : Table} {matching : Row table → Bool} :
      (Svc.find table matching).Calls (Within .member) :=
    calls_call (within_reads (.inl rfl) rfl)
  have count {table : Table} {matching : Row table → Bool} :
      (AnalyticsService.count table matching).Calls (Within .member) :=
    calls_bind lists fun _ => trivial
  have saved {call : Call} {α : Type} {value : Resp call → α} {allowed : Rank}
      (holds : Within allowed call) :
      (Svc.call call >>= fun reply => Program.ret (value reply)).Calls (Within allowed) :=
    calls_bind (calls_call holds) fun _ => trivial
  cases endpoint with
  | listGroups => exact calls_bind member fun _ => lists
  | createGroup dto => exact calls_bind member fun _ => calls_call rfl
  | updateGroup id dto =>
    exact calls_bind member fun _ => calls_bind (group id) fun _ => saved rfl
  | removeGroup id =>
    exact calls_bind member fun _ => calls_bind (group id) fun _ => saved rfl
  | findContacts query => exact calls_bind member fun _ => calls_bind lists fun _ => trivial
  | createContact dto => exact calls_bind member fun _ => calls_call rfl
  | importContacts rows => exact calls_bind member fun _ => import_within
  | findContact id => exact contact id
  | updateContact id dto => exact calls_bind (contact id) fun _ => saved rfl
  | removeContact id => exact calls_bind (contact id) fun _ => saved rfl
  | blacklistContact id => exact calls_bind (contact id) fun _ => saved rfl
  | findSessions => exact calls_bind member fun _ => lists
  | createSession dto =>
    exact calls_bind managed fun _ => calls_bind calls_randomHex fun _ => calls_call rfl
  | findSession id => exact session (.inl rfl) id
  | updateSession id dto => exact calls_bind (session (.inl rfl) id) fun _ => saved rfl
  | sessionQr id =>
    refine calls_bind (session (.inl rfl) id) fun _ => calls_bind (creds (.inl rfl)) fun _ =>
      calls_bind (openwa (.inl rfl)) fun res => ?_
    split
    · trivial
    · exact saved rfl
  | startSession id =>
    exact calls_bind (session (.inl rfl) id) fun _ => calls_bind (creds (.inl rfl)) fun _ =>
      calls_bind setStatus_within fun _ => calls_bind (openwa (.inl rfl)) fun _ =>
        calls_findOne rfl
  | stopSession id =>
    exact calls_bind (session (.inl rfl) id) fun _ => calls_bind (creds (.inl rfl)) fun _ =>
      calls_bind (openwa (.inl rfl)) fun _ => calls_bind setStatus_within fun _ =>
        calls_findOne rfl
  | sessionStatus id =>
    refine calls_bind (session (.inl rfl) id) fun _ => calls_bind (creds (.inl rfl)) fun _ =>
      calls_bind (calls_attempt (openwa (.inl rfl))) fun res => ?_
    dsimp only
    split
    · trivial
    · split
      · trivial
      · exact calls_bind setStatus_within fun _ => trivial
  | removeSession id =>
    exact calls_bind managed fun _ => calls_bind (session (.inr rfl) id) fun _ =>
      calls_bind (creds (.inr rfl)) fun _ => calls_bind (calls_attempt (openwa (.inr rfl)))
        fun _ => saved rfl
  | sendMessage dto =>
    exact calls_bind member fun _ => calls_bind (session (.inl rfl) _) fun _ => saved rfl
  | sendBulk dto =>
    exact calls_bind member fun _ => calls_bind (session (.inl rfl) _) fun _ =>
      calls_bind sendEach_within fun _ => trivial
  | findLogs query => exact calls_bind member fun _ => calls_bind lists fun _ => trivial
  | findLog id =>
    refine calls_bind member fun _ => calls_bind (calls_findOne rfl) fun found => ?_
    cases found <;> trivial
  | findBroadcasts => exact calls_bind member fun _ => calls_bind lists fun _ => trivial
  | createBroadcast dto =>
    refine calls_bind managed fun _ => calls_bind (session (.inr rfl) _) fun _ =>
      calls_bind (within_of_reads (.inr rfl) (ContactsService.resolvePhones_reads ws _))
        fun _ => ?_
    dsimp only
    split
    · trivial
    · exact calls_call rfl
  | findBroadcast id => exact broadcast (.inl rfl) id
  | updateBroadcast id dto =>
    refine calls_bind managed fun _ => calls_bind (broadcast (.inr rfl) id) fun row => ?_
    split
    · trivial
    · exact saved rfl
  | removeBroadcast id =>
    exact calls_bind managed fun _ => calls_bind (broadcast (.inr rfl) id) fun _ => saved rfl
  | sendBroadcast id =>
    refine calls_bind managed fun _ => calls_bind (broadcast (.inr rfl) id) fun row => ?_
    split
    · trivial
    · exact calls_bind (calls_call rfl) fun _ => calls_bind calls_now fun _ => saved rfl
  | cancelBroadcast id =>
    exact calls_bind managed fun _ => calls_bind (broadcast (.inr rfl) id) fun _ => saved rfl
  | broadcastStatus id => exact calls_bind (broadcast (.inl rfl) id) fun _ => trivial
  | broadcastReport id =>
    exact calls_bind (broadcast (.inl rfl) id) fun _ => calls_bind lists fun _ => trivial
  | findAutomations => exact calls_bind member fun _ => calls_call rfl
  | createAutomation dto =>
    exact calls_bind managed fun _ => calls_bind (AutomationsService.withPath_calls dto) fun _ =>
      calls_call rfl
  | findAutomation id => exact automation (.inl rfl) id
  | updateAutomation id dto =>
    refine calls_bind managed fun _ => calls_bind (automation (.inr rfl) id) fun loaded => ?_
    refine calls_bind ?_ fun _ => saved rfl
    cases dto.actions with
    | undefined => trivial
    | null => exact calls_bind (calls_call rfl) fun _ => trivial
    | value given => exact saved rfl
  | removeAutomation id =>
    exact calls_bind managed fun _ => calls_bind (automation (.inr rfl) id) fun _ => saved rfl
  | enableAutomation id =>
    exact calls_bind managed fun _ => calls_bind (automation (.inr rfl) id) fun _ => saved rfl
  | disableAutomation id =>
    exact calls_bind managed fun _ => calls_bind (automation (.inr rfl) id) fun _ => saved rfl
  | testAutomation id body =>
    exact calls_bind (automation (.inl rfl) id) fun _ => calls_bind (calls_call rfl) fun _ =>
      saved rfl
  | findWebhooks => exact calls_bind member fun _ => lists
  | createWebhook dto => exact calls_bind managed fun _ => calls_call rfl
  | findWebhook id => exact webhook (.inl rfl) id
  | updateWebhook id dto =>
    exact calls_bind managed fun _ => calls_bind (webhook (.inr rfl) id) fun _ => saved rfl
  | removeWebhook id =>
    exact calls_bind managed fun _ => calls_bind (webhook (.inr rfl) id) fun _ => saved rfl
  | testWebhook id =>
    exact calls_bind (webhook (.inl rfl) id) fun _ => calls_bind calls_now fun _ => saved rfl
  | webhookLogs id =>
    exact calls_bind (webhook (.inl rfl) id) fun _ => calls_bind lists fun _ => trivial
  | findApiKeys => exact calls_bind member fun _ => lists
  | createApiKey dto =>
    exact calls_bind managed fun _ => calls_bind calls_randomHex fun _ => saved rfl
  | removeApiKey id =>
    refine calls_bind managed fun _ => calls_bind (calls_findOne rfl) fun found => ?_
    cases found with
    | none => trivial
    | some key => exact saved rfl
  | overview =>
    exact calls_bind member fun _ => calls_bind calls_now fun _ => calls_bind count fun _ =>
      calls_bind count fun _ => calls_bind count fun _ => calls_bind count fun _ =>
        calls_bind count fun _ => calls_bind count fun _ => trivial
  | messages sent until_ =>
    exact calls_bind member fun _ => calls_bind calls_now fun _ => calls_bind lists fun _ =>
      trivial
  | automationStats => exact calls_bind member fun _ => calls_bind lists fun _ => trivial
  | sessionStats =>
    exact calls_bind member fun _ => calls_bind lists fun _ => calls_bind lists fun _ => trivial
  | broadcastStats => exact calls_bind member fun _ => calls_bind lists fun _ => trivial

end Endpoints

/-! ### What the checks find out -/

section Checks

variable {stored : (table : Table) → Row table → Prop} {allowed : Call → Prop} {ws : Option Uuid}
  {uid : Uuid}

theorem member_given (looks : ∀ matching, allowed (.find .members matching)) :
    (WorkspacesService.assertMember ws uid).Given (Shows stored) allowed fun member =>
      stored .members member ∧ Guard.admits ws uid member = true := by
  refine given_then (given_then (given_perform (looks _) fun _ shown => shown)
    fun rows shown => (show Given (Shows stored) allowed (fun found => ∀ member ∈ found,
      stored .members member ∧ Guard.admits ws uid member = true) (pure rows.head?) from
        fun member head => shown member (List.mem_of_head? head))) fun found shown => ?_
  cases found with
  | none => trivial
  | some member => exact shown member rfl

theorem role_given (looks : ∀ matching, allowed (.find .members matching)) (roles : List String) :
    (WorkspacesService.assertRole ws uid roles).Given (Shows stored) allowed fun member =>
      stored .members member ∧ Guard.admits ws uid member = true ∧ member.role ∈ roles := by
  refine given_then (member_given looks) fun member known => ?_
  by_cases has : roles.contains member.role = true
  · rw [if_pos has]
    exact ⟨known.1, known.2, List.contains_iff_mem.mp has⟩
  · rw [if_neg has]
    trivial

/-- **An endpoint makes a call only after it has been shown a membership that allows it.** -/
theorem endpoint_ranked (h : Helpers) (endpoint : Endpoint) :
    (endpoint.program h ws uid).Given (Shows stored)
      (fun call => (rank call).Held (stored .members) ws uid) fun _ => True := by
  have calls := endpoint_within h ws uid endpoint
  have looks (matching : WorkspaceMember → Bool) :
      (rank (.find .members matching)).Held (stored .members) ws uid := .inl rfl
  by_cases managed : manages endpoint = true
  · obtain ⟨rest, same⟩ : ∃ rest : WorkspaceMember → Svc endpoint.Answer,
        endpoint.program h ws uid = WorkspacesService.assertRole ws uid managers >>= rest := by
      cases endpoint <;> first | exact ⟨_, rfl⟩ | cases managed
    rw [limit, if_pos managed, same] at calls
    rw [same]
    exact given_earned (role_given looks managers) calls
      fun member known call within => held_within within known.1 known.2.1 known.2.2
  · obtain ⟨rest, same⟩ := Guard.program_guarded h ws uid endpoint
    rw [limit, if_neg managed, same] at calls
    rw [same]
    exact given_earned (member_given looks) calls
      fun member known call within => held_within within known.1 known.2 trivial

end Checks

/-! ### Who may change what -/

/-- What the user of an endpoint has to be for the rows of a table to change. -/
def holds : Table → Rank
  | .contacts | .groups | .sessions => .member
  | .broadcasts | .recipients | .automations | .actions | .webhooks | .apiKeys => .manager
  | _ => .nobody

/-- The tables whose rows a request other than an endpoint may change: a workspace comes with its
first membership and goes with all of them, as the memberships of a user go with the user. -/
def rows : Origins.Request → List Table
  | .account (.create _ _) | .account (.remove _ _) => [.workspaces, .members]
  | .account (.update _ _ _) => [.workspaces]
  | .account (.invite _ _ _) | .account (.removeMember _ _ _) => [.members]
  | .account (.createUser _) => [.users]
  | .account (.removeUser _) => [.users, .members]
  | .onMessage _ | .job (.message _) => [.logs]
  | .job (.broadcast _) => [.broadcasts, .recipients, .logs]
  | .job (.automation _) => [.automations, .logs]
  | .job (.webhook _) => [.deliveries]
  | _ => []

/-- The queues such a request may add to. -/
def queues : Origins.Request → Job → Bool
  | .onMessage _, .webhook _ | .onMessage _, .automation _ => true
  | .webhookTrigger _ _, .automation _ | .tick, .automation _ => true
  | _, _ => false

/-- What the administration of a workspace takes. -/
def Cleared (seen : WorkspaceMember → Prop) : Accounts.Request → Prop
  | .update id userId _ | .invite id userId _ | .removeMember id userId _ =>
      Rank.manager.Held seen (some id) userId
  | .remove id userId => Rank.owner.Held seen (some id) userId
  | _ => True

/-- The requests that may change rows of a table. -/
def May (seen : WorkspaceMember → Prop) (table : Table) : Origins.Request → Prop
  | .endpoint ws uid _ => (holds table).Held seen ws uid
  | .account given => table ∈ rows (.account given) ∧ Cleared seen given
  | other => table ∈ rows other

/-- What the user of an endpoint has to be to enqueue a job. -/
def sends : Job → Rank
  | .broadcast _ => .manager
  | _ => .member

/-- The requests that may enqueue a job. -/
def MayQueue (seen : WorkspaceMember → Prop) (job : Job) : Origins.Request → Prop
  | .endpoint ws uid _ => (sends job).Held seen ws uid
  | other => queues other job = true

/-- The call is one that the request may make. -/
structure Permitted (seen : WorkspaceMember → Prop) (request : Origins.Request) (call : Call) :
    Prop where
  rows : ∀ table, call.writes table = true → May seen table request
  jobs : ∀ job attempts delay, call = .add job attempts delay → MayQueue seen job request
  asks : ∀ ws uid given, request = .endpoint ws uid given → (rank call).Held seen ws uid

theorem held_nobody {seen : WorkspaceMember → Prop} {ws : Option Uuid} {uid : Uuid}
    (held : Rank.nobody.Held seen ws uid) : False := by
  obtain wrong | ⟨_, _, _, none⟩ := held
  · cases wrong
  · exact none

theorem held_lower {rank limit : Rank} (within : rank.within limit = true)
    {seen : WorkspaceMember → Prop} {ws : Option Uuid} {uid : Uuid}
    (held : limit.Held seen ws uid) : rank.Held seen ws uid := by
  obtain rfl | ⟨member, known, admitted, role⟩ := held
  · cases rank <;> first | exact .inl rfl | cases within
  · exact held_within within known admitted role

/-- An endpoint's call that changes a table takes at least what the table takes. -/
theorem rank_writes {call : Call} {table : Table} (writes : call.writes table = true) :
    (holds table).within (rank call) = true ∨ rank call = .nobody := by
  cases call with
  | insert other draft =>
    obtain rfl := beq_iff_eq.mp writes
    cases table <;> first | exact .inl rfl | exact .inr rfl
  | save other entity =>
    obtain rfl := beq_iff_eq.mp writes
    cases table <;> first | exact .inl rfl | exact .inr rfl
  | remove other row =>
    cases other <;> cases table <;> first | exact .inl rfl | exact .inr rfl | cases writes
  | insertBroadcast draft recipients =>
    cases table <;> first | exact .inl rfl | cases writes
  | insertAutomation draft actions =>
    cases table <;> first | exact .inl rfl | cases writes
  | saveAutomation entity actions =>
    cases table <;> first | exact .inl rfl | cases writes
  | deleteActions id =>
    obtain rfl := beq_iff_eq.mp writes
    exact .inl rfl
  | update => exact .inr rfl
  | elsewhere => exact .inr rfl
  | _ => cases writes

theorem ranked_permitted {seen : WorkspaceMember → Prop} {ws : Option Uuid} {uid : Uuid}
    (endpoint : Endpoint) {call : Call} (held : (rank call).Held seen ws uid) :
    Permitted seen (.endpoint ws uid endpoint) call := by
  refine ⟨fun table writes => ?_, fun job attempts delay same => ?_, fun _ _ _ same => ?_⟩
  · obtain within | none := rank_writes writes
    · exact held_lower within held
    · exact (held_nobody (none ▸ held)).elim
  · subst same
    cases job <;> exact held
  · cases same
    exact held

/-! ### What is not an endpoint -/

/-- The call changes such rows and enqueues such jobs only. -/
structure Touches (request : Origins.Request) (call : Call) : Prop where
  rows : ∀ table, call.writes table = true → table ∈ rows request
  jobs : ∀ job attempts delay, call = .add job attempts delay → queues request job = true

section Touching

variable {request : Origins.Request}

theorem touches_quiet {call : Call} (still : ∀ table, call.writes table = false)
    (none : call.enqueues = false) : Touches request call := by
  refine ⟨fun table writes => ?_, fun job attempts delay same => ?_⟩
  · rw [still table] at writes
    cases writes
  · subst same
    cases none

theorem touches_reads {call : Call} (reads : call.reads = true) : Touches request call :=
  touches_quiet (call.reads_writes reads) (call.reads_enqueues reads)

theorem touches_add {job : Job} {attempts : Nat} {delay : Int}
    (queued : queues request job = true) : Touches request (.add job attempts delay) :=
  ⟨fun _ writes => (by cases writes), fun _ _ _ same => (by cases same; exact queued)⟩

/-- The calls that change one table. -/
theorem touches_rows {call : Call} {table : Table}
    (one : ∀ other, call.writes other = (other == table)) (none : call.enqueues = false)
    (listed : table ∈ rows request) : Touches request call := by
  refine ⟨fun other writes => ?_, fun job attempts delay same => ?_⟩
  · rw [one, beq_iff_eq] at writes
    rw [writes]
    exact listed
  · subst same
    cases none

theorem touching_reads {α : Type} {program : Svc α} (reads : Reads program) :
    program.Calls (Touches request) :=
  calls_of_reads reads fun _ => touches_reads

theorem touching_findOne {table : Table} {matching : Row table → Bool} :
    (Svc.findOne table matching).Calls (Touches request) :=
  calls_findOne (touches_reads rfl)

theorem touching_openwa {creds : OpenwaCredentials} {method : OpenwaMethod} {session : SessionRef}
    {recipient : Option RecipientRef} :
    (OpenwaService.call creds method session recipient).Calls (Touches request) :=
  OpenwaService.call_calls (touches_quiet (fun _ => rfl) rfl)

theorem touching_emit {event : Event} : (Svc.emit event).Calls (Touches request) :=
  calls_call (touches_quiet (fun _ => rfl) rfl)

theorem touching_record {data : MessageRecord} (listed : .logs ∈ rows request) :
    (MessagesService.record data).Calls (Touches request) :=
  MessagesService.record_calls fun _ _ => touches_rows (fun _ => rfl) rfl listed

theorem touching_save {table : Table} {entity : Entity (Row table)}
    (listed : table ∈ rows request) : (Svc.call (.save table entity)).Calls (Touches request) :=
  calls_call (touches_rows (fun _ => rfl) rfl listed)

end Touching

section Administration

/-- **Administration changes its tables only.** -/
theorem account_touches (k : AccountHelpers) (given : Accounts.Request) :
    (given.program k).Calls (Touches (.account given)) := by
  have role (id uid : Uuid) (roles : List String) :
      (WorkspacesService.assertRole (some id) uid roles).Calls (Touches (.account given)) :=
    touching_reads (WorkspacesService.assertRole_reads (some id) uid roles)
  have workspace (id : Uuid) :
      (WorkspacesService.findById id).Calls (Touches (.account given)) := by
    refine calls_bind touching_findOne fun row => ?_
    cases row <;> trivial
  cases given with
  | create userId dto =>
    refine calls_bind (calls_bind calls_randomHex fun _ => calls_bind (calls_call ?_) fun saved =>
      calls_bind (touching_save ?_) fun _ => trivial) fun _ => trivial
    · exact touches_rows (fun _ => rfl) rfl List.mem_cons_self
    · exact List.mem_cons_of_mem _ List.mem_cons_self
  | update id userId dto =>
    refine calls_bind (calls_bind (role id userId _) fun _ => calls_bind (workspace id) fun _ =>
      calls_bind ?_ fun key => calls_bind (touching_save List.mem_cons_self) fun _ => trivial)
      fun _ => trivial
    cases dto.openwaApiKey <;>
      first | trivial | exact calls_bind calls_randomHex fun _ => trivial
  | remove id userId =>
    refine calls_bind (role id userId _) fun _ => calls_bind (workspace id) fun row =>
      calls_call ⟨fun table writes => ?_, fun _ _ _ same => by cases same⟩
    cases table <;> first
      | exact List.mem_cons_self
      | exact List.mem_cons_of_mem _ List.mem_cons_self
      | cases writes
  | invite id userId dto =>
    refine calls_bind (calls_bind (role id userId _) fun _ =>
      calls_bind touching_findOne fun invitee => ?_) fun _ => trivial
    cases invitee with
    | none => trivial
    | some invitee =>
      refine calls_bind touching_findOne fun existing => ?_
      cases existing with
      | some existing => trivial
      | none => exact calls_bind (touching_save List.mem_cons_self) fun _ => trivial
  | removeMember id userId targetUserId =>
    refine calls_bind (calls_bind (role id userId _) fun _ =>
      calls_bind touching_findOne fun member => ?_) fun _ => trivial
    cases member with
    | none => trivial
    | some member =>
      dsimp only
      split
      · trivial
      · exact calls_bind (calls_call (touches_rows (fun _ => rfl) rfl List.mem_cons_self))
          fun _ => trivial
  | createUser data =>
    refine calls_bind (calls_bind touching_findOne fun existing => ?_) fun _ => trivial
    cases existing with
    | some existing => trivial
    | none => exact calls_call (touches_rows (fun _ => rfl) rfl List.mem_cons_self)
  | removeUser id =>
    refine calls_bind (calls_bind touching_findOne fun user => ?_) fun row =>
      calls_call ⟨fun table writes => ?_, fun _ _ _ same => by cases same⟩
    · cases user <;> trivial
    · cases table <;> first
        | exact List.mem_cons_self
        | exact List.mem_cons_of_mem _ List.mem_cons_self
        | cases writes

end Administration

section Background

variable (h : Helpers)

theorem enqueueRun_touches {request : Origins.Request}
    (adds : ∀ data, queues request (.automation data) = true) {automation : Automation}
    {context : Record} :
    (AutomationsService.enqueueRun automation context).Calls (Touches request) :=
  calls_bind touching_emit fun _ => calls_bind (calls_call (touches_add (adds _))) fun _ => trivial

theorem onMessage_touches (dto : Record) :
    (InboundController.onMessage h dto).Calls (Touches (.onMessage dto)) := by
  have hooks (event : String) (payload : Record) (hooks : List Webhook) :
      (WebhooksService.enqueueEach event payload hooks).Calls (Touches (.onMessage dto)) := by
    induction hooks with
    | nil => trivial
    | cons hook hooks ih => exact calls_bind (calls_call (touches_add rfl)) fun _ => ih
  have runs (context : Record) (automations : List Automation) :
      (AutomationsService.enqueueEach context automations).Calls (Touches (.onMessage dto)) := by
    induction automations with
    | nil => trivial
    | cons automation rest ih =>
      exact calls_bind (enqueueRun_touches fun _ => rfl) fun _ => ih
  refine calls_bind touching_findOne fun found => ?_
  cases found with
  | none => trivial
  | some session =>
    refine calls_bind (calls_attempt (touching_record List.mem_cons_self)) fun _ =>
      calls_bind touching_emit fun _ => calls_bind ?_ fun _ => calls_bind ?_ fun _ => trivial
    · exact calls_bind (calls_call (touches_reads rfl)) fun _ =>
        calls_bind (hooks _ _ _) fun _ => trivial
    · exact calls_bind (calls_call (touches_reads rfl)) fun _ => calls_bind (calls_lift _)
        fun _ => calls_bind (runs _ _) fun _ => trivial

theorem webhookTrigger_touches (token : String) (body : Record) :
    (InboundController.webhookTrigger h token body).Calls
      (Touches (.webhookTrigger token body)) := by
  refine calls_bind touching_findOne fun found => ?_
  cases found with
  | none => trivial
  | some automation =>
    have enqueued (context : Record) : (AutomationsService.enqueueRun automation context >>=
        fun reply => Program.ret (InboundReply.queued reply.jobId)).Calls
          (Touches (.webhookTrigger token body)) :=
      calls_bind (enqueueRun_touches fun _ => rfl) fun _ => trivial
    refine calls_bind (calls_lift _) fun field => ?_
    dsimp only
    cases truthyGet automation.triggerConfig "message_template" with
    | none => exact enqueued _
    | some template =>
      exact calls_bind (calls_lift _) fun _ => enqueued _

theorem tick_touches : (AutomationScheduler.tick h).Calls (Touches .tick) := by
  have targets (automation : Automation) (phones : List Json) :
      (AutomationScheduler.enqueueTargets automation phones).Calls (Touches .tick) := by
    induction phones with
    | nil => trivial
    | cons phone phones ih => exact calls_bind (enqueueRun_touches fun _ => rfl) fun _ => ih
  have fires (now : Time) (automation : Automation) (cron : Json) :
      (AutomationScheduler.fire h now automation cron).Calls (Touches .tick) := by
    refine calls_bind (calls_lift _) fun next => ?_
    split
    · exact calls_bind (calls_lift _) fun _ => targets _ _
    · trivial
  refine calls_bind calls_now fun now =>
    calls_bind (calls_call (touches_reads rfl)) fun scheduled => ?_
  induction scheduled.map Prod.fst with
  | nil => trivial
  | cons automation rest ih =>
    unfold AutomationScheduler.fireEach
    cases truthyGet automation.triggerConfig "cron" with
    | none => exact ih
    | some cron => exact calls_bind (calls_attempt (fires _ _ _)) fun _ => ih

theorem message_touches (data : SendMessageJob) :
    (MessageProcessor.process h data).Calls (Touches (.job (.message data))) := by
  have sends (creds : OpenwaCredentials) :
      (MessageProcessor.deliver creds data).Calls (Touches (.job (.message data))) := by
    obtain ⟨method, same⟩ := MessageProcessor.deliver_call creds data
    rw [same]
    exact touching_openwa
  refine calls_bind (touching_reads (WorkspacesService.getOpenwaCredentials_reads h _)) fun creds =>
    calls_bind (calls_attempt (calls_bind (sends creds) fun _ =>
      calls_bind (touching_record List.mem_cons_self) fun _ => calls_bind touching_emit fun _ =>
        trivial)) fun result => ?_
  cases result with
  | ok id => trivial
  | error error => exact calls_bind (touching_record List.mem_cons_self) fun _ => trivial

theorem broadcast_touches (data : BroadcastJob) :
    (BroadcastProcessor.process h data).Calls (Touches (.job (.broadcast data))) := by
  have whole {table : Table} {row : Row table} (listed : table ∈ rows (.job (.broadcast data))) :
      (Svc.save table row).Calls (Touches (.job (.broadcast data))) := touching_save listed
  have second : Table.recipients ∈ rows (.job (.broadcast data)) :=
    List.mem_cons_of_mem _ List.mem_cons_self
  have fails (broadcast : Broadcast) (recipient : BroadcastRecipient) (err : Err) :
      (BroadcastProcessor.recordFailure broadcast recipient err).Calls
        (Touches (.job (.broadcast data))) := calls_bind (whole second) fun _ => trivial
  have delivers (ctx : BroadcastProcessor.Context) (broadcast : Broadcast)
      (recipient : BroadcastRecipient) (message : String) :
      (BroadcastProcessor.deliver ctx broadcast recipient message).Calls
        (Touches (.job (.broadcast data))) := by
    refine calls_bind (calls_attempt touching_openwa) fun result => ?_
    cases result with
    | error error => exact fails _ _ _
    | ok res =>
      refine calls_bind calls_now fun now =>
        calls_bind (calls_attempt (whole second)) fun saved => ?_
      cases saved with
      | error error => exact fails _ _ _
      | ok _ =>
        exact calls_bind (calls_attempt (touching_record
          (List.mem_cons_of_mem _ (List.mem_cons_of_mem _ List.mem_cons_self)))) fun _ => trivial
  have loops (ctx : BroadcastProcessor.Context) (pending : List BroadcastRecipient) :
      ∀ broadcast, (BroadcastProcessor.sendLoop h ctx broadcast pending).Calls
        (Touches (.job (.broadcast data))) := by
    induction pending with
    | nil =>
      exact fun broadcast => calls_bind calls_now fun _ =>
        calls_bind (whole List.mem_cons_self) fun _ => trivial
    | cons recipient pending ih =>
      intro broadcast
      refine calls_bind (calls_call (touches_quiet (fun _ => rfl) rfl)) fun fresh => ?_
      split
      · trivial
      · refine calls_bind (calls_lift _) fun message => calls_bind (delivers _ _ _ _) fun next =>
          calls_bind (whole List.mem_cons_self) fun _ => calls_bind ?_ fun _ => ih next
        exact BroadcastProcessor.announce_calls (fun _ => touches_quiet (fun _ => rfl) rfl)
          fun _ => touches_quiet (fun _ => rfl) rfl
  refine calls_bind touching_findOne fun found => ?_
  cases found with
  | none => trivial
  | some broadcast =>
    exact calls_bind (touching_reads (SessionsService.getById_reads _)) fun _ =>
      calls_bind (touching_reads (WorkspacesService.getOpenwaCredentials_reads h _)) fun _ =>
        calls_bind calls_now fun _ => calls_bind (whole List.mem_cons_self) fun _ =>
          calls_bind (calls_call (touches_reads rfl)) fun _ => loops _ _ _

theorem automation_touches (data : AutomationJob) :
    (AutomationProcessor.process h data).Calls (Touches (.job (.automation data))) := by
  have marked {matching : Automation → Bool} {change : Automation → Automation} :
      (Svc.call (.update .automations matching change)).Calls
        (Touches (.job (.automation data))) :=
    calls_call (touches_rows (fun _ => rfl) rfl List.mem_cons_self)
  refine AutomationProcessor.process_calls (fun _ => touches_reads)
    (fun _ => touches_quiet (fun _ => rfl) rfl) (fun _ => touches_quiet (fun _ => rfl) rfl)
    (fun _ => touches_rows (fun _ => rfl) rfl (List.mem_cons_of_mem _ List.mem_cons_self)) ?_
  exact calls_bind marked fun _ => calls_bind calls_now fun _ => marked

theorem webhook_touches (data : WebhookJob) :
    (WebhookProcessor.job h data).Calls (Touches (.job (.webhook data))) :=
  WebhookProcessor.job_calls (fun _ => touches_reads rfl)
    (fun _ => touches_quiet (fun _ => rfl) rfl)
    (fun _ => touches_rows (fun _ => rfl) rfl List.mem_cons_self)

end Background

/-! ### The whole application -/

section Application

variable {stored : (table : Table) → Row table → Prop} (h : Helpers) (k : AccountHelpers)

/-- What a request other than an endpoint does with its clearance. -/
theorem touches_permitted {seen : WorkspaceMember → Prop} {request : Origins.Request}
    (apart : ∀ ws uid given, request ≠ .endpoint ws uid given)
    (cleared : ∀ given, request = .account given → Cleared seen given) {call : Call}
    (touches : Touches request call) : Permitted seen request call := by
  refine ⟨fun table writes => ?_, fun job attempts delay same => ?_,
    fun ws uid given same => absurd same (apart ws uid given)⟩
  · have listed := touches.rows table writes
    cases request with
    | endpoint ws uid given => exact absurd rfl (apart ws uid given)
    | account given => exact ⟨listed, cleared given rfl⟩
    | _ => exact listed
  · have queued := touches.jobs job attempts delay same
    cases request with
    | endpoint ws uid given => exact absurd rfl (apart ws uid given)
    | _ => exact queued

/-- Administration behind a check of the role. -/
theorem checked_permitted {given : Accounts.Request} {id uid : Uuid} {roles : List String}
    {α : Type} {rest : WorkspaceMember → Svc α}
    (clears : ∀ member, stored .members member → Guard.admits (some id) uid member = true →
      member.role ∈ roles → Cleared (stored .members) given)
    (calls : (WorkspacesService.assertRole (some id) uid roles >>= rest).Calls
      (Touches (.account given))) :
    (WorkspacesService.assertRole (some id) uid roles >>= rest).Given (Shows stored)
      (Permitted (stored .members) (.account given)) fun _ => True := by
  have looks (matching : WorkspaceMember → Bool) :
      Permitted (stored .members) (.account given) (.find .members matching) :=
    ⟨fun _ writes => (by cases writes), fun _ _ _ same => (by cases same),
      fun _ _ _ same => (by cases same)⟩
  refine given_earned (role_given looks roles) calls fun member known call touches => ?_
  refine touches_permitted (fun _ _ _ same => by cases same) (fun other same => ?_) touches
  cases same
  exact clears member known.1 known.2.1 known.2.2

theorem account_permitted (given : Accounts.Request) :
    (given.program k).Given (Shows stored) (Permitted (stored .members) (.account given))
      fun _ => True := by
  have calls := account_touches k given
  have free (cleared : Cleared (stored .members) given) :
      (given.program k).Given (Shows stored) (Permitted (stored .members) (.account given))
        fun _ => True :=
    given_calls (fun _ => trivial) (calls_mono (fun _ => touches_permitted
      (fun _ _ _ same => by cases same) fun other same => by cases same; exact cleared) calls)
  have checked {id uid : Uuid} {roles : List String} {rest : WorkspaceMember → Svc Unit}
      (same : given.program k = WorkspacesService.assertRole (some id) uid roles >>= rest)
      (clears : ∀ member, stored .members member → Guard.admits (some id) uid member = true →
        member.role ∈ roles → Cleared (stored .members) given) :
      (given.program k).Given (Shows stored) (Permitted (stored .members) (.account given))
        fun _ => True := by
    rw [same] at calls ⊢
    exact checked_permitted clears calls
  cases given with
  | update id userId dto =>
    exact checked (Program.bind_assoc _ _ _) fun member known admitted role =>
      .inr ⟨member, known, admitted, role⟩
  | remove id userId =>
    exact checked rfl fun member known admitted role =>
      .inr ⟨member, known, admitted, List.mem_singleton.mp role⟩
  | invite id userId dto =>
    exact checked (Program.bind_assoc _ _ _) fun member known admitted role =>
      .inr ⟨member, known, admitted, role⟩
  | removeMember id userId targetUserId =>
    exact checked (Program.bind_assoc _ _ _) fun member known admitted role =>
      .inr ⟨member, known, admitted, role⟩
  | _ => exact free trivial

/-- **Shown stored memberships only, every request makes permitted calls only.** -/
theorem request_permitted (request : Origins.Request) :
    (request.program h k).Given (Shows stored) (Permitted (stored .members) request)
      fun _ => True := by
  have free {request : Origins.Request}
      (apart : ∀ ws uid given, request ≠ .endpoint ws uid given)
      (other : ∀ given, request ≠ .account given)
      (calls : (request.program h k).Calls (Touches request)) :
      (request.program h k).Given (Shows stored) (Permitted (stored .members) request)
        fun _ => True :=
    given_calls (fun _ => trivial) (calls_mono (fun _ => touches_permitted apart
      fun given same => absurd same (other given)) calls)
  cases request with
  | endpoint ws uid given =>
    exact given_then (given_allows (fun _ => ranked_permitted given) (endpoint_ranked h given))
      fun _ _ => trivial
  | account given => exact account_permitted k given
  | onMessage dto =>
    exact free (fun _ _ _ same => by cases same) (fun _ same => by cases same)
      (calls_bind (onMessage_touches h dto) fun _ => trivial)
  | webhookTrigger token body =>
    exact free (fun _ _ _ same => by cases same) (fun _ same => by cases same)
      (calls_bind (webhookTrigger_touches h token body) fun _ => trivial)
  | tick =>
    exact free (fun _ _ _ same => by cases same) (fun _ same => by cases same) (tick_touches h)
  | job data =>
    refine free (fun _ _ _ same => by cases same) (fun _ same => by cases same) ?_
    cases data with
    | message data => exact calls_bind (message_touches h data) fun _ => trivial
    | broadcast data => exact calls_bind (broadcast_touches h data) fun _ => trivial
    | automation data => exact calls_bind (automation_touches h data) fun _ => trivial
    | webhook data => exact webhook_touches h data

end Application

section Runs

variable (h : Helpers) (k : AccountHelpers)

/-- The membership was stored at some time of the run. -/
def Known (start : Store) (moves : List Origins.Move) (member : WorkspaceMember) : Prop :=
  ∃ store, Origins.Reached h k start moves store ∧ member ∈ store.db .members

/-- The move executes the pending call of the request. -/
def Serves (pool : Origins.Pool) (move : Origins.Move) (request : Origins.Request) : Prop :=
  ∃ slot input thread, move = .resume slot input ∧ pool.thread slot = some thread ∧
    thread.label = request

variable {h k}

/-- **Every pending call is permitted**, by memberships that were stored so far. In particular an
endpoint waits at a lookup of rows other than memberships, at a write or at a call of OpenWA only
after it has read a membership of its user with the role the call takes. -/
theorem mediated {start : Store} {moves : List Origins.Move} {pool : Origins.Pool}
    (reached : (Origins.system h k).run (Machine.Pool.idle start) moves = some pool) {slot : Nat}
    {thread : Machine.Thread Err Input Call Resp Origins.Request Unit}
    (busy : pool.thread slot = some thread) :
    Permitted (Known h k start moves) thread.label thread.request := by
  let stored (table : Table) (row : Row table) : Prop :=
    ∃ store, Origins.Reached h k start moves store ∧ row ∈ store.db table
  let covered (past : List Origins.Move) (pool : Origins.Pool) : Prop :=
    (Origins.system h k).run (Machine.Pool.idle start) past = some pool ∧
      pool.Attached fun _ request program _ =>
        program.Given (Shows stored) (Permitted (stored .members) request) fun _ => True
  have begins : covered [] (Machine.Pool.idle start) := ⟨rfl, fun _ _ none => by cases none⟩
  have step (past : List Origins.Move) (pool : Origins.Pool) (move : Origins.Move)
      (pool' : Origins.Pool) (held : covered past pool)
      (made : ∃ after, moves = past ++ move :: after)
      (moved : (Origins.system h k).act pool move = some pool') :
      covered (past ++ [move]) pool' := by
    obtain ⟨here, attached⟩ := held
    obtain ⟨after, split⟩ := made
    refine ⟨by rw [Machine.run_append, here, Option.bind_some, Machine.run, moved]; rfl, ?_⟩
    -- the rows of the pool are rows of the run
    have shown (table : Table) (row : Row table) (listed : row ∈ pool.shared.db table) :
        stored table row := ⟨pool.shared, ⟨past, move :: after, pool, split, here, rfl⟩, listed⟩
    obtain ⟨slot, request, input, rfl, _, _, rfl⟩ | ⟨slot, input, thread, rfl, busy, rfl⟩ :=
      (Origins.system h k).act_cases moved
    · exact (Origins.system h k).attached_place
        (fun _ _ stops => given_settle (request_permitted h k request) stops)
        fun other waiting _ found => attached other waiting found
    · refine (Origins.system h k).attached_place (fun _ _ stops => ?_)
        fun other waiting _ found => attached other waiting found
      exact given_settle ((attached slot thread busy).2 _ (exec_shows shown thread.request input))
        stops
  have holds := (Origins.system h k).run_history begins step
    (fun before move after split => ⟨after, by rw [List.nil_append]; exact split⟩) reached
  exact (holds.2 slot thread busy).1

/-- What a call adds to the queue. -/
theorem exec_adds (call : Call) (input : Input) (store : Store) {queued : QueuedJob}
    (listed : queued ∈ (exec call input store).2.jobs) :
    queued ∈ store.jobs ∨ ∃ attempts delay, call = .add queued.job attempts delay := by
  by_cases enqueues : call.enqueues = true
  · cases call with
    | add job attempts delay =>
      obtain ⟨_, _, _, failed⟩ | performed := exec_cases (.add job attempts delay) input store
      · rw [failed] at listed
        exact .inl listed
      · rw [performed] at listed
        refine (List.mem_append.mp listed).imp_right fun new => ?_
        rw [List.mem_singleton.mp new]
        exact ⟨attempts, delay, rfl⟩
    | _ => cases enqueues
  · rw [(exec_queue call input store (Bool.eq_false_iff.mpr enqueues)).1] at listed
    exact .inl listed

/-- **Whatever the interleaving, a request does only what it may.** An endpoint waits at a call only
when its user had a membership with the role the call takes, stored at some time before: to see
rows other than memberships, to write and to reach OpenWA. A row changes, or a job is enqueued, by
such an endpoint, by administration with the role that takes, or by a request of the background
that changes such rows and fills such queues. -/
theorem changes_authorized {start : Store} {moves : List Origins.Move} {pool pool' : Origins.Pool}
    {move : Origins.Move}
    (reached : (Origins.system h k).run (Machine.Pool.idle start) moves = some pool)
    (moved : (Origins.system h k).act pool move = some pool') :
    (∀ slot thread ws uid given, pool.thread slot = some thread →
      thread.label = .endpoint ws uid given →
      (rank thread.request).Held (Known h k start moves) ws uid) ∧
    (∀ table, pool'.shared.db table ≠ pool.shared.db table →
      ∃ request, Serves pool move request ∧ May (Known h k start moves) table request) ∧
    ∀ queued ∈ pool'.shared.jobs, queued ∉ pool.shared.jobs →
      ∃ request, Serves pool move request ∧
        MayQueue (Known h k start moves) queued.job request := by
  refine ⟨fun slot thread ws uid given busy same => (mediated reached busy).asks ws uid given same,
    ?_⟩
  obtain ⟨slot, request, input, rfl, _, _, rfl⟩ | ⟨slot, input, thread, rfl, busy, rfl⟩ :=
    (Origins.system h k).act_cases moved
  · have same := @services_shared _ _ (Origins.Request.program h k) slot request
      (((Origins.system h k).program slot request).settle input) pool.shared pool.thread
    refine ⟨fun table changed => absurd ?_ changed, fun queued listed new => absurd ?_ new⟩
    · exact congrArg (fun store : Store => store.db table) same
    · exact same ▸ listed
  · have permitted := mediated reached busy
    have same := @services_shared _ _ (Origins.Request.program h k) slot thread.label
      ((thread.next (exec thread.request input pool.shared).1).settle input)
      (exec thread.request input pool.shared).2 pool.thread
    have serves : Serves pool (.resume slot input) thread.label := ⟨slot, input, thread, rfl, busy,
      rfl⟩
    refine ⟨fun table changed => ⟨_, serves, permitted.rows table ?_⟩,
      fun queued listed new => ?_⟩
    · by_contra kept
      refine changed ((congrArg (fun store : Store => store.db table) same).trans ?_)
      exact exec_other _ _ _ (Bool.eq_false_iff.mpr kept)
    · have listed : queued ∈ (exec thread.request input pool.shared).2.jobs := same ▸ listed
      obtain old | ⟨attempts, delay, adds⟩ := exec_adds thread.request input pool.shared listed
      · exact absurd old new
      · exact ⟨_, serves, permitted.jobs _ _ _ adds⟩

end Runs

namespace Example

/-- The owner of `w` adds a webhook. -/
def request : Origins.Request :=
  .endpoint (some "w") "u" (.createWebhook ⟨"hook", "http://hook", .undefined, [], .undefined,
    .undefined, .undefined⟩)

def moves : List Origins.Move :=
  [.start 0 request WaAutomation.Example.fine, .resume 0 WaAutomation.Example.fine]

end Example

/-- The new row is the owner's. -/
theorem changes_authorized_example :
    ∃ pool pool' : Origins.Pool,
      (Origins.system WaAutomation.Example.helpers Origins.Example.accounts).run
        (Machine.Pool.idle Guard.shops) Example.moves = some pool ∧
      (Origins.system WaAutomation.Example.helpers Origins.Example.accounts).act pool
        (.resume 0 WaAutomation.Example.fine) = some pool' ∧
      pool.shared.db .webhooks = [] ∧ pool'.shared.db .webhooks ≠ [] ∧
      ∃ request, Serves pool (.resume 0 WaAutomation.Example.fine) request ∧
        May (Known WaAutomation.Example.helpers Origins.Example.accounts Guard.shops Example.moves)
          .webhooks request := by
  refine ⟨_, _, rfl, rfl, rfl, List.cons_ne_nil _ _, ?_⟩
  exact (changes_authorized rfl rfl).2.1 .webhooks (List.cons_ne_nil _ _)

end WaAutomation.Authority
