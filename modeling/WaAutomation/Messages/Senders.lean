/-
**Messages go out through sessions of the workspace that pays.**

A job is run for one workspace: its credentials are used, and the log rows are its own. The three
processors find the session in the job, on the broadcast, or on the automation and else in the
context.

* `Lawful`: a message goes out, or is recorded, for a workspace and through a session of it;
* `runJob_lawful`: the run of a job that is `Proper` makes such calls only, for one workspace;
* `own_session`: every job queued in a run of requests whose names are their own is run so;
* `foreign_session`: an automation that names a session of another workspace.
-/

import WaAutomation.Messages.Origins

set_option linter.unusedSectionVars false

namespace WaAutomation.Origins

open Library Program

/-! ### Runs of jobs -/

/-- A message is sent, or recorded, for the workspace and through a session of it. -/
def Through (seen : Session → Prop) (w : Uuid) : Call → Prop
  | .openwa sent => sent.creds.workspaceId = w ∧
      ∃ session, seen session ∧ session.workspaceId = w ∧ sent.session = session.ref
  | .insert .logs draft => ∀ build ∈ draft, ∀ input, (build input).workspaceId = w ∧
      ∃ session, seen session ∧ session.workspaceId = w ∧ (build input).sessionId = some session.id
  | _ => True

/-- And the call leaves rows and jobs that belong. -/
def Lawful (seen : Session → Prop) (owners : Owners) (w : Uuid) (call : Call) : Prop :=
  Through seen w call ∧ Rightful seen owners call

/-- The call neither sends nor records a message, and writes nothing that belongs. -/
def Call.mute : Call → Bool
  | .openwa _ => false
  | .insert .logs _ => false
  | other => Call.aside other

section Jobs

variable {seen : Session → Prop} {owners : Owners} {w : Uuid} {h : Helpers}

theorem lawful_mute {call : Call} (mute : Call.mute call = true) : Lawful seen owners w call := by
  have aside : Call.aside call = true := by
    cases call with
    | insert table draft => cases table <;> first | exact mute | cases mute
    | openwa => cases mute
    | _ => exact mute
  refine ⟨?_, aside_rightful aside⟩
  cases call with
  | insert table draft => cases table <;> trivial
  | openwa => cases mute
  | _ => trivial

theorem lawful_reads : Looks (Lawful seen owners w) :=
  fun call reads => lawful_mute (by cases call <;> first | rfl | cases reads)

theorem sent_lawful {session : Session} (known : seen session) (home : session.workspaceId = w)
    {creds : OpenwaCredentials} (own : creds.workspaceId = w) (method : OpenwaMethod)
    (recipient : Option RecipientRef) :
    Lawful seen owners w (.openwa ⟨creds, method, session.ref, recipient⟩) :=
  ⟨⟨own, session, known, home, rfl⟩, trivial⟩

theorem recorded_lawful {session : Session} (known : seen session) (home : session.workspaceId = w)
    (draft : Option (Input → MessageLog))
    (drafts : MessagesService.Drafts (some w) (some session.id) draft) :
    Lawful seen owners w (.insert .logs draft) := by
  refine ⟨fun build is_draft input => ?_, trivial⟩
  obtain ⟨same, through⟩ := drafts build is_draft input
  exact ⟨(Option.some.inj same).symm, session, known, home, through⟩

/-! #### Messages -/

theorem message_lawful {data : SendMessageJob} {session : Session} (known : seen session)
    (carries : Carries data session) (is_w : data.workspaceId = some w) :
    Stays seen owners (Lawful seen owners w) (MessageProcessor.process h data) fun _ => True := by
  have home := carries.home w is_w
  have records (status : MessageStatus) (waMessageId errorMessage : Option String) :
      (MessagesService.record (MessageProcessor.logRow data status waMessageId errorMessage)).Calls
        (Lawful seen owners w) := by
    refine MessagesService.record_calls fun draft drafts => recorded_lawful known home draft ?_
    rw [← is_w, ← carries.id]
    exact drafts
  refine given_then (getOpenwaCredentials_stays lawful_reads h data.workspaceId) fun creds own => ?_
  have delivers : (MessageProcessor.deliver creds data).Calls (Lawful seen owners w) := by
    obtain ⟨method, same⟩ := MessageProcessor.deliver_call creds data
    rw [same, carries.id, carries.openwa]
    exact OpenwaService.call_calls (sent_lawful known home (own w is_w) method none)
  refine stays_calls (calls_bind (calls_attempt (calls_bind delivers fun res => ?_))
    fun result => ?_)
  · exact calls_bind (records _ _ _) fun _ => calls_bind (calls_call (lawful_mute rfl))
      fun _ => trivial
  · cases result with
    | ok waMessageId => trivial
    | error error => exact calls_bind (records _ _ _) fun _ => trivial

/-! #### Automations -/

/-- The session of a run is of the workspace of the automation. -/
theorem sessionOf_own {automation : Automation} {context : Record}
    (belongs : Belongs owners .automations automation)
    (names : Names owners automation.workspaceId context) {id : Uuid}
    (found : sessionOf automation context = some (.str id)) :
    owners .sessions id = some automation.workspaceId := by
  unfold sessionOf firstTruthy at found
  cases named : automation.sessionId with
  | none =>
    rw [named] at found
    exact names id found
  | some given =>
    rw [named] at found
    simp only [Option.map_some] at found
    split at found
    · obtain ⟨⟩ := found
      exact belongs.2 id named
    · exact names id found

theorem automation_lawful {data : AutomationJob} (proper : Proper seen owners (.automation data)) :
    Stays seen owners (Lawful seen owners data.workspaceId) (AutomationProcessor.process h data)
      fun _ => True := by
  refine given_then (given_perform (lawful_reads _ rfl) fun _ shown => shown) fun rows shown => ?_
  cases head : rows.head? with
  | none => trivial
  | some loaded =>
    obtain ⟨belongs, hit⟩ := shown loaded (List.mem_of_head? head)
    have home : loaded.1.workspaceId = data.workspaceId := by
      have noted := belongs.1
      rw [beq_iff_eq.mp hit, proper.1] at noted
      exact (Option.some.inj noted).symm
    dsimp only
    cases found : sessionOf loaded.1 data.context with
    | none => trivial
    | some value =>
      cases value with
      | str id =>
        have owned := sessionOf_own belongs (home ▸ proper.2) found
        refine given_then (getById_stays lawful_reads id) fun session looked => ?_
        obtain ⟨⟨noted, known⟩, rfl⟩ := looked
        have own : session.workspaceId = data.workspaceId :=
          (Option.some.inj (noted.symm.trans owned)).trans home
        refine given_then (getOpenwaCredentials_stays lawful_reads h _) fun creds paid => ?_
        refine stays_then (ActionEngine.loop_calls
          (fun method => sent_lawful known own (paid _ rfl) method none)
          (fun _ => lawful_mute rfl) (recorded_lawful known own) _ _) fun _ => ?_
        have marks : (AutomationsService.markRun data.automationId).Calls
            (Lawful seen owners data.workspaceId) :=
          calls_bind (calls_call ⟨trivial, fun _ belongs => belongs⟩) fun _ =>
            calls_bind calls_now fun _ => calls_call ⟨trivial, fun _ belongs => belongs⟩
        exact stays_then marks fun _ => trivial
      | _ => trivial

/-! #### Broadcasts -/

section Broadcasts

variable {ctx : BroadcastProcessor.Context}

/-- The broadcast in memory is of the workspace, and its session too. -/
def Home (owners : Owners) (w : Uuid) (broadcast : Broadcast) : Prop :=
  Belongs owners .broadcasts broadcast ∧ broadcast.workspaceId = w

/-- A run goes through a session of the workspace, with its credentials. -/
structure Paid (seen : Session → Prop) (w : Uuid) (ctx : BroadcastProcessor.Context) : Prop where
  known : seen ctx.session
  home : ctx.session.workspaceId = w
  own : ctx.creds.workspaceId = w

theorem recordFailure_lawful {broadcast : Broadcast} (home : Home owners w broadcast)
    (recipient : BroadcastRecipient) (err : Err) :
    Stays seen owners (Lawful seen owners w)
      (BroadcastProcessor.recordFailure broadcast recipient err) (Home owners w) :=
  given_then (given_perform (lawful_mute rfl) fun _ _ => trivial) fun _ _ => home

theorem deliver_lawful (paid : Paid seen w ctx) {broadcast : Broadcast}
    (home : Home owners w broadcast) (recipient : BroadcastRecipient) (message : String) :
    Stays seen owners (Lawful seen owners w)
      (BroadcastProcessor.deliver ctx broadcast recipient message) (Home owners w) := by
  refine stays_then (calls_attempt (OpenwaService.call_calls
    (sent_lawful paid.known paid.home paid.own _ _))) fun result => ?_
  cases result with
  | error err => exact recordFailure_lawful home recipient err
  | ok res =>
    refine stays_then calls_now fun now => ?_
    refine stays_then (calls_attempt (calls_call (lawful_mute rfl))) fun saved => ?_
    cases saved with
    | error err => exact recordFailure_lawful home _ err
    | ok _ =>
      have records : (MessagesService.record
          (BroadcastProcessor.logRow ctx { broadcast with sentCount := broadcast.sentCount + 1 }
            recipient message res)).Calls (Lawful seen owners w) := by
        refine MessagesService.record_calls fun draft drafts =>
          recorded_lawful paid.known paid.home draft ?_
        rw [← home.2]
        exact drafts
      exact stays_then (calls_attempt records) fun _ => home

theorem save_lawful {broadcast : Broadcast} (home : Home owners w broadcast) :
    Lawful seen owners w (.save .broadcasts (.whole broadcast)) := by
  refine ⟨trivial, fun row writes => ?_⟩
  rw [Entity.writes_whole writes]
  exact home.1

theorem sendLoop_lawful (paid : Paid seen w ctx) : ∀ (pending : List BroadcastRecipient)
    (broadcast : Broadcast), Home owners w broadcast →
      Stays seen owners (Lawful seen owners w)
        (BroadcastProcessor.sendLoop h ctx broadcast pending) fun _ => True := by
  intro pending
  induction pending with
  | nil =>
    intro broadcast home
    refine stays_then calls_now fun now => ?_
    exact given_then (given_perform (save_lawful home) fun _ _ => trivial) fun _ _ => trivial
  | cons recipient pending ih =>
    intro broadcast home
    refine stays_then (calls_call (lawful_mute rfl)) fun fresh => ?_
    split
    · trivial
    · refine stays_then (calls_lift _) fun message => ?_
      refine given_then (deliver_lawful paid home recipient message) fun next home => ?_
      refine given_then (given_perform (save_lawful home) fun _ _ => trivial) fun _ _ => ?_
      refine stays_then (BroadcastProcessor.announce_calls (fun _ => lawful_mute rfl)
        fun _ => lawful_mute rfl) fun _ => ?_
      exact ih next home

/-- The run of a broadcast is for the workspace of the broadcast it finds. -/
theorem broadcast_lawful (seen : Session → Prop) (owners : Owners) (h : Helpers)
    (data : BroadcastJob) :
    ∃ rest : Option Broadcast → Svc RunResult,
      BroadcastProcessor.process h data =
        Svc.findOne .broadcasts (fun broadcast => broadcast.id == data.broadcastId) >>= rest ∧
      rest none = Program.ret .skipped ∧
      ∀ broadcast, Belongs owners .broadcasts broadcast →
        Stays seen owners (Lawful seen owners broadcast.workspaceId) (rest (some broadcast))
          fun _ => True := by
  refine ⟨_, rfl, rfl, fun broadcast belongs => ?_⟩
  refine given_then (getById_stays lawful_reads broadcast.sessionId) fun session looked => ?_
  obtain ⟨⟨noted, known⟩, has_id⟩ := looked
  have home : session.workspaceId = broadcast.workspaceId := by
    have owned : owners .sessions broadcast.sessionId = some session.workspaceId := has_id ▸ noted
    exact Option.some.inj (owned.symm.trans belongs)
  refine given_then (getOpenwaCredentials_stays lawful_reads h _) fun creds own => ?_
  refine stays_then calls_now fun now => ?_
  refine given_then (given_perform (save_lawful ⟨belongs, rfl⟩) fun _ _ => trivial) fun _ _ => ?_
  refine stays_then (calls_call (lawful_mute rfl)) fun pending => ?_
  exact sendLoop_lawful ⟨known, home, own _ rfl⟩ pending _ ⟨belongs, rfl⟩

end Broadcasts

/-! #### Any job -/

/-- A delivery neither sends nor records a message. -/
theorem delivery_lawful (data : WebhookJob) :
    (WebhookProcessor.job h data).Calls (Lawful seen owners w) :=
  WebhookProcessor.job_calls (fun _ => lawful_mute rfl) (fun _ => lawful_mute rfl)
    fun _ => lawful_mute rfl

/-- **The run of a job is for one workspace**, in stores whose rows belong. -/
theorem runJob_lawful {job : Job} (proper : Proper seen owners job) {tape : Tape Input}
    {stores : Nat → Store}
    (shown : ∀ index table, ∀ row ∈ (stores index).db table, Shown seen owners table row) :
    ∃ w, ∀ exchange ∈ (runJob h job).exchanges (Program.found exec) tape stores,
      Through seen w exchange.request := by
  -- the exchanges of a lawful run are through sessions of its workspace
  have through {α : Type} {w : Uuid} {program : Svc α} {tape : Tape Input} {stores : Nat → Store}
      (lawful : Stays seen owners (Lawful seen owners w) program fun _ => True)
      (shown : ∀ index table, ∀ row ∈ (stores index).db table, Shown seen owners table row) :
      ∀ exchange ∈ program.exchanges (Program.found exec) tape stores,
        Through seen w exchange.request :=
    fun exchange member => (exchanged_given lawful shown exchange member).1
  cases job with
  | message data =>
    obtain ⟨named, session, known, carries⟩ := proper
    obtain ⟨w, is_w⟩ := Option.ne_none_iff_exists'.mp named
    exact ⟨w, through (given_then (message_lawful known carries is_w) fun _ _ => trivial) shown⟩
  | automation data =>
    exact ⟨data.workspaceId, through (given_then (automation_lawful proper) fun _ _ =>
      trivial) shown⟩
  | webhook data => exact ⟨"", through (stays_calls (delivery_lawful data)) shown⟩
  | broadcast data =>
    obtain ⟨rest, same, missing, lawful⟩ := broadcast_lawful seen owners h data
    simp only [runJob, same, Svc.findOne, Svc.find, Svc.call, Program.bind_assoc]
    obtain ⟨error, failed⟩ | answered := exec_find .broadcasts
      (fun broadcast => broadcast.id == data.broadcastId) (tape.later 0) (stores 0)
    · rw [(perform_error (Program.found exec) (congrArg Prod.fst failed) _).2]
      refine ⟨"", fun exchange member => ?_⟩
      rw [List.mem_singleton.mp member]
      trivial
    · rw [(perform_ok (Program.found exec) (congrArg Prod.fst answered) _).2]
      simp only [Program.pure_eq, Program.ret_bind]
      cases head : (((stores 0).db .broadcasts).filter fun broadcast =>
          broadcast.id == data.broadcastId).head? with
      | none =>
        rw [missing]
        refine ⟨"", fun exchange member => ?_⟩
        rw [List.mem_singleton.mp member]
        trivial
      | some broadcast =>
        have listed := (List.mem_filter.mp (List.mem_of_head? head)).1
        have run : Stays seen owners (Lawful seen owners broadcast.workspaceId)
            (rest (some broadcast) >>= fun _ => Program.ret ()) fun _ => True :=
          given_then (lawful broadcast (shown 0 .broadcasts broadcast listed)) fun _ _ => trivial
        refine ⟨broadcast.workspaceId, fun exchange member => ?_⟩
        rcases List.mem_cons.mp member with rfl | later
        · trivial
        · exact through run (fun index => shown (index + 1)) exchange later

/-- The calls of the run of a job leave rows and jobs that belong. -/
theorem runJob_kept {request : Request} {job : Job} (proper : Proper seen owners job) :
    Kept seen owners request (runJob h job) := by
  have kept {α : Type} {w : Uuid} {program : Svc α}
      (lawful : Stays seen owners (Lawful seen owners w) program fun _ => True) :
      Kept seen owners request program :=
    given_allows (fun _ lawful _ => lawful.2) lawful
  cases job with
  | message data =>
    obtain ⟨named, session, known, carries⟩ := proper
    obtain ⟨w, is_w⟩ := Option.ne_none_iff_exists'.mp named
    exact given_then (kept (message_lawful known carries is_w)) fun _ _ => trivial
  | automation data => exact given_then (kept (automation_lawful proper)) fun _ _ => trivial
  | webhook data => exact kept (stays_calls (@delivery_lawful seen owners "" h data))
  | broadcast data =>
    obtain ⟨rest, same, missing, lawful⟩ := broadcast_lawful seen owners h data
    have process : Kept seen owners request (BroadcastProcessor.process h data) := by
      rw [same]
      refine given_then (findOne_stays allowed_reads) fun found shown => ?_
      cases found with
      | none =>
        rw [missing]
        trivial
      | some broadcast => exact kept (lawful broadcast (shown broadcast rfl).1)
    exact given_then process fun _ _ => trivial

end Jobs

/-! ### Every request -/

section Requests

variable {seen : Session → Prop} {owners : Owners} {request : Request} {h : Helpers}
  {k : AccountHelpers}

/-- The rows of an import are contacts. -/
theorem importRows_aside (ws : Option Uuid) : ∀ (rows : List CsvContactRow) (reply : ImportReply),
    Aside (ContactsService.importRows ws reply rows) := by
  intro rows
  induction rows with
  | nil => exact fun _ => trivial
  | cons row rest ih =>
    intro reply
    refine calls_bind ?_ fun reply => ih reply
    unfold ContactsService.importRow
    dsimp only
    split
    · trivial
    · refine calls_bind (calls_findOne rfl) fun existing => ?_
      cases existing <;> exact calls_bind (calls_call rfl) fun _ => trivial

/-- **What an endpoint writes and enqueues belongs**, if what the request names is its own. -/
theorem endpoint_kept (ws : Option Uuid) (uid : Uuid) (given : Endpoint) :
    Kept seen owners (.endpoint ws uid given) (given.program h ws uid) := by
  have member := aside_reads (WorkspacesService.assertMember_reads ws uid)
  have managed := aside_reads (WorkspacesService.assertRole_reads ws uid managers)
  have contact (id : Uuid) := aside_reads (ContactsService.findOne_reads id ws uid)
  have group (id : Uuid) := aside_reads (ContactsService.findGroup_reads id ws)
  have webhook (id : Uuid) := aside_reads (WebhooksService.findOne_reads id ws uid)
  -- a call that is aside, and what it returns
  have last {α : Type} {call : Call} {rest : Resp call → Svc α} (aside : Call.aside call = true)
      (later : ∀ value, Aside (rest value)) : Aside (Svc.call call >>= rest) :=
    calls_bind (calls_call aside) later
  cases given with
  | createGroup dto => exact kept_aside (calls_bind member fun _ => calls_call rfl)
  | updateGroup id dto =>
    exact kept_aside (calls_bind member fun _ => calls_bind (group id) fun _ =>
      last rfl fun _ => trivial)
  | createContact dto => exact kept_aside (calls_bind member fun _ => calls_call rfl)
  | importContacts rows => exact kept_aside (calls_bind member fun _ => importRows_aside ws rows _)
  | updateContact id dto =>
    exact kept_aside (calls_bind (contact id) fun _ => last rfl fun _ => trivial)
  | blacklistContact id =>
    exact kept_aside (calls_bind (contact id) fun _ => last rfl fun _ => trivial)
  | createSession dto =>
    exact kept_aside (calls_bind managed fun _ => calls_bind calls_randomHex fun _ =>
      calls_call rfl)
  | updateSession id dto => exact updateSession_kept id dto
  | startSession id => exact startSession_kept h id
  | stopSession id => exact stopSession_kept h id
  | sessionStatus id => exact sessionStatus_kept h id
  | sendMessage dto => exact send_kept dto
  | sendBulk dto => exact sendBulk_kept dto
  | createBroadcast dto => exact createBroadcast_kept h dto
  | updateBroadcast id dto => exact updateBroadcast_kept id dto
  | sendBroadcast id => exact sendBroadcast_kept id
  | cancelBroadcast id => exact cancelBroadcast_kept id
  | createAutomation dto => exact createAutomation_kept dto
  | updateAutomation id dto => exact updateAutomation_kept id dto
  | enableAutomation id => exact setActive_kept id true
  | disableAutomation id => exact setActive_kept id false
  | testAutomation id body => exact test_kept id body
  | createWebhook dto => exact kept_aside (calls_bind managed fun _ => calls_call rfl)
  | updateWebhook id dto =>
    exact kept_aside (calls_bind managed fun _ => calls_bind (webhook id) fun _ =>
      last rfl fun _ => trivial)
  | createApiKey dto =>
    exact kept_aside (calls_bind managed fun _ => calls_bind calls_randomHex fun _ =>
      last rfl fun _ => trivial)
  | _ => exact kept_aside (aside_light (Endpoint.program_light h ws uid _ rfl))

theorem account_aside (k : AccountHelpers) (given : Accounts.Request) :
    Aside (given.program k) := by
  have managed (id userId : Uuid) (roles : List String) :=
    aside_reads (WorkspacesService.assertRole_reads (some id) userId roles)
  have findById {id : Uuid} : Aside (WorkspacesService.findById id) := by
    refine calls_bind (calls_findOne rfl) fun found => ?_
    cases found <;> trivial
  have encrypts (field : Field String) : Aside (WorkspacesService.encryptKey k field) := by
    cases field with
    | undefined => trivial
    | null => trivial
    | value openwaApiKey => exact calls_bind calls_randomHex fun _ => trivial
  cases given with
  | create userId dto =>
    exact calls_bind (calls_bind calls_randomHex fun _ => calls_bind (calls_call rfl) fun _ =>
      calls_bind (calls_call rfl) fun _ => trivial) fun _ => trivial
  | update id userId dto =>
    exact calls_bind (calls_bind (managed id userId managers) fun _ => calls_bind findById fun _ =>
      calls_bind (encrypts _) fun _ => calls_bind (calls_call rfl) fun _ => trivial)
        fun _ => trivial
  | invite id userId dto =>
    refine calls_bind (calls_bind (managed id userId managers) fun _ =>
      calls_bind (calls_findOne rfl) fun invitee => ?_) fun _ => trivial
    cases invitee with
    | none => trivial
    | some invitee =>
      refine calls_bind (calls_findOne rfl) fun existing => ?_
      cases existing with
      | none => exact calls_bind (calls_call rfl) fun _ => trivial
      | some existing => trivial
  | createUser data =>
    refine calls_bind (calls_bind (calls_findOne rfl) fun existing => ?_) fun _ => trivial
    cases existing with
    | none => exact calls_call rfl
    | some existing => trivial
  | _ => exact aside_light (Accounts.Request.program_light k _ rfl)

/-- **What a request writes and enqueues belongs**, if what it names is its own. -/
theorem program_kept (given : Request) (proper : ∀ job, given = .job job → Proper seen owners job) :
    Kept seen owners given (given.program h k) := by
  cases given with
  | endpoint ws uid endpoint => exact given_then (endpoint_kept ws uid endpoint) fun _ _ => trivial
  | account operation => exact kept_aside (account_aside k operation)
  | onMessage dto => exact given_then (onMessage_kept h dto) fun _ _ => trivial
  | webhookTrigger token body =>
    exact given_then (webhookTrigger_kept h token body) fun _ _ => trivial
  | tick => exact tick_kept h
  | job job => exact runJob_kept (proper job rfl)

end Requests

/-! ### Runs -/

section Runs

variable (h : Helpers) (k : AccountHelpers)

/-- Requests and runs of jobs, interleaved between their calls. -/
def system := services (Request.program h k)

abbrev Pool := Calling Request Unit

abbrev Move := Machine.Move Input Nat fun _ => Request

/-- The workers run queued jobs, and new ids are new. -/
structure Regular (pool : Pool) (move : Move) : Prop where
  queued : ∀ slot job input, move = .start slot (.job job) input →
    ∃ queued ∈ pool.shared.jobs, queued.job = job
  fresh : ∀ slot input thread, move = .resume slot input → pool.thread slot = some thread →
    Fresh thread.request input pool.shared

/-- The call a move executes is of a request whose names are its own. -/
def Owned (pool : Pool) (move : Move) : Prop :=
  ∀ slot input thread, move = .resume slot input → pool.thread slot = some thread →
    Careful thread.label thread.request pool.shared

/-- A state of the run. -/
def Reached (start : Store) (moves : List Move) (store : Store) : Prop :=
  ∃ before after middle, moves = before ++ after ∧
    (system h k).run (Machine.Pool.idle start) before = some middle ∧ store = middle.shared

/-- The session was stored at some time. -/
def Seen (start : Store) (moves : List Move) (session : Session) : Prop :=
  ∃ store, Reached h k start moves store ∧ session ∈ store.db .sessions

/-- The rest of a program keeps to its request, whatever is noted from now on. -/
def Keeping (seen : Session → Prop) (request : Request) (program : Svc Unit)
    (store : Store) : Prop :=
  ∀ owners, Extends store.owner owners → Kept seen owners request program

/-- A run so far: the rows and jobs of its states belong, and the programs in flight keep to
that. -/
structure Sound (seen : Session → Prop) (start : Store) (past : List Move) (pool : Pool) :
    Prop where
  here : (system h k).run (Machine.Pool.idle start) past = some pool
  states : ∀ early late middle, past = early ++ late →
    (system h k).run (Machine.Pool.idle start) early = some middle →
      Rooted seen middle.shared ∧ Extends middle.shared.owner pool.shared.owner
  threads : pool.Attached fun _ => Keeping seen

theorem regular_resume {pool : Pool} {slot : Nat} {input : Input}
    {thread : Machine.Thread Err Input Call Resp Request Unit}
    (busy : pool.thread slot = some thread) (fresh : Fresh thread.request input pool.shared) :
    Regular pool (.resume slot input) := by
  refine ⟨fun _ _ _ same => (by cases same), fun other reading waiting same found => ?_⟩
  cases same
  cases busy.symm.trans found
  exact fresh

theorem owned_resume {pool : Pool} {slot : Nat} {input : Input}
    {thread : Machine.Thread Err Input Call Resp Request Unit}
    (busy : pool.thread slot = some thread)
    (careful : Careful thread.label thread.request pool.shared) :
    Owned pool (.resume slot input) := by
  intro other reading waiting same found
  cases same
  cases busy.symm.trans found
  exact careful

variable {h k} {seen : Session → Prop} {start : Store}

theorem Sound.rooted {past : List Move} {pool : Pool} (sound : Sound h k seen start past pool) :
    Rooted seen pool.shared :=
  (sound.states past [] pool (List.append_nil _).symm sound.here).1

/-- The rows of a state are shown with the owners noted since. -/
theorem Rooted.shown {store : Store} {owners : Owners} (rooted : Rooted seen store)
    (known : ∀ session ∈ store.db .sessions, seen session) (more : Extends store.owner owners) :
    ∀ table, ∀ row ∈ store.db table, Shown seen owners table row := by
  intro table row member
  have belongs := belongs_mono more (rooted.rows table row member)
  cases table with
  | sessions => exact ⟨belongs, known row member⟩
  | _ => exact belongs

/-- **One move of a run.** -/
theorem sound_act {past : List Move} {pool pool' : Pool} {move : Move}
    (sound : Sound h k seen start past pool)
    (known : ∀ session ∈ pool.shared.db .sessions, seen session) (regular : Regular pool move)
    (owned : Owned pool move) (moved : (system h k).act pool move = some pool') :
    Sound h k seen start (past ++ [move]) pool' := by
  have here : (system h k).run (Machine.Pool.idle start) (past ++ [move]) = some pool' := by
    rw [Machine.run_append, sound.here, Option.bind_some, Machine.run, moved]
    rfl
  -- the states before stay as they are, and what they note is kept
  have states {store : Store} (left : pool'.shared = store) (rooted : Rooted seen store)
      (more : Extends pool.shared.owner store.owner) (early late : List Move) (middle : Pool)
      (split : past ++ [move] = early ++ late)
      (ran : (system h k).run (Machine.Pool.idle start) early = some middle) :
      Rooted seen middle.shared ∧ Extends middle.shared.owner pool'.shared.owner := by
    subst left
    obtain rfl | ⟨late, last, rfl⟩ := List.eq_nil_or_concat late
    · rw [List.append_nil] at split
      rw [← split, here] at ran
      cases ran
      exact ⟨rooted, extends_refl _⟩
    · rw [List.concat_eq_append, ← List.append_assoc] at split
      obtain ⟨earlier, _⟩ := List.append_inj' split rfl
      exact (sound.states early late middle earlier ran).imp_right fun before =>
        extends_trans before more
  obtain ⟨slot, request, input, rfl, _, _, rfl⟩ | ⟨slot, input, thread, rfl, busy, rfl⟩ :=
    (system h k).act_cases moved
  · have same := @services_shared _ _ (Request.program h k) slot request
      (((system h k).program slot request).settle input) pool.shared pool.thread
    refine ⟨here, states same sound.rooted (extends_refl _),
      (system h k).attached_place (fun call next stops owners more => ?_) ?_⟩
    · refine given_settle (program_kept request fun job is_job => ?_) stops
      obtain ⟨queued, listed, rfl⟩ := regular.queued slot job input (by rw [is_job])
      exact proper_mono more (sound.rooted.jobs queued listed)
    · intro other waiting _ found owners more
      exact sound.threads other waiting found owners (same ▸ more)
  · have fresh := regular.fresh slot input thread rfl busy
    have kept := sound.threads slot thread busy
    have more := exec_extends fresh
    have rightful : Rightful seen pool.shared.owner thread.request :=
      (kept _ (extends_refl _)).1 (owned slot input thread rfl busy)
    have same := @services_shared _ _ (Request.program h k) slot thread.label
      ((thread.next (exec thread.request input pool.shared).1).settle input)
      (exec thread.request input pool.shared).2 pool.thread
    refine ⟨here, states same (exec_rooted rightful fresh sound.rooted) more,
      (system h k).attached_place (fun call next stops owners later => ?_) ?_⟩
    · have onward := extends_trans more later
      refine given_settle ((kept owners onward).2 _ ?_) stops
      exact exec_shows (sound.rooted.shown known onward) thread.request input
    · intro other waiting _ found owners later
      exact sound.threads other waiting found owners (extends_trans more (same ▸ later))

/-- More sessions may be known. -/
theorem Rooted.mono {known : Session → Prop} {store : Store} (rooted : Rooted known store)
    (more : ∀ session, known session → seen session) : Rooted seen store := by
  refine ⟨rooted.rows, fun queued listed => ?_⟩
  have proper := rooted.jobs queued listed
  cases is_job : queued.job with
  | message data =>
    rw [is_job] at proper
    obtain ⟨named, session, there, carries⟩ := proper
    exact ⟨named, session, more session there, carries⟩
  | automation data =>
    rw [is_job] at proper
    exact proper
  | _ => trivial

theorem run_sound {moves : List Move} {pool : Pool}
    (rooted : Rooted (fun session => session ∈ start.db .sessions) start)
    (regular : (system h k).Meets Regular (Machine.Pool.idle start) moves)
    (owned : (system h k).Meets Owned (Machine.Pool.idle start) moves)
    (reached : (system h k).run (Machine.Pool.idle start) moves = some pool) :
    Sound h k (Seen h k start moves) start moves pool := by
  have begins : Sound h k (Seen h k start moves) start [] (Machine.Pool.idle start) := by
    refine ⟨rfl, fun early late middle split ran => ?_, fun _ _ busy => (by cases busy)⟩
    obtain ⟨rfl, rfl⟩ := List.append_eq_nil_iff.mp split.symm
    cases ran
    exact ⟨rooted.mono fun session there => ⟨start, ⟨[], moves, _, rfl, rfl, rfl⟩, there⟩,
      extends_refl _⟩
  have step (past : List Move) (pool : Pool) (move : Move) (pool' : Pool)
      (sound : Sound h k (Seen h k start moves) start past pool)
      (made : ∃ after, moves = past ++ move :: after)
      (moved : (system h k).act pool move = some pool') :
      Sound h k (Seen h k start moves) start (past ++ [move]) pool' := by
    obtain ⟨after, split⟩ := made
    refine sound_act sound (fun session there => ?_) ?_ ?_ moved
    · exact ⟨pool.shared, ⟨past, move :: after, pool, split, sound.here, rfl⟩, there⟩
    · exact (system h k).meets_split (split ▸ regular) sound.here
    · exact (system h k).meets_split (split ▸ owned) sound.here
  exact (system h k).run_history begins step
    (fun before move after split => ⟨after, by rw [List.nil_append]; exact split⟩) reached

end Runs

/-- **Every message goes out through a session of the workspace that pays for it**: in a run of
requests whose names are their own, and for every run of every job queued in it, in any states of
the run, there is a workspace such that messages are sent and recorded for it, and through sessions
of it. Sessions belong to the workspace they were created in. -/
theorem own_session (h : Helpers) (k : AccountHelpers) (start : Store)
    (moves : List Move) (pool : Pool)
    (rooted : Rooted (fun session => session ∈ start.db .sessions) start)
    (regular : (system h k).Meets Regular (Machine.Pool.idle start) moves)
    (owned : (system h k).Meets Owned (Machine.Pool.idle start) moves)
    (reached : (system h k).run (Machine.Pool.idle start) moves = some pool) :
    (∀ session, Seen h k start moves session →
      pool.shared.owner .sessions session.id = some session.workspaceId) ∧
    ∀ queued ∈ pool.shared.jobs, ∀ tape stores, (∀ index, Reached h k start moves (stores index)) →
      ∃ w, ∀ exchange ∈ (runJob h queued.job).exchanges (Program.found exec) tape stores,
        Through (Seen h k start moves) w exchange.request := by
  have sound := run_sound rooted regular owned reached
  refine ⟨fun session seen => ?_, fun queued listed tape stores states => ?_⟩
  · obtain ⟨store, ⟨before, after, middle, split, ran, rfl⟩, there⟩ := seen
    obtain ⟨rooted, more⟩ := sound.states before after middle split ran
    exact more _ _ _ (rooted.rows .sessions session there)
  · refine runJob_lawful (sound.rooted.jobs queued listed) fun index => ?_
    have state := states index
    obtain ⟨before, after, middle, split, ran, same⟩ := states index
    obtain ⟨rooted, more⟩ := sound.states before after middle split ran
    rw [same] at state ⊢
    exact rooted.shown (fun session there => ⟨_, state, there⟩) more

namespace Example

/-- An input of a move: ids show its number. -/
def at_ (number : Nat) : Input :=
  { WaAutomation.Example.fine with now := number, ids := fun _ => toString number }

def accounts : AccountHelpers := ⟨fun key _ => key, fun password _ => password, id⟩

/-- The sessions of two workspaces. -/
def sessions : List Session :=
  [⟨"s", "w", "sales-01", "line", none, .connected, none⟩,
    ⟨"t", "v", "sales-02", "line", none, .connected, none⟩]

/-- Ann owns one of them. -/
def start : Store :=
  ⟨fun
    | .workspaces => [⟨"w", "shop", "ann", "http://openwa", "key", true⟩]
    | .members => [⟨"w", "ann", "owner"⟩]
    | .sessions => sessions
    | _ => [],
    [], 0, [], fun
    | .sessions, "s" => some "w"
    | .sessions, "t" => some "v"
    | _, _ => none⟩

/-- Ann has a message sent through a session. -/
def sending : List Move :=
  [.start 0 (.endpoint (some "w") "ann" (.sendMessage ⟨"s", "628111", none, some "hi", none, none,
      none⟩)) (at_ 0),
    .resume 0 (at_ 0), .resume 0 (at_ 0), .resume 0 (at_ 0), .resume 0 (at_ 0)]

/-- Ann creates an automation with a session of the other workspace, and tests it. -/
def testing : List Move :=
  [.start 1 (.endpoint (some "w") "ann" (.createAutomation ⟨"greeting", none,
    some "t", .message, [],
      [⟨1, .sendText, [("message", .str "hi")]⟩]⟩)) (at_ 1),
    .resume 1 (at_ 1), .resume 1 (at_ 1),
    .start 2 (.endpoint (some "w") "ann" (.testAutomation "1" (some [("to", .str "628111")])))
      (at_ 2),
    .resume 2 (at_ 2), .resume 2 (at_ 2), .resume 2 (at_ 2), .resume 2 (at_ 2)]

def tape : Tape Input := ⟨at_ 3, fun _ => at_ 3⟩

/-- The store after the test. -/
def tested : Store :=
  (((system WaAutomation.Example.helpers accounts).run (Machine.Pool.idle start) testing).map
    Machine.Pool.shared).getD start

/-- A message goes out through a session of the other workspace. -/
def foreign (exchange : Exchange) : Bool :=
  match exchange.request with
  | .openwa sent => sent.creds.workspaceId == "w" && sent.session.id == "t"
  | _ => false

end Example

theorem own_session_example :
    ∃ pool queued, (system WaAutomation.Example.helpers Example.accounts).run
        (Machine.Pool.idle Example.start) Example.sending = some pool ∧
      queued ∈ pool.shared.jobs ∧
      ∃ w, ∀ exchange ∈ (runJob WaAutomation.Example.helpers queued.job).exchanges
          (Program.found exec) Example.tape fun _ => pool.shared,
        Through (Seen WaAutomation.Example.helpers Example.accounts Example.start Example.sending) w
          exchange.request := by
  have begins : Rooted (fun session => session ∈ Example.start.db .sessions) Example.start := by
    refine ⟨fun table row member => ?_, fun _ listed => (by cases listed)⟩
    cases table with
    | sessions =>
      rcases List.mem_cons.mp member with rfl | member
      · rfl
      · cases List.mem_singleton.mp member
        rfl
    | broadcasts => cases member
    | automations => cases member
    | _ => trivial
  have regular : (system WaAutomation.Example.helpers Example.accounts).Meets Regular
      (Machine.Pool.idle Example.start) Example.sending := by
    refine ⟨⟨fun _ _ _ same => (by cases same), fun _ _ _ same => (by cases same)⟩,
      fun _ moved => ?_⟩
    cases moved
    refine ⟨regular_resume rfl trivial, fun _ moved => ?_⟩
    cases moved
    refine ⟨regular_resume rfl trivial, fun _ moved => ?_⟩
    cases moved
    refine ⟨regular_resume rfl trivial, fun _ moved => ?_⟩
    cases moved
    exact ⟨regular_resume rfl trivial, fun _ _ => trivial⟩
  have owned : (system WaAutomation.Example.helpers Example.accounts).Meets Owned
      (Machine.Pool.idle Example.start) Example.sending := by
    have named : (some "w" : Option Uuid) ≠ none := Option.some_ne_none _
    refine ⟨fun _ _ _ same => (by cases same), fun _ moved => ?_⟩
    cases moved
    refine ⟨owned_resume rfl fun _ => named, fun _ moved => ?_⟩
    cases moved
    refine ⟨owned_resume rfl fun _ => named, fun _ moved => ?_⟩
    cases moved
    refine ⟨owned_resume rfl fun _ => named, fun _ moved => ?_⟩
    cases moved
    exact ⟨owned_resume rfl fun _ => named, fun _ _ => trivial⟩
  refine ⟨_, _, rfl, List.mem_cons_self, ?_⟩
  exact (own_session WaAutomation.Example.helpers Example.accounts Example.start
    Example.sending _ begins
    regular owned rfl).2 _ List.mem_cons_self Example.tape _ fun _ =>
      ⟨Example.sending, [], _, rfl, rfl, rfl⟩

/-- **A session of another workspace**: a message goes out through it, with the credentials of the
workspace that owns the automation. -/
theorem foreign_session :
    ∃ pool queued, (system WaAutomation.Example.helpers Example.accounts).run
        (Machine.Pool.idle Example.start) Example.testing = some pool ∧
      queued ∈ pool.shared.jobs ∧
      ¬∃ w, ∀ exchange ∈ (runJob WaAutomation.Example.helpers queued.job).exchanges
          (Program.found exec) Example.tape fun _ => pool.shared,
        Through (Seen WaAutomation.Example.helpers Example.accounts Example.start Example.testing) w
          exchange.request := by
  have unchanged : ∀ store, Reached WaAutomation.Example.helpers Example.accounts Example.start
      Example.testing store → store.db .sessions = Example.sessions := by
    rintro _ ⟨before, after, middle, split, ran, rfl⟩
    have early : before ∈ Example.testing.inits :=
      (List.mem_inits before Example.testing).mpr ⟨after, split.symm⟩
    repeat'
      rcases List.mem_cons.mp early with rfl | early
      · cases ran
        rfl
    cases early
  refine ⟨_, _, rfl, List.mem_cons_self, ?_⟩
  rintro ⟨w, through⟩
  have sends : ((runJob WaAutomation.Example.helpers
      (.automation ⟨"1", "w", [("to", .str "628111")]⟩)).exchanges (Program.found exec) Example.tape
        fun _ => Example.tested).any Example.foreign = true := by
    decide +kernel
  obtain ⟨⟨request, reply⟩, member, foreign⟩ := List.any_eq_true.mp sends
  have sent := through _ member
  cases request with
  | openwa sending =>
    obtain ⟨paid, session, ⟨store, state, there⟩, home, same⟩ := sent
    obtain ⟨is_w, is_t⟩ := Bool.and_eq_true_iff.mp foreign
    have through_t := (congrArg SessionRef.id same).symm.trans (beq_iff_eq.mp is_t)
    have of_w := (home.trans paid.symm).trans (beq_iff_eq.mp is_w)
    rw [unchanged store state] at there
    rcases List.mem_cons.mp there with rfl | there
    · exact absurd through_t (by decide)
    · cases List.mem_singleton.mp there
      exact absurd of_w (by decide)
  | _ => cases foreign

end WaAutomation.Origins
