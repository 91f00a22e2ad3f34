/-
**What the jobs that send messages exchange.**

The processors of the message, broadcast and automation queues, whatever their calls are answered.

* `Records` connects a record with the row that an insert of it returns, and `Sends` an OpenWA call
  with the phone, the workspace and the session it is made for;
* `SendCourse` lists the exchanges of a job of the message queue, `ActionCourse` those of an action
  of an automation, and `DeliverCourse`, `LoopCourse` and `BroadcastCourse` those of a recipient, of
  the loop over the recipients and of a broadcast;
* `process_sends`, `execute_acts` and `process_broadcasts` say that these are the exchanges of the
  code.
-/

import WaAutomation.Automations.Retries
import WaAutomation.Messages.Attempts

set_option linter.unusedSectionVars false

namespace WaAutomation.Messages

open Library

/-! ### Replies -/

/-- A reply that a call may get in some store. -/
def Possible (call : Call) (reply : Except Err (Resp call)) : Prop :=
  ∃ input store, (exec call input store).1 = reply

/-- A run, whatever stores its calls find, satisfies what its program traces. -/
theorem found_traces {α : Type} {program : Svc α} {post : List Exchange → Except Err α → Prop}
    (traces : program.Traces Possible post) (tape : Program.Tape Input) (stores : Nat → Store) :
    post (program.exchanges (Program.found exec) tape stores)
      (program.run (Program.found exec) tape stores).1 :=
  Program.traces_run (fun _ input stores => ⟨input, stores 0, rfl⟩) tape stores traces

/-- The call neither sends nor writes what is shown of a message: it looks a row up, books a run, or
shows something to the outside. -/
def mute : Call → Bool
  | .find table _ => table ≠ .broadcasts
  | .findStatus _ | .findAutomations _ | .emit _ | .sleep _ => true
  | .update table _ _ => table = .automations
  | _ => false

abbrev Mute (trace : List Exchange) : Prop := ∀ exchange ∈ trace, mute exchange.request = true

theorem mute_nil : Mute [] := fun _ member => by cases member

theorem mute_single {call : Call} {reply : Except Err (Resp call)} (mute : mute call = true) :
    Mute [⟨call, reply⟩] :=
  List.forall_mem_singleton.mpr mute

/-- The row is what an insert of the record returns. -/
structure Records (record : MessageRecord) (row : MessageLog) : Prop where
  workspace : record.workspaceId = some row.workspaceId
  session : row.sessionId = record.sessionId
  automation : row.automationId = record.automationId
  broadcast : row.broadcastId = record.broadcastId
  toPhone : row.toPhone = record.toPhone
  direction : row.direction = record.direction
  status : row.status = record.status

/-- The reply to an insert of the record, which is the row it writes. -/
def Answers (record : MessageRecord) (reply : Except Err MessageLog) : Prop :=
  ∀ row, reply = .ok row → Records record row

theorem possible_answers {record : MessageRecord} {reply : Except Err MessageLog}
    (possible : Possible (recordCall record) reply) : Answers record reply := by
  obtain ⟨input, store, rfl⟩ := possible
  intro row replies
  obtain ⟨error, failed⟩ | ⟨draft, owner, same, _, inserted⟩ := exec_insert .logs
    (record.workspaceId.map fun workspaceId input =>
      ⟨input.ids 0, workspaceId, record.sessionId, record.automationId, record.broadcastId,
        record.direction, record.fromPhone, record.toPhone, record.messageType, record.content,
        record.status, record.waMessageId, record.errorMessage, input.now⟩) input store
  · cases (congrArg Prod.fst failed).symm.trans replies
  · cases (congrArg Prod.fst inserted).symm.trans replies
    obtain ⟨workspaceId, is, rfl⟩ := Option.map_eq_some_iff.mp same
    exact ⟨is, rfl, rfl, rfl, rfl, rfl, rfl⟩

theorem record_traces {record : MessageRecord}
    {post : List Exchange → Except Err MessageLog → Prop}
    (replies : ∀ reply, Answers record reply → post [⟨recordCall record, reply⟩] reply) :
    (MessagesService.record record).Traces Possible post :=
  Program.traces_perform fun reply possible => replies reply (possible_answers possible)

theorem now_traces {α : Type} {rest : Time → Svc α} {post : List Exchange → Except Err α → Prop}
    (holds : ∀ now, (rest now).Traces Possible post) :
    (Svc.now >>= rest).Traces Possible post :=
  fun reading => holds reading.now

/-! ### Lookups -/

/-- A lookup that returns one row, which matches, or throws. -/
theorem findOne_traces {table : Table} {matching : Row table → Bool}
    {post : List Exchange → Except Err (Option (Row table)) → Prop}
    (fails : ∀ error, post [⟨.find table matching, .error error⟩] (.error error))
    (finds : ∀ rows, (∀ row, rows.head? = some row → matching row = true) →
      post [⟨.find table matching, .ok rows⟩] (.ok rows.head?)) :
    (Svc.findOne table matching).Traces Possible post := by
  refine Program.traces_bind (Program.traces_perform fun reply possible => ?_)
  obtain ⟨input, store, rfl⟩ := possible
  obtain ⟨error, failed⟩ | found := exec_find table matching input store
  · rw [failed]
    exact fails error
  · rw [found]
    refine finds _ fun row head => ?_
    exact (List.mem_filter.mp (List.mem_of_head? head)).2

/-- The session asked for, after one lookup. -/
theorem getById_traces {id : Uuid} {post : List Exchange → Except Err Session → Prop}
    (holds : ∀ lookups result, Mute lookups → (∀ session, result = .ok session → session.id = id) →
      post lookups result) :
    (SessionsService.getById id).Traces Possible post := by
  refine Program.traces_bind (findOne_traces (fun error => ?_) fun rows matches_ => ?_)
  · exact holds _ _ (mute_single rfl) fun _ wrong => (by cases wrong)
  · cases head : rows.head? with
    | none => exact holds _ _ (mute_single rfl) fun _ wrong => (by cases wrong)
    | some session =>
      refine holds _ _ (mute_single rfl) fun found same => ?_
      cases same
      exact beq_iff_eq.mp (matches_ session head)

/-- Only the workspace that is asked for gives its credentials. -/
theorem getOpenwaCredentials_traces {h : Helpers} {workspaceId : Option Uuid}
    {post : List Exchange → Except Err OpenwaCredentials → Prop}
    (holds : ∀ lookups result, Mute lookups →
      (∀ creds, result = .ok creds → ∀ id, workspaceId = some id → creds.workspaceId = id) →
      post lookups result) :
    (WorkspacesService.getOpenwaCredentials h workspaceId).Traces Possible post := by
  refine Program.traces_bind (findOne_traces (fun error => ?_) fun rows matches_ => ?_)
  · exact holds _ _ (mute_single rfl) fun _ wrong => (by cases wrong)
  · cases head : rows.head? with
    | none => exact holds _ _ (mute_single rfl) fun _ wrong => (by cases wrong)
    | some workspace =>
      have matched := matches_ workspace head
      dsimp only
      cases h.decrypt workspace.openwaApiKey with
      | error error => exact holds _ _ (mute_single rfl) fun _ wrong => (by cases wrong)
      | ok apiKey =>
        refine holds _ _ (mute_single rfl) fun creds same id asked => ?_
        cases same
        subst asked
        exact beq_iff_eq.mp matched

/-! ### Messages -/

/-- The chat a message is sent to. -/
def chatOf : OpenwaMethod → Option String
  | .sendText chatId _ => some chatId
  | .sendImage chatId _ _ _ => some chatId
  | .sendFile chatId _ _ _ => some chatId
  | _ => none

/-- The call sends to the phone, for the workspace and through the session. -/
structure Sends (phone : String) (workspaceId sessionId : Uuid) (call : OpenwaCall) : Prop where
  chat : chatOf call.method = some (toChatId phone)
  workspace : call.creds.workspaceId = workspaceId
  session : call.session.id = sessionId

theorem openwa_traces {creds : OpenwaCredentials} {method : OpenwaMethod} {session : SessionRef}
    {recipient : Option RecipientRef} {post : List Exchange → Except Err OpenwaResponse → Prop}
    (rejects : ∀ error failure, post [⟨.openwa ⟨creds, method, session, recipient⟩, .error error⟩]
      (.error failure))
    (accepts : ∀ response, post [⟨.openwa ⟨creds, method, session, recipient⟩, .ok response⟩]
      (.ok response)) :
    (OpenwaService.call creds method session recipient).Traces Possible post := by
  refine Program.traces_bind (Program.traces_attempt (Program.traces_perform fun reply _ => ?_))
  cases reply with
  | error error => exact rejects error _
  | ok response => exact accepts response

/-! ### A job of the message queue -/

/-- The record of a job. -/
abbrev rowOf := MessageProcessor.logRow

/-- A job ends before its message, or its message is rejected, or it is accepted and its record
fails or succeeds. -/
inductive SendCourse (data : SendMessageJob) : List Exchange → Prop
  | unprepared {lookups : List Exchange} (quiet : Mute lookups) : SendCourse data lookups
  | rejected {lookups : List Exchange} (quiet : Mute lookups) (call : OpenwaCall) (error : Err)
      (failure : Option String) (reply : Except Err MessageLog)
      (answers : Answers (rowOf data .failed none failure) reply) :
      SendCourse data (lookups ++ [⟨.openwa call, .error error⟩,
        ⟨recordCall (rowOf data .failed none failure), reply⟩])
  | unrecorded {lookups : List Exchange} (quiet : Mute lookups) (call : OpenwaCall)
      (response : OpenwaResponse) (error : Err) (failure : Option String)
      (reply : Except Err MessageLog) (answers : Answers (rowOf data .failed none failure) reply) :
      SendCourse data (lookups ++ [⟨.openwa call, .ok response⟩,
        ⟨recordCall (rowOf data .sent (messageId response) none), .error error⟩,
        ⟨recordCall (rowOf data .failed none failure), reply⟩])
  | recorded {lookups : List Exchange} (quiet : Mute lookups) (call : OpenwaCall)
      (sends : ∀ workspaceId, data.workspaceId = some workspaceId →
        Sends data.toPhone workspaceId data.sessionId call)
      (response : OpenwaResponse) (row : MessageLog)
      (records : Records (rowOf data .sent (messageId response) none) row) (event : Event)
      (reply : Except Err Unit) :
      SendCourse data (lookups ++ [⟨.openwa call, .ok response⟩,
        ⟨recordCall (rowOf data .sent (messageId response) none), .ok row⟩, ⟨.emit event, reply⟩])

/-- The message of a job is one OpenWA call to its recipient. -/
theorem deliver_sends (creds : OpenwaCredentials) (data : SendMessageJob) :
    ∃ method, chatOf method = some (toChatId data.toPhone) ∧
      MessageProcessor.deliver creds data =
        OpenwaService.call creds method ⟨data.openwaSessionId, data.sessionId⟩ none := by
  unfold MessageProcessor.deliver
  split
  · exact ⟨_, rfl, rfl⟩
  · exact ⟨_, rfl, rfl⟩
  · exact ⟨_, rfl, rfl⟩

/-- The handler records the failure and throws. -/
theorem handler_traces {data : SendMessageJob} {error : Err}
    {post : List Exchange → Except Err (Option String) → Prop}
    (holds : ∀ reply, Answers (rowOf data .failed none (some error.message)) reply → ∀ result,
      post [⟨recordCall (rowOf data .failed none (some error.message)), reply⟩] result) :
    (MessagesService.record (rowOf data .failed none (some error.message)) >>= fun _ =>
      Program.throw error : Svc (Option String)).Traces Possible post := by
  refine Program.traces_bind (record_traces fun reply answers => ?_)
  cases reply with
  | error error => exact holds _ answers _
  | ok row => exact holds _ answers _

/-- **The course of a job.** -/
theorem process_sends (h : Helpers) (data : SendMessageJob) :
    (MessageProcessor.process h data).Traces Possible fun trace _ => SendCourse data trace := by
  refine Program.traces_bind (getOpenwaCredentials_traces fun lookups result quiet own => ?_)
  cases result with
  | error error => exact .unprepared quiet
  | ok creds =>
    obtain ⟨method, chat, delivers⟩ := deliver_sends creds data
    have sends (workspaceId : Uuid) (owned : data.workspaceId = some workspaceId) :
        Sends data.toPhone workspaceId data.sessionId
          ⟨creds, method, ⟨data.openwaSessionId, data.sessionId⟩, none⟩ :=
      ⟨chat, own creds rfl workspaceId owned, rfl⟩
    refine Program.traces_bind (Program.traces_attempt ?_)
    unfold MessageProcessor.attemptSend
    rw [delivers]
    refine Program.traces_bind (openwa_traces (fun error failure => ?_) fun response => ?_)
    · exact handler_traces fun reply answers _ => .rejected quiet _ error _ reply answers
    · refine Program.traces_bind (record_traces fun recorded records => ?_)
      cases recorded with
      | error error =>
        exact handler_traces fun reply answers _ => .unrecorded quiet _ response error
          _ reply answers
      | ok row =>
        refine Program.traces_bind (Program.traces_perform fun reply possible => ?_)
        obtain ⟨input, store, rfl⟩ := possible
        exact .recorded quiet _ sends response row (records row rfl) _ _

/-! ### An action of an automation -/

/-- The record of a message of an automation. -/
abbrev logOf (h : Helpers) (ctx : ActionRunContext) (type : MessageType) (content : Option Json) :
    MessageRecord :=
  ⟨some ctx.workspaceId, some ctx.sessionId, some ctx.automationId, none, .out, none,
    textOf h ctx.toPhone, type, textOf h content, .sent, none, none⟩

/-- An action sends nothing, or its message is rejected, or it is accepted and recorded; a message
that is forwarded is not recorded. -/
inductive ActionCourse (h : Helpers) (ctx : ActionRunContext) (action : AutomationAction) :
    List Exchange → Prop
  | quiet {pauses : List Exchange} (quiet : Mute pauses) : ActionCourse h ctx action pauses
  | rejected {pauses : List Exchange} (quiet : Mute pauses) (call : OpenwaCall) (error : Err) :
      ActionCourse h ctx action (pauses ++ [⟨.openwa call, .error error⟩])
  | logged {pauses : List Exchange} (quiet : Mute pauses) (kind : action.actionType ≠ .forward)
      (phone : String) (addressed : ctx.toPhone = some (.str phone)) (call : OpenwaCall)
      (sends : Sends phone ctx.creds.workspaceId ctx.sessionId call) (response : OpenwaResponse)
      (type : MessageType) (content : Option Json) (reply : Except Err MessageLog)
      (answers : Answers (logOf h ctx type content) reply) :
      ActionCourse h ctx action (pauses ++ [⟨.openwa call, .ok response⟩,
        ⟨recordCall (logOf h ctx type content), reply⟩])
  | forwarded {pauses : List Exchange} (quiet : Mute pauses) (kind : action.actionType = .forward)
      (call : OpenwaCall) (response : OpenwaResponse) :
      ActionCourse h ctx action (pauses ++ [⟨.openwa call, .ok response⟩])

section Actions

variable {h : Helpers} {ctx : ActionRunContext} {action : AutomationAction}

theorem lift_traces {α : Type} {outcome : Except Err α}
    {post : List Exchange → Except Err α → Prop}
    (holds : ∀ result, outcome = result → post [] result) :
    (Svc.lift outcome).Traces Possible post := by
  cases outcome with
  | error error => exact holds _ rfl
  | ok value => exact holds _ rfl

theorem phoneOf_ok {target : Option Json} {phone : String} (is : phoneOf target = .ok phone) :
    target = some (.str phone) := by
  cases target with
  | none => cases is
  | some value =>
    cases value with
    | str text =>
      cases is
      rfl
    | _ => cases is

/-- A message with its record, after some pauses. -/
theorem message_traces {pauses : List Exchange} (quiet : Mute pauses)
    (kind : action.actionType ≠ .forward) {phone : String}
    (addressed : ctx.toPhone = some (.str phone)) {method : OpenwaMethod}
    (chat : chatOf method = some (toChatId phone)) (type : MessageType) (content : Option Json) :
    (OpenwaService.call ctx.creds method ctx.session none >>= fun _ =>
      ActionEngine.log h ctx type content >>= fun _ =>
        (pure none : Svc (Option Rat))).Traces Possible fun trace _ =>
          ActionCourse h ctx action (pauses ++ trace) := by
  refine Program.traces_bind (openwa_traces (fun error _ => ?_) fun response => ?_)
  · exact .rejected quiet _ error
  refine Program.traces_bind (Program.traces_bind (Program.traces_attempt
    (record_traces fun reply answers => ?_)))
  exact .logged quiet kind phone addressed _ ⟨chat, rfl, rfl⟩ response type content reply answers

/-- What fails between the calls ends the action. -/
theorem lifting_traces {α : Type} {pauses : List Exchange} (quiet : Mute pauses)
    {outcome : Except Err α} {rest : α → Svc (Option Rat)}
    (continues : ∀ value, outcome = .ok value → (rest value).Traces Possible fun trace _ =>
      ActionCourse h ctx action (pauses ++ trace)) :
    (Svc.lift outcome >>= rest).Traces Possible fun trace _ =>
      ActionCourse h ctx action (pauses ++ trace) := by
  refine Program.traces_bind (lift_traces fun result is => ?_)
  cases result with
  | error error =>
    rw [List.append_nil]
    exact .quiet quiet
  | ok value => exact continues value is

/-- **The course of an action.** -/
theorem execute_acts (h : Helpers) (ctx : ActionRunContext) (action : AutomationAction) :
    (ActionEngine.execute h action ctx).Traces Possible fun trace _ =>
      ActionCourse h ctx action trace := by
  unfold ActionEngine.execute
  cases kind : action.actionType with
  | sendText =>
    have logs : action.actionType ≠ .forward := by simp [kind]
    refine lifting_traces mute_nil fun message _ => ?_
    dsimp only
    cases truthyGet action.actionConfig "delay_ms" with
    | none =>
      exact lifting_traces mute_nil fun phone is =>
        message_traces mute_nil logs (phoneOf_ok is) rfl _ _
    | some delay =>
      refine Program.traces_bind (Program.traces_perform fun reply _ => ?_)
      have slept : Mute [⟨.sleep (h.millis delay), reply⟩] := mute_single rfl
      cases reply with
      | error error => exact .quiet slept
      | ok _ =>
        exact lifting_traces slept fun phone is => message_traces slept logs (phoneOf_ok is) rfl _ _
  | sendImage =>
    have logs : action.actionType ≠ .forward := by simp [kind]
    exact lifting_traces mute_nil fun caption _ => lifting_traces mute_nil fun phone is =>
      message_traces mute_nil logs (phoneOf_ok is) rfl _ _
  | sendFile =>
    have logs : action.actionType ≠ .forward := by simp [kind]
    exact lifting_traces mute_nil fun caption _ => lifting_traces mute_nil fun phone is =>
      message_traces mute_nil logs (phoneOf_ok is) rfl _ _
  | forward =>
    refine lifting_traces mute_nil fun message _ => lifting_traces mute_nil fun phone _ => ?_
    refine Program.traces_bind (openwa_traces (fun error _ => ?_) fun response => ?_)
    · exact .rejected mute_nil _ error
    · exact .forwarded mute_nil kind _ response
  | delay =>
    refine Program.traces_bind (Program.traces_perform fun reply _ => ?_)
    cases reply with
    | error error => exact .quiet (mute_single rfl)
    | ok _ => exact .quiet (mute_single rfl)
  | condition =>
    refine lifting_traces mute_nil fun result _ => ?_
    split
    · exact .quiet mute_nil
    · exact .quiet mute_nil

end Actions

/-! ### A broadcast -/

open BroadcastProcessor (Context recipientSent recipientFailed)

/-- The save of a recipient. -/
abbrev saveRecipient (recipient : BroadcastRecipient) : Call := .save .recipients (.whole recipient)

/-- The save of a broadcast. -/
abbrev saveBroadcast (broadcast : Broadcast) : Call := .save .broadcasts (.whole broadcast)

/-- A message is rejected, or it is accepted and its recipient not saved as sent, or it is accepted,
saved and recorded; with the broadcast the run goes on with. -/
inductive DeliverCourse (ctx : Context) (broadcast : Broadcast) (recipient : BroadcastRecipient) :
    List Exchange → Except Err Broadcast → Prop
  | rejected (call : OpenwaCall) (error : Err) (failure : String) (reply : Except Err Unit)
      (result : Except Err Broadcast) (counts : ∀ next, result = .ok next →
        next = { broadcast with failedCount := broadcast.failedCount + 1 }) :
      DeliverCourse ctx broadcast recipient [⟨.openwa call, .error error⟩,
        ⟨saveRecipient (recipientFailed recipient failure), reply⟩] result
  | unsaved (call : OpenwaCall) (response : OpenwaResponse) (now : Time) (error : Err)
      (failure : String) (reply : Except Err Unit) (result : Except Err Broadcast)
      (counts : ∀ next, result = .ok next →
        next = { broadcast with failedCount := broadcast.failedCount + 1 }) :
      DeliverCourse ctx broadcast recipient [⟨.openwa call, .ok response⟩,
        ⟨saveRecipient (recipientSent recipient now), .error error⟩,
        ⟨saveRecipient (recipientFailed (recipientSent recipient now) failure), reply⟩] result
  | logged (call : OpenwaCall)
      (sends : Sends recipient.phone ctx.creds.workspaceId ctx.session.id call)
      (response : OpenwaResponse) (now : Time) (message : String) (reply : Except Err MessageLog)
      (answers : Answers (BroadcastProcessor.logRow ctx broadcast recipient message response)
        reply) :
      DeliverCourse ctx broadcast recipient [⟨.openwa call, .ok response⟩,
        ⟨saveRecipient (recipientSent recipient now), .ok ()⟩,
        ⟨recordCall (BroadcastProcessor.logRow ctx broadcast recipient message response), reply⟩]
        (.ok { broadcast with sentCount := broadcast.sentCount + 1 })

theorem recordFailure_traces {broadcast : Broadcast} {recipient : BroadcastRecipient} {err : Err}
    {post : List Exchange → Except Err Broadcast → Prop}
    (holds : ∀ reply result, (∀ next, result = .ok next →
        next = { broadcast with failedCount := broadcast.failedCount + 1 }) →
      post [⟨saveRecipient (recipientFailed recipient err.message), reply⟩] result) :
    (BroadcastProcessor.recordFailure broadcast recipient err).Traces Possible post := by
  refine Program.traces_bind (Program.traces_perform fun reply _ => ?_)
  cases reply with
  | error error => exact holds _ _ fun _ wrong => (by cases wrong)
  | ok saved =>
    refine holds _ _ fun next same => ?_
    cases same
    rfl

/-- **The course of a message to a recipient.** -/
theorem deliver_delivers (ctx : Context) (broadcast : Broadcast) (recipient : BroadcastRecipient)
    (message : String) :
    (BroadcastProcessor.deliver ctx broadcast recipient message).Traces Possible
      (DeliverCourse ctx broadcast recipient) := by
  refine Program.traces_bind (Program.traces_attempt
    (openwa_traces (fun error failure => ?_) fun response => ?_))
  · exact recordFailure_traces fun reply result counts =>
      .rejected _ error _ reply result counts
  · refine now_traces fun now => ?_
    refine Program.traces_bind (Program.traces_attempt (Program.traces_perform fun saved _ => ?_))
    cases saved with
    | error error =>
      exact recordFailure_traces fun reply result counts =>
        .unsaved _ response _ error _ reply result counts
    | ok saved =>
      refine Program.traces_bind (Program.traces_attempt (record_traces fun reply answers => ?_))
      exact .logged _ ⟨rfl, rfl, rfl⟩ response _ message reply answers

/-- The loop makes nothing of the rest, or it ends, or it goes on after a recipient. -/
inductive LoopCourse (ctx : Context) : Broadcast → List Exchange → Prop
  | quiet (broadcast : Broadcast) {checks : List Exchange} (quiet : Mute checks) :
      LoopCourse ctx broadcast checks
  | finished (broadcast : Broadcast) (now : Time) (reply : Except Err Unit) :
      LoopCourse ctx broadcast
        [⟨saveBroadcast { broadcast with status := .done, finishedAt := some now }, reply⟩]
  | failed (broadcast : Broadcast) {checks delivery : List Exchange} (quiet : Mute checks)
      (recipient : BroadcastRecipient) (error : Err)
      (delivers : DeliverCourse ctx broadcast recipient delivery (.error error)) :
      LoopCourse ctx broadcast (checks ++ delivery)
  | next (broadcast next : Broadcast) {checks delivery : List Exchange}
      (quiet : Mute checks) (recipient : BroadcastRecipient)
      (delivers : DeliverCourse ctx broadcast recipient delivery (.ok next))
      (reply : Except Err Unit) (pauses rest : List Exchange) (calm : Mute pauses)
      (later : LoopCourse ctx next rest) :
      LoopCourse ctx broadcast
        (checks ++ (delivery ++ (⟨saveBroadcast next, reply⟩ :: (pauses ++ rest))))

/-- **The course of the loop**, by induction on the recipients that are left. -/
theorem sendLoop_loops (h : Helpers) (ctx : Context) (pending : List BroadcastRecipient) :
    ∀ broadcast, (BroadcastProcessor.sendLoop h ctx broadcast pending).Traces Possible
      fun trace _ => LoopCourse ctx broadcast trace := by
  induction pending with
  | nil =>
    refine fun broadcast => now_traces fun now => ?_
    refine Program.traces_bind (Program.traces_perform fun reply _ => ?_)
    cases reply with
    | error error => exact .finished broadcast now _
    | ok saved => exact .finished broadcast now _
  | cons recipient pending ih =>
    intro broadcast
    refine Program.traces_bind (Program.traces_perform fun checked _ => ?_)
    have quiet : Mute [⟨.findStatus broadcast.id, checked⟩] := mute_single rfl
    cases checked with
    | error error => exact .quiet broadcast quiet
    | ok fresh =>
      dsimp only
      split
      · exact .quiet broadcast quiet
      refine Program.traces_bind (lift_traces fun rendered _ => ?_)
      cases rendered with
      | error error => exact .quiet broadcast quiet
      | ok message =>
        refine Program.traces_bind (Program.traces_mono (fun delivery result delivers => ?_)
          (deliver_delivers ctx broadcast recipient message))
        cases result with
        | error error => exact .failed broadcast quiet recipient error delivers
        | ok next =>
          refine Program.traces_bind (Program.traces_perform fun saved _ => ?_)
          cases saved with
          | error error =>
            exact .next broadcast next quiet recipient delivers _ [] [] mute_nil
              (.quiet next mute_nil)
          | ok saved =>
            have announces : (BroadcastProcessor.announce next).Calls fun call =>
                mute call = true :=
              BroadcastProcessor.announce_calls (fun _ => rfl) fun _ => rfl
            refine Program.traces_bind (Program.traces_calls announces fun pauses result calm => ?_)
            cases result with
            | error error =>
              have ends := LoopCourse.next broadcast next quiet recipient delivers
                  (.ok saved) pauses
                [] calm (.quiet next mute_nil)
              rw [List.append_nil] at ends
              exact ends
            | ok shown =>
              refine Program.traces_mono (fun rest _ later => ?_) (ih next)
              exact .next broadcast next quiet recipient delivers (.ok saved) pauses rest calm later

/-- A broadcast is not found, or its session or its credentials are not, or it begins. -/
inductive BroadcastCourse (data : BroadcastJob) : List Exchange → Prop
  | skipped (matching : Broadcast → Bool) (reply : Except Err (List Broadcast)) :
      BroadcastCourse data [⟨.find .broadcasts matching, reply⟩]
  | unprepared (matching : Broadcast → Bool) (rows : List Broadcast) {lookups : List Exchange}
      (quiet : Mute lookups) :
      BroadcastCourse data (⟨.find .broadcasts matching, .ok rows⟩ :: lookups)
  | begun (matching : Broadcast → Bool) (rows : List Broadcast) (broadcast : Broadcast)
      (first : rows.head? = some broadcast) (named : broadcast.id = data.broadcastId)
      {lookups : List Exchange} (quiet : Mute lookups) (ctx : Context)
      (session : ctx.session.id = broadcast.sessionId)
      (workspace : ctx.creds.workspaceId = broadcast.workspaceId) (now : Time)
      (reply : Except Err Unit) (more rest : List Exchange) (calm : Mute more)
      (later : LoopCourse ctx { broadcast with status := .sending, startedAt := some now } rest) :
      BroadcastCourse data (⟨.find .broadcasts matching, .ok rows⟩ :: (lookups ++
        (⟨saveBroadcast { broadcast with status := .sending, startedAt := some now }, reply⟩ ::
          (more ++ rest))))

/-- **The course of a broadcast.** -/
theorem process_broadcasts (h : Helpers) (data : BroadcastJob) :
    (BroadcastProcessor.process h data).Traces Possible fun trace _ =>
      BroadcastCourse data trace := by
  refine Program.traces_bind (findOne_traces (fun error => .skipped _ _) fun rows matches_ => ?_)
  cases first : rows.head? with
  | none => exact .skipped _ _
  | some broadcast =>
    have named : broadcast.id = data.broadcastId := beq_iff_eq.mp (matches_ broadcast first)
    refine Program.traces_bind (getById_traces fun looks found quiet session => ?_)
    cases found with
    | error error => exact .unprepared _ rows quiet
    | ok found =>
      refine Program.traces_bind (getOpenwaCredentials_traces fun more loaded calm own => ?_)
      have looked : Mute (looks ++ more) := List.forall_mem_append.mpr ⟨quiet, calm⟩
      cases loaded with
      | error error => exact .unprepared _ rows looked
      | ok creds =>
        refine now_traces fun now => ?_
        refine Program.traces_bind (Program.traces_perform fun saved _ => ?_)
        have course :=
          BroadcastCourse.begun (fun broadcast => broadcast.id == data.broadcastId) rows
          broadcast first named looked ⟨found, creds⟩ (session found rfl)
            (own creds rfl _ rfl) now saved
        simp only [List.append_assoc] at course
        cases saved with
        | error error => exact course [] [] mute_nil (.quiet _ mute_nil)
        | ok saved =>
          refine Program.traces_bind (Program.traces_perform fun pending _ => ?_)
          have read : Mute [⟨.find .recipients _, pending⟩] := mute_single rfl
          cases pending with
          | error error => exact course [_] [] read (.quiet _ mute_nil)
          | ok pending =>
            refine Program.traces_mono (fun rest _ later => ?_) (sendLoop_loops h _ pending _)
            exact course [_] rest read later

end WaAutomation.Messages
