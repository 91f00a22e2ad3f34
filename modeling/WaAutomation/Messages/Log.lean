/-
**The log of the outbound messages.**

When no write of the log fails, a job of the message queue leaves one row for each message that
OpenWA accepts, in order and with the recipient, the workspace and the session it was sent with. A
broadcast does so exactly when no recipient fails to be saved as sent, and an automation exactly
when no message of a forward action is accepted: nothing records it.

* `Complete` is the correspondence of the accepted calls and the rows, and `Tally` says what a part
  of a trace does to it, by whether it loses a row;
* `send_tally`, `loop_tally` and `action_tally` go through the courses of the three processors;
* `log_complete` is about all attempts of a job, `forward_unlogged` is a message that is forwarded,
  and `removed_unlogged` a broadcast that is removed while it is sent.
-/

import WaAutomation.Messages.Courses

set_option linter.unusedSectionVars false

namespace WaAutomation.Messages

open Library

/-! ### The correspondence -/

/-- The call of a message that OpenWA accepts. -/
def acceptedCall : Exchange → Option OpenwaCall
  | ⟨.openwa call, .ok _⟩ => some call
  | _ => none

/-- The row of an outbound message that is written as sent. -/
def sentRow : Exchange → Option MessageLog
  | ⟨.insert .logs _, .ok row⟩ => if row.direction = .out ∧
      row.status = .sent then some row else none
  | _ => none

/-- The row is about the call. -/
structure Fits (call : OpenwaCall) (row : MessageLog) : Prop where
  recipient : ∃ phone, row.toPhone = some phone ∧ chatOf call.method = some (toChatId phone)
  workspace : row.workspaceId = call.creds.workspaceId
  session : row.sessionId = some call.session.id

/-- The rows correspond to the accepted calls, one to one and in order, and are the job's own. -/
def Complete (own : MessageLog → Prop) (trace : List Exchange) : Prop :=
  List.Forall₂ (fun call row => Fits call row ∧ own row) (trace.filterMap acceptedCall)
    (trace.filterMap sentRow)

/-- A write of the log fails. -/
def logFails : Exchange → Bool
  | ⟨.insert .logs _, .error _⟩ => true
  | _ => false

/-- No write of the log fails. -/
abbrev Logging (trace : List Exchange) : Prop := ∀ exchange ∈ trace, logFails exchange = false

/-- A part of a trace that loses a row has fewer rows than accepted calls, and one that loses none
is complete. -/
def Tally (own : MessageLog → Prop) : (lost : Bool) → List Exchange → Prop
  | false, trace => Complete own trace
  | true, trace => (trace.filterMap sentRow).length < (trace.filterMap acceptedCall).length

section Tallies

variable {own own' : MessageLog → Prop} {lost lost' : Bool} {trace trace' : List Exchange}

theorem tally_complete (tally : Tally own lost trace) : Complete own trace ↔ lost = false := by
  cases lost with
  | false => exact ⟨fun _ => rfl, fun _ => tally⟩
  | true =>
    refine ⟨fun complete => ?_, fun wrong => (by cases wrong)⟩
    exact absurd (List.Forall₂.length_eq complete) (Nat.ne_of_gt tally)

theorem tally_le (tally : Tally own lost trace) :
    (trace.filterMap sentRow).length ≤ (trace.filterMap acceptedCall).length := by
  cases lost with
  | false => exact Nat.le_of_eq (List.Forall₂.length_eq tally).symm
  | true => exact Nat.le_of_lt tally

theorem tally_append (first : Tally own lost trace) (second : Tally own lost' trace') :
    Tally own (lost || lost') (trace ++ trace') := by
  have below := tally_le first
  have below' := tally_le second
  have longer (strict : (trace.filterMap sentRow).length < (trace.filterMap acceptedCall).length ∨
      (trace'.filterMap sentRow).length < (trace'.filterMap acceptedCall).length) :
      Tally own true (trace ++ trace') := by
    simp only [Tally, List.filterMap_append, List.length_append]
    omega
  cases lost with
  | true => exact longer (.inl first)
  | false =>
    cases lost' with
    | true => exact longer (.inr second)
    | false =>
      show Complete own (trace ++ trace')
      unfold Complete
      rw [List.filterMap_append, List.filterMap_append]
      exact List.rel_append first second

theorem tally_mono (implies : ∀ row, own row → own' row) (tally : Tally own lost trace) :
    Tally own' lost trace := by
  cases lost with
  | false => exact List.Forall₂.imp (fun _ row held => held.imp_right (implies row)) tally
  | true => exact tally

theorem tally_flatMap {α : Type} {parts : List α} {loses : α → Bool} {trace : α → List Exchange}
    (each : ∀ part ∈ parts, Tally own (loses part) (trace part)) :
    Tally own (parts.any loses) (parts.flatMap trace) := by
  induction parts with
  | nil => exact List.Forall₂.nil
  | cons part parts ih =>
    rw [List.any_cons, List.flatMap_cons]
    obtain ⟨here, later⟩ := List.forall_mem_cons.mp each
    exact tally_append here (ih later)

theorem tally_empty (calls : trace.filterMap acceptedCall = [])
    (rows : trace.filterMap sentRow = []) : Tally own false trace := by
  show List.Forall₂ _ _ _
  rw [calls, rows]
  exact .nil

/-- An accepted message with its row. -/
theorem tally_pair {call : OpenwaCall} {row : MessageLog}
    (calls : trace.filterMap acceptedCall = [call]) (rows : trace.filterMap sentRow = [row])
    (fits : Fits call row) (owned : own row) : Tally own false trace := by
  show List.Forall₂ _ _ _
  rw [calls, rows]
  exact .cons ⟨fits, owned⟩ .nil

/-- An accepted message without a row. -/
theorem tally_lost {call : OpenwaCall} (calls : trace.filterMap acceptedCall = [call])
    (rows : trace.filterMap sentRow = []) : Tally own true trace := by
  show _ < _
  rw [calls, rows]
  exact Nat.zero_lt_one

theorem mute_unlogged {exchange : Exchange} (quiet : mute exchange.request = true) :
    acceptedCall exchange = none ∧ sentRow exchange = none := by
  obtain ⟨request, reply⟩ := exchange
  cases request with
  | openwa call => cases quiet
  | insert table draft => cases quiet
  | _ => exact ⟨rfl, rfl⟩

theorem mute_calls (quiet : Mute trace) : trace.filterMap acceptedCall = [] :=
  List.filterMap_eq_nil_iff.mpr fun exchange member => (mute_unlogged (quiet exchange member)).1

theorem mute_rows (quiet : Mute trace) : trace.filterMap sentRow = [] :=
  List.filterMap_eq_nil_iff.mpr fun exchange member => (mute_unlogged (quiet exchange member)).2

theorem tally_mute (quiet : Mute trace) : Tally own false trace :=
  tally_empty (mute_calls quiet) (mute_rows quiet)

/-- Quiet exchanges before others. -/
theorem tally_after {quiet : List Exchange} (silent : Mute quiet) (tally : Tally own lost trace) :
    Tally own lost (quiet ++ trace) :=
  tally_append (tally_mute silent) tally

end Tallies

/-! ### Records -/

section Rows

variable {record : MessageRecord} {reply : Except Err MessageLog}

/-- The row of an outbound message. -/
theorem sent_recorded {row : MessageLog} (records : Records record row)
    (out : record.direction = .out) (sent : record.status = .sent) :
    sentRow ⟨recordCall record, .ok row⟩ = some row :=
  if_pos ⟨records.direction.trans out, records.status.trans sent⟩

/-- The row of a failure. -/
theorem failure_unlogged (answers : Answers record reply) (failed : record.status = .failed) :
    sentRow ⟨recordCall record, reply⟩ = none := by
  cases reply with
  | error error => rfl
  | ok row =>
    refine if_neg fun sent => ?_
    cases (sent.2.symm.trans (answers row rfl).status).trans failed

/-- A record that does not fail is written. -/
theorem logging_ok (logging : logFails ⟨recordCall record, reply⟩ = false) :
    ∃ row, reply = .ok row := by
  cases reply with
  | error error => cases logging
  | ok row => exact ⟨row, rfl⟩

end Rows

/-! ### The three processors -/

/-- The row of a job of the message queue. -/
structure OfMessage (data : SendMessageJob) (row : MessageLog) : Prop where
  workspace : data.workspaceId = some row.workspaceId
  session : row.sessionId = some data.sessionId
  recipient : row.toPhone = some data.toPhone

/-- **A job of the message queue is complete.** -/
theorem send_tally {data : SendMessageJob} {trace : List Exchange} (course : SendCourse data trace)
    (logging : Logging trace) : Tally (OfMessage data) false trace := by
  cases course with
  | unprepared quiet => exact tally_mute quiet
  | rejected quiet call error failure reply answers =>
    refine tally_after quiet (tally_empty rfl ?_)
    have unlogged := failure_unlogged answers rfl
    rw [List.filterMap_cons_none rfl, List.filterMap_cons_none unlogged, List.filterMap_nil]
  | unrecorded quiet call response error failure reply answers =>
    have wrong := logging ⟨recordCall (rowOf data .sent (messageId response) none), .error error⟩
      (by simp)
    cases wrong
  | recorded quiet call sends response row records event reply =>
    have sent := sent_recorded records rfl rfl
    have called := sends row.workspaceId records.workspace
    have session : row.sessionId = some call.session.id := by
      rw [records.session, called.session]
      rfl
    have own : OfMessage data row := ⟨records.workspace, records.session, records.toPhone⟩
    have fits : Fits call row :=
      ⟨⟨data.toPhone, records.toPhone, called.chat⟩, called.workspace.symm, session⟩
    refine tally_after quiet (tally_pair rfl ?_ fits own)
    rw [List.filterMap_cons_none rfl, List.filterMap_cons_some sent]
    rfl

/-- A recipient fails to be saved as sent. -/
def unsaved : Exchange → Bool
  | ⟨.save .recipients entity, .error _⟩ => entity.row.status == .sent
  | _ => false

/-- The row of a broadcast. -/
structure OfBroadcast (broadcast : Broadcast) (row : MessageLog) : Prop where
  workspace : row.workspaceId = broadcast.workspaceId
  session : row.sessionId = some broadcast.sessionId
  broadcast : row.broadcastId = some broadcast.id

/-- The run goes through the broadcast's session, with the credentials of its workspace. -/
structure RunsFor (ctx : BroadcastProcessor.Context) (broadcast : Broadcast) : Prop where
  workspace : ctx.creds.workspaceId = broadcast.workspaceId
  session : ctx.session.id = broadcast.sessionId

theorem mute_saved {trace : List Exchange} (quiet : Mute trace) : trace.any unsaved = false := by
  rw [List.any_eq_false]
  intro exchange member
  have calm := quiet exchange member
  obtain ⟨request, reply⟩ := exchange
  cases request with
  | save table entity => cases calm
  | _ => exact Bool.false_ne_true

theorem unsaved_failed {recipient : BroadcastRecipient} {failure : String}
    {reply : Except Err Unit} :
    unsaved ⟨saveRecipient (BroadcastProcessor.recipientFailed recipient failure), reply⟩ =
      false := by
  cases reply <;> rfl

theorem unsaved_broadcast {broadcast : Broadcast} {reply : Except Err Unit} :
    unsaved ⟨saveBroadcast broadcast, reply⟩ = false := by
  cases reply <;> rfl

/-- **A recipient loses a row when it is not saved as sent.** -/
theorem deliver_tally {ctx : BroadcastProcessor.Context} {broadcast : Broadcast}
    {recipient : BroadcastRecipient} {trace : List Exchange} {result : Except Err Broadcast}
    (course : DeliverCourse ctx broadcast recipient trace result) (runs : RunsFor ctx broadcast)
    (logging : Logging trace) : Tally (OfBroadcast broadcast) (trace.any unsaved) trace := by
  cases course with
  | rejected call error failure reply result counts =>
    have kept : ([⟨.openwa call, .error error⟩,
        ⟨saveRecipient (BroadcastProcessor.recipientFailed recipient failure), reply⟩] :
          List Exchange).any unsaved = false := by
      rw [List.any_cons, List.any_cons, unsaved_failed]
      rfl
    rw [kept]
    exact tally_empty rfl rfl
  | unsaved call response now error failure reply result counts => exact tally_lost rfl rfl
  | logged call sends response now message reply answers =>
    obtain ⟨row, rfl⟩ := logging_ok (logging ⟨recordCall (BroadcastProcessor.logRow ctx broadcast
      recipient message response), reply⟩ (by simp))
    have records := answers row rfl
    have sent := sent_recorded records rfl rfl
    have workspace : row.workspaceId = broadcast.workspaceId :=
      (Option.some.inj records.workspace).symm
    have session : row.sessionId = some ctx.session.id := records.session
    have own : OfBroadcast broadcast row := by
      refine ⟨workspace, ?_, records.broadcast⟩
      rw [session, runs.session]
    have fits : Fits call row := by
      refine ⟨⟨recipient.phone, records.toPhone, sends.chat⟩, ?_, ?_⟩
      · rw [workspace, sends.workspace, runs.workspace]
      · rw [session, sends.session]
    refine tally_pair rfl ?_ fits own
    rw [List.filterMap_cons_none rfl, List.filterMap_cons_none rfl, List.filterMap_cons_some sent]
    rfl

/-- The broadcast a run goes on with is the same. -/
theorem runs_next {ctx : BroadcastProcessor.Context} {broadcast next : Broadcast}
    {recipient : BroadcastRecipient} {trace : List Exchange}
    (course : DeliverCourse ctx broadcast recipient trace (.ok next))
    (runs : RunsFor ctx broadcast) :
    RunsFor ctx next ∧ ∀ row, OfBroadcast next row → OfBroadcast broadcast row := by
  have same : next = { broadcast with failedCount := broadcast.failedCount + 1 } ∨
      next = { broadcast with sentCount := broadcast.sentCount + 1 } := by
    cases course with
    | rejected _ _ _ _ _ counts => exact .inl (counts next rfl)
    | unsaved _ _ _ _ _ _ _ counts => exact .inl (counts next rfl)
    | logged => exact .inr rfl
  obtain rfl | rfl := same
  · exact ⟨⟨runs.workspace, runs.session⟩, fun row own => ⟨own.workspace, own.session,
      own.broadcast⟩⟩
  · exact ⟨⟨runs.workspace, runs.session⟩, fun row own => ⟨own.workspace, own.session,
      own.broadcast⟩⟩

/-- **The loop loses a row when a recipient does**, by induction on its course. -/
theorem loop_tally {ctx : BroadcastProcessor.Context} {broadcast : Broadcast}
    {trace : List Exchange}
    (course : LoopCourse ctx broadcast trace) (runs : RunsFor ctx broadcast)
    (logging : Logging trace) : Tally (OfBroadcast broadcast) (trace.any unsaved) trace := by
  induction course with
  | quiet broadcast quiet =>
    rw [mute_saved quiet]
    exact tally_mute quiet
  | finished broadcast now reply =>
    rw [List.any_cons, unsaved_broadcast]
    exact tally_empty rfl rfl
  | failed broadcast quiet recipient error delivers =>
    rw [List.any_append, mute_saved quiet]
    obtain ⟨_, logging⟩ := List.forall_mem_append.mp logging
    exact tally_after quiet (deliver_tally delivers runs logging)
  | next broadcast next quiet recipient delivers reply pauses rest calm later ih =>
    simp only [Logging, List.forall_mem_append, List.forall_mem_cons] at logging
    obtain ⟨_, delivering, _, _, resting⟩ := logging
    obtain ⟨goes, same⟩ := runs_next delivers runs
    simp only [List.any_append, List.any_cons, mute_saved quiet, mute_saved calm, Bool.false_or]
    refine tally_after quiet (tally_append (deliver_tally delivers runs delivering) ?_)
    have saved : Tally (OfBroadcast broadcast) false [⟨saveBroadcast next, reply⟩] :=
      tally_empty rfl rfl
    exact tally_append saved (tally_after calm (tally_mono same (ih goes resting)))

/-- The broadcast a run finds. -/
def Finds (trace : List Exchange) (broadcast : Broadcast) : Prop :=
  ∃ matching rows, ⟨.find .broadcasts matching, .ok rows⟩ ∈ trace ∧ rows.head? = some broadcast

/-- The row of a broadcast a run of the job finds. -/
def OfBroadcastJob (data : BroadcastJob) (trace : List Exchange) (row : MessageLog) : Prop :=
  ∃ broadcast, Finds trace broadcast ∧ broadcast.id = data.broadcastId ∧ OfBroadcast broadcast row

/-- **A broadcast loses a row when a recipient is not saved as sent.** -/
theorem broadcast_tally {data : BroadcastJob} {trace : List Exchange}
    (course : BroadcastCourse data trace) (logging : Logging trace) :
    Tally (OfBroadcastJob data trace) (trace.any unsaved) trace := by
  have found_any (matching : Broadcast → Bool) (reply : Except Err (List Broadcast)) :
      unsaved ⟨.find .broadcasts matching, reply⟩ = false := by
    cases reply <;> rfl
  have found_tally {own : MessageLog → Prop} {lost : Bool} (matching : Broadcast → Bool)
      (reply : Except Err (List Broadcast)) {rest : List Exchange} (tally : Tally own lost rest) :
      Tally own lost (⟨.find .broadcasts matching, reply⟩ :: rest) := by
    have alone : Tally own false [⟨.find .broadcasts matching, reply⟩] := tally_empty rfl rfl
    have both := tally_append alone tally
    rw [Bool.false_or] at both
    exact both
  cases course with
  | skipped matching reply =>
    rw [List.any_cons, found_any]
    exact tally_empty rfl rfl
  | unprepared matching rows quiet =>
    rw [List.any_cons, found_any, mute_saved quiet]
    exact found_tally matching _ (tally_mute quiet)
  | begun matching rows broadcast first named quiet ctx session workspace now reply more rest calm
      later =>
    simp only [Logging, List.forall_mem_append, List.forall_mem_cons] at logging
    obtain ⟨_, _, _, _, resting⟩ := logging
    have looped := loop_tally later ⟨workspace, session⟩ resting
    have saved : Tally (OfBroadcast broadcast) false
        [⟨saveBroadcast { broadcast with status := .sending, startedAt := some now }, reply⟩] :=
      tally_empty rfl rfl
    have same (row : MessageLog) (own : OfBroadcast { broadcast with
        status := .sending, startedAt := some now } row) : OfBroadcast broadcast row :=
      ⟨own.workspace, own.session, own.broadcast⟩
    have whole := found_tally matching (.ok rows) (tally_after quiet
      (tally_append saved (tally_after calm (tally_mono same looped))))
    rw [Bool.false_or] at whole
    simp only [List.any_append, List.any_cons, found_any, mute_saved quiet, mute_saved calm,
      Bool.false_or]
    refine tally_mono (fun row own => ⟨broadcast, ⟨matching, rows, ?_, first⟩, named, own⟩) whole
    exact List.mem_cons_self

/-- The row of a job of an automation. -/
structure OfAutomation (data : AutomationJob) (row : MessageLog) : Prop where
  workspace : row.workspaceId = data.workspaceId
  automation : row.automationId = some data.automationId

/-- The context a run of the job makes. -/
structure MadeFor (ctx : ActionRunContext) (data : AutomationJob) : Prop where
  workspace : ctx.workspaceId = data.workspaceId
  automation : ctx.automationId = data.automationId
  creds : ctx.creds.workspaceId = data.workspaceId

/-- **A forward action loses the row of its message.** -/
theorem action_tally {h : Helpers} {ctx : ActionRunContext} {action : AutomationAction}
    {data : AutomationJob} (made : MadeFor ctx data) {trace : List Exchange}
    (course : ActionCourse h ctx action trace) (logging : Logging trace) :
    Tally (OfAutomation data) (trace.any fun exchange =>
      accepted exchange && action.actionType == .forward) trace := by
  have unaccepted {pauses : List Exchange} (quiet : Mute pauses) :
      (pauses.any fun exchange => accepted exchange && action.actionType == .forward) = false := by
    rw [List.any_eq_false]
    intro exchange member
    have calm := quiet exchange member
    obtain ⟨request, reply⟩ := exchange
    cases request with
    | openwa call => cases calm
    | _ => exact Bool.false_ne_true
  cases course with
  | quiet quiet =>
    rw [unaccepted quiet]
    exact tally_mute quiet
  | rejected quiet call error =>
    rw [List.any_append, unaccepted quiet]
    exact tally_after quiet (tally_empty rfl rfl)
  | logged quiet kind phone addressed call sends response type content reply answers =>
    obtain ⟨row, rfl⟩ :=
      logging_ok (logging ⟨recordCall (logOf h ctx type content), reply⟩ (by simp))
    have records := answers row rfl
    have sent := sent_recorded records rfl rfl
    have workspace : row.workspaceId = ctx.workspaceId := (Option.some.inj records.workspace).symm
    have own : OfAutomation data row := by
      refine ⟨workspace.trans made.workspace, ?_⟩
      rw [records.automation, ← made.automation]
    have fits : Fits call row := by
      refine ⟨⟨phone, ?_, sends.chat⟩, ?_, ?_⟩
      · rw [records.toPhone]
        unfold logOf
        rw [addressed]
        rfl
      · rw [workspace, sends.workspace, made.workspace, made.creds]
      · rw [records.session, sends.session]
    have other : (action.actionType == .forward) = false := by simp [kind]
    rw [List.any_append, unaccepted quiet, other]
    refine tally_after quiet (tally_pair rfl ?_ fits own)
    rw [List.filterMap_cons_none rfl, List.filterMap_cons_some sent]
    rfl
  | forwarded quiet kind call response =>
    rw [List.any_append, unaccepted quiet, kind]
    exact tally_after quiet (tally_lost rfl rfl)

/-! ### A run of an automation -/

open Retries (turns tagged prepare proceeded)

/-- A message of a forward action is accepted. -/
def forwards (sorted : List AutomationAction) (entry : Option Nat × Exchange) : Bool :=
  accepted entry.2 &&
    ((entry.1.bind fun index => sorted[index]?).any fun action => action.actionType == .forward)

/-- What a trace with the indices of the actions does to the correspondence. -/
def Tallied (data : AutomationJob) (sorted : List AutomationAction)
    (entries : List (Option Nat × Exchange)) : Prop :=
  Logging (entries.map Prod.snd) →
    Tally (OfAutomation data) (entries.any (forwards sorted)) (entries.map Prod.snd)

section Runs

variable {h : Helpers} {data : AutomationJob} {sorted : List AutomationAction}

theorem tallied_append {own later : List (Option Nat × Exchange)}
    (first : Tallied data sorted own) (second : Tallied data sorted later) :
    Tallied data sorted (own ++ later) := by
  intro logging
  rw [List.map_append] at logging ⊢
  rw [List.any_append]
  obtain ⟨here, there⟩ := List.forall_mem_append.mp logging
  exact tally_append (first here) (second there)

theorem tallied_nil : Tallied data sorted [] := fun _ => tally_empty rfl rfl

/-- Exchanges that belong to no action, and are neither messages nor records. -/
theorem tallied_none {trace : List Exchange} (calls : trace.filterMap acceptedCall = [])
    (rows : trace.filterMap sentRow = []) : Tallied data sorted (trace.map (Prod.mk none)) := by
  intro _
  have kept : (trace.map (Prod.mk none)).any (forwards sorted) = false := by
    simp [List.any_map, forwards, Function.comp_def]
  rw [kept, List.map_map]
  have same : trace.map (Prod.snd ∘ Prod.mk (none : Option Nat)) = trace := List.map_id _
  rw [same]
  exact tally_empty calls rows

/-- **The turns lose the rows of the forward actions.** -/
theorem turns_tallied {ctx : ActionRunContext} (made : MadeFor ctx data) (steps index : Nat)
    (tape : Program.Tape Input) (stores : Nat → Store) :
    Tallied data sorted ((turns h sorted ctx steps index tape stores).map (Prod.map some id)) := by
  refine Retries.turns_parts (fun entries => Tallied data sorted (entries.map (Prod.map some id)))
    tallied_nil (fun own later first second => ?_)
    (fun index action tape stores here => ?_) steps index tape stores
  · rw [List.map_append]
    exact tallied_append first second
  · have course := found_traces (execute_acts h ctx action) tape stores
    intro logging
    simp only [List.map_map, Function.comp_def, Prod.map_apply, id_eq, List.map_id'] at logging ⊢
    have same : (((ActionEngine.execute h action ctx).exchanges (Program.found exec) tape
        stores).map fun exchange => (some index, exchange)).any (forwards sorted) =
        ((ActionEngine.execute h action ctx).exchanges (Program.found exec) tape stores).any
          fun exchange => accepted exchange && action.actionType == .forward := by
      simp [List.any_map, forwards, Function.comp_def, here]
    rw [same]
    exact action_tally made course logging

/-- The context of a run is made for its job. -/
theorem prepare_made (h : Helpers) (data : AutomationJob) :
    (prepare h data).Traces Possible fun _ result =>
      ∀ loaded, result = .ok (some loaded) → MadeFor loaded.2 data := by
  refine Program.traces_bind (Program.traces_perform fun reply _ => ?_)
  cases reply with
  | error error => exact fun _ wrong => (by cases wrong)
  | ok rows =>
    dsimp only
    cases rows.head? with
    | none => exact fun _ wrong => (by cases wrong)
    | some found =>
      dsimp only
      cases sessionOf found.1 data.context with
      | none => exact fun _ wrong => (by cases wrong)
      | some dbSessionId =>
        have goes (session : Session) : (WorkspacesService.getOpenwaCredentials h
            (some data.workspaceId) >>= fun creds => (pure (some (found.2,
              ⟨data.workspaceId, session.id, session.sessionId, creds,
                Retries.recipient data.context, data.automationId, data.context⟩)) :
                  Svc (Option (List AutomationAction × ActionRunContext)))).Traces Possible
              fun _ result => ∀ loaded, result = .ok (some loaded) → MadeFor loaded.2 data := by
          refine Program.traces_bind (getOpenwaCredentials_traces fun _ creds _ own => ?_)
          cases creds with
          | error error => exact fun _ wrong => (by cases wrong)
          | ok creds =>
            intro loaded same
            cases same
            exact ⟨rfl, rfl, own creds rfl _ rfl⟩
        cases dbSessionId with
        | str id =>
          refine Program.traces_bind (getById_traces fun _ session _ _ => ?_)
          cases session with
          | error error => exact fun _ wrong => (by cases wrong)
          | ok session => exact goes session
        | _ => exact fun _ wrong => (by cases wrong)

theorem prepare_unlogged (tape : Program.Tape Input) (stores : Nat → Store) :
    ((prepare h data).exchanges (Program.found exec) tape stores).filterMap acceptedCall = [] ∧
      ((prepare h data).exchanges (Program.found exec) tape stores).filterMap sentRow = [] := by
  have none : ∀ exchange ∈ (prepare h data).exchanges (Program.found exec) tape stores,
      acceptedCall exchange = none ∧ sentRow exchange = none := by
    intro exchange member
    have reads := Program.exchanges_calls Retries.prepare_calls exchange member
    obtain ⟨request, reply⟩ := exchange
    cases request with
    | openwa call => cases reads
    | insert table draft => cases reads
    | _ => exact ⟨rfl, rfl⟩
  exact ⟨List.filterMap_eq_nil_iff.mpr fun exchange member => (none exchange member).1,
    List.filterMap_eq_nil_iff.mpr fun exchange member => (none exchange member).2⟩

theorem markRun_mute (id : Uuid) :
    (AutomationsService.markRun id).Calls fun call => mute call = true :=
  Program.calls_bind (calls_call rfl) fun _ => Program.calls_bind calls_now fun _ => calls_call rfl

/-- **A run of an automation loses the rows of the forward actions.** -/
theorem tagged_tallied (attempt : JobAttempt) :
    Tallied data (ActionEngine.sorted ((attempt.stores 0).actionsOf data.automationId))
      (tagged h data attempt) := by
  obtain ⟨calls, rows⟩ := prepare_unlogged attempt.tape attempt.stores
  have made := found_traces (prepare_made h data) attempt.tape attempt.stores
  unfold tagged
  refine tallied_append (tallied_none calls rows) ?_
  cases ran : (prepare h data).run (Program.found exec) attempt.tape attempt.stores with
  | mk result rest =>
    cases result with
    | error error => exact tallied_nil
    | ok loaded =>
      cases loaded with
      | none => exact tallied_nil
      | some loaded =>
        obtain ⟨_, same, _⟩ := Retries.prepare_run attempt.tape attempt.stores
          (congrArg Prod.fst ran)
        rw [← same]
        obtain ⟨actions, ctx⟩ := loaded
        unfold proceeded
        refine tallied_append (turns_tallied (made _ (congrArg Prod.fst ran)) _ 0 _ _) ?_
        split
        case h_1 tape stores _ =>
          have quiet : Mute ((AutomationsService.markRun data.automationId).exchanges
              (Program.found exec) tape stores) :=
            Program.exchanges_calls (markRun_mute data.automationId)
          exact tallied_none (mute_calls quiet) (mute_rows quiet)
        case h_2 => exact tallied_nil

end Runs

/-! ### All attempts -/

/-- The exchanges of all attempts of a job. -/
def jobTrace {α : Type} (program : Svc α) (attempts : List JobAttempt) : List Exchange :=
  (made (JobAttempt.fails program) attempts).flatMap (JobAttempt.exchanged program)

/-- In the attempt, a message of a forward action is accepted. -/
def forwarded (h : Helpers) (data : AutomationJob) (attempt : JobAttempt) : Bool :=
  (tagged h data attempt).any
    (forwards (ActionEngine.sorted ((attempt.stores 0).actionsOf data.automationId)))

section Jobs

variable {α : Type} {program : Svc α} {attempts : List JobAttempt}

theorem logging_attempt (logging : Logging (jobTrace program attempts)) {attempt : JobAttempt}
    (member : attempt ∈ made (JobAttempt.fails program) attempts) :
    Logging (attempt.exchanged program) :=
  fun exchange there => logging exchange (List.mem_flatMap.mpr ⟨attempt, member, there⟩)

/-- **A job loses a row when an attempt does.** -/
theorem job_tally (own : MessageLog → Prop) (loses : JobAttempt → Bool)
    (logging : Logging (jobTrace program attempts))
    (each : ∀ attempt ∈ made (JobAttempt.fails program) attempts,
      Logging (attempt.exchanged program) →
        Tally own (loses attempt) (attempt.exchanged program)) :
    Complete own (jobTrace program attempts) ↔
      ∀ attempt ∈ made (JobAttempt.fails program) attempts, loses attempt = false := by
  have tally : Tally own _ (jobTrace program attempts) :=
    tally_flatMap fun attempt member => each attempt member (logging_attempt logging member)
  rw [tally_complete tally, List.any_eq_false]
  simp only [Bool.not_eq_true]

variable {h : Helpers}

theorem message_complete {data : SendMessageJob}
    (logging : Logging (jobTrace (MessageProcessor.process h data) attempts)) :
    Complete (OfMessage data) (jobTrace (MessageProcessor.process h data) attempts) := by
  refine (job_tally (OfMessage data) (fun _ => false) logging fun attempt _ here => ?_).mpr
    fun _ _ => rfl
  exact send_tally (found_traces (process_sends h data) attempt.tape attempt.stores) here

theorem broadcast_complete {data : BroadcastJob}
    (logging : Logging (jobTrace (BroadcastProcessor.process h data) attempts)) :
    Complete (OfBroadcastJob data (jobTrace (BroadcastProcessor.process h data) attempts))
        (jobTrace (BroadcastProcessor.process h data) attempts) ↔
      ∀ exchange ∈ jobTrace (BroadcastProcessor.process h data) attempts,
        unsaved exchange = false := by
  rw [job_tally _ (fun attempt => (attempt.exchanged (BroadcastProcessor.process h data)).any
    unsaved)
    logging]
  · simp only [List.any_eq_false, Bool.not_eq_true, jobTrace, List.forall_mem_flatMap]
  · intro attempt member here
    have tally := broadcast_tally
      (found_traces (process_broadcasts h data) attempt.tape attempt.stores) here
    refine tally_mono (fun row own => ?_) tally
    obtain ⟨broadcast, ⟨matching, rows, found, first⟩, named, own⟩ := own
    refine ⟨broadcast, ⟨matching, rows, ?_, first⟩, named, own⟩
    exact List.mem_flatMap.mpr ⟨attempt, member, found⟩

theorem automation_complete {data : AutomationJob}
    (logging : Logging (jobTrace (AutomationProcessor.process h data) attempts)) :
    Complete (OfAutomation data) (jobTrace (AutomationProcessor.process h data) attempts) ↔
      ∀ attempt ∈ made (JobAttempt.fails (AutomationProcessor.process h data)) attempts,
        forwarded h data attempt = false := by
  refine job_tally (OfAutomation data) (forwarded h data) logging fun attempt _ here => ?_
  have tallied : Tallied data _ (tagged h data attempt) := tagged_tallied attempt
  unfold Tallied at tallied
  rw [Retries.tagged_exchanged] at tallied
  exact tallied here

end Jobs

/-- **The log of the outbound messages**, when no write of it fails: complete for the message queue,
for a broadcast as long as every accepted message's recipient is saved as sent, and for an
automation as long as no message is forwarded. -/
theorem log_complete (h : Helpers) :
    (∀ (data : SendMessageJob) (attempts : List JobAttempt),
      Logging (jobTrace (MessageProcessor.process h data) attempts) →
        Complete (OfMessage data) (jobTrace (MessageProcessor.process h data) attempts)) ∧
    (∀ (data : BroadcastJob) (attempts : List JobAttempt),
      Logging (jobTrace (BroadcastProcessor.process h data) attempts) →
        (Complete (OfBroadcastJob data (jobTrace (BroadcastProcessor.process h data) attempts))
            (jobTrace (BroadcastProcessor.process h data) attempts) ↔
          ∀ exchange ∈ jobTrace (BroadcastProcessor.process h data) attempts,
            unsaved exchange = false)) ∧
    ∀ (data : AutomationJob) (attempts : List JobAttempt),
      Logging (jobTrace (AutomationProcessor.process h data) attempts) →
        (Complete (OfAutomation data) (jobTrace (AutomationProcessor.process h data) attempts) ↔
          ∀ attempt ∈ made (JobAttempt.fails (AutomationProcessor.process h data)) attempts,
            forwarded h data attempt = false) := by
  refine ⟨fun data attempts => ?_, fun data attempts => ?_, fun data attempts => ?_⟩
  · exact message_complete
  · exact broadcast_complete
  · exact automation_complete

namespace Example

/-- A workspace with a session, an automation with one action, and a broadcast with one
recipient. -/
def filled (action : AutomationAction) : Store :=
  { start with
    db := fun
      | .automations => [⟨"a", "w", some "s", "welcome", none, true, .message, [], 0, none⟩]
      | .actions => [action]
      | .broadcasts =>
          [⟨"b", "w", "s", "news", "hello", .queued, 3000, 1, 0, 0, none, none, none, 0⟩]
      | .recipients => [⟨"r", "b", "628123456789", [], .pending, none, none⟩]
      | table => start.db table }

/-- A message that is sent to whom the automation is about. -/
def replies : AutomationAction := ⟨"1", "a", 1, .sendText, [("message", .str "hello")]⟩

/-- A message that is forwarded to the office. -/
def forwardsOn : AutomationAction :=
  ⟨"1", "a", 1, .forward, [("to", .str "628111111111"), ("message", .str "hello")]⟩

def automationJob : AutomationJob := ⟨"a", "w", [("from", .str "628123456789")]⟩

/-- An attempt in which nothing fails and nothing else happens. -/
def alone (action : AutomationAction) : JobAttempt :=
  ⟨tape WaAutomation.Example.fine, fun _ => filled action⟩

/-- The broadcast and its recipients are removed while the message is sent. -/
def removed : JobAttempt :=
  ⟨tape WaAutomation.Example.fine, fun call =>
    if call < 7 then filled replies
    else
      { filled replies with
        db := fun
          | .broadcasts => []
          | .recipients => []
          | table => (filled replies).db table }⟩

end Example

/-- A broadcast and an automation whose messages are all recorded. -/
theorem log_complete_example :
    Complete (OfMessage (Example.job "628123456789")) (jobTrace
      (MessageProcessor.process WaAutomation.Example.helpers (Example.job "628123456789"))
      Example.attempts) ∧
    Complete (OfBroadcastJob ⟨"b"⟩ (jobTrace
        (BroadcastProcessor.process WaAutomation.Example.helpers ⟨"b"⟩)
        [Example.alone Example.replies]))
      (jobTrace (BroadcastProcessor.process WaAutomation.Example.helpers ⟨"b"⟩)
        [Example.alone Example.replies]) ∧
    Complete (OfAutomation Example.automationJob) (jobTrace
      (AutomationProcessor.process WaAutomation.Example.helpers Example.automationJob)
      [Example.alone Example.replies]) := by
  obtain ⟨message, broadcast, automation⟩ := log_complete WaAutomation.Example.helpers
  refine ⟨message _ _ ?_, (broadcast _ _ ?_).mpr ?_, (automation _ _ ?_).mpr ?_⟩
  · decide +kernel
  · decide +kernel
  · decide +kernel
  · decide +kernel
  · decide +kernel

/-- **A message without a row**: the message of a forward action is accepted, and nothing records
it. -/
theorem forward_unlogged :
    Logging (jobTrace
      (AutomationProcessor.process WaAutomation.Example.helpers Example.automationJob)
      [Example.alone Example.forwardsOn]) ∧
    ¬Complete (OfAutomation Example.automationJob) (jobTrace
      (AutomationProcessor.process WaAutomation.Example.helpers Example.automationJob)
      [Example.alone Example.forwardsOn]) := by
  refine ⟨by decide +kernel, fun complete => ?_⟩
  exact absurd (List.Forall₂.length_eq complete) (by decide +kernel)

/-- And so when a broadcast is removed while its message is sent: its recipient cannot be saved. -/
theorem removed_unlogged :
    Logging (jobTrace (BroadcastProcessor.process WaAutomation.Example.helpers ⟨"b"⟩)
      [Example.removed]) ∧
    ¬Complete (OfBroadcastJob ⟨"b"⟩ (jobTrace
        (BroadcastProcessor.process WaAutomation.Example.helpers ⟨"b"⟩) [Example.removed]))
      (jobTrace (BroadcastProcessor.process WaAutomation.Example.helpers ⟨"b"⟩)
        [Example.removed]) := by
  refine ⟨by decide +kernel, fun complete => ?_⟩
  exact absurd (List.Forall₂.length_eq complete) (by decide +kernel)

end WaAutomation.Messages
