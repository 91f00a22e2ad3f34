/-
**What is marked as sent.**

A recipient is set to sent, the counter of the sent messages is raised, or a log row says that a
message is sent. Each of these marks is for the last message that was tried, and comes only after
OpenWA answered that message with a 2xx status. The envelope of the answer is not looked at: one
that carries a failure counts as an acceptance.

* a `Watch` is what an observer of a trace keeps, and `Backed` says that every mark it meets has an
  answer of a kind behind it;
* `backed_append` puts traces together, and `send_backed`, `loop_backed` and `action_backed` go
  through the courses of the three processors;
* `sent_backed` is about all attempts of a job, and `failure_marked` are jobs that take a failure in
  an envelope for an acceptance.
-/

import WaAutomation.Messages.Log

set_option linter.unusedSectionVars false

namespace WaAutomation.Messages

open Library

/-! ### Watching a trace -/

/-- What an observer keeps: the envelope of the last OpenWA call, when the call did not throw, and
the number of sent messages the broadcast was last loaded or saved with. -/
structure Watch where
  envelope : Option OpenwaResponse
  sentCount : Option Nat

namespace Watch

/-- Nothing was called or loaded yet. -/
def start : Watch := ⟨none, none⟩

def next (watch : Watch) : Exchange → Watch
  | ⟨.openwa _, reply⟩ => { watch with envelope := reply.toOption }
  | ⟨.find .broadcasts _, .ok rows⟩ =>
      { watch with sentCount := rows.head?.map Broadcast.sentCount }
  | ⟨.save .broadcasts entity, _⟩ => { watch with sentCount := some entity.row.sentCount }
  | _ => watch

/-- What the observer keeps after a trace. -/
def after (watch : Watch) (trace : List Exchange) : Watch := trace.foldl next watch

/-- The exchange sets a recipient to sent, raises the number of sent messages, or writes a log row
with the status sent. -/
def Marks (watch : Watch) : Exchange → Prop
  | ⟨.save .recipients entity, _⟩ => entity.row.status = .sent
  | ⟨.save .broadcasts entity, _⟩ => watch.sentCount.getD 0 < entity.row.sentCount
  | ⟨.insert .logs draft, _⟩ => ∃ make input, draft = some make ∧ (make input).status = .sent
  | _ => False

/-- The last OpenWA call did not throw, and its envelope is of the kind. -/
def Answered (good : OpenwaResponse → Prop) (watch : Watch) : Prop :=
  ∃ envelope, watch.envelope = some envelope ∧ good envelope

end Watch

/-- Every mark of the trace comes after a call with an envelope of the kind. -/
def Backed (good : OpenwaResponse → Prop) : Watch → List Exchange → Prop
  | _, [] => True
  | watch, exchange :: trace =>
      (watch.Marks exchange → watch.Answered good) ∧ Backed good (watch.next exchange) trace

/-- An envelope that does not carry a failure. -/
def Succeeded (envelope : OpenwaResponse) : Prop := envelope.success ≠ some false

/-- Any envelope. -/
abbrev Any (_ : OpenwaResponse) : Prop := True

section Traces

variable {good : OpenwaResponse → Prop} {watch : Watch} {trace trace' : List Exchange}

theorem backed_append : ∀ {watch : Watch}, Backed good watch (trace ++ trace') ↔
    Backed good watch trace ∧ Backed good (watch.after trace) trace' := by
  induction trace with
  | nil => exact ⟨fun backed => ⟨trivial, backed⟩, fun backed => backed.2⟩
  | cons exchange trace ih =>
    intro watch
    show _ ∧ Backed good (watch.next exchange) (trace ++ trace') ↔ (_ ∧ _) ∧ _
    rw [ih, and_assoc]
    exact Iff.rfl

/-- Traces that are backed wherever they begin. -/
theorem backed_flatMap {α : Type} {parts : List α} {trace : α → List Exchange}
    (each : ∀ part ∈ parts, ∀ watch, Backed good watch (trace part)) :
    ∀ watch, Backed good watch (parts.flatMap trace) := by
  induction parts with
  | nil => exact fun _ => trivial
  | cons part parts ih =>
    intro watch
    obtain ⟨here, later⟩ := List.forall_mem_cons.mp each
    rw [List.flatMap_cons, backed_append]
    exact ⟨here watch, ih later _⟩

/-- An exchange that neither marks nor moves what is kept. -/
theorem mute_next (watch : Watch) {exchange : Exchange} (quiet : mute exchange.request = true) :
    ¬watch.Marks exchange ∧ watch.next exchange = watch := by
  obtain ⟨request, reply⟩ := exchange
  cases request with
  | find table matching =>
    cases table with
    | broadcasts => cases quiet
    | _ => exact ⟨fun wrong => wrong, rfl⟩
  | insert table draft => cases quiet
  | save table entity => cases quiet
  | openwa call => cases quiet
  | _ => exact ⟨fun wrong => wrong, rfl⟩

theorem backed_mute (good : OpenwaResponse → Prop) (watch : Watch) (quiet : Mute trace) :
    Backed good watch trace ∧ watch.after trace = watch := by
  induction trace with
  | nil => exact ⟨trivial, rfl⟩
  | cons exchange trace ih =>
    obtain ⟨here, later⟩ := List.forall_mem_cons.mp quiet
    obtain ⟨unmarked, same⟩ := mute_next watch here
    obtain ⟨backed, kept⟩ := ih later
    refine ⟨⟨fun marks => absurd marks unmarked, ?_⟩, ?_⟩
    · rw [same]
      exact backed
    · show (watch.next exchange).after trace = watch
      rw [same]
      exact kept

/-- Quiet exchanges first. -/
theorem backed_after (quiet : Mute trace) (backed : Backed good watch trace') :
    Backed good watch (trace ++ trace') := by
  obtain ⟨first, same⟩ := backed_mute good watch quiet
  rw [backed_append, same]
  exact ⟨first, backed⟩

/-- The record of a failure is no mark. -/
theorem failure_unmarked {record : MessageRecord} {reply : Except Err MessageLog}
    (failed : record.status = .failed) : ¬watch.Marks ⟨recordCall record, reply⟩ := by
  rintro ⟨make, input, same, sent⟩
  obtain ⟨workspaceId, _, rfl⟩ := Option.map_eq_some_iff.mp same
  cases failed.symm.trans sent

end Traces

/-! ### The three processors -/

/-- **A job of the message queue.** -/
theorem send_backed {data : SendMessageJob} {trace : List Exchange} (course : SendCourse data trace)
    (watch : Watch) : Backed Any watch trace := by
  cases course with
  | unprepared quiet => exact (backed_mute Any watch quiet).1
  | rejected quiet call error failure reply answers =>
    refine backed_after quiet ⟨False.elim, fun marks => ?_, trivial⟩
    exact absurd marks (failure_unmarked rfl)
  | unrecorded quiet call response error failure reply answers =>
    refine backed_after quiet ⟨False.elim, fun _ => ⟨response, rfl, trivial⟩,
      fun marks => ?_, trivial⟩
    exact absurd marks (failure_unmarked rfl)
  | recorded quiet call sends response row records event reply =>
    exact backed_after quiet ⟨False.elim, fun _ => ⟨response, rfl, trivial⟩, False.elim, trivial⟩

/-- **A message to a recipient**: what it leaves of the broadcast has a greater number of sent
messages only if the message was answered. -/
theorem deliver_backed {ctx : BroadcastProcessor.Context} {broadcast : Broadcast}
    {recipient : BroadcastRecipient} {trace : List Exchange} {result : Except Err Broadcast}
    (course : DeliverCourse ctx broadcast recipient trace result) (watch : Watch) :
    Backed Any watch trace ∧ (watch.after trace).sentCount = watch.sentCount ∧
      ∀ next, result = .ok next → broadcast.sentCount < next.sentCount →
        (watch.after trace).Answered Any := by
  have same {next : Broadcast} (counts : next =
      { broadcast with failedCount := broadcast.failedCount + 1 }) :
      ¬broadcast.sentCount < next.sentCount := by
    rw [counts]
    exact Nat.lt_irrefl _
  cases course with
  | rejected call error failure reply result counts =>
    have unmarked : ¬(watch.next ⟨.openwa call, .error error⟩).Marks
        ⟨saveRecipient (BroadcastProcessor.recipientFailed recipient failure), reply⟩ :=
      fun wrong => (by cases wrong)
    refine ⟨⟨False.elim, fun marks => absurd marks unmarked, trivial⟩, rfl, fun next is more => ?_⟩
    exact absurd more (same (counts next is))
  | unsaved call response now error failure reply result counts =>
    refine ⟨⟨False.elim, fun _ => ⟨response, rfl, trivial⟩, fun marks => (by cases marks), trivial⟩,
      rfl, fun next is more => ?_⟩
    exact absurd more (same (counts next is))
  | logged call sends response now message reply answers =>
    have answered : (⟨some response, watch.sentCount⟩ : Watch).Answered Any :=
      ⟨response, rfl, trivial⟩
    exact ⟨⟨False.elim, fun _ => answered, fun _ => answered, trivial⟩, rfl, fun _ _ _ => answered⟩

/-- **The loop over the recipients**, by induction on its course: it begins with the number of sent
messages the broadcast was last loaded or saved with. -/
theorem loop_backed {ctx : BroadcastProcessor.Context} {broadcast : Broadcast}
    {trace : List Exchange}
    (course : LoopCourse ctx broadcast trace) :
    ∀ watch : Watch, watch.sentCount = some broadcast.sentCount → Backed Any watch trace := by
  induction course with
  | quiet broadcast quiet => exact fun watch _ => (backed_mute Any watch quiet).1
  | finished broadcast now reply =>
    intro watch counts
    refine ⟨fun more => ?_, trivial⟩
    have below : watch.sentCount.getD 0 < broadcast.sentCount := more
    rw [counts] at below
    exact absurd below (Nat.lt_irrefl _)
  | failed broadcast quiet recipient error delivers =>
    exact fun watch _ => backed_after quiet (deliver_backed delivers watch).1
  | next broadcast next quiet recipient delivers reply pauses rest calm later ih =>
    intro watch counts
    obtain ⟨backed, kept, raises⟩ := deliver_backed delivers watch
    refine backed_after quiet (backed_append.mpr ⟨backed, fun more => raises next rfl ?_, ?_⟩)
    · have below : (watch.after _).sentCount.getD 0 < next.sentCount := more
      rw [kept, counts] at below
      exact below
    · exact backed_after calm (ih _ rfl)

/-- **A broadcast.** -/
theorem broadcast_backed {data : BroadcastJob} {trace : List Exchange}
    (course : BroadcastCourse data trace) (watch : Watch) : Backed Any watch trace := by
  cases course with
  | skipped matching reply => exact ⟨False.elim, trivial⟩
  | unprepared matching rows quiet => exact ⟨False.elim, (backed_mute Any _ quiet).1⟩
  | begun matching rows broadcast first named quiet ctx session workspace now reply more rest calm
      later =>
    refine ⟨False.elim, backed_after quiet ⟨fun more => ?_, backed_after calm
      (loop_backed later _ rfl)⟩⟩
    have below : (rows.head?.map Broadcast.sentCount).getD 0 < broadcast.sentCount := more
    rw [first] at below
    exact absurd below (Nat.lt_irrefl _)

/-- **An action of an automation.** -/
theorem action_backed {h : Helpers} {ctx : ActionRunContext} {action : AutomationAction}
    {trace : List Exchange} (course : ActionCourse h ctx action trace) (watch : Watch) :
    Backed Any watch trace := by
  cases course with
  | quiet quiet => exact (backed_mute Any watch quiet).1
  | rejected quiet call error => exact backed_after quiet ⟨False.elim, trivial⟩
  | logged quiet kind phone addressed call sends response type content reply answers =>
    exact backed_after quiet ⟨False.elim, fun _ => ⟨response, rfl, trivial⟩, trivial⟩
  | forwarded quiet kind call response => exact backed_after quiet ⟨False.elim, trivial⟩

/-- Lookups mark nothing. -/
theorem reads_backed {trace : List Exchange}
    (reads : ∀ exchange ∈ trace, exchange.request.reads = true) :
    ∀ watch, Backed Any watch trace := by
  induction trace with
  | nil => exact fun _ => trivial
  | cons exchange trace ih =>
    intro watch
    obtain ⟨here, later⟩ := List.forall_mem_cons.mp reads
    refine ⟨fun marks => ?_, ih later _⟩
    obtain ⟨request, reply⟩ := exchange
    cases request with
    | find table matching => exact marks.elim
    | findAutomations matching => exact marks.elim
    | _ => cases here

/-- **The actions of an automation**, by induction on the steps that are left. -/
theorem loop_actions_backed (h : Helpers) (sorted : List AutomationAction) (ctx : ActionRunContext)
    (steps : Nat) : ∀ index, (ActionEngine.loop h sorted ctx steps index).Traces Possible
      fun trace _ => ∀ watch, Backed Any watch trace := by
  induction steps with
  | zero => exact fun _ _ => trivial
  | succ steps ih =>
    intro index
    cases here : sorted[index]? with
    | none =>
      simp only [ActionEngine.loop, here]
      exact fun _ => trivial
    | some action =>
      rw [Retries.loop_turn here]
      refine Program.traces_bind (Program.traces_mono (fun own result course => ?_)
        (execute_acts h ctx action))
      cases result with
      | error error => exact action_backed course
      | ok next =>
        refine Program.traces_mono (fun later _ backed watch => ?_) (ih _)
        exact backed_append.mpr ⟨action_backed course watch, backed _⟩

/-- **A run of an automation.** -/
theorem automation_backed (h : Helpers) (data : AutomationJob) :
    (AutomationProcessor.process h data).Traces Possible fun trace _ =>
      ∀ watch, Backed Any watch trace := by
  rw [Retries.process_prepare]
  refine Program.traces_bind (Program.traces_calls Retries.prepare_calls
    fun looks loaded reads => ?_)
  have looked := reads_backed reads
  cases loaded with
  | error error => exact looked
  | ok loaded =>
    cases loaded with
    | none =>
      show ∀ watch, Backed Any watch (looks ++ [])
      rw [List.append_nil]
      exact looked
    | some loaded =>
      refine Program.traces_bind (Program.traces_mono (fun acts result backed => ?_)
        (loop_actions_backed h _ loaded.2 _ 0))
      have acted (watch : Watch) : Backed Any watch (looks ++ acts) :=
        backed_append.mpr ⟨looked watch, backed _⟩
      cases result with
      | error error => exact acted
      | ok done =>
        refine Program.traces_bind (Program.traces_calls (markRun_mute data.automationId)
          fun marks result quiet => ?_)
        have marked (watch : Watch) : Backed Any watch (looks ++ (acts ++ marks)) := by
          rw [← List.append_assoc]
          exact backed_append.mpr ⟨acted watch, (backed_mute Any _ quiet).1⟩
        cases result with
        | error error => exact marked
        | ok _ =>
          show ∀ watch, Backed Any watch (looks ++ (acts ++ (marks ++ [])))
          rw [List.append_nil]
          exact marked

/-- **Nothing is marked as sent without an answer**: in every job, whatever OpenWA and the database
do, a recipient is set to sent, the number of sent messages is raised, and a log row says that a
message is sent, only after the call of the message returned an envelope. -/
theorem sent_backed (h : Helpers) (attempts : List JobAttempt) :
    (∀ data, Backed Any .start (jobTrace (MessageProcessor.process h data) attempts)) ∧
    (∀ data, Backed Any .start (jobTrace (BroadcastProcessor.process h data) attempts)) ∧
    ∀ data, Backed Any .start (jobTrace (AutomationProcessor.process h data) attempts) := by
  refine ⟨fun data => backed_flatMap (fun attempt _ watch => ?_) _,
    fun data => backed_flatMap (fun attempt _ watch => ?_) _,
    fun data => backed_flatMap (fun attempt _ watch => ?_) _⟩
  · exact send_backed (found_traces (process_sends h data) attempt.tape attempt.stores) watch
  · exact broadcast_backed (found_traces (process_broadcasts h data) attempt.tape attempt.stores)
      watch
  · exact found_traces (automation_backed h data) attempt.tape attempt.stores watch

namespace Example

/-- OpenWA answers with a failure in the envelope. -/
def failing : Input :=
  { WaAutomation.Example.fine with
    openwa := .ok ⟨some false, some "not on WhatsApp", none, none, none⟩ }

/-- An attempt in which this is every answer of OpenWA. -/
def refused : JobAttempt := ⟨tape failing, fun _ => filled replies⟩

end Example

/-- **Marks for messages that failed**: a log row of the message queue and the recipient of a
broadcast, when OpenWA answers with a failure in the envelope. -/
theorem failure_marked :
    ¬Backed Succeeded .start (jobTrace (MessageProcessor.process WaAutomation.Example.helpers
      (Example.job "628123456789")) [Example.refused]) ∧
    ¬Backed Succeeded .start (jobTrace
      (BroadcastProcessor.process WaAutomation.Example.helpers ⟨"b"⟩) [Example.refused]) := by
  constructor
  · rintro ⟨_, _, logs, _⟩
    obtain ⟨envelope, same, succeeded⟩ := logs ⟨_, Example.failing, rfl, rfl⟩
    cases same
    exact succeeded rfl
  · rintro ⟨_, _, _, _, _, _, _, saves, _⟩
    obtain ⟨envelope, same, succeeded⟩ := saves rfl
    cases same
    exact succeeded rfl

end WaAutomation.Messages
