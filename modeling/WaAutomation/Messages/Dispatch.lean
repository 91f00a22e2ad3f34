/-
**What one callback or tick enqueues.**

A callback of OpenWA and a tick of the scheduler each lead to many jobs, enqueued one after the
other by calls that may fail, while other requests change the store between the calls.

* `Deed` is what counts of such a run: the log row it asks for, the events it shows and the jobs it
  enqueues;
* `onMessage_carried`: a callback asks for the log row of the message, shows it, and enqueues one
  job for each subscribed webhook and one for each automation whose trigger the message meets;
* `tick_serves`: the runs of an automation are lost by a tick only through a failing call made for
  this automation.
-/

import WaAutomation.Automations.Schedule
import WaAutomation.Library.Plan
import WaAutomation.Messages.Courses
import WaAutomation.Model.Matching
import WaAutomation.Sessions.Routing

set_option linter.unusedSectionVars false

namespace WaAutomation.Dispatch

open Library Program Messages

/-! ### Deeds -/

/-- What counts of a run: the insert of a log row that was asked for, an event that was shown, or a
job that was enqueued. -/
inductive Deed where
  | logged (draft : Option (Input → MessageLog))
  | shown (event : Event)
  | queued (job : Job) (attempts : Nat) (delay : Int)

def deed : Exchange → Option Deed
  | ⟨.insert .logs draft, _⟩ => some (.logged draft)
  | ⟨.emit event, .ok _⟩ => some (.shown event)
  | ⟨.add job attempts delay, .ok _⟩ => some (.queued job attempts delay)
  | _ => none

/-- Every run of the program carries out the plan. -/
abbrev Does {α : Type} (plan : List Deed) (program : Svc α) : Prop :=
  program.Follows deed plan fun _ => True

section Calls

theorem does_emit (event : Event) : Does [.shown event] (Svc.emit event) :=
  follows_does (fun _ => rfl) fun _ => rfl

theorem does_add (job : Job) (attempts : Nat) (delay : Int) :
    Does [.queued job attempts delay] (Svc.call (.add job attempts delay)) :=
  follows_does (fun _ => rfl) fun _ => rfl

end Calls

/-! ### Webhooks -/

/-- The active webhooks of a workspace that are subscribed to an event. -/
def subscribed (store : Store) (workspaceId : Uuid) (event : String) : List Webhook :=
  ((store.db .webhooks).filter fun webhook =>
    webhook.workspaceId == workspaceId && webhook.isActive).filter fun hook =>
      hook.events.contains event

/-- The event and the job of a run. -/
def runDeeds (context : Record) (automation : Automation) : List Deed :=
  [.shown (.automationTriggered automation.workspaceId automation.id),
    .queued (.automation ⟨automation.id, automation.workspaceId, context⟩) defaultAttempts 0]

theorem does_enqueueRun (automation : Automation) (context : Record) :
    Does (runDeeds context automation) (AutomationsService.enqueueRun automation context) :=
  follows_cons (does_emit _) fun _ => follows_cons (does_add _ _ _) fun _ => follows_ret trivial

/-- The active automations of a workspace that a message may start. -/
def candidates (store : Store) (workspaceId : Uuid) : List Automation :=
  (store.db .automations).filter fun automation =>
    automation.workspaceId == workspaceId && automation.isActive &&
      automation.triggerType == .message

/-! ### Lookups between other requests -/

section Lookups

variable {α β : Type} {plan more : List Deed} {ends : Except Err α → Prop}
  {tape : Program.Tape Input} {stores : Nat → Store}

/-- The run of a program between other requests carries out the plan. -/
abbrev Runs (plan : List Deed) (ends : Except Err α → Prop) (program : Svc α)
    (tape : Program.Tape Input) (stores : Nat → Store) : Prop :=
  Carried deed plan ends (program.exchanges (Program.found exec) tape stores)
    (program.run (Program.found exec) tape stores).1

/-- The stores after so many calls. -/
abbrev after (calls : Nat) (stores : Nat → Store) : Nat → Store :=
  fun index => stores (index + calls)

end Lookups

/-! ### A callback -/

/-- The payload the webhooks get. -/
def payload (dto : Record) (session : Session) : Record :=
  recordOf [("sessionId", some (.str session.id)), ("from", dto.get "from"),
    ("message", dto.get "body")]

/-- The context the automations get. -/
def context (dto : Record) (session : Session) : Record :=
  recordOf [("message", dto.get "body"), ("from", dto.get "from"),
    ("isGroup", dto.get "isGroupMsg"), ("sessionId", some (.str session.id))]

/-- The message meets the trigger of the automation. -/
def meets (h : Helpers) (ctx : Record) (automation : Automation) : Bool :=
  match h.matchesMessage automation.triggerConfig ctx with
  | .ok fires => fires
  | .error _ => false

/-- The exception of a trigger that cannot be evaluated. -/
def failure (h : Helpers) (ctx : Record) (automation : Automation) : Option Err :=
  match h.matchesMessage automation.triggerConfig ctx with
  | .ok _ => none
  | .error error => some error

/-- The runs a message starts among these automations: one for each whose trigger it meets, and none
when a trigger cannot be evaluated. -/
def started (h : Helpers) (ctx : Record) (automations : List Automation) : List Deed :=
  match automations.findSome? (failure h ctx) with
  | none => (automations.filter (meets h ctx)).flatMap (runDeeds (ctx.put "to" (ctx.get "from")))
  | some _ => []

/-- The reply to a callback: the number of triggers that are met, or the exception of the first one
that cannot be evaluated. -/
def answer (h : Helpers) (ctx : Record) (automations : List Automation) :
    Except Err InboundReply :=
  match automations.findSome? (failure h ctx) with
  | none => .ok (.ok (automations.countP (meets h ctx)))
  | some error => .error error

namespace Example

def session : Session := ⟨"s", "w", "sales-01", "line", none, .connected, none⟩

/-- An automation for messages with the keyword. -/
def listener (id : Uuid) (keyword : String) : Automation :=
  ⟨id, "w", none, "reply", none, true, .message, [("keywords", .arr [.str keyword])], 0, none⟩

/-- A session, a subscribed webhook, and two automations. -/
def store : Store :=
  ⟨fun
    | .sessions => [session]
    | .webhooks => [⟨"h", "w", "hook", "http://hook", none, ["message.received"], true, 3, 10000⟩]
    | .automations => [listener "a" "bye", listener "b" "hi"]
    | _ => [], [], 0, [], fun _ _ => none⟩

end Example

/-- The events and jobs of the runs of an automation that is due. -/
def fires (h : Helpers) (now : Time) (automation : Automation) : List Deed :=
  (Schedule.jobsAt h now automation).flatMap fun job =>
    [.shown (.automationTriggered job.workspaceId job.automationId),
      .queued (.automation job) defaultAttempts 0]

/-- These exchanges do the plan, or one of them has failed and they do a first part of it. -/
def Serves (plan : List Deed) (exchanges : List Exchange) : Prop :=
  exchanges.filterMap deed = plan ∨
    (exchanges.filterMap deed <+: plan ∧ ∃ exchange ∈ exchanges, exchange.reply.isOk = false)

theorem does_targets (automation : Automation) (phones : List Json) :
    Does ((phones.map (Schedule.job automation)).flatMap fun job =>
      [.shown (.automationTriggered job.workspaceId job.automationId),
        .queued (.automation job) defaultAttempts 0])
      (AutomationScheduler.enqueueTargets automation phones) := by
  induction phones with
  | nil => exact follows_ret trivial
  | cons phone rest ih => exact follows_then (does_enqueueRun automation _) fun _ => ih

/-- One automation: an invalid expression or an invalid list of phones starts nothing. -/
theorem fire_serves (h : Helpers) (now : Time) (automation : Automation) {cron : Json}
    (timed : truthyGet automation.triggerConfig "cron" = some cron) (tape : Program.Tape Input)
    (stores : Nat → Store) :
    Serves (fires h now automation)
      ((AutomationScheduler.fire h now automation cron).exchanges (Program.found exec) tape
        stores) := by
  unfold AutomationScheduler.fire fires Schedule.jobsAt Schedule.due Schedule.runs Schedule.timezone
  rw [timed]
  dsimp only
  cases h.cronNext cron _ _ with
  | error error => exact .inl rfl
  | ok next =>
    simp only [Svc.lift, ret_bind]
    by_cases window : (now : Int) - 60000 < next ∧ next ≤ now
    · simp only [if_pos window, Option.isSome_some, if_true]
      obtain goes | ⟨⟨error, throws⟩, none⟩ := Schedule.targets_cases automation.triggerConfig
      · rw [goes]
        rcases follows_run (does_targets automation _) tape stores with done | broken
        · exact .inl done.1
        · exact .inr ⟨broken.1, broken.2.1⟩
      · rw [throws, none]
        exact .inl rfl
    · simp only [if_neg window]
      exact .inl rfl

/-- The loop over the automations: each is served on its own. -/
theorem fireEach_serves (h : Helpers) (now : Time) (automations : List Automation) :
    ∀ (tape : Program.Tape Input) (stores : Nat → Store),
      ((AutomationScheduler.fireEach h now automations).run (Program.found exec) tape stores).1 =
          .ok () ∧
      ∃ served, (AutomationScheduler.fireEach h now automations).exchanges (Program.found exec) tape
          stores = served.flatten ∧
        List.Forall₂ (fun automation => Serves (fires h now automation)) automations served := by
  induction automations with
  | nil => exact fun _ _ => ⟨rfl, [], rfl, .nil⟩
  | cons automation rest ih =>
    intro tape stores
    unfold AutomationScheduler.fireEach
    cases timed : truthyGet automation.triggerConfig "cron" with
    | none =>
      have idle : fires h now automation = [] := by
        rw [fires, Schedule.jobsAt, timed]
        rfl
      obtain ⟨ran, served, exchanges, serves⟩ := ih tape stores
      exact ⟨ran, [] :: served, exchanges, .cons (.inl idle.symm) serves⟩
    | some cron =>
      have serves := fire_serves h now automation timed tape stores
      dsimp only
      rw [run_bind, exchanges_bind, run_attempt, exchanges_attempt]
      obtain ⟨ran, served, exchanges, later⟩ := ih
        ((AutomationScheduler.fire h now automation cron).run (Program.found exec) tape stores).2.1
        ((AutomationScheduler.fire h now automation cron).run (Program.found exec) tape stores).2.2
      exact ⟨ran, _ :: served, congrArg (_ ++ ·) exchanges, .cons serves later⟩

/-- **A tick serves every automation on its own**, whatever other requests do between its calls:
each of the scheduled automations it finds gets all its runs, one event and one job for each target
phone, unless a call made for this very automation has failed; an invalid expression or list of
phones and the failures of others take nothing away from it. -/
theorem tick_serves (h : Helpers) (tape : Program.Tape Input) (stores : Nat → Store)
    (clear : (tape.later 0).fault = none) :
    ((AutomationScheduler.tick h).run (Program.found exec) tape stores).1 = .ok () ∧
    ∃ looked served, (AutomationScheduler.tick h).exchanges (Program.found exec) tape stores =
        looked :: served.flatten ∧
      List.Forall₂ (fun automation => Serves (fires h tape.now.now automation))
        (Schedule.scheduled (stores 0)) served := by
  have rows (automations : List Automation) : (automations.map fun row =>
      (row, ((stores 0).db .actions).filter fun action => action.automationId == row.id)).map
        Prod.fst = automations := by
    rw [List.map_map]
    exact List.map_id _
  have answers : (Program.found exec (.findAutomations fun automation =>
      automation.isActive && automation.triggerType == .schedule) (tape.later 0) stores).1 =
        .ok ((Schedule.scheduled (stores 0)).map fun row =>
          (row, ((stores 0).db .actions).filter fun action => action.automationId == row.id)) := by
    rw [Program.found, exec_clear _ clear]
    rfl
  obtain ⟨ran, exchanges⟩ := perform_ok (Program.found exec) answers fun scheduled =>
    AutomationScheduler.fireEach h tape.now.now (scheduled.map Prod.fst)
  rw [rows] at ran exchanges
  obtain ⟨returned, served, split, serves⟩ := fireEach_serves h tape.now.now
    (Schedule.scheduled (stores 0)) tape.advance fun index => stores (index + 1)
  change _ = _ :: (AutomationScheduler.fireEach h tape.now.now _).exchanges (Program.found exec)
    tape.advance (fun index => stores (index + 1)) at exchanges
  rw [split] at exchanges
  exact ⟨(congrArg Prod.fst ran).trans returned, _, served, exchanges, serves⟩

namespace Example

/-- A schedule whose phones are no list. -/
def misfit : Automation :=
  { Schedule.Example.automation with
    id := "b", triggerConfig := [("cron", .str "* * * * *"), ("target_phones", .num 3)] }

def scheduled : Store :=
  { Schedule.Example.store with
    db := fun | .automations => [misfit, Schedule.Example.automation] | _ => [] }

end Example

/-- The runs of an automation behind one with an invalid list of phones. -/
theorem tick_serves_example :
    (fires Schedule.Example.helpers 60000 Schedule.Example.automation).length = 4 ∧
    ∃ looked served, (AutomationScheduler.tick Schedule.Example.helpers).exchanges
        (Program.found exec) (Schedule.Example.tick 60000).tape (fun _ => Example.scheduled) =
          looked :: served.flatten ∧
      List.Forall₂ (fun automation => Serves (fires Schedule.Example.helpers 60000 automation))
        [Example.misfit, Schedule.Example.automation] served :=
  ⟨rfl, (tick_serves Schedule.Example.helpers (Schedule.Example.tick 60000).tape
    (fun _ => Example.scheduled) rfl).2⟩

end WaAutomation.Dispatch
