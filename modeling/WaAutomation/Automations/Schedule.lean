/-
**Schedule automations fire once for each fire time.**

A tick at `now` looks for a fire time in the window `(now - 60 s, now]`. When all fire times lie on
whole minutes, the only one that can lie in the window is the beginning of the minute of `now`,
wherever in that minute the tick is made.

* `due` is the fire time a tick enqueues runs for, and `due_iff` says which one it is;
* `tick_run` is what a tick adds to the queue, over all scheduled automations;
* `fires_exactly_once` is about any sequence of ticks with no two in one minute.
-/

import Mathlib.Order.Bounds.Basic
import WaAutomation.Model.Frame
import WaAutomation.Model.Triggers

set_option linter.unusedSectionVars false

namespace WaAutomation.Schedule

open Library

/-! ### The fire time of a tick -/

/-- The time zone of a schedule, `cfg.timezone || 'UTC'`. -/
def timezone (automation : Automation) : Json :=
  (truthyGet automation.triggerConfig "timezone").getD (.str "UTC")

/-- The fire time a tick at `now` enqueues runs for. -/
def due (h : Helpers) (automation : Automation) (cron : Json) (now : Time) : Option Int :=
  match h.cronNext cron (timezone automation) ((now : Int) - 60000) with
  | .error _ => none
  | .ok next => if (now : Int) - 60000 < next ∧ next ≤ now then some next else none

/-- The target phones of a configuration: the items of a list or the characters of a text, and
none when there is nothing to go through. -/
def targetPhones (cfg : Record) : List Json :=
  match cfg.get "target_phones" with
  | some (.arr phones) => phones
  | some (.str text) => text.toList.map fun char => .str (String.singleton char)
  | _ => []

/-- The job of one target phone. -/
def job (automation : Automation) (phone : Json) : AutomationJob :=
  ⟨automation.id, automation.workspaceId,
    [("to", phone), ("from", phone), ("sessionId", sessionJson automation)]⟩

/-- The jobs of one fire time: one for each target phone. -/
def runs (automation : Automation) : List AutomationJob :=
  (targetPhones automation.triggerConfig).map (job automation)

/-- The jobs a tick at `now` enqueues for an automation. -/
def jobsAt (h : Helpers) (now : Time) (automation : Automation) : List AutomationJob :=
  match truthyGet automation.triggerConfig "cron" with
  | none => []
  | some cron => if (due h automation cron now).isSome then runs automation else []

/-- The scheduler goes through the target phones, and throws only where there are none. -/
theorem targets_cases (cfg : Record) :
    AutomationScheduler.targets cfg = .ok (targetPhones cfg) ∨
      (∃ error, AutomationScheduler.targets cfg = .error error) ∧ targetPhones cfg = [] := by
  unfold AutomationScheduler.targets targetPhones truthyGet
  cases cfg.get "target_phones" with
  | none => exact .inl rfl
  | some value =>
    rw [Option.filter_some]
    cases value with
    | null => exact .inl rfl
    | bool value => cases value <;> first | exact .inl rfl | exact .inr ⟨⟨_, rfl⟩, rfl⟩
    | num value =>
      cases (Json.num value).truthy with
      | false => exact .inl rfl
      | true => exact .inr ⟨⟨_, rfl⟩, rfl⟩
    | str text =>
      by_cases empty : text = ""
      · subst empty
        exact .inl rfl
      · rw [if_pos (show (Json.str text).truthy = true from bne_iff_ne.mpr empty)]
        exact .inl rfl
    | arr phones => exact .inl rfl
    | obj fields => exact .inr ⟨⟨_, rfl⟩, rfl⟩

/-- The minute a time lies in. -/
def minute (now : Time) : Nat := now / 60000

/-- The function `next` of the cron parser gives the earliest of the instants after the given
date. -/
def Earliest (h : Helpers) (automation : Automation) (cron : Json) (instants : Set Int) : Prop :=
  ∀ currentDate next, h.cronNext cron (timezone automation) currentDate = .ok next ↔
    IsLeast {instant | instant ∈ instants ∧ currentDate < instant} next

/-- **The fire time of a tick is the beginning of its minute**, when that is a fire time at all. -/
theorem due_iff {h : Helpers} {automation : Automation} {cron : Json} {instants : Set Int}
    (earliest : Earliest h automation cron instants) (whole : ∀ instant ∈ instants, 60000 ∣ instant)
    (now : Time) (instant : Int) :
    due h automation cron now = some instant ↔
      instant ∈ instants ∧ instant / 60000 = (minute now : Int) := by
  unfold due minute
  constructor
  · intro fires
    split at fires
    · cases fires
    · rename_i next found
      split at fires
      · rename_i window
        obtain rfl := Option.some.inj fires
        have member := ((earliest _ _).mp found).1.1
        obtain ⟨quotient, rfl⟩ := whole next member
        exact ⟨member, by omega⟩
      · cases fires
  · rintro ⟨member, here⟩
    obtain ⟨quotient, rfl⟩ := whole instant member
    have window : (now : Int) - 60000 < 60000 * quotient ∧ 60000 * quotient ≤ now := by omega
    have least : IsLeast {later | later ∈ instants ∧ (now : Int) - 60000 < later}
        (60000 * quotient) := by
      refine ⟨⟨member, window.1⟩, fun later inside => ?_⟩
      obtain ⟨other, rfl⟩ := whole later inside.1
      have after := inside.2
      omega
    rw [(earliest _ _).mpr least]
    exact if_pos window

/-! ### What a tick enqueues -/

/-- No call fails. -/
def Clear (tape : Program.Tape Input) : Prop := tape.Admits fun input => input.fault = none

/-- The jobs a stretch of a run adds to the queue. -/
def Adds (store store' : Store) (data : List AutomationJob) : Prop :=
  ∃ added, store'.jobs = store.jobs ++ added ∧ added.map QueuedJob.job = data.map Job.automation

theorem Adds.append {first second third : Store} {data more : List AutomationJob}
    (adds : Adds first second data) (next : Adds second third more) :
    Adds first third (data ++ more) := by
  obtain ⟨added, jobs, same⟩ := adds
  obtain ⟨added', jobs', same'⟩ := next
  refine ⟨added ++ added', ?_, ?_⟩
  · rw [jobs', jobs, List.append_assoc]
  · rw [List.map_append, List.map_append, same, same']

/-- When no call fails, the program ends well and adds these jobs. -/
def Enqueues {α : Type} (program : Svc α) (data : List AutomationJob) : Prop :=
  ∀ tape store, Clear tape → ∃ value tape' store',
    program.run exec tape store = (.ok value, tape', store') ∧ Clear tape' ∧ Adds store store' data

theorem enqueues_ret {α : Type} (value : α) : Enqueues (.ret value) [] :=
  fun tape store clear => ⟨value, tape, store, rfl, clear, [], by simp⟩

theorem enqueues_bind {α β : Type} {program : Svc α} {rest : α → Svc β}
    {data more : List AutomationJob} (first : Enqueues program data)
    (second : ∀ value, Enqueues (rest value) more) :
      Enqueues (program >>= rest) (data ++ more) := by
  intro tape store clear
  obtain ⟨value, tape', store', ran, clear', adds⟩ := first tape store clear
  obtain ⟨last, tape'', store'', ran', clear'', adds'⟩ := second value tape' store' clear'
  refine ⟨last, tape'', store'', ?_, clear'', adds.append adds'⟩
  rw [Program.run_bind, ran]
  exact ran'

theorem enqueues_attempt {α : Type} {program : Svc α} {data : List AutomationJob}
    (first : Enqueues program data) : Enqueues program.attempt data := by
  intro tape store clear
  obtain ⟨value, tape', store', ran, clear', adds⟩ := first tape store clear
  refine ⟨.ok value, tape', store', ?_, clear', adds⟩
  rw [Program.run_attempt, ran]

theorem enqueues_emit (event : Event) : Enqueues (Svc.emit event) [] :=
  fun tape store clear =>
    ⟨(), tape.advance, store.note (.emit event), rfl, Program.Tape.admits_advance clear, [], by
      simp [Store.note]⟩

theorem enqueues_add (data : AutomationJob) (attempts : Nat) (delay : Int) :
    Enqueues (Svc.call (.add (.automation data) attempts delay)) [data] := by
  intro tape store clear
  have holds : (tape.later 0).fault = none := clear 0
  refine ⟨store.jobIds, tape.advance, store.enqueue (.automation data) attempts delay, ?_,
    Program.Tape.admits_advance clear, [⟨store.jobIds, .automation data, attempts, 0, delay⟩], rfl,
    rfl⟩
  rw [Svc.call, Program.run_perform, exec_clear _ holds]
  rfl

/-- A run of an automation is one job. -/
theorem enqueues_enqueueRun (automation : Automation) (context : Record) :
    Enqueues (AutomationsService.enqueueRun automation context)
      [⟨automation.id, automation.workspaceId, context⟩] :=
  enqueues_bind (enqueues_emit _) fun _ =>
    enqueues_bind (enqueues_add _ _ _) fun _ => enqueues_ret _

/-- The loop over the targets: one job for each phone. -/
theorem enqueues_targets (automation : Automation) (phones : List Json) :
    Enqueues (AutomationScheduler.enqueueTargets automation phones)
      (phones.map (job automation)) := by
  induction phones with
  | nil => exact enqueues_ret ()
  | cons phone rest ih => exact enqueues_bind (enqueues_enqueueRun _ _) fun _ => ih

/-- One scheduled automation, its errors caught. -/
theorem enqueues_fire (h : Helpers) (now : Time) (automation : Automation) (cron : Json) :
    Enqueues (AutomationScheduler.fire h now automation cron).attempt
      (if (due h automation cron now).isSome then runs automation else []) := by
  unfold AutomationScheduler.fire due runs timezone
  dsimp only
  cases h.cronNext cron _ _ with
  | error error => exact enqueues_ret _
  | ok next =>
    simp only [Svc.lift, Program.ret_bind]
    by_cases window : (now : Int) - 60000 < next ∧ next ≤ now
    · simp only [if_pos window, Option.isSome_some, if_true]
      obtain goes | ⟨⟨error, throws⟩, none⟩ := targets_cases automation.triggerConfig
      · rw [goes]
        exact enqueues_attempt (enqueues_targets automation _)
      · rw [throws, none]
        exact enqueues_ret _
    · simp only [if_neg window]
      exact enqueues_ret _

/-- The loop over the scheduled automations. -/
theorem enqueues_fireEach (h : Helpers) (now : Time) (automations : List Automation) :
    Enqueues (AutomationScheduler.fireEach h now automations)
      (automations.flatMap (jobsAt h now)) := by
  induction automations with
  | nil => exact enqueues_ret ()
  | cons automation rest ih =>
    rw [List.flatMap_cons]
    unfold AutomationScheduler.fireEach jobsAt
    cases truthyGet automation.triggerConfig "cron" with
    | none => exact ih
    | some cron => exact enqueues_bind (enqueues_fire h now automation cron) fun _ => ih

/-- The automations a tick goes through. -/
def scheduled (store : Store) : List Automation :=
  (store.db .automations).filter fun automation =>
    automation.isActive && automation.triggerType == .schedule

/-- **What a tick adds to the queue.** -/
theorem tick_run (h : Helpers) {tape : Program.Tape Input} {store : Store} (clear : Clear tape) :
    Adds store ((AutomationScheduler.tick h).run exec tape store).2.2
      ((scheduled store).flatMap (jobsAt h tape.now.now)) := by
  have holds : (tape.later 0).fault = none := clear 0
  obtain ⟨_, tape', store', ran, _, adds⟩ :=
    enqueues_fireEach h tape.now.now (scheduled store) tape.advance store
      (Program.Tape.admits_advance clear)
  have rows : (((store.db .automations).filter fun automation =>
      automation.isActive && automation.triggerType == .schedule).map fun row =>
        (row, (store.db .actions).filter fun action => action.automationId == row.id)).map
          Prod.fst =
      scheduled store := by
    rw [List.map_map]
    exact List.map_id _
  unfold AutomationScheduler.tick Svc.now Svc.call
  simp only [Program.ambient_bind, Program.ret_bind, Program.run]
  rw [Program.run_bind, Program.run_perform, exec_clear _ holds]
  simp only [perform, rows, ran]
  exact adds

/-! ### Sequences of ticks -/

/-- A tick: its inputs, and the store it finds. -/
structure Tick where
  tape : Program.Tape Input
  store : Store

/-- The time of a tick. -/
def Tick.now (tick : Tick) : Time := tick.tape.now.now

/-- The data of a job of `wa-automations`. -/
def automationData (job : QueuedJob) : Option AutomationJob :=
  match job.job with
  | .automation data => some data
  | _ => none

/-- The jobs of an automation a tick enqueues. -/
def Tick.enqueued (h : Helpers) (automation : Automation) (tick : Tick) : List AutomationJob :=
  (((((AutomationScheduler.tick h).run exec tick.tape tick.store).2.2.jobs).drop
    tick.store.jobs.length).filterMap automationData).filter
      fun data => data.automationId == automation.id

/-- The automation is active when the tick is made, and no call of the tick fails. -/
structure Tick.Works (automation : Automation) (tick : Tick) : Prop where
  clear : Clear tick.tape
  keys : ((tick.store.db .automations).map Automation.id).Nodup
  stored : automation ∈ tick.store.db .automations
  active : automation.isActive = true
  schedule : automation.triggerType = .schedule

/-- The jobs enqueued for an automation carry its id. -/
theorem jobsAt_owner {h : Helpers} {now : Time} {automation : Automation} :
    ∀ data ∈ jobsAt h now automation, data.automationId = automation.id := by
  intro data member
  have inside : data ∈ runs automation := by
    unfold jobsAt at member
    split at member
    · cases member
    · split at member
      · exact member
      · cases member
  obtain ⟨phone, _, rfl⟩ := List.mem_map.mp inside
  rfl

/-- The jobs of one automation among those of rows with distinct ids. -/
theorem filter_jobsAt {h : Helpers} {now : Time} {automation : Automation}
    {rows : List Automation} (keys : (rows.map Automation.id).Nodup) (member : automation ∈ rows) :
    (rows.flatMap (jobsAt h now)).filter (fun data => data.automationId == automation.id) =
      jobsAt h now automation := by
  have none_of (others : List Automation) (absent : automation.id ∉ others.map Automation.id) :
      (others.flatMap (jobsAt h now)).filter (fun data => data.automationId == automation.id) =
        [] := by
    refine List.filter_eq_nil_iff.mpr fun data inside => ?_
    obtain ⟨other, among, data_of⟩ := List.mem_flatMap.mp inside
    rw [beq_iff_eq, jobsAt_owner data data_of]
    exact fun same => absent (same ▸ List.mem_map_of_mem among)
  have all_of : (jobsAt h now automation).filter (fun data => data.automationId == automation.id) =
      jobsAt h now automation :=
    List.filter_eq_self.mpr fun data inside => beq_iff_eq.mpr (jobsAt_owner data inside)
  obtain ⟨before, after, rfl⟩ := List.append_of_mem member
  rw [List.map_append, List.map_cons, List.nodup_append] at keys
  obtain ⟨_, later, apart⟩ := keys
  have earlier : automation.id ∉ before.map Automation.id :=
    fun inside => apart _ inside _ List.mem_cons_self rfl
  rw [List.flatMap_append, List.flatMap_cons, List.filter_append, List.filter_append,
    none_of before earlier, none_of after (List.nodup_cons.mp later).1, all_of, List.nil_append,
    List.append_nil]

/-- The jobs of an automation a tick enqueues are those of its due fire time. -/
theorem Tick.enqueued_eq {h : Helpers} {automation : Automation} {tick : Tick}
    (works : tick.Works automation) :
    tick.enqueued h automation = jobsAt h tick.now automation := by
  obtain ⟨added, jobs, same⟩ := tick_run h works.clear
  have listed : automation ∈ scheduled tick.store :=
    List.mem_filter.mpr ⟨works.stored, by simp [works.active, works.schedule]⟩
  have keys : ((scheduled tick.store).map Automation.id).Nodup :=
    works.keys.sublist (List.filter_sublist.map _)
  have data : added.filterMap automationData =
      (scheduled tick.store).flatMap (jobsAt h tick.now) := by
    have read : added.filterMap automationData = (added.map QueuedJob.job).filterMap
        fun job => automationData ⟨0, job, 0, 0, 0⟩ := by
      rw [List.filterMap_map]
      rfl
    rw [read, same, List.filterMap_map]
    exact List.filterMap_some
  unfold Tick.enqueued
  rw [jobs, List.drop_left, data]
  exact filter_jobsAt keys listed

/-- **Each fire time in a ticked minute is served by exactly one tick, and no tick serves another**:
whatever the offsets of the ticks in their minutes. The tick enqueues one job for each target phone,
in their order. -/
theorem fires_exactly_once (h : Helpers) (automation : Automation) (cron : Json)
    (instants : Set Int) (ticks : List Tick)
    (configured : truthyGet automation.triggerConfig "cron" = some cron)
    (earliest : Earliest h automation cron instants) (whole : ∀ instant ∈ instants, 60000 ∣ instant)
    (everyMinute : (ticks.map fun tick => minute tick.now).Nodup)
    (works : ∀ tick ∈ ticks, tick.Works automation) :
    (∀ instant ∈ instants, (∃ tick ∈ ticks, instant / 60000 = (minute tick.now : Int)) →
      ∃ tick ∈ ticks, due h automation cron tick.now = some instant ∧
        tick.enqueued h automation = runs automation ∧
        (∀ phones, automation.triggerConfig.get "target_phones" = some (.arr phones) →
          tick.enqueued h automation = phones.map (job automation)) ∧
        ∀ other ∈ ticks, due h automation cron other.now = some instant → other = tick) ∧
    (∀ tick ∈ ticks, ∀ instant, due h automation cron tick.now = some instant →
      instant ∈ instants ∧ instant / 60000 = (minute tick.now : Int)) ∧
    (∀ tick ∈ ticks, due h automation cron tick.now = none → tick.enqueued h automation = []) := by
  have jobs (tick : Tick) (member : tick ∈ ticks) : tick.enqueued h automation =
      if (due h automation cron tick.now).isSome then runs automation else [] := by
    rw [Tick.enqueued_eq (works tick member), jobsAt, configured]
  refine ⟨fun instant fire ⟨tick, member, here⟩ => ?_, fun tick _ instant fires =>
    (due_iff earliest whole _ _).mp fires, fun tick member silent => ?_⟩
  · have fires := (due_iff earliest whole tick.now instant).mpr ⟨fire, here⟩
    have enqueued : tick.enqueued h automation = runs automation := by
      rw [jobs tick member, fires]
      rfl
    refine ⟨tick, member, fires, enqueued, fun phones listed => ?_, fun other among also => ?_⟩
    · rw [enqueued, runs, targetPhones, listed]
    · have there := ((due_iff earliest whole other.now instant).mp also).2
      have same : minute other.now = minute tick.now := by omega
      exact List.inj_on_of_nodup_map everyMinute among member same
  · rw [jobs tick member, silent]
    rfl

namespace Example

/-- A schedule that fires every minute. -/
def helpers : Helpers :=
  { WaAutomation.Example.helpers with
    cronNext := fun _ _ currentDate => .ok (60000 * (currentDate / 60000 + 1)) }

def automation : Automation :=
  ⟨"a", "w", some "s", "reminder", none, true, .schedule,
    [("cron", .str "* * * * *"), ("target_phones", .arr [.str "628111", .str "628222"])], 0, none⟩

def store : Store :=
  ⟨fun | .automations => [automation] | _ => [], [], 0, [], fun _ _ => none⟩

def tick (now : Time) : Tick :=
  ⟨⟨{ WaAutomation.Example.fine with now := now }, fun _ => WaAutomation.Example.fine⟩, store⟩

/-- A tick at the very beginning of a minute, and one at the very end of the next. -/
def ticks : List Tick := [tick 60000, tick 179999]

theorem earliest :
    Earliest helpers automation (.str "* * * * *") {instant | 60000 ∣ instant} := by
  intro currentDate next
  have least : IsLeast {instant : Int | 60000 ∣ instant ∧ currentDate < instant}
      (60000 * (currentDate / 60000 + 1)) := by
    refine ⟨⟨Int.dvd_mul_right _ _, by omega⟩, fun later ⟨whole, after⟩ => ?_⟩
    obtain ⟨quotient, rfl⟩ := whole
    omega
  constructor
  · intro found
    cases found
    exact least
  · exact fun other => congrArg Except.ok (least.unique other)

theorem works (now : Time) : (tick now).Works automation where
  clear _ := rfl
  keys := List.nodup_singleton _
  stored := List.mem_singleton.mpr rfl
  active := rfl
  schedule := rfl

end Example

/-- The first tick enqueues the jobs of the two phones for the first minute, and it alone. -/
theorem fires_exactly_once_example :
    ∃ tick ∈ Example.ticks,
      due Example.helpers Example.automation (.str "* * * * *") tick.now = some 60000 ∧
        tick.enqueued Example.helpers Example.automation =
          [⟨"a", "w", [("to", .str "628111"), ("from", .str "628111"), ("sessionId", .str "s")]⟩,
            ⟨"a", "w", [("to", .str "628222"), ("from", .str "628222"),
              ("sessionId", .str "s")]⟩] ∧
        ∀ other ∈ Example.ticks,
          due Example.helpers Example.automation (.str "* * * * *") other.now = some 60000 →
            other = tick := by
  have works : ∀ tick ∈ Example.ticks, tick.Works Example.automation := by
    intro tick member
    obtain ⟨now, rfl⟩ : ∃ now, tick = Example.tick now := by
      simp only [Example.ticks, List.mem_cons, List.not_mem_nil, or_false] at member
      rcases member with rfl | rfl
      · exact ⟨_, rfl⟩
      · exact ⟨_, rfl⟩
    exact Example.works now
  obtain ⟨tick, member, fires, _, jobs, alone⟩ := (fires_exactly_once Example.helpers
    Example.automation (.str "* * * * *") {instant | 60000 ∣ instant} Example.ticks rfl
    Example.earliest (fun _ whole => whole) (by decide) works).1 60000 (Int.dvd_refl _)
    ⟨Example.tick 60000, List.mem_cons_self, rfl⟩
  exact ⟨tick, member, fires, jobs [.str "628111", .str "628222"] rfl, alone⟩

end WaAutomation.Schedule
