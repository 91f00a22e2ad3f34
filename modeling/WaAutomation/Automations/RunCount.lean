/-
**The run counter of an automation.**

A finished run increments the counter in one statement, while `update` and `setActive` load the
automation and save every column they have loaded. A save undoes the increments made since its call
loaded the row.

* `note` is the observer of a run: it counts the increments, and marks the calls in flight whose
  copy of the row is stale;
* `Agrees` is the invariant of a run in which no stale copy is saved, and `agrees_act` its step
  lemma;
* `no_run_lost` is about such runs, and `run_lost` is a run in which a stale copy is saved.
-/

import WaAutomation.Model.Automations
import WaAutomation.Model.Services
import WaAutomation.Model.Writes

set_option linter.unusedSectionVars false

namespace WaAutomation.RunCount

open Library

/-! ### The system -/

inductive Request where
  | update (id : Uuid) (workspaceId : Option Uuid) (userId : Uuid) (dto : UpdateAutomationDto)
  | setActive (id : Uuid) (workspaceId : Option Uuid) (userId : Uuid) (active : Bool)
  | markRun (automationId : Uuid)

def Request.program : Request → Svc (Option LoadedAutomation)
  | .update id workspaceId userId dto => do
      return some (← AutomationsService.update id workspaceId userId dto)
  | .setActive id workspaceId userId active => do
      return some (← AutomationsService.setActive id workspaceId userId active)
  | .markRun automationId => do
      AutomationsService.markRun automationId
      return none

/-- The automation a request is about. -/
def Request.automation : Request → Uuid
  | .update id _ _ _ => id
  | .setActive id _ _ _ => id
  | .markRun automationId => automationId

def system := services Request.program

abbrev Pool := Calling Request (Option LoadedAutomation)

abbrev Move := Machine.Move Input Nat fun _ => Request

/-! ### The observer -/

/-- What the observer of a run has noted: the increments of the counter, and the slots whose call
has loaded the automation before the last of them. -/
structure Watch where
  count : Nat
  stale : Nat → Bool

/-- An automation that has never run. -/
def neverRun : Automation := ⟨"", "", none, "", none, false, .message, [], 0, none⟩

/-- The call increments the run counter. -/
def increments : Call → Bool
  | .update .automations _ change => (change neverRun).runCount == 1
  | _ => false

/-- The call loads automations. -/
def loads : Call → Bool
  | .findAutomations _ => true
  | _ => false

def note (id : Uuid) (watch : Watch) (pool : Pool) : Move → Watch
  | .start _ _ _ => watch
  | .resume slot input =>
      match pool.thread slot with
      | none => watch
      | some thread =>
          if thread.label.automation = id ∧ increments thread.request = true ∧
              (exec thread.request input pool.shared).1.isOk = true then
            ⟨watch.count + 1, fun _ => true⟩
          else if loads thread.request then
            { watch with stale := Function.update watch.stale slot false }
          else watch

/-- The condition on a move: no call saves a copy of the automation that is stale. -/
def Orderly (id : Uuid) (watch : Watch) (pool : Pool) : Move → Prop
  | .start _ _ _ => True
  | .resume slot _ => ∀ thread entity actions, pool.thread slot = some thread →
      thread.label.automation = id → thread.request = .saveAutomation entity actions →
        watch.stale slot = false

/-! ### Where a request goes on -/

/-- The request loads the automation and saves it. -/
def Request.manages : Request → Prop
  | .markRun _ => False
  | _ => True

/-- The call writes no automation, or saves the given one with the given count. -/
def Writes (id : Uuid) (count : Nat) (call : Call) : Prop :=
  call.writes .automations = false ∨ ∃ entity actions, call = .saveAutomation entity actions ∧
    entity.row.id = id ∧ ∀ row, (entity.anew = some row ∨ ∃ stored, entity.onto stored = some row) →
      row.id = id ∧ row.runCount = count

/-- The calls a request waits at. -/
inductive Stands : Request → Call → Prop
  | checking {request : Request} (manages : request.manages) (matching : WorkspaceMember → Bool) :
      Stands request (.find .members matching)
  | loading {request : Request} (manages : request.manages) {matching : Automation → Bool}
      (own : ∀ automation, matching automation = true → automation.id = request.automation) :
      Stands request (.findAutomations matching)
  | replacing {request : Request} (manages : request.manages) (id : Uuid) :
      Stands request (.deleteActions id)
  | saving {request : Request} (manages : request.manages) (entity : Entity Automation)
      (actions : List ActionEntity) : Stands request (.saveAutomation entity actions)
  | counting (id : Uuid) : Stands (.markRun id) (.update .automations
      (fun automation => automation.id == id)
      fun automation => { automation with runCount := automation.runCount + 1 })
  | stamping (id : Uuid) (now : Time) : Stands (.markRun id) (.update .automations
      (fun automation => automation.id == id)
      fun automation => { automation with lastRunAt := some now })

/-- Where a request goes on after a reply, when it does not end. -/
def Goes (request : Request) (call : Call) (reply : Except Err (Resp call)) (_ : Input)
    (stop : Stop Err Input Call Resp (Option LoadedAutomation)) : Prop :=
  request.manages → ∀ next rest, stop = .calling next rest →
    match call, reply with
    | .find _ _, _ => next.reads = true
    | .findAutomations _, .ok rows => ∃ automation actions,
        rows.head? = some (automation, actions) ∧
          (Program.call next rest).Calls (Writes automation.id automation.runCount)
    | .findAutomations _, .error _ => False
    | _, _ => True

section Programs

variable {request : Request}

theorem goes_finished {call : Call} {reply : Except Err (Resp call)} {reading : Input}
    {result : Except Err (Option LoadedAutomation)} :
    Goes request call reply reading (.finished result) :=
  fun _ _ _ stops => by cases stops

/-- Checks of the membership first. -/
theorem checks_shaped {α : Type} {program : Svc α} {rest : α → Svc (Option LoadedAutomation)}
    (manages : request.manages)
    (calls : program.Calls fun call => ∃ matching, call = .find .members matching)
    (reads : ∀ value reading, ∃ next after,
      (rest value).settle reading = .calling next after ∧ next.reads = true)
    (later : ∀ value, Shaped (Stands request) (Goes request) (rest value)) :
    Shaped (Stands request) (Goes request) (program >>= rest) := by
  refine shaped_quiet calls ?_ (fun _ _ _ _ _ => goes_finished) ?_ ?_ later
  · rintro _ ⟨matching, rfl⟩
    exact .checking manages matching
  · rintro _ reply reading _ next ⟨_, rfl⟩ ⟨_, rfl⟩ _ other after stops
    cases stops
    rfl
  · rintro _ reply reading value ⟨_, rfl⟩ _ other after stops
    obtain ⟨_, _, begins, first⟩ := reads value reading
    rw [begins] at stops
    cases stops
    exact first

/-- The lookups of a request that loads the automation. -/
theorem findOne_shaped {id : Uuid} {workspaceId : Option Uuid} {userId : Uuid}
    {rest : LoadedAutomation → Svc (Option LoadedAutomation)} (manages : request.manages)
    (own : id = request.automation)
    (writes : ∀ automation actions,
      (rest (automation, actions)).Calls (Writes automation.id automation.runCount))
    (later : ∀ loaded, Shaped (Stands request) (Goes request) (rest loaded)) :
    Shaped (Stands request) (Goes request)
      (AutomationsService.findOne id workspaceId userId >>= rest) := by
  unfold AutomationsService.findOne
  simp only [Program.bind_assoc]
  refine checks_shaped manages
    (WorkspacesService.assertMember_calls workspaceId userId fun _ => ⟨_, rfl⟩)
    (fun _ _ => ⟨_, _, rfl, rfl⟩) fun _ => ?_
  refine shaped_call (.loading manages fun automation matching => ?_) (fun _ _ => goes_finished)
    (fun rows reading => ?_) fun rows => ?_
  · rw [← own]
    exact beq_iff_eq.mp (Bool.and_eq_true_iff.mp matching).1
  · cases found : rows.head? with
    | none => exact goes_finished
    | some loaded =>
      intro _ next after stops
      exact ⟨loaded.1, loaded.2, found,
        Program.everywhere_settle (writes loaded.1 loaded.2) stops⟩
  · cases rows.head? with
    | none => trivial
    | some loaded => exact later loaded

/-- The save of the loaded automation, as it is or changed. -/
theorem save_shaped {entity : Entity Automation} {actions : List ActionEntity}
    {result : List AutomationAction → Option LoadedAutomation} (manages : request.manages) :
    Shaped (Stands request) (Goes request)
      (Svc.call (.saveAutomation entity actions) >>= fun rows => .ret (result rows)) :=
  shaped_call (.saving manages entity actions) (fun _ _ => goes_finished)
    (fun _ _ => goes_finished) fun _ => trivial

theorem save_writes {entity : Entity Automation} {actions : List ActionEntity}
    {result : List AutomationAction → Option LoadedAutomation} {count : Nat}
    (same : ∀ row, (entity.anew = some row ∨ ∃ stored, entity.onto stored = some row) →
      row.id = entity.row.id ∧ row.runCount = count) :
    (Svc.call (.saveAutomation entity actions) >>= fun rows => .ret (result rows)).Calls
      (Writes entity.row.id count) :=
  Program.calls_bind (calls_call (.inr ⟨entity, actions, rfl, rfl, same⟩)) fun _ => trivial

theorem update_shaped (id : Uuid) (workspaceId : Option Uuid) (userId : Uuid)
    (dto : UpdateAutomationDto) :
    Shaped (Stands (.update id workspaceId userId dto)) (Goes (.update id workspaceId userId dto))
      (Request.program (.update id workspaceId userId dto)) := by
  have manages : (Request.update id workspaceId userId dto).manages := trivial
  simp only [Request.program, AutomationsService.update, Program.bind_assoc]
  refine checks_shaped trivial
    (WorkspacesService.assertRole_calls workspaceId userId _ fun _ => ⟨_, rfl⟩)
    (fun _ _ => ⟨_, _, rfl, rfl⟩) fun _ => ?_
  refine findOne_shaped trivial rfl (fun automation actions => ?_) fun ⟨automation, actions⟩ => ?_
  · have saved (row : Automation)
        (written : AutomationsService.assign automation dto = some row ∨ ∃ stored : Automation,
          AutomationsService.assign automation dto = some row) :
        row.id = automation.id ∧ row.runCount = automation.runCount := by
      have kept (assigned : AutomationsService.assign automation dto = some row) :
          row.id = automation.id ∧ row.runCount = automation.runCount := by
        obtain ⟨same_id, _, same_count, _⟩ := AutomationsService.assign_keeps assigned
        exact ⟨same_id, same_count⟩
      obtain assigned | ⟨_, assigned⟩ := written
      · exact kept assigned
      · exact kept assigned
    cases given : dto.actions with
    | undefined => exact save_writes saved
    | null =>
      simp only [AutomationsService.replaceActions, Program.bind_assoc, Program.throw_bind]
      exact Program.calls_bind (calls_call (.inl rfl)) fun _ => trivial
    | value list =>
      simp only [AutomationsService.replaceActions, Program.bind_assoc]
      exact Program.calls_bind (calls_call (.inl rfl)) fun _ => save_writes saved
  · cases given : dto.actions with
    | undefined => exact save_shaped trivial
    | null =>
      simp only [AutomationsService.replaceActions, Program.bind_assoc, Program.throw_bind]
      exact shaped_call (.replacing manages id) (fun _ _ => goes_finished)
        (fun _ _ => goes_finished) fun _ => trivial
    | value list =>
      simp only [AutomationsService.replaceActions, Program.bind_assoc]
      exact shaped_call (.replacing manages id) (fun _ _ => goes_finished)
        (fun _ _ _ _ _ _ => trivial) fun _ => save_shaped manages

theorem setActive_shaped (id : Uuid) (workspaceId : Option Uuid) (userId : Uuid) (active : Bool) :
    Shaped (Stands (.setActive id workspaceId userId active))
      (Goes (.setActive id workspaceId userId active))
      (Request.program (.setActive id workspaceId userId active)) := by
  simp only [Request.program, AutomationsService.setActive, Program.bind_assoc]
  refine checks_shaped trivial
    (WorkspacesService.assertRole_calls workspaceId userId _ fun _ => ⟨_, rfl⟩)
    (fun _ _ => ⟨_, _, rfl, rfl⟩) fun _ => ?_
  refine findOne_shaped trivial rfl (fun automation actions => save_writes fun row written => ?_)
    fun _ => save_shaped trivial
  obtain same | ⟨_, same⟩ := written
  · cases same
    exact ⟨rfl, rfl⟩
  · cases same
    exact ⟨rfl, rfl⟩

theorem markRun_shaped (automationId : Uuid) :
    Shaped (Stands (.markRun automationId)) (Goes (.markRun automationId))
      (Request.program (.markRun automationId)) := by
  simp only [Request.program, AutomationsService.markRun, Program.bind_assoc]
  refine shaped_call (.counting automationId) (fun _ _ => goes_finished)
    (fun _ _ manages => manages.elim) fun _ => shaped_now fun now => ?_
  exact shaped_call (.stamping automationId now) (fun _ _ => goes_finished)
    (fun _ _ => goes_finished) fun _ => trivial

theorem program_shaped (request : Request) :
    Shaped (Stands request) (Goes request) request.program := by
  cases request with
  | update id workspaceId userId dto => exact update_shaped id workspaceId userId dto
  | setActive id workspaceId userId active => exact setActive_shaped id workspaceId userId active
  | markRun automationId => exact markRun_shaped automationId

/-- A request that manages the automation begins with a search. -/
theorem program_begins (manages : request.manages) (reading : Input) :
    ∃ call next, request.program.settle reading = .calling call next ∧ call.reads = true := by
  cases request with
  | update id workspaceId userId dto => exact ⟨_, _, rfl, rfl⟩
  | setActive id workspaceId userId active => exact ⟨_, _, rfl, rfl⟩
  | markRun automationId => exact manages.elim

end Programs

/-! ### The rows -/

/-- The automation is stored, with the given count. -/
structure Counts (id : Uuid) (count : Nat) (store : Store) : Prop where
  stored : ∃ row ∈ store.db .automations, row.id = id
  counts : ∀ row ∈ store.db .automations, row.id = id → row.runCount = count

section Rows

variable {id : Uuid} {count : Nat} {store : Store}

theorem counts_same {store' : Store} (counts : Counts id count store)
    (same : store'.db .automations = store.db .automations) : Counts id count store' :=
  ⟨by rw [same]; exact counts.stored, by rw [same]; exact counts.counts⟩

/-- An `UPDATE` of the rows of an automation. -/
theorem counts_update (target : Uuid) (change : Automation → Automation) (added : Nat)
    (input : Input) (keys : ∀ row, (change row).id = row.id)
    (adds : target = id → ∀ row, (change row).runCount = row.runCount + added)
    (counts : Counts id count store) :
    (∃ error, exec (.update .automations (fun row => row.id == target) change) input store =
      (.error error, store)) ∨
    (exec (.update .automations (fun row => row.id == target) change) input store).1 = .ok () ∧
      Counts id (if target = id then count + added else count)
        (exec (.update .automations (fun row => row.id == target) change) input store).2 := by
  obtain failed | updated := exec_update .automations (fun row => row.id == target)
      change input store
  · exact .inl failed
  rw [updated]
  refine .inr ⟨rfl, ?_, fun row member same => ?_⟩
  · obtain ⟨row, member, same⟩ := counts.stored
    simp only [Db.set_same]
    refine ⟨_, List.mem_map_of_mem member, ?_⟩
    by_cases hit : (row.id == target) = true
    · rw [if_pos hit, keys row, same]
    · rw [if_neg hit, same]
  · simp only [Db.set_same] at member
    obtain ⟨old, before, rfl⟩ := List.mem_map.mp member
    by_cases hit : (old.id == target) = true
    · rw [if_pos hit] at same ⊢
      rw [keys old] at same
      have here : target = id := (beq_iff_eq.mp hit).symm.trans same
      rw [if_pos here, adds here old, counts.counts old before same]
    · rw [if_neg hit] at same ⊢
      have other : target ≠ id := fun here => hit (beq_iff_eq.mpr (same.trans here.symm))
      rw [if_neg other, counts.counts old before same]

/-- A `save` of a copy with a count. -/
theorem counts_save {call : Call} {target : Uuid} {copied : Nat} (input : Input)
    (writes : Writes target copied call) (same : target = id → copied = count)
    (counts : Counts id count store) : Counts id count (exec call input store).2 := by
  obtain quiet | ⟨entity, actions, rfl, key, row_of⟩ := writes
  · exact counts_same counts (exec_other call input store quiet)
  obtain unchanged | saved := exec_saveAutomation_rows entity actions input store
  · exact counts_same counts unchanged
  have written (row : Automation)
      (of : entity.anew = some row ∨ ∃ stored, entity.onto stored = some row) (here : row.id = id) :
      row.runCount = count := by
    obtain ⟨id_of, count_of⟩ := row_of row of
    exact count_of.trans (same (id_of.symm.trans here))
  obtain ⟨_, failed⟩ | ⟨old, row, _, onto, _, put⟩ | ⟨row, _, anew, _, push⟩ :=
    store.save_cases .automations entity
  · exact counts_same counts (by rw [saved, failed])
  · rw [put] at saved
    simp only [Db.put, Db.set_same] at saved
    refine ⟨?_, fun other member here => ?_⟩
    · obtain ⟨kept, member, here⟩ := counts.stored
      by_cases replaced : Row.key .automations kept = Row.key .automations row
      · refine ⟨row, ?_, (congrArg Prod.fst replaced).symm.trans here⟩
        rw [saved, Rows.mem_put]
        exact .inr ⟨rfl, kept, member, replaced⟩
      · refine ⟨kept, ?_, here⟩
        rw [saved, Rows.mem_put]
        exact .inl ⟨member, replaced⟩
    · rw [saved, Rows.mem_put] at member
      obtain ⟨before, _⟩ | ⟨rfl, _⟩ := member
      · exact counts.counts other before here
      · exact written other (.inr ⟨old, onto⟩) here
  · rw [push] at saved
    simp only [Db.push, Db.set_same] at saved
    refine ⟨?_, fun other member here => ?_⟩
    · obtain ⟨kept, member, here⟩ := counts.stored
      exact ⟨kept, by rw [saved]; exact List.mem_append_left _ member, here⟩
    · rw [saved, List.mem_append, List.mem_singleton] at member
      obtain before | rfl := member
      · exact counts.counts other before here
      · exact written other (.inl anew) here

end Rows

/-! ### The invariant -/

/-- A request that manages an automation has not loaded it yet, or saves the count it has loaded,
which is the stored one as long as it is not stale. -/
def Copies (id : Uuid) (base : Nat) (watch : Watch) (slot : Nat) (request : Request) (call : Call)
    (program : Svc (Option LoadedAutomation)) : Prop :=
  request.manages → call.reads = true ∨ ∃ count, program.Calls (Writes request.automation count) ∧
    (request.automation = id → watch.stale slot = false → count = base + watch.count)

/-- The invariant of a run: the stored count is the first one with the increments since. -/
structure Agrees (id : Uuid) (base : Nat) (watch : Watch) (pool : Pool) : Prop where
  counts : Counts id (base + watch.count) pool.shared
  copies : pool.Attached fun slot request program _ => ∀ call next, program = .call call next →
    Copies id base watch slot request call program

section Steps

variable {id : Uuid} {base : Nat} {watch : Watch} {pool pool' : Pool}

/-- After a move: what holds of the moved request, and an observer that calls no other copy fresh
that it called stale, and none once the count has moved. -/
theorem agrees_place {watch' : Watch} {slot : Nat} {request : Request} {store : Store}
    {stop : Stop Err Input Call Resp (Option LoadedAutomation)} (agrees : Agrees id base watch pool)
    (counts : Counts id (base + watch'.count) store)
    (own : ∀ call next, stop = .calling call next →
      Copies id base watch' slot request call (Program.call call next))
    (others : ∀ other, other ≠ slot → watch'.stale other = false →
      watch.stale other = false ∧ watch'.count = watch.count) :
    Agrees id base watch' (system.place slot request stop store pool.thread) := by
  refine ⟨?_, system.attached_place (fun call next stops => ?_)
    fun other waiting different found call next same manages => ?_⟩
  · rw [system, services_shared]
    exact counts
  · intro other rest same
    cases same
    exact own call next stops
  · cases same
    obtain reads | ⟨count, calls, fresh⟩ :=
      agrees.copies other waiting found _ _ rfl manages
    · exact .inl reads
    · refine .inr ⟨count, calls, fun here not_stale => ?_⟩
      obtain ⟨before, same⟩ := others other different not_stale
      rw [same]
      exact fresh here before

/-- An observer that notes nothing. -/
theorem note_quiet {slot : Nat} {input : Input}
    {thread : Machine.Thread Err Input Call Resp Request (Option LoadedAutomation)}
    (busy : pool.thread slot = some thread)
    (other : thread.label.automation = id → increments thread.request = true →
      (exec thread.request input pool.shared).1.isOk = false)
    (quiet : loads thread.request = false) : note id watch pool (.resume slot input) = watch := by
  simp only [note, busy]
  rw [if_neg, quiet]
  · rfl
  · rintro ⟨here, counts, succeeds⟩
    rw [other here counts] at succeeds
    cases succeeds

/-- A request that goes on after it has loaded the automation still saves the count it loaded. -/
theorem copies_later {slot : Nat} {request : Request} {call next : Call} {input : Input}
    {rest : Except Err (Resp call) → Svc (Option LoadedAutomation)}
    {after : Except Err (Resp next) → Svc (Option LoadedAutomation)}
    {reply : Except Err (Resp call)}
    (copies : Copies id base watch slot request call (Program.call call rest))
    (loaded : call.reads = false) (stops : (rest reply).settle input = .calling next after) :
    Copies id base watch slot request next (Program.call next after) := by
  intro manages
  obtain reads | ⟨count, calls, fresh⟩ := copies manages
  · rw [loaded] at reads
    cases reads
  · exact .inr ⟨count, Program.everywhere_settle (calls.2 reply) stops, fresh⟩

/-- A request that loads its automation saves the count that is stored. -/
theorem loads_count {request : Request} {matching : Automation → Bool} {input : Input}
    {store : Store} {stored : Nat} {next : Call}
    {after : Except Err (Resp next) → Svc (Option LoadedAutomation)} (manages : request.manages)
    (named : ∀ automation, matching automation = true → automation.id = request.automation)
    (goes : Goes request (.findAutomations matching)
      (exec (.findAutomations matching) input store).1 input (.calling next after))
    (counts : Counts id stored store) :
    ∃ count, (Program.call next after).Calls (Writes request.automation count) ∧
      (request.automation = id → count = stored) := by
  have goes := goes manages next after rfl
  obtain ⟨_, failed⟩ | found := exec_findAutomations matching input store
  · rw [failed] at goes
    exact goes.elim
  rw [found] at goes
  obtain ⟨automation, actions, head, writes⟩ := goes
  obtain ⟨_, listed, same⟩ := List.mem_map.mp (List.mem_of_head? head)
  cases same
  obtain ⟨member, matches_it⟩ := List.mem_filter.mp listed
  rw [← named automation matches_it]
  exact ⟨automation.runCount, writes, counts.counts _ member⟩

/-- **Every orderly move keeps the invariant.** -/
theorem agrees_act {move : Move} (shaped : pool.Shaped Stands Goes)
    (agrees : Agrees id base watch pool) (orderly : Orderly id watch pool move)
    (moved : system.act pool move = some pool') :
    Agrees id base (note id watch pool move) pool' := by
  obtain ⟨slot, request, input, rfl, _, rfl⟩ |
    ⟨slot, input, ⟨label, call, rest⟩, stop, rfl, busy, here, goes, is_stop, rfl⟩ :=
      services_act shaped moved
  · refine agrees_place agrees agrees.counts (fun call next stops manages => ?_)
      fun other _ fresh => ⟨fresh, rfl⟩
    obtain ⟨_, _, begins, reads⟩ := program_begins manages input
    rw [begins] at stops
    cases stops
    exact .inl reads
  have own := agrees.copies slot _ busy _ _ rfl
  simp only at here goes own is_stop ⊢
  cases here with
  | checking manages matching =>
    rw [note_quiet busy (fun _ => nofun) rfl, exec_reads rfl]
    refine agrees_place agrees agrees.counts (fun next after stops manages => ?_)
      fun other _ fresh => ⟨fresh, rfl⟩
    exact .inl (goes manages next after stops)
  | @loading _ manages matching named =>
    have noted : note id watch pool (.resume slot input) =
        { watch with stale := Function.update watch.stale slot false } := by
      simp [note, busy, increments, loads]
    rw [noted, exec_reads rfl]
    refine agrees_place agrees agrees.counts (fun next after stops manages => .inr ?_)
      fun other different fresh => ⟨?_, rfl⟩
    · obtain ⟨count, writes, loaded⟩ := loads_count manages named (stops ▸ goes) agrees.counts
      exact ⟨count, writes, fun same _ => loaded same⟩
    · simpa only [Function.update_of_ne different] using fresh
  | replacing manages target =>
    rw [note_quiet busy (fun _ => nofun) rfl]
    refine agrees_place agrees (counts_same agrees.counts (exec_other _ _ _ rfl))
      (fun next after stops => ?_) fun other _ fresh => ⟨fresh, rfl⟩
    exact copies_later own rfl (is_stop.symm.trans stops)
  | saving manages entity actions =>
    rw [note_quiet busy (fun _ => nofun) rfl]
    refine agrees_place agrees ?_ (fun next after stops => ?_) fun other _ fresh => ⟨fresh, rfl⟩
    · obtain reads | ⟨count, calls, fresh⟩ := own manages
      · cases reads
      · exact counts_save input calls.1
          (fun same => fresh same (orderly _ entity actions busy same rfl)) agrees.counts
    · exact copies_later own rfl (is_stop.symm.trans stops)
  | counting target =>
    have counted := counts_update target
      (fun automation => { automation with runCount := automation.runCount + 1 }) 1 input
      (fun _ => rfl) (fun _ _ => rfl) agrees.counts
    obtain ⟨_, failed⟩ | ⟨succeeds, counts⟩ := counted
    · rw [note_quiet busy (fun _ _ => by simp only [failed]; rfl) rfl, failed]
      exact agrees_place agrees agrees.counts (fun _ _ _ manages => manages.elim)
        fun other _ fresh => ⟨fresh, rfl⟩
    by_cases this : target = id
    · have noted : note id watch pool (.resume slot input) = ⟨watch.count + 1, fun _ => true⟩ := by
        simp only [note, busy]
        rw [if_pos ⟨this, rfl, by rw [succeeds]; rfl⟩]
      rw [noted]
      rw [if_pos this] at counts
      exact agrees_place agrees counts (fun _ _ _ manages => manages.elim)
        fun other _ fresh => by cases fresh
    · rw [if_neg this] at counts
      rw [note_quiet busy (fun same => absurd same this) rfl]
      exact agrees_place agrees counts (fun _ _ _ manages => manages.elim)
        fun other _ fresh => ⟨fresh, rfl⟩
  | stamping target now =>
    rw [note_quiet busy (fun _ => nofun) rfl]
    refine agrees_place agrees ?_ (fun _ _ _ manages => manages.elim)
      fun other _ fresh => ⟨fresh, rfl⟩
    have stamped := counts_update target
      (fun automation => { automation with lastRunAt := some now }) 0 input (fun _ => rfl)
      (fun _ _ => rfl) agrees.counts
    obtain ⟨_, failed⟩ | ⟨_, counts⟩ := stamped
    · rw [failed]
      exact agrees.counts
    · rwa [Nat.add_zero, ite_self] at counts

end Steps

/-! ### Runs -/

/-- The stored counter of an automation. -/
def runCount (id : Uuid) (store : Store) : Option Nat :=
  ((store.db .automations).find? fun row => row.id == id).map Automation.runCount

theorem Counts.runCount {id : Uuid} {count : Nat} {store : Store} (counts : Counts id count store) :
    runCount id store = some count := by
  unfold RunCount.runCount
  obtain ⟨row, member, here⟩ := counts.stored
  cases found : (store.db .automations).find? fun row => row.id == id with
  | none => simpa [here] using List.find?_eq_none.mp found row member
  | some other =>
    have same : other.id = id := by simpa using List.find?_some found
    exact congrArg some (counts.counts other (List.mem_of_find?_eq_some found) same)

/-- What the observer notes in a run, when it starts with nothing. -/
abbrev watched (id : Uuid) (start : Store) (moves : List Move) : Watch :=
  system.observe (note id) ⟨0, fun _ => false⟩ (Machine.Pool.idle start) moves

theorem note_grows (id : Uuid) (watch : Watch) (pool : Pool) (move : Move) :
    watch.count ≤ (note id watch pool move).count := by
  cases move with
  | start slot request input => exact Nat.le_refl _
  | resume slot input =>
    simp only [note]
    cases pool.thread slot with
    | none => exact Nat.le_refl _
    | some thread =>
      dsimp only
      split
      · exact Nat.le_succ _
      · split <;> exact Nat.le_refl _

/-- **No run is lost from the counter**, and it never decreases, in every run in which no stale copy
of the automation is saved. -/
theorem no_run_lost (start : Store) (automation : Automation)
    (stored : automation ∈ start.db .automations)
    (keys : ((start.db .automations).map Automation.id).Nodup) (moves more : List Move)
    (pool pool' : Pool)
    (orderly : system.Watched (note automation.id) (Orderly automation.id) ⟨0, fun _ => false⟩
      (Machine.Pool.idle start) (moves ++ more))
    (reached : system.run (Machine.Pool.idle start) moves = some pool)
    (reached' : system.run pool more = some pool') :
    runCount automation.id pool.shared =
      some (automation.runCount + (watched automation.id start moves).count) ∧
    runCount automation.id pool'.shared =
      some (automation.runCount + (watched automation.id start (moves ++ more)).count) ∧
    (watched automation.id start moves).count ≤
      (watched automation.id start (moves ++ more)).count := by
  have begins : Agrees automation.id automation.runCount ⟨0, fun _ => false⟩
      (Machine.Pool.idle start) := by
    refine ⟨⟨⟨automation, stored, rfl⟩, fun row member same => ?_⟩, ?_⟩
    · rw [List.inj_on_of_nodup_map keys member stored same]
      rfl
    · intro slot thread busy
      cases busy
  have step (watch : Watch) (pool : Pool) (move : Move) (pool' : Pool)
      (both : pool.Shaped Stands Goes ∧ Agrees automation.id automation.runCount watch pool)
      (orderly : Orderly automation.id watch pool move)
      (moved : system.act pool move = some pool') : pool'.Shaped Stands Goes ∧
        Agrees automation.id automation.runCount (note automation.id watch pool move) pool' :=
    ⟨system.act_everywhere (fun _ request => program_shaped request) both.1 moved,
      agrees_act both.1 both.2 orderly moved⟩
  have idle : Calling.Shaped Stands Goes (Machine.Pool.idle start) ∧
      Agrees automation.id automation.runCount ⟨0, fun _ => false⟩ (Machine.Pool.idle start) :=
    ⟨fun _ _ busy => (by cases busy), begins⟩
  obtain ⟨first, second⟩ := system.watched_append reached orderly
  have here := system.watched_invariant step idle first reached
  have there := system.watched_invariant step here second reached'
  have joined : watched automation.id start (moves ++ more) =
      system.observe (note automation.id) (watched automation.id start moves) pool more :=
    system.observe_append reached
  rw [joined]
  exact ⟨here.2.counts.runCount, there.2.counts.runCount,
    system.observe_le (note_grows automation.id)⟩

/-- The condition, as a check. -/
def savesFresh (id : Uuid) (watch : Watch) (pool : Pool) : Move → Bool
  | .start _ _ _ => true
  | .resume slot _ =>
      match pool.thread slot with
      | none => true
      | some thread =>
          match thread.request with
          | .saveAutomation _ _ => thread.label.automation != id || !watch.stale slot
          | _ => true

theorem orderly_of {id : Uuid} {watch : Watch} {pool : Pool} {move : Move}
    (fresh : savesFresh id watch pool move = true) : Orderly id watch pool move := by
  cases move with
  | start slot request input => trivial
  | resume slot input =>
    intro thread entity actions busy here saves
    simpa [savesFresh, busy, here, saves] using fresh

theorem orderly_run {id : Uuid} {start : Store} {moves : List Move}
    (fresh : system.checksWatched (note id) (savesFresh id) ⟨0, fun _ => false⟩
      (Machine.Pool.idle start) moves = true) :
    system.Watched (note id) (Orderly id) ⟨0, fun _ => false⟩ (Machine.Pool.idle start) moves :=
  system.watched_of_checks (fun _ _ _ => orderly_of) fresh

namespace Example

def automation : Automation :=
  ⟨"a", "w", none, "welcome", none, false, .message, [], 0, none⟩

/-- A workspace with its owner and one automation. -/
def start : Store :=
  ⟨fun | .members => [⟨"w", "u", "owner"⟩] | .automations => [automation] | _ => [], [], 0, [],
    fun _ _ => none⟩

/-- An activation, up to its save. -/
def activation : List Move :=
  .start 0 (.setActive "a" (some "w") "u" true) WaAutomation.Example.fine ::
    List.replicate 3 (.resume 0 WaAutomation.Example.fine)

def save : Move := .resume 0 WaAutomation.Example.fine

/-- The bookkeeping of a finished run. -/
def marking : List Move :=
  .start 1 (.markRun "a") WaAutomation.Example.fine ::
    List.replicate 2 (.resume 1 WaAutomation.Example.fine)

end Example

theorem no_run_lost_example :
    ∃ pool pool', system.run (Machine.Pool.idle Example.start)
        (Example.activation ++ [Example.save]) = some pool ∧
      system.run pool Example.marking = some pool' ∧
      runCount "a" pool'.shared = some (0 + (watched "a" Example.start
        (Example.activation ++ [Example.save] ++ Example.marking)).count) := by
  refine ⟨_, _, rfl, rfl, ?_⟩
  exact (no_run_lost Example.start Example.automation List.mem_cons_self (List.nodup_singleton _)
    (Example.activation ++ [Example.save]) Example.marking _ _
    (orderly_run rfl) rfl rfl).2.1

/-- **A run lost**: the automation is activated while a run of it finishes. Nothing is in flight any
more, one increment was made, and the counter is where it was before. -/
theorem run_lost :
    ∃ pool pool', system.run (Machine.Pool.idle Example.start)
        (Example.activation ++ Example.marking) = some pool ∧
      system.act pool Example.save = some pool' ∧ (∀ slot, pool'.thread slot = none) ∧
      (watched "a" Example.start (Example.activation ++ Example.marking)).count = 1 ∧
      runCount "a" pool.shared = some 1 ∧ runCount "a" pool'.shared = some 0 := by
  refine ⟨_, _, rfl, rfl, fun slot => ?_, rfl, rfl, rfl⟩
  by_cases second : slot = 1
  · subst second
    rfl
  by_cases first : slot = 0
  · subst first
    rfl
  have unused : ∀ move ∈ Example.activation ++ Example.marking ++ [Example.save],
      move.slot ≠ slot := by
    simp [Example.activation, Example.marking, Example.save, Machine.Move.slot, Ne.symm first,
      Ne.symm second]
  have reached : system.run (Machine.Pool.idle Example.start)
      (Example.activation ++ Example.marking ++ [Example.save]) = some _ := rfl
  exact system.run_other unused reached

end WaAutomation.RunCount
