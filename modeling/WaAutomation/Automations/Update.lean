/-
**The action list of an automation while it is updated.**

`AutomationsService.update` deletes the stored actions in one call and writes the new ones with the
automation in another. Between the two, and for ever when the second fails, the automation has no
actions.

* `Atomic` says that an update that throws leaves the tables alone, and that what a run of an
  automation loads meanwhile is the old list or the new one;
* `Kept` is what the runs of automations leave alone, and `update_safe` meets an update in any
  surroundings that do;
* `atomic_iff` says when an update is atomic: when it is refused, when it does not give actions, or
  when there are none stored; `torn` is an update whose second call fails.
-/

import WaAutomation.Model.Services

set_option linter.unusedSectionVars false

namespace WaAutomation.Update

open Library Program

/-! ### Writing action rows -/

section Rows

variable {carries : Uuid → Bool}

/-- New rows are appended. -/
theorem putActions_new {rows : List AutomationAction} (new : ∀ id, carries id = false) :
    ∀ {db db' : Db}, Store.putActions carries db rows = .ok db' →
      db' .actions = db .actions ++ rows := by
  induction rows with
  | nil =>
    intro db db' put
    cases put
    exact (List.append_nil _).symm
  | cons row rows ih =>
    intro db db' put
    unfold Store.putActions Store.putAction at put
    rw [new, Bool.false_and, if_neg Bool.false_ne_true] at put
    cases first : db.insert .actions row with
    | error error =>
      rw [first] at put
      cases put
    | ok next =>
      rw [first] at put
      rw [ih put, (Db.insert_ok first).2.2]
      simp only [Db.push, Db.set_same, List.append_assoc, List.cons_append, List.nil_append]
      rfl

/-- Stored rows written over themselves stay as they are. -/
theorem putActions_stored {rows : List AutomationAction}
    (carried : ∀ row ∈ rows, carries row.id = true) :
    ∀ {db db' : Db}, ((db .actions).map (Row.key .actions)).Nodup → rows ⊆ db .actions →
      Store.putActions carries db rows = .ok db' → db' .actions = db .actions := by
  induction rows with
  | nil =>
    intro db db' _ _ put
    cases put
    rfl
  | cons row rows ih =>
    intro db db' keys stored put
    have member : row ∈ db .actions := stored List.mem_cons_self
    have found : (db .actions).any (Db.sameKey row) = true :=
      List.any_eq_true.mpr ⟨row, member, decide_eq_true rfl⟩
    unfold Store.putActions Store.putAction at put
    rw [carried row List.mem_cons_self, Bool.true_and, if_pos found] at put
    cases first : db.replace .actions row with
    | error error =>
      rw [first] at put
      cases put
    | ok next =>
      rw [first] at put
      have same : next .actions = db .actions := by
        rw [(Db.replace_ok first).2, Db.put, Db.set_same]
        exact Rows.put_stored keys member
      rw [ih (fun other there => carried other (List.mem_cons_of_mem _ there)) (by rwa [same])
        (by rw [same]; exact fun other there => stored (List.mem_cons_of_mem _ there)) put, same]

theorem actionRows_loaded (input : Input) (id : Uuid) (rows : List AutomationAction) :
    ∀ index, Store.actionRows input id index (rows.map .loaded) = rows := by
  induction rows with
  | nil => exact fun _ => rfl
  | cons row rows ih => exact fun index => congrArg (row :: ·) (ih (index + 1))

/-- The action as a body gives it. -/
def content (action : AutomationAction) : ActionDto :=
  ⟨action.order, action.actionType, action.actionConfig⟩

theorem actionRows_created (input : Input) (id : Uuid) (given : List ActionDto) : ∀ index,
    (Store.actionRows input id index (given.map AutomationsService.created)).map content = given ∧
      ∀ row ∈ Store.actionRows input id index (given.map AutomationsService.created),
        row.automationId = id := by
  induction given with
  | nil => exact fun _ => ⟨rfl, fun _ member => by cases member⟩
  | cons dto given ih =>
    intro index
    obtain ⟨contents, owned⟩ := ih (index + 1)
    exact ⟨congrArg (dto :: ·) contents, List.forall_mem_cons.mpr ⟨rfl, owned⟩⟩

end Rows

/-! ### What an update and the runs leave -/

/-- An automation without what a run writes. -/
def settings (automation : Automation) : Automation :=
  { automation with runCount := 0, lastRunAt := none }

/-- What the runs of automations leave alone. -/
structure Kept (store store' : Store) : Prop where
  members : store'.db .members = store.db .members
  actions : store'.db .actions = store.db .actions
  automations : (store'.db .automations).map settings = (store.db .automations).map settings

theorem Kept.refl (store : Store) : Kept store store := ⟨rfl, rfl, rfl⟩

theorem Kept.trans {first second third : Store} (one : Kept first second)
    (two : Kept second third) : Kept first third :=
  ⟨two.members.trans one.members, two.actions.trans one.actions,
    two.automations.trans one.automations⟩

/-- A call a run makes. -/
def Harmless (call : Call) : Prop :=
  call.writes .members = false ∧ call.writes .actions = false ∧
    (call.writes .automations = false ∨
      ∃ matching change, call = .update .automations matching change ∧
      ∀ automation, settings (change automation) = settings automation)

theorem harmless_kept {call : Call} (harmless : Harmless call) (input : Input) (store : Store) :
    Kept store (exec call input store).2 := by
  obtain ⟨members, actions, automations⟩ := harmless
  refine ⟨exec_other call input store members, exec_other call input store actions, ?_⟩
  obtain quiet | ⟨matching, change, rfl, same⟩ := automations
  · rw [exec_other call input store quiet]
  · obtain ⟨_, failed⟩ | updated := exec_update .automations matching change input store
    · rw [failed]
    · rw [updated]
      simp only [Db.set_same, List.map_map]
      refine List.map_congr_left fun automation _ => ?_
      simp only [Function.comp_apply]
      split
      · exact same automation
      · rfl

/-- The runs of automations are harmless. -/
theorem process_harmless (h : Helpers) (data : AutomationJob) :
    (AutomationProcessor.process h data).Calls Harmless := by
  refine AutomationProcessor.process_calls (fun call reads => ?_) (fun _ => ⟨rfl, rfl, .inl rfl⟩)
    (fun _ => ⟨rfl, rfl, .inl rfl⟩) (fun _ => ⟨rfl, rfl, .inl rfl⟩) ?_
  · exact ⟨Call.reads_writes reads _, Call.reads_writes reads _, .inl (Call.reads_writes reads _)⟩
  · refine calls_bind (calls_call ⟨rfl, rfl, .inr ⟨_, _, rfl, fun _ => rfl⟩⟩) fun _ => ?_
    refine calls_bind calls_now fun _ => ?_
    exact calls_call ⟨rfl, rfl, .inr ⟨_, _, rfl, fun _ => rfl⟩⟩

/-- A list of actions that is the old one, or the one given. -/
def Complete (dto : UpdateAutomationDto) (old actions : List AutomationAction) : Prop :=
  actions = old ∨ ∃ given, dto.actions = .value given ∧ actions.map content = given

/-! ### Who may update what -/

section Guards

variable (store : Store) (id : Uuid) (workspaceId : Option Uuid) (userId : Uuid)

/-- The membership the guard finds. -/
def membership : Option WorkspaceMember :=
  (store.db .members).find? fun member =>
    Svc.whereIs workspaceId member.workspaceId && member.userId == userId

/-- The automation the service finds. -/
def named (automation : Automation) : Bool :=
  automation.id == id && Svc.whereIs workspaceId automation.workspaceId

/-- The update is not refused: the user manages the workspace, and the automation is in it. -/
def Admitted : Prop :=
  (membership store workspaceId userId).any (fun member => managers.contains member.role) = true ∧
    (store.db .automations).any (named id workspaceId) = true

end Guards

/-! ### An update among runs -/

section Among

variable (related : Store → Store → Prop) (base : Store) (id : Uuid) (dto : UpdateAutomationDto)

/-- Surroundings that move the store along a relation, and look at the action list before each
call. -/
def around : Surroundings Input Call Store where
  rely _ _ store store' := related store store'
  ok _ _ store := Complete dto (base.actionsOf id) (store.actionsOf id)

/-- Where an update ends: with a complete list, and when it throws, with the store it began in. -/
def Ended {α : Type} (result : Except Err α) (store : Store) : Prop :=
  match result with
  | .ok _ => Complete dto (base.actionsOf id) (store.actionsOf id)
  | .error _ => related base store

variable {related base id dto}

theorem complete_kept {store : Store} (kept : Kept base store) :
    Complete dto (base.actionsOf id) (store.actionsOf id) := by
  unfold Store.actionsOf
  rw [kept.actions]
  exact .inl rfl

/-- A relation along which the runs of automations, and no more, may move the store. -/
structure Framing (related : Store → Store → Prop) : Prop where
  trans : ∀ {first second third}, related first second → related second third →
    related first third
  keeps : ∀ {store store'}, related store store' → Kept store store'

theorem reads_stable (framing : Framing related) :
    Stable exec (around related base id dto) (fun call => call.reads = true) (related base) := by
  intro call reads store store' input begun moved
  have here := framing.trans begun moved
  rw [exec_reads reads]
  exact ⟨complete_kept (framing.keeps here), here⟩

/-- The save of an automation: it fails, or writes the given actions over those of the base. -/
theorem safe_save {entity : Entity Automation} {actions : List ActionEntity}
    {result : List AutomationAction → LoadedAutomation} {store : Store} (framing : Framing related)
    (begun : related base store)
    (writes : ∀ (input : Input) (written db : Db), written .actions = base.db .actions →
      Store.putActions (Store.carries actions) written
        (Store.actionRows input entity.row.id 0 actions) = .ok db →
      Complete dto (base.actionsOf id)
        ((db .actions).filter fun action => action.automationId == id)) :
    (Svc.call (.saveAutomation entity actions) >>= fun rows => .ret (result rows)).Safe exec
      (around related base id dto) (Ended related base id dto) store := by
  refine safe_bind (safe_perform fun store' input moved => ?_)
  have here := framing.trans begun moved
  refine ⟨complete_kept (framing.keeps here), ?_⟩
  obtain ⟨error, failed⟩ | ⟨db, put, saved⟩ := exec_saveAutomation entity actions input store'
  · rw [failed]
    exact here
  · rw [saved]
    refine writes input _ db ?_ put
    obtain ⟨_, same, others⟩ := store'.save_snd .automations entity
    rw [same]
    exact (others .actions nofun).trans (framing.keeps here).actions

/-- Stored actions written over themselves are the old list. -/
theorem loaded_complete (keys : ((base.db .actions).map (Row.key .actions)).Nodup) {input : Input}
    {written db : Db} (before : written .actions = base.db .actions) {owner : Uuid}
    (put : Store.putActions (Store.carries ((base.actionsOf id).map .loaded)) written
      (Store.actionRows input owner 0 ((base.actionsOf id).map .loaded)) = .ok db) :
    Complete dto (base.actionsOf id)
      ((db .actions).filter fun action => action.automationId == id) := by
  rw [actionRows_loaded] at put
  rw [← before] at keys
  have after := putActions_stored (fun row member => ?_) keys ?_ put
  · rw [after, before]
    exact .inl rfl
  · exact List.any_eq_true.mpr ⟨_, List.mem_map_of_mem member, beq_self_eq_true row.id⟩
  · rw [before]
    exact List.filter_subset_self _

/-- New actions, where there was none, are the list that was given. -/
theorem created_complete {given : List ActionDto} (body : dto.actions = .value given)
    (none : base.actionsOf id = []) {input : Input} {written db : Db}
    (before : written .actions = base.db .actions)
    (put : Store.putActions (Store.carries (given.map AutomationsService.created)) written
      (Store.actionRows input id 0 (given.map AutomationsService.created)) = .ok db) :
    Complete dto (base.actionsOf id)
      ((db .actions).filter fun action => action.automationId == id) := by
  have after := putActions_new (fun row => ?_) put
  · obtain ⟨contents, owned⟩ := actionRows_created input id given 0
    refine .inr ⟨given, body, ?_⟩
    unfold Store.actionsOf at none
    rw [after, before, List.filter_append, none, List.nil_append,
      List.filter_eq_self.mpr fun row member => beq_iff_eq.mpr (owned row member), contents]
  · rw [Store.carries, List.any_eq_false]
    intro entity member
    obtain ⟨_, _, rfl⟩ := List.mem_map.mp member
    exact Bool.false_ne_true

/-- A deletion where there is nothing to delete. -/
theorem erase_none {store : Store} (kept : Kept base store) (none : base.actionsOf id = []) :
    store.db.erase .actions (fun action => action.automationId == id) = store.db := by
  have same : (store.db .actions).filter (fun action => !(action.automationId == id)) =
      store.db .actions := by
    rw [kept.actions, List.filter_eq_self]
    intro action member
    have foreign := List.filter_eq_nil_iff.mp none action member
    rw [Bool.eq_false_of_not_eq_true foreign]
    rfl
  unfold Db.erase
  rw [same]
  exact Function.update_eq_self _ _

/-- The deletion of no actions. -/
theorem safe_erase_none {rest : Svc LoadedAutomation} {store : Store} (framing : Framing related)
    (none : base.actionsOf id = []) (begun : related base store)
    (continues : ∀ store', related base store' →
      rest.Safe exec (around related base id dto) (Ended related base id dto) store') :
    (Svc.call (.deleteActions id) >>= fun _ => rest).Safe exec (around related base id dto)
      (Ended related base id dto) store := by
  refine safe_bind (safe_perform fun store' input moved => ?_)
  have here := framing.trans begun moved
  refine ⟨complete_kept (framing.keeps here), ?_⟩
  obtain ⟨_, _, _, failed⟩ | performed := exec_cases (.deleteActions id) input store'
  · rw [failed]
    exact here
  · rw [performed]
    simp only [perform, erase_none (framing.keeps here) none]
    exact continues store' here

variable {workspaceId : Option Uuid} {userId : Uuid}

/-- The guards of an update: it is refused, or admitted and given the stored actions. -/
theorem guards_safe {rest : LoadedAutomation → Svc LoadedAutomation} {store : Store}
    (framing : Framing related) (begun : related base store)
    (continues : ∀ store' automation, Admitted base id workspaceId userId → related base store' →
      automation.id = id → (rest (automation, base.actionsOf id)).Safe exec
        (around related base id dto) (Ended related base id dto) store') :
    (WorkspacesService.assertRole workspaceId userId managers >>= fun _ =>
      AutomationsService.findOne id workspaceId userId >>= rest).Safe exec
        (around related base id dto) (Ended related base id dto) store := by
  have stable : Stable exec (around related base id dto) (fun call => call.reads = true)
      (related base) := reads_stable framing
  unfold WorkspacesService.assertRole WorkspacesService.assertMember AutomationsService.findOne
  simp only [Program.bind_assoc]
  refine safe_findOne_bind stable rfl begun (fun _ _ kept => kept) fun store' kept => ?_
  have members : (store'.db .members).find? (fun member =>
      Svc.whereIs workspaceId member.workspaceId && member.userId == userId) =
        membership base workspaceId userId := by
    rw [(framing.keeps kept).members]
    rfl
  rw [members]
  cases found : membership base workspaceId userId with
  | none => exact kept
  | some member =>
    simp only [Program.pure_eq, Program.ret_bind]
    by_cases manages : managers.contains member.role = true
    · rw [if_pos manages]
      simp only [Program.ret_bind]
      refine safe_stable_bind stable (WorkspacesService.assertMember_reads workspaceId userId) kept
        (fun _ _ kept => kept) fun _ store' kept => ?_
      refine safe_findAutomations_bind stable rfl kept (fun _ _ kept => kept) fun store' kept => ?_
      rw [List.head?_map]
      cases head : ((store'.db .automations).filter fun automation =>
          automation.id == id && Svc.whereIs workspaceId automation.workspaceId).head? with
      | none => exact kept
      | some automation =>
        obtain ⟨stored, matching⟩ := List.mem_filter.mp (List.mem_of_head? head)
        have same : automation.id = id := beq_iff_eq.mp (Bool.and_eq_true_iff.mp matching).1
        have actions : store'.actionsOf automation.id = base.actionsOf id := by
          unfold Store.actionsOf
          rw [same, (framing.keeps kept).actions]
        have loaded := continues store' automation ⟨?_, ?_⟩ kept same
        · simp only [Option.map_some, actions]
          exact loaded
        · rw [found]
          exact manages
        · have among : settings automation ∈ (base.db .automations).map settings := by
            rw [← (framing.keeps kept).automations]
            exact List.mem_map_of_mem stored
          obtain ⟨first, member, alike⟩ := List.mem_map.mp among
          refine List.any_eq_true.mpr ⟨first, member, ?_⟩
          have ids : (settings first).id = (settings automation).id := by rw [alike]
          have homes : (settings first).workspaceId = (settings automation).workspaceId :=
            by rw [alike]
          change (first.id == id && Svc.whereIs workspaceId first.workspaceId) = true
          rw [show first.id = automation.id from ids,
            show first.workspaceId = automation.workspaceId from homes]
          exact matching
    · rw [if_neg manages]
      exact kept

/-- **An update is safe among runs** when it is refused, gives no actions, or finds none. -/
theorem update_safe {store : Store} (framing : Framing related) (begun : related base store)
    (keys : ((base.db .actions).map (Row.key .actions)).Nodup)
    (condition : ¬Admitted base id workspaceId userId ∨ dto.actions = .undefined ∨
      base.actionsOf id = []) :
    (AutomationsService.update id workspaceId userId dto).Safe exec (around related base id dto)
      (Ended related base id dto) store := by
  refine guards_safe framing begun fun store' automation admitted kept same => ?_
  cases body : dto.actions with
  | undefined =>
    exact safe_save framing kept fun _ _ _ before put => loaded_complete keys before put
  | null =>
    have none : base.actionsOf id = [] := by simpa [admitted, body] using condition
    unfold AutomationsService.replaceActions
    simp only [Program.bind_assoc, Program.throw_bind]
    exact safe_erase_none framing none kept fun store' kept => kept
  | value given =>
    have none : base.actionsOf id = [] := by simpa [admitted, body] using condition
    unfold AutomationsService.replaceActions
    simp only [Program.bind_assoc, Program.pure_eq, Program.ret_bind]
    refine safe_erase_none framing none kept fun store' kept => ?_
    refine safe_save framing kept fun input written db before put => ?_
    rw [same] at put
    exact created_complete body none before put

end Among

/-! ### The system -/

inductive Request where
  | update (id : Uuid) (workspaceId : Option Uuid) (userId : Uuid) (dto : UpdateAutomationDto)
  | run (data : AutomationJob)

def Request.program (h : Helpers) : Request → Svc (Option LoadedAutomation)
  | .update id workspaceId userId dto => do
      return some (← AutomationsService.update id workspaceId userId dto)
  | .run data => do
      let _ ← AutomationProcessor.process h data
      return none

def system (h : Helpers) := services (Request.program h)

abbrev Pool := Calling Request (Option LoadedAutomation)

abbrev Move := Machine.Move Input Nat fun _ => Request

/-- Only runs of automations start. -/
def Runs (moves : List Move) : Prop :=
  ∀ slot request input, .start slot request input ∈ moves → ∃ data, request = .run data

/-- **An update is atomic**: when it throws, the automation and its actions are as before; and
however it is interleaved with runs of automations, a run that loads the automation loads the old
list of actions or the new one. -/
structure Atomic (h : Helpers) (store : Store) (id : Uuid) (workspaceId : Option Uuid)
    (userId : Uuid)
    (dto : UpdateAutomationDto) : Prop where
  throws : ∀ (tape : Program.Tape Input) (error : Err),
    ((AutomationsService.update id workspaceId userId dto).run exec tape store).1 = .error error →
      ((AutomationsService.update id workspaceId userId dto).run exec tape store).2.2.db
        .automations =
        store.db .automations ∧
      ((AutomationsService.update id workspaceId userId dto).run exec tape store).2.2.db .actions =
        store.db .actions
  loads : ∀ (input : Input) (moves : List Move) (pool : Pool), Runs moves →
    (system h).run (Machine.Pool.idle store)
      (.start 0 (.update id workspaceId userId dto) input :: moves) = some pool →
    ∀ reading rows, (exec (.findAutomations fun automation => automation.id == id) reading
      pool.shared).1 = .ok rows → ∀ loaded ∈ rows, Complete dto (store.actionsOf id) loaded.2

/-! ### Sufficient -/

section Sufficient

variable {h : Helpers} {base : Store} {id : Uuid} {workspaceId : Option Uuid} {userId : Uuid}
  {dto : UpdateAutomationDto} {pool pool' : Pool} {move : Move}

theorem kept_framing : Framing Kept := ⟨Kept.trans, id⟩

theorem same_framing : Framing fun store store' : Store => store' = store :=
  ⟨fun first second => second.trans first, fun same => same ▸ Kept.refl _⟩

/-- What holds of the programs in flight: the update is safe, and the runs are harmless. -/
inductive Standing (base : Store) (id : Uuid) (workspaceId : Option Uuid) (userId : Uuid)
    (dto : UpdateAutomationDto) : Nat → Request → Svc (Option LoadedAutomation) → Store → Prop
  | updating {program : Svc (Option LoadedAutomation)} {store : Store}
      (safe : program.Safe exec (around Kept base id dto) (Ended Kept base id dto) store) :
      Standing base id workspaceId userId dto 0 (.update id workspaceId userId dto) program store
  | running {slot : Nat} {data : AutomationJob} {program : Svc (Option LoadedAutomation)}
      {store : Store} (harmless : program.Calls Harmless) :
      Standing base id workspaceId userId dto slot (.run data) program store

/-- The invariant of a run of the system. -/
structure Whole (base : Store) (id : Uuid) (workspaceId : Option Uuid) (userId : Uuid)
    (dto : UpdateAutomationDto) (pool : Pool) : Prop where
  complete : Complete dto (base.actionsOf id) (pool.shared.actionsOf id)
  standing : pool.Attached (Standing base id workspaceId userId dto)

theorem ended_complete {α : Type} {result : Except Err α} {store : Store}
    (ended : Ended Kept base id dto result store) :
    Complete dto (base.actionsOf id) (store.actionsOf id) := by
  cases result with
  | ok value => exact ended
  | error error => exact complete_kept ended

theorem whole_place {slot : Nat} {request : Request} {store : Store}
    {stop : Stop Err Input Call Resp (Option LoadedAutomation)}
    (complete : Complete dto (base.actionsOf id) (store.actionsOf id))
    (own : ∀ call next, stop = .calling call next →
      Standing base id workspaceId userId dto slot request (Program.call call next) store)
    (others : ∀ other waiting, other ≠ slot → pool.thread other = some waiting →
      Standing base id workspaceId userId dto other waiting.label waiting.program store) :
    Whole base id workspaceId userId dto
      ((system h).place slot request stop store pool.thread) := by
  have left : ((system h).place slot request stop store pool.thread).shared = store :=
    services_shared slot request stop store pool.thread
  refine ⟨by rw [left]; exact complete, (system h).attached_place own ?_⟩
  rw [left]
  exact others

/-- **Every move keeps the list complete.** -/
theorem whole_act (whole : Whole base id workspaceId userId dto pool)
    (runs : ∀ slot request input, move = .start slot request input → ∃ data, request = .run data)
    (moved : (system h).act pool move = some pool') :
    Whole base id workspaceId userId dto pool' := by
  obtain ⟨slot, request, input, rfl, free, _, rfl⟩ | ⟨slot, input, ⟨label, call, next⟩,
      rfl, busy, rfl⟩ :=
    (system h).act_cases moved
  · obtain ⟨data, rfl⟩ := runs slot request input rfl
    refine whole_place whole.complete (fun call next stops => .running ?_)
      fun other waiting _ found => whole.standing other waiting found
    have harmless : (Request.program h (.run data)).Calls Harmless :=
      calls_bind (process_harmless h data) fun _ => trivial
    exact everywhere_settle harmless stops
  have own := whole.standing slot _ busy
  cases own with
  | updating safe =>
    obtain ⟨_, later⟩ := safe pool.shared input (Kept.refl _)
    have after := safe_settle input later
    dsimp only at after
    refine whole_place ?_ (fun other rest stops => ?_) fun other waiting different found => ?_
    · cases stops : (next (exec call input pool.shared).1).settle input with
      | finished result =>
        rw [stops] at after
        exact ended_complete after
      | calling request rest =>
        rw [stops] at after
        exact (after _ input (Kept.refl _)).1
    · rw [show (next (exec call input pool.shared).1).settle input = .calling other rest
        from stops] at after
      exact .updating after
    · obtain ⟨label, request, rest⟩ := waiting
      have waits := whole.standing other _ found
      cases waits with
      | updating _ => exact absurd rfl different
      | running harmless => exact .running harmless
  | running harmless =>
    have kept := harmless_kept harmless.1 input pool.shared
    refine whole_place ?_ (fun other rest stops => ?_) fun other waiting _ found => ?_
    · have same : (exec call input pool.shared).2.actionsOf id = pool.shared.actionsOf id := by
        unfold Store.actionsOf
        rw [kept.actions]
      rw [show ((system h).exec call input pool.shared).2.actionsOf id = _ from same]
      exact whole.complete
    · exact .running (everywhere_settle (harmless.2 _) stops)
    · obtain ⟨label, request, rest⟩ := waiting
      have waits := whole.standing other _ found
      cases waits with
      | updating safe => exact .updating (safe_rely (fun _ _ => Kept.trans kept) safe)
      | running harmless => exact .running harmless

theorem request_safe (keys : ((base.db .actions).map (Row.key .actions)).Nodup)
    (condition : ¬Admitted base id workspaceId userId ∨ dto.actions = .undefined ∨
      base.actionsOf id = []) :
    (Request.program h (.update id workspaceId userId dto)).Safe exec (around Kept base id dto)
      (Ended Kept base id dto) base := by
  refine safe_bind (safe_mono (fun result store ended => ?_)
    (update_safe kept_framing (Kept.refl base) keys condition))
  cases result with
  | ok value => exact ended
  | error error => exact ended

/-- The condition is enough. -/
theorem atomic_of (keys : ((base.db .actions).map (Row.key .actions)).Nodup)
    (condition : ¬Admitted base id workspaceId userId ∨ dto.actions = .undefined ∨
      base.actionsOf id = []) : Atomic h base id workspaceId userId dto where
  throws tape error throws := by
    have ended := safe_run (fun _ _ _ => rfl) tape
      (update_safe same_framing (rfl : base = base) keys condition)
    rw [throws] at ended
    rw [show _ = base from ended]
    exact ⟨rfl, rfl⟩
  loads input moves pool runs reached reading rows loads loaded member := by
    obtain ⟨first, begins, goes⟩ := Option.bind_eq_some_iff.mp reached
    have safe := request_safe (h := h) keys condition
    have whole : Whole base id workspaceId userId dto first := by
      cases begins
      refine whole_place (.inl rfl) (fun call next stops => ?_) fun _ _ _ busy => ?_
      · have after := safe_settle input safe
        change (Request.program h (.update id workspaceId userId dto)).settle input = _ at stops
        rw [stops] at after
        exact .updating after
      · cases busy
    have meets : (system h).Meets (fun _ move => ∀ slot request input,
        move = .start slot request input → ∃ data, request = .run data) first moves :=
      (system h).meets_of_forall (fun move member _ slot request input same =>
        runs slot request input (by rw [← same]; exact member)) first
    have kept := (system h).run_invariant (fun _ _ _ => whole_act) moves first pool whole meets goes
    obtain ⟨_, failed⟩ | found :=
      exec_findAutomations (fun automation => automation.id == id) reading
      pool.shared
    · rw [failed] at loads
      cases loads
    · rw [found] at loads
      cases loads
      obtain ⟨automation, stored, rfl⟩ := List.mem_map.mp member
      have same : automation.id = id := beq_iff_eq.mp (List.mem_filter.mp stored).2
      have whole := kept.complete
      rw [← same] at whole ⊢
      exact whole

end Sufficient

/-! ### Necessary -/

section Necessary

variable {store : Store} {id : Uuid} {workspaceId : Option Uuid} {userId : Uuid}
  {dto : UpdateAutomationDto}

/-- An input that fails or not. -/
def answer (fault : Option String) : Input :=
  ⟨fault, 0, fun _ => "", "", .error (none, ""), .ok 200, 0⟩

/-- The inputs of an update whose save fails: it is the call after three lookups and the
deletion. -/
def tape : Program.Tape Input :=
  ⟨answer none, fun index => if index = 4 then answer (some "") else answer none⟩

theorem findOne_run (table : Table) (matching : Row table → Bool) {tape : Program.Tape Input}
    (clear : (tape.later 0).fault = none) : (Svc.findOne table matching).run exec tape store =
      (.ok ((store.db table).find? matching), tape.advance, store) := by
  unfold Svc.findOne Svc.find Svc.call
  simp only [run_bind, run_perform, exec_clear _ clear, perform, Program.pure_eq, Program.run,
    List.head?_filter]

theorem assertMember_run {member : WorkspaceMember} {tape : Program.Tape Input}
    (clear : (tape.later 0).fault = none)
    (found : membership store workspaceId userId = some member) :
    (WorkspacesService.assertMember workspaceId userId).run exec tape store =
      (.ok member, tape.advance, store) := by
  unfold membership at found
  unfold WorkspacesService.assertMember
  rw [run_bind, findOne_run .members _ clear]
  dsimp only
  rw [found]
  rfl

/-- An admitted update that gives actions can throw after the deletion. -/
theorem torn_run (admitted : Admitted store id workspaceId userId)
    (body : dto.actions ≠ .undefined) :
    ∃ error, ((AutomationsService.update id workspaceId userId dto).run exec tape store).1 =
        .error error ∧
      ((AutomationsService.update id workspaceId userId dto).run exec tape store).2.2.db .actions =
        (store.db .actions).filter fun action => !(action.automationId == id) := by
  obtain ⟨manages, present⟩ := admitted
  cases found : membership store workspaceId userId with
  | none =>
    rw [found] at manages
    cases manages
  | some member =>
    rw [found] at manages
    have manages : managers.contains member.role = true := manages
    obtain ⟨first, stored, matching⟩ := List.any_eq_true.mp present
    obtain ⟨automation, head⟩ : ∃ automation, ((store.db .automations).filter fun automation =>
        automation.id == id && Svc.whereIs workspaceId automation.workspaceId).head? =
          some automation := by
      refine Option.isSome_iff_exists.mp ?_
      rw [List.head?_filter, List.find?_isSome]
      exact ⟨first, stored, matching⟩
    unfold AutomationsService.update WorkspacesService.assertRole AutomationsService.findOne
    simp only [Program.bind_assoc]
    rw [run_bind, assertMember_run rfl found]
    dsimp only
    rw [if_pos manages]
    simp only [Program.pure_eq, Program.ret_bind]
    rw [run_bind, assertMember_run rfl found]
    dsimp only
    rw [run_bind]
    unfold Svc.call
    rw [run_perform, exec_clear _ rfl]
    simp only [perform, List.head?_map, head, Option.map_some, Program.ret_bind]
    cases given : dto.actions with
    | undefined => exact absurd given body
    | null => exact ⟨_, rfl, rfl⟩
    | value list => exact ⟨_, rfl, rfl⟩

end Necessary

/-- **When an update is atomic**: when it is refused, when it gives no actions, or when none are
stored. -/
theorem atomic_iff (h : Helpers) (store : Store) (id : Uuid) (workspaceId : Option Uuid)
    (userId : Uuid) (dto : UpdateAutomationDto)
    (keys : ((store.db .actions).map AutomationAction.id).Nodup) :
    Atomic h store id workspaceId userId dto ↔
      ¬Admitted store id workspaceId userId ∨ dto.actions = .undefined ∨
        store.actionsOf id = [] := by
  constructor
  · intro atomic
    by_cases admitted : Admitted store id workspaceId userId
    · by_cases body : dto.actions = .undefined
      · exact .inr (.inl body)
      · obtain ⟨error, throws, left⟩ := torn_run admitted body
        have same := (atomic.throws tape error throws).2
        rw [left, List.filter_eq_self] at same
        refine .inr (.inr (List.filter_eq_nil_iff.mpr fun action member owned => ?_))
        have foreign := same action member
        rw [owned] at foreign
        cases foreign
    · exact .inl admitted
  · refine atomic_of ?_
    have split : (store.db .actions).map (Row.key .actions) =
        ((store.db .actions).map AutomationAction.id).map fun id => (id, "") := by
      rw [List.map_map]
      rfl
    rw [split]
    exact keys.map fun first second same => congrArg Prod.fst same

namespace Example

def action : AutomationAction := ⟨"1", "a", 1, .delay, []⟩

/-- A workspace with its owner, and an automation with one action. -/
def start : Store :=
  ⟨fun
    | .members => [⟨"w", "u", "owner"⟩]
    | .automations => [⟨"a", "w", none, "welcome", none, false, .message, [], 0, none⟩]
    | .actions => [action]
    | _ => [], [], 0, [], fun _ _ => none⟩

def tape : Program.Tape Input := ⟨WaAutomation.Example.fine, fun _ => WaAutomation.Example.fine⟩

/-- A body that gives a name. -/
def rename : UpdateAutomationDto :=
  ⟨.value "hello", .undefined, .undefined, .undefined, .undefined, .undefined⟩

/-- A body that gives an action whose order is an integer, but no smallint. -/
def reorder : UpdateAutomationDto :=
  ⟨.undefined, .undefined, .undefined, .undefined, .undefined, .value [⟨40000, .delay, []⟩]⟩

end Example

theorem atomic_iff_example :
    Atomic WaAutomation.Example.helpers Example.start "a" (some "w") "u" Example.rename :=
  (atomic_iff WaAutomation.Example.helpers Example.start "a" (some "w") "u" Example.rename
    (List.nodup_singleton _)).mpr (.inr (.inl rfl))

/-- **An update that is not atomic**, although nothing fails but the check of a column: it throws,
and the automation is left without actions. -/
theorem torn :
    ((AutomationsService.update "a" (some "w") "u" Example.reorder).run exec Example.tape
      Example.start).1 = .error checkViolation ∧
    Example.start.actionsOf "a" = [Example.action] ∧
    ((AutomationsService.update "a" (some "w") "u" Example.reorder).run exec Example.tape
      Example.start).2.2.actionsOf "a" = [] ∧
    ¬Atomic WaAutomation.Example.helpers Example.start "a" (some "w") "u" Example.reorder := by
  refine ⟨rfl, rfl, rfl, fun atomic => ?_⟩
  have same := (atomic.throws Example.tape checkViolation rfl).2
  cases same

end WaAutomation.Update
