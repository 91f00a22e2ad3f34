/-
**The URLs of webhook automations.**

An automation that waits for a webhook is found by the `webhook_path` of its trigger config,
free-form JSON that a body gives. `create` makes up a path when the body has none; `update` does
not, and no function compares a path with those of other automations.

* `Reachable` says that every listening automation has a path of its own, with a token the public
  route can carry; calls keep it as long as no automation is written to listen without (`Heard`);
* `own_url` is about every run of requests that meets it, and `lost_url` is a run in which two
  workspaces listen at one path.
-/

import WaAutomation.Model.Services
import WaAutomation.Model.Triggers
import WaAutomation.Model.Writes

set_option linter.unusedSectionVars false

namespace WaAutomation.Hooks

open Library

/-! ### The system -/

inductive Request where
  | create (workspaceId : Option Uuid) (userId : Uuid) (dto : CreateAutomationDto)
  | update (id : Uuid) (workspaceId : Option Uuid) (userId : Uuid) (dto : UpdateAutomationDto)
  | setActive (id : Uuid) (workspaceId : Option Uuid) (userId : Uuid) (active : Bool)
  | remove (id : Uuid) (workspaceId : Option Uuid) (userId : Uuid)

def Request.program : Request → Svc Unit
  | .create workspaceId userId dto => do
      let _ ← AutomationsService.create workspaceId userId dto
  | .update id workspaceId userId dto => do
      let _ ← AutomationsService.update id workspaceId userId dto
  | .setActive id workspaceId userId active => do
      let _ ← AutomationsService.setActive id workspaceId userId active
  | .remove id workspaceId userId => do
      let _ ← AutomationsService.remove id workspaceId userId

def system := services Request.program

abbrev Pool := Calling Request Unit

abbrev Move := Machine.Move Input Nat fun _ => Request

/-- What is loaded and written back keeps its id. -/
theorem assign_keyed (automation : Automation) (dto : UpdateAutomationDto) :
    (⟨automation, fun _ => AutomationsService.assign automation dto,
      AutomationsService.assign automation dto⟩ : Entity Automation).Keyed .automations := by
  have keyed (row : Automation) (assigned : AutomationsService.assign automation dto = some row) :
      Row.key .automations row = Row.key .automations automation :=
    congrArg (·, "") (AutomationsService.assign_keeps assigned).1
  exact ⟨fun _ => keyed, keyed⟩

theorem program_tidy (request : Request) : request.program.Calls Call.Tidy := by
  have managed (workspaceId : Option Uuid) (userId : Uuid) :=
    tidy_of_reads (WorkspacesService.assertRole_reads workspaceId userId managers)
  have found (id : Uuid) (workspaceId : Option Uuid) (userId : Uuid) :=
    tidy_of_reads (AutomationsService.findOne_reads id workspaceId userId)
  cases request with
  | create workspaceId userId dto =>
    refine Program.calls_bind ?_ fun _ => trivial
    refine Program.calls_bind (managed workspaceId userId) fun _ => ?_
    exact Program.calls_bind (AutomationsService.withPath_calls dto) fun _ => calls_call rfl
  | update id workspaceId userId dto =>
    refine Program.calls_bind ?_ fun _ => trivial
    refine Program.calls_bind (managed workspaceId userId) fun _ => ?_
    refine Program.calls_bind (found id workspaceId userId) fun loaded => ?_
    refine Program.calls_bind ?_ fun actions => ?_
    · cases dto.actions with
      | undefined => trivial
      | null => exact Program.calls_bind (calls_call rfl) fun _ => trivial
      | value given => exact Program.calls_bind (calls_call rfl) fun _ => trivial
    · exact Program.calls_bind (calls_call (assign_keyed loaded.1 dto)) fun _ => trivial
  | setActive id workspaceId userId active =>
    refine Program.calls_bind ?_ fun _ => trivial
    refine Program.calls_bind (managed workspaceId userId) fun _ => ?_
    refine Program.calls_bind (found id workspaceId userId) fun loaded => ?_
    exact Program.calls_bind (calls_call (Entity.whole_keyed .automations _)) fun _ => trivial
  | remove id workspaceId userId =>
    refine Program.calls_bind ?_ fun _ => trivial
    refine Program.calls_bind (managed workspaceId userId) fun _ => ?_
    refine Program.calls_bind (found id workspaceId userId) fun loaded => ?_
    exact Program.calls_bind (calls_call rfl) fun _ => trivial

/-! ### Paths -/

/-- The automation waits for a webhook. -/
def Listens (automation : Automation) : Prop :=
  automation.isActive = true ∧ automation.triggerType = .webhook

/-- The path it waits at, when that is text. -/
def path (automation : Automation) : Option String :=
  match automation.triggerConfig.get "webhook_path" with
  | some (.str path) => some path
  | _ => none

/-- The path of the public route with a token. -/
def url (token : String) : String := "/trigger/" ++ token

/-- The automation has a path the public route can carry, and no other listening row has it. -/
def HasOwn (rows : List Automation) (automation : Automation) : Prop :=
  ∃ token, '/' ∉ token.toList ∧ path automation = some (url token) ∧
    ∀ other ∈ rows, Listens other → path other = path automation → other.id = automation.id

/-- Every listening automation has a path of its own. -/
structure Reachable (store : Store) : Prop where
  keys : ((store.db .automations).map (Row.key .automations)).Nodup
  own : ∀ automation ∈ store.db .automations, Listens automation →
    HasOwn (store.db .automations) automation

/-- A listening automation is only written with a path of its own. -/
def Heard (call : Call) (input : Input) (store : Store) : Prop :=
  ∀ row, call.Puts input store .automations row → Listens row → HasOwn (store.db .automations) row

/-- **The step.** -/
theorem exec_reachable {call : Call} {input : Input} {store : Store} (tidy : call.Tidy)
    (heard : Heard call input store) (reachable : Reachable store) :
    Reachable (exec call input store).2 := by
  have changes := exec_changes call tidy.plain input store
  refine ⟨changes.keys .automations reachable.keys, fun automation member listens => ?_⟩
  obtain old | written := changes.rows .automations automation member
  · obtain ⟨token, slashless, has, only⟩ := reachable.own automation old listens
    refine ⟨token, slashless, has, fun other there hears same => ?_⟩
    obtain old' | written' := changes.rows .automations other there
    · exact only other old' hears same
    · obtain ⟨_, _, _, only'⟩ := heard other written' hears
      exact (only' automation old listens same.symm).symm
  · obtain ⟨token, slashless, has, only⟩ := heard automation written listens
    refine ⟨token, slashless, has, fun other there hears same => ?_⟩
    obtain old' | written' := changes.rows .automations other there
    · exact only other old' hears same
    · exact congrArg Prod.fst (tidy.puts_key (by decide) (by decide) written' written)

/-- The call that looks a path up finds the listening rows with that path. -/
theorem matches_iff (automation : Automation) (sought : String) :
    (automation.isActive && automation.triggerType == .webhook &&
      match automation.triggerConfig.get "webhook_path" with
      | some (.str stored) => stored == sought
      | _ => false) = true ↔ Listens automation ∧ path automation = some sought := by
  unfold Listens path
  rw [Bool.and_eq_true, Bool.and_eq_true, beq_iff_eq]
  split <;> simp

/-- **A path of its own finds the automation, and no other.** -/
theorem found_own {store : Store} (reachable : Reachable store) {automation : Automation}
    {token : String} (member : automation ∈ store.db .automations) (listens : Listens automation)
    (has : path automation = some (url token))
    (only : ∀ other ∈ store.db .automations, Listens other → path other = path automation →
      other.id = automation.id) (tape : Program.Tape Input) {found : Option Automation}
    (ran : ((AutomationsService.findByWebhookPath (url token)).run exec tape store).1 = .ok found) :
    found = some automation := by
  rw [findOne_answers ran]
  cases finds : (store.db .automations).find? _ with
  | none =>
    have missed := List.find?_eq_none.mp finds automation member
    exact absurd ((matches_iff automation (url token)).mpr ⟨listens, has⟩) missed
  | some other =>
    have hit := List.find?_some finds
    obtain ⟨hears, same⟩ := (matches_iff other (url token)).mp hit
    have there := List.mem_of_find?_eq_some finds
    have one := only other there hears (same.trans has.symm)
    rw [Rows.unique reachable.keys there member (congrArg (·, "") one)]

/-- **Every webhook automation has its own URL**, as long as none is written to listen at a path
that is not of the public route's form or that another listening automation has. -/
theorem own_url (start : Store) (moves : List Move) (pool : Pool) (begins : Reachable start)
    (heard : system.Meets (Executes Heard) (Machine.Pool.idle start) moves)
    (reached : system.run (Machine.Pool.idle start) moves = some pool) :
    ∀ automation ∈ pool.shared.db .automations, Listens automation →
      ∃ token, '/' ∉ token.toList ∧ ∀ tape found,
        ((AutomationsService.findByWebhookPath (url token)).run exec tape pool.shared).1 =
          .ok found → found = some automation := by
  intro automation member listens
  have reachable := kept_run program_tidy (fun _ _ _ tidy heard => exec_reachable tidy heard) begins
    heard reached
  obtain ⟨token, slashless, has, only⟩ := reachable.own automation member listens
  exact ⟨token, slashless, fun tape found ran =>
    found_own reachable member listens has only tape ran⟩

namespace Example

/-- An input of a move: ids and random bytes show its number. -/
def at_ (number : Nat) : Input :=
  { WaAutomation.Example.fine with
    now := number, ids := fun _ => toString number, bytes := toString number }

/-- Two workspaces with their owners. -/
def start : Store :=
  ⟨fun | .members => [⟨"w", "u", "owner"⟩, ⟨"v", "x", "owner"⟩] | _ => [], [], 0, [],
    fun _ _ => none⟩

/-- An automation with a path, switched off. -/
def stored : Store :=
  { start with db := fun
    | .automations =>
      [⟨"1", "w", none, "orders", none, false, .webhook,
        [("webhook_path", .str "/trigger/0af3")], 0,
        none⟩]
    | table => start.db table }

/-- The body of an automation that waits for a webhook. -/
def dto (config : Record) : CreateAutomationDto := ⟨"orders", none, none, .webhook, config, []⟩

/-- An automation is switched on. -/
def switch (slot : Nat) (workspaceId userId : Uuid) : List Move :=
  [.start slot (.setActive (toString slot) (some workspaceId) userId true) (at_ slot),
    .resume slot (at_ slot), .resume slot (at_ slot), .resume slot (at_ slot),
    .resume slot (at_ slot)]

/-- An automation is created in a workspace and switched on. -/
def creation (slot : Nat) (workspaceId userId : Uuid) (config : Record) : List Move :=
  [.start slot (.create (some workspaceId) userId (dto config)) (at_ slot),
    .resume slot (at_ slot), .resume slot (at_ slot)] ++ switch slot workspaceId userId

end Example

theorem own_url_example :
    ∃ pool automation token,
      system.run (Machine.Pool.idle Example.stored) (Example.switch 1 "w" "u") = some pool ∧
      automation ∈ pool.shared.db .automations ∧ Listens automation ∧
      '/' ∉ token.toList ∧ ∀ tape found,
        ((AutomationsService.findByWebhookPath (url token)).run exec tape pool.shared).1 =
          .ok found → found = some automation := by
  have only : ∀ token automation, path automation = some (url token) → '/' ∉ token.toList →
      automation.id = "1" → HasOwn (Example.stored.db .automations) automation := by
    intro token automation has slashless same
    refine ⟨token, slashless, has, fun other member hears _ => ?_⟩
    cases List.mem_singleton.mp member
    cases hears.1
  have quiet {call : Call} {input : Input} {store : Store} (reads : call.reads = true) :
      Heard call input store := fun _ puts => (Call.reads_puts reads puts).elim
  have heard : system.Meets (Executes Heard) (Machine.Pool.idle Example.stored)
      (Example.switch 1 "w" "u") := by
    refine ⟨executes_start, fun _ moved => ?_⟩
    cases moved
    refine ⟨executes_resume rfl (quiet rfl), fun _ moved => ?_⟩
    cases moved
    refine ⟨executes_resume rfl (quiet rfl), fun _ moved => ?_⟩
    cases moved
    refine ⟨executes_resume rfl (quiet rfl), fun _ moved => ?_⟩
    cases moved
    refine ⟨executes_resume rfl ?_, fun _ _ => trivial⟩
    intro row puts listens
    cases puts with
    | saved _ _ _ writes =>
      cases writes with
      | onto _ _ _ _ _ same =>
        cases same
        exact only "0af3" _ rfl (by decide) rfl
      | anew _ _ _ same =>
        cases same
        exact only "0af3" _ rfl (by decide) rfl
  have begins : Reachable Example.stored := by
    refine ⟨by decide, fun automation member hears => ?_⟩
    cases List.mem_singleton.mp member
    cases hears.1
  obtain ⟨token, slashless, finds⟩ := own_url Example.stored (Example.switch 1 "w" "u")
      _ begins heard
    rfl _ List.mem_cons_self ⟨rfl, rfl⟩
  exact ⟨_, _, token, rfl, List.mem_cons_self, ⟨rfl, rfl⟩, slashless, finds⟩

/-- Of two automations that listen at one path the second one is never found. -/
theorem shadowed {store : Store} {first second : Automation}
    (rows : store.db .automations = [first, second]) (same : path first = path second)
    (hears : Listens first) (different : first.id ≠ second.id)
    (token : String)
    (all : ∀ tape found,
      ((AutomationsService.findByWebhookPath (url token)).run exec tape store).1 = .ok found →
        found = some second) : False := by
  have found := all ⟨WaAutomation.Example.fine, fun _ => WaAutomation.Example.fine⟩ _ rfl
  rw [List.head?_filter, rows] at found
  have hit := List.find?_some found
  have here : path first = some (url token) :=
    same.trans ((matches_iff second (url token)).mp hit).2
  rw [List.find?_cons_of_pos] at found
  · exact different (congrArg Automation.id (Option.some.inj found))
  · exact (matches_iff first (url token)).mpr ⟨hears, here⟩

/-- **A URL lost**: two workspaces switch on automations with one path, and every request that comes
in there starts the first. -/
theorem lost_url :
    ∃ pool automation,
      system.run (Machine.Pool.idle Example.start)
        (Example.creation 1 "v" "x" [("webhook_path", .str "/trigger/orders")] ++
          Example.creation 2 "w" "u" [("webhook_path", .str "/trigger/orders")]) = some pool ∧
      automation ∈ pool.shared.db .automations ∧ Listens automation ∧
      automation.workspaceId = "w" ∧
      ¬∃ token, '/' ∉ token.toList ∧ ∀ tape found,
        ((AutomationsService.findByWebhookPath (url token)).run exec tape pool.shared).1 =
          .ok found → found = some automation := by
  refine ⟨_, _, rfl, List.mem_cons_of_mem _ List.mem_cons_self, ⟨rfl, rfl⟩, rfl, ?_⟩
  intro wrong
  obtain ⟨token, _, all⟩ := wrong
  exact shadowed rfl (by rfl) ⟨rfl, rfl⟩ (by decide) token all

end WaAutomation.Hooks
