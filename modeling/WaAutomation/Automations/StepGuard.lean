/-
**The step guard of the action engine.**

`ActionEngine.run` stops after `maxSteps = 4 * n + 10` steps. No action changes the variables, so
the action at an index has one successor (`jump`), and a run without the guard that ends at all
visits no index twice: the guard is exact.

* `turn` is one turn of the loop without the guard, in any world that answers the calls;
* `visits` is the guarded loop that also returns the indices it executed, and `visits_run` says that
  it makes the turns of the unguarded loop, up to the bound;
* `step_guard_exact` compares the two.
-/

import WaAutomation.Library.Loop
import WaAutomation.Model.Automations

set_option linter.unusedSectionVars false

namespace WaAutomation.StepGuard

open Library

/-! ### The two loops -/

/-- The index the loop goes on with. -/
def target (sorted : List AutomationAction) (index : Nat) : Option Rat → Nat
  | none => index + 1
  | some next =>
      (sorted.findIdx? fun action => decide ((action.order : Rat) = next)).getD sorted.length

/-- The guarded loop: the indices of the actions it executed, and the index it stopped at. -/
def visits (h : Helpers) (sorted : List AutomationAction) (ctx : ActionRunContext) :
    (steps index : Nat) → Svc (List Nat × Nat)
  | 0, index => return ([], index)
  | steps + 1, index =>
      match sorted[index]? with
      | none => return ([], index)
      | some action => do
          let next ← ActionEngine.execute h action ctx
          let (visited, stop) ← visits h sorted ctx steps (target sorted index next)
          return (index :: visited, stop)

/-- The loop of the engine is `visits` without its result. -/
theorem loop_visits (h : Helpers) (sorted : List AutomationAction) (ctx : ActionRunContext) :
    ∀ steps index, ActionEngine.loop h sorted ctx steps index =
      visits h sorted ctx steps index >>= fun _ => return () := by
  intro steps
  induction steps with
  | zero => exact fun _ => rfl
  | succ steps ih =>
    intro index
    simp only [ActionEngine.loop, visits]
    cases sorted[index]? with
    | none => rfl
    | some action =>
      simp only [Program.bind_assoc]
      congr 1
      funext next
      cases next with
      | none => exact ih (index + 1)
      | some next => exact ih _

section Worlds

variable {σ : Type} (world : (call : Call) → Input → σ → Except Err (Resp call) × σ)
  (h : Helpers) (sorted : List AutomationAction) (ctx : ActionRunContext)

/-- Where a run of the loop stands: the index, the inputs to come, and the state of the world. -/
structure Position (σ : Type) where
  index : Nat
  tape : Program.Tape Input
  state : σ

/-- One turn of the loop without the guard, `while (index < sorted.length)`. An exception ends the
loop too. -/
def turn (position : Position σ) : Option (Position σ) :=
  match sorted[position.index]? with
  | none => none
  | some action =>
      match (ActionEngine.execute h action ctx).run world position.tape position.state with
      | (.ok next, tape, state) => some ⟨target sorted position.index next, tape, state⟩
      | (.error _, _, _) => none

/-- No action the loop comes to without the guard throws. -/
def Calm (position : Position σ) : Prop :=
  ∀ later, Relation.ReflTransGen (fun here next => turn world h sorted ctx here = some next)
      position later →
    ∀ action, sorted[later.index]? = some action → ∃ next tape state,
      (ActionEngine.execute h action ctx).run world later.tape later.state = (.ok next, tape, state)

/-! ### The successor of an index -/

/-- The order an action jumps to. -/
def jump (action : AutomationAction) (vars : Record) : Option Rat :=
  match action.actionType, ConditionEngine.evaluate h action.actionConfig vars with
  | .condition, .ok result =>
      match action.actionConfig.get
          (if result then "if_true_action_order" else "if_false_action_order") with
      | some (.num target) => some target
      | _ => none
  | _, _ => none

/-- The index after an index, whatever the world does. -/
def successor (index : Nat) : Option Nat :=
  (sorted[index]?).map fun action => target sorted index (jump h action ctx.vars)

variable {world h sorted ctx}

/-- **An action jumps where its condition says**, whatever it is answered. -/
theorem execute_jump (action : AutomationAction) :
    (ActionEngine.execute h action ctx).Returns (· = jump h action ctx.vars) := by
  unfold ActionEngine.execute jump
  cases action.actionType with
  | sendText =>
    refine Program.returns_bind (fun message => ?_) _
    dsimp only
    split
    · iterate 4 refine Program.returns_bind (fun _ => ?_) _
      rfl
    · refine Program.returns_bind (fun _ => ?_) (Svc.lift (phoneOf ctx.toPhone))
      iterate 2 refine Program.returns_bind (fun _ => ?_) _
      rfl
  | sendImage =>
    iterate 4 refine Program.returns_bind (fun _ => ?_) _
    rfl
  | sendFile =>
    iterate 4 refine Program.returns_bind (fun _ => ?_) _
    rfl
  | forward =>
    iterate 3 refine Program.returns_bind (fun _ => ?_) _
    rfl
  | delay =>
    refine Program.returns_bind (fun _ => ?_) _
    rfl
  | condition =>
    dsimp only
    cases ConditionEngine.evaluate h action.actionConfig ctx.vars with
    | error error => trivial
    | ok result =>
      simp only [Svc.lift, Program.ret_bind]
      generalize action.actionConfig.get _ = value
      cases value with
      | none => rfl
      | some value => cases value <;> rfl

/-- The turn at an action that does not throw. -/
theorem turn_action {position : Position σ} {action : AutomationAction} {next : Option Rat}
    {tape : Program.Tape Input} {state : σ} (here : sorted[position.index]? = some action)
    (ran : (ActionEngine.execute h action ctx).run world position.tape position.state =
      (.ok next, tape, state)) :
    turn world h sorted ctx position = some ⟨target sorted position.index next, tape, state⟩ := by
  simp only [turn, here, ran]

/-- The loop leaves behind the last action, and nowhere else when nothing throws. -/
theorem turn_none {position : Position σ} (calm : Calm world h sorted ctx position) :
    turn world h sorted ctx position = none ↔ sorted.length ≤ position.index := by
  rw [← List.getElem?_eq_none_iff]
  cases here : sorted[position.index]? with
  | none => simp only [turn, here]
  | some action =>
    obtain ⟨next, tape, state, ran⟩ := calm position .refl action here
    simp [turn_action here ran]

/-- **The turns project to the indices**: no action changes the variables. -/
theorem turn_projects : Loop.Projects (turn world h sorted ctx) Position.index
    (successor h sorted ctx) (Calm world h sorted ctx) where
  stays calm goes := fun later reached => calm later (.head goes reached)
  follows {position} calm := by
    unfold successor
    cases here : sorted[position.index]? with
    | none => simp only [turn, here, Option.map_none]
    | some action =>
      obtain ⟨next, tape, state, ran⟩ := calm position .refl action here
      have jumps := Program.returns_run (execute_jump action) (congrArg Prod.fst ran)
      rw [turn_action here ran, jumps]
      rfl

/-- **The guarded loop makes the turns of the unguarded one**, up to its bound. -/
theorem visits_run (steps : Nat) : ∀ {position : Position σ}, Calm world h sorted ctx position →
    (visits h sorted ctx steps position.index).run world position.tape position.state =
      (.ok ((Loop.bounded (turn world h sorted ctx) steps position).1.map Position.index,
          (Loop.bounded (turn world h sorted ctx) steps position).2.index),
        (Loop.bounded (turn world h sorted ctx) steps position).2.tape,
        (Loop.bounded (turn world h sorted ctx) steps position).2.state) := by
  induction steps with
  | zero => exact fun _ => rfl
  | succ steps ih =>
    intro position calm
    cases here : sorted[position.index]? with
    | none =>
      have leaves : turn world h sorted ctx position = none := by simp only [turn, here]
      rw [Loop.bounded_leave _ leaves]
      simp only [visits, here]
      rfl
    | some action =>
      obtain ⟨next, tape, state, ran⟩ := calm position .refl action here
      have goes := turn_action here ran
      have later := ih (turn_projects.stays calm goes)
      rw [Loop.bounded_turn steps goes]
      simp only [visits, here, Program.run_bind, ran, later]
      rfl

end Worlds

/-! ### The guard is exact -/

/-- **The step guard is exact**, in any world in which no action throws: when the loop without the
guard ends, the guarded run executes the same actions and none twice, and leaves the same world; and
the guard stops the run if and only if the loop without it never ends. -/
theorem step_guard_exact {σ : Type} (world : (call : Call) → Input → σ → Except Err (Resp call) × σ)
    (h : Helpers) (actions : List AutomationAction) (ctx : ActionRunContext)
    (tape : Program.Tape Input) (state : σ)
    (calm : Calm world h (ActionEngine.sorted actions) ctx ⟨0, tape, state⟩) :
    ∃ executed stop tape' state',
      (visits h (ActionEngine.sorted actions) ctx (ActionEngine.maxSteps actions) 0).run world tape
          state = (.ok (executed, stop), tape', state') ∧
      (ActionEngine.run h actions ctx).run world tape state = (.ok (), tape', state') ∧
      (∀ visited last,
        Loop.Leaves (turn world h (ActionEngine.sorted actions) ctx) ⟨0, tape, state⟩ visited last →
          executed = visited.map Position.index ∧ executed.Nodup ∧
            last = ⟨stop, tape', state'⟩) ∧
      (stop < (ActionEngine.sorted actions).length ↔
        ¬∃ visited last, Loop.Leaves (turn world h (ActionEngine.sorted actions) ctx)
          ⟨0, tape, state⟩ visited last) := by
  have length : (ActionEngine.sorted actions).length = actions.length := List.length_mergeSort _
  have ran := visits_run (ActionEngine.maxSteps actions) calm
  have inside (position : Position σ)
      (here : Calm world h (ActionEngine.sorted actions) ctx position)
      (goes : turn world h (ActionEngine.sorted actions) ctx position ≠ none) :
      position.index ∈ List.range actions.length := by
    rw [Ne, turn_none here, length, Nat.not_le] at goes
    exact List.mem_range.mpr goes
  have enough : (List.range actions.length).length ≤ ActionEngine.maxSteps actions := by
    rw [List.length_range, ActionEngine.maxSteps]
    omega
  have sound : Calm world h (ActionEngine.sorted actions) ctx (Loop.bounded
      (turn world h (ActionEngine.sorted actions) ctx) (ActionEngine.maxSteps actions)
      ⟨0, tape, state⟩).2 := Loop.bounded_valid turn_projects.stays calm
  refine ⟨_, _, _, _, ran, ?_, fun visited last leaves => ?_, ?_⟩
  · rw [ActionEngine.run, loop_visits, Program.run_bind]
    simp only [ran]
    rfl
  · have short := turn_projects.leaves_length inside leaves calm
    rw [Loop.bounded_of_leaves leaves (Nat.le_trans short enough)]
    exact ⟨rfl, turn_projects.leaves_nodup leaves calm, rfl⟩
  · rw [← turn_projects.bounded_exact inside enough calm, turn_none sound, Nat.not_le]

namespace Example

/-- A pause, and a condition on a variable that jumps back to it while it does not hold. -/
def looping : List AutomationAction :=
  [⟨"1", "a", 1, .delay, []⟩,
    ⟨"2", "a", 2, .condition, [("field", .str "count"), ("operator", .str "gt"), ("value", .num 3),
      ("if_false_action_order", .num 1)]⟩]

def ctx : ActionRunContext := ⟨"w", "s", "line", ⟨"http://openwa", "key", "w"⟩, none, "a", []⟩

def tape : Program.Tape Input := ⟨WaAutomation.Example.fine, fun _ => WaAutomation.Example.fine⟩

def store : Store := ⟨fun _ => [], [], 0, [], fun _ _ => none⟩

theorem sorted_looping : ActionEngine.sorted looping = looping :=
  List.mergeSort_of_pairwise (by simp [looping])

theorem texts (value : Option Json) :
    ConditionEngine.text WaAutomation.Example.helpers value = .ok "" := by
  cases value with
  | none => rfl
  | some value => cases value <;> rfl

/-- No value is greater than another. -/
theorem undecided {config : Record} {path : String}
    (field : config.get "field" = some (.str path))
    (operator : config.get "operator" = some (.str "gt")) (vars : Record) :
    ConditionEngine.evaluate WaAutomation.Example.helpers config vars = .ok false := by
  unfold ConditionEngine.evaluate
  rw [field, operator]
  refine Eq.trans (show _ = ConditionEngine.text WaAutomation.Example.helpers _ >>= fun a =>
    ConditionEngine.text WaAutomation.Example.helpers _ >>= fun e =>
      ConditionEngine.compare WaAutomation.Example.helpers "gt" _ _ a e from rfl) ?_
  rw [texts, texts]
  rfl

/-- The condition jumps back. -/
theorem returns {action : AutomationAction} (last : looping[1]? = some action) :
    ActionEngine.execute WaAutomation.Example.helpers action ctx = .ret (some 1) := by
  obtain rfl := Option.some.inj last
  unfold ActionEngine.execute
  dsimp only
  rw [undecided rfl rfl]
  rfl

/-- Two steps lead back to the pause. -/
theorem turns (rounds : Nat) : ∀ tape store, ∃ visited tape' store',
    (visits WaAutomation.Example.helpers looping ctx (2 * rounds) 0).run exec tape store =
      (.ok (visited, 0), tape', store') := by
  have back (steps : Nat) : visits WaAutomation.Example.helpers looping ctx (steps + 1) 1 =
      visits WaAutomation.Example.helpers looping ctx steps 0 >>= fun result =>
        .ret (1 :: result.1, result.2) := by
    show (ActionEngine.execute WaAutomation.Example.helpers _ ctx >>= fun next => _) = _
    rw [returns rfl]
    rfl
  induction rounds with
  | zero => exact fun tape store => ⟨_, _, _, rfl⟩
  | succ rounds ih =>
    intro tape store
    obtain ⟨visited, tape', store', ran⟩ := ih tape.advance (store.note (.sleep 0))
    refine ⟨0 :: 1 :: visited, tape', store', ?_⟩
    show (visits WaAutomation.Example.helpers looping ctx (2 * rounds + 1) 1 >>= fun result =>
      .ret (0 :: result.1, result.2)).run exec tape.advance (store.note (.sleep 0)) = _
    rw [back, Program.bind_assoc, Program.run_bind, ran]
    rfl

theorem calm (position : Position Store) :
    Calm exec WaAutomation.Example.helpers looping ctx position := by
  intro later _ action here
  rcases List.mem_cons.mp (List.mem_of_getElem? here) with rfl | last
  · exact ⟨_, _, _, rfl⟩
  · rw [returns (congrArg some (List.mem_singleton.mp last).symm)]
    exact ⟨_, _, _, rfl⟩

end Example

theorem step_guard_exact_example :
    ¬∃ visited last, Loop.Leaves
      (turn exec WaAutomation.Example.helpers (ActionEngine.sorted Example.looping) Example.ctx)
      ⟨0, Example.tape, Example.store⟩ visited last := by
  have sorted := Example.sorted_looping
  obtain ⟨executed, stop, tape, state, ran, _, _, stops⟩ :=
    step_guard_exact exec WaAutomation.Example.helpers Example.looping Example.ctx Example.tape
      Example.store (by rw [sorted]; exact Example.calm _)
  refine stops.mp ?_
  rw [sorted] at ran ⊢
  obtain ⟨visited, _, _, turned⟩ := Example.turns 9 Example.tape Example.store
  have result := congrArg Prod.fst (turned.symm.trans ran)
  have here : stop = 0 := (congrArg Prod.snd (Except.ok.inj result)).symm
  rw [here]
  decide

end WaAutomation.StepGuard
