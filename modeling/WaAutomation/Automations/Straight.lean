/-
**Automations whose conditions only jump forward.**

When the targets of every condition come after it, the loop of the action engine ascends through the
sorted actions. So it executes no action twice, the step guard never stops it, and it leaves out
exactly what a condition jumps over.

* `successor_ascends` says that the index only moves forward, and never beyond the end;
* `passes_iff` reads what the loop passes over at an index off the order its condition selects;
* `straight_run` is about a whole run in which nothing throws.
-/

import WaAutomation.Automations.Retries

set_option linter.unusedSectionVars false

namespace WaAutomation.StepGuard

open Library Retries

section Straight

variable {h : Helpers} {sorted : List AutomationAction} {ctx : ActionRunContext}

/-- Every position with an order comes after a position. -/
def Before (sorted : List AutomationAction) (order : Rat) (position : Nat) : Prop :=
  ∀ landing action, sorted[landing]? = some action → (action.order : Rat) = order →
    position < landing

/-- The position lies strictly between a condition and the first position with the order the
condition selects, or anywhere after the condition when no position has that order. -/
def JumpedOver (h : Helpers) (vars : Record) (sorted : List AutomationAction)
    (source position : Nat) : Prop :=
  ∃ action order, sorted[source]? = some action ∧ action.actionType = .condition ∧
    jump h action vars = some order ∧ source < position ∧ Before sorted order position

theorem jump_condition {action : AutomationAction} {vars : Record} {order : Rat}
    (jumps : jump h action vars = some order) : action.actionType = .condition := by
  unfold jump at jumps
  split at jumps
  case h_1 _ kind _ => exact kind
  case h_2 => cases jumps

/-- A target is not beyond the end. -/
theorem target_le {index : Nat} (inside : index < sorted.length) (next : Option Rat) :
    target sorted index next ≤ sorted.length := by
  cases next with
  | none => exact inside
  | some order =>
    unfold target
    dsimp only
    cases found : sorted.findIdx? fun action => decide ((action.order : Rat) = order) with
    | none => exact Nat.le_refl _
    | some there => exact Nat.le_of_lt (List.findIdx?_eq_some_iff_getElem.mp found).1

/-- The target of an order is the first position that has it. -/
theorem lt_target_iff {index position : Nat} (inside : position < sorted.length) (order : Rat) :
    position < target sorted index (some order) ↔ Before sorted order position := by
  unfold target
  dsimp only
  cases found : sorted.findIdx? fun action => decide ((action.order : Rat) = order) with
  | none =>
    refine ⟨fun _ landing action here same => ?_, fun _ => inside⟩
    have absent := List.findIdx?_eq_none_iff.mp found action (List.mem_of_getElem? here)
    exact absurd same (of_decide_eq_false absent)
  | some there =>
    obtain ⟨within, same, first⟩ := List.findIdx?_eq_some_iff_getElem.mp found
    refine ⟨fun before landing action here equal => ?_, fun before => ?_⟩
    · obtain ⟨bound, rfl⟩ := List.getElem?_eq_some_iff.mp here
      refine Nat.lt_of_lt_of_le before (Nat.le_of_not_lt fun earlier => ?_)
      exact first landing earlier (decide_eq_true equal)
    · exact before there _ (List.getElem?_eq_getElem within) (of_decide_eq_true same)

/-- **The loop ascends.** -/
theorem successor_ascends
    (ascending : sorted.Pairwise fun first second => first.order ≤ second.order)
    (forward : ∀ action ∈ sorted, Forward action) :
    Loop.Ascends (successor h sorted ctx) sorted.length where
  leaves := by
    intro index
    unfold successor
    rw [Option.map_eq_none_iff, List.getElem?_eq_none_iff]
  goes := by
    intro index later goes
    obtain ⟨action, here, rfl⟩ := Option.map_eq_some_iff.mp goes
    refine ⟨target_after ascending here fun order jumps => ?_,
      target_le (List.getElem?_eq_some_iff.mp here).1 _⟩
    exact jump_after (forward action (List.mem_of_getElem? here)) jumps

/-- What the loop passes over is what a condition jumps over. -/
theorem passes_iff {source position : Nat} (inside : position < sorted.length) :
    Loop.Passes (successor h sorted ctx) source position ↔
      JumpedOver h ctx.vars sorted source position := by
  constructor
  · rintro ⟨later, goes, after, before⟩
    obtain ⟨action, here, rfl⟩ := Option.map_eq_some_iff.mp goes
    cases jumps : jump h action ctx.vars with
    | none =>
      -- without a jump the next index is the next one, and nothing lies between
      rw [jumps] at before
      exact absurd before (Nat.not_lt.mpr after)
    | some order =>
      rw [jumps] at before
      exact ⟨action, order, here, jump_condition jumps, jumps, after,
        (lt_target_iff inside order).mp before⟩
  · rintro ⟨action, order, here, _, jumps, after, before⟩
    refine ⟨target sorted source (some order), ?_, after, (lt_target_iff inside order).mpr before⟩
    rw [successor, here, Option.map_some, jumps]

end Straight

/-- **Forward-only automations run straight through**, in any world in which no action throws: the
run executes actions at strictly increasing positions, comes to the end of the list, and leaves out
exactly the positions a condition it executed jumps over. -/
theorem straight_run {σ : Type} (world : (call : Call) → Input → σ → Except Err (Resp call) × σ)
    (h : Helpers) (actions : List AutomationAction) (ctx : ActionRunContext)
    (forward : ∀ action ∈ actions, Forward action) (tape : Program.Tape Input) (state : σ)
    (calm : Calm world h (ActionEngine.sorted actions) ctx ⟨0, tape, state⟩) :
    ∃ executed tape' state',
      (visits h (ActionEngine.sorted actions) ctx (ActionEngine.maxSteps actions) 0).run world tape
          state = (.ok (executed, actions.length), tape', state') ∧
      (ActionEngine.run h actions ctx).run world tape state = (.ok (), tape', state') ∧
      executed.length ≤ actions.length ∧
      executed.Pairwise (· < ·) ∧
      (∀ position ∈ executed, position < actions.length) ∧
      ∀ position < actions.length,
        (position ∉ executed ↔
          ∃ source ∈ executed, JumpedOver h ctx.vars (ActionEngine.sorted actions) source
            position) := by
  have length : (ActionEngine.sorted actions).length = actions.length := List.length_mergeSort _
  have ascends := @successor_ascends h _ ctx (sorted_ascending actions) fun action member =>
    forward action (List.mem_mergeSort.mp member)
  have enough : (ActionEngine.sorted actions).length - 0 ≤ ActionEngine.maxSteps actions := by
    rw [length, ActionEngine.maxSteps]
    omega
  obtain ⟨ends, increasing, within, passes⟩ := ascends.bounded (Nat.zero_le _) enough
  have ran := visits_run (ActionEngine.maxSteps actions) calm
  obtain ⟨executes, stops⟩ :=
    @Loop.Projects.bounded_observe _ _ _ _ _ _ turn_projects (ActionEngine.maxSteps actions) _ calm
  rw [executes, stops, ends, length] at ran
  refine ⟨_, _, _, ran, ?_, ?_, increasing, ?_, fun position inside => ?_⟩
  · rw [ActionEngine.run, loop_visits, Program.run_bind]
    simp only [ran]
    rfl
  · have nodup : List.Nodup _ := increasing.imp Nat.ne_of_lt
    have subset : _ ⊆ List.range actions.length := fun position member =>
      List.mem_range.mpr (length ▸ (within position member).2)
    simpa using (nodup.subperm subset).length_le
  · exact fun position member => length ▸ (within position member).2
  · rw [← length] at inside
    rw [passes position (Nat.zero_le _) inside]
    exact exists_congr fun source => and_congr_right fun _ => passes_iff inside

namespace Example

/-- A condition on a variable that jumps over a pause while it does not hold. -/
def skipping : List AutomationAction :=
  [⟨"1", "a", 1, .condition, [("field", .str "count"), ("operator", .str "gt"), ("value", .num 3),
      ("if_false_action_order", .num 3)]⟩,
    ⟨"2", "a", 2, .delay, []⟩, ⟨"3", "a", 3, .delay, []⟩]

theorem sorted_skipping : ActionEngine.sorted skipping = skipping :=
  List.mergeSort_of_pairwise (by simp [skipping])

theorem forward_skipping : ∀ action ∈ skipping, Forward action := by
  intro action member kind key _ next target
  obtain rfl | rfl | rfl : action = skipping[0] ∨ action = skipping[1] ∨ action = skipping[2] := by
    simpa [skipping] using member
  · by_cases is_false : key = "if_false_action_order"
    · subst is_false
      cases target
      decide
    · have absent : key = "if_true_action_order" := by simp_all
      subst absent
      cases target
  · cases kind
  · cases kind

/-- The condition jumps to the last action. -/
theorem jumps {action : AutomationAction} (first : skipping[0]? = some action) :
    ActionEngine.execute WaAutomation.Example.helpers action ctx = .ret (some 3) := by
  obtain rfl := Option.some.inj first
  unfold ActionEngine.execute
  dsimp only
  rw [undecided rfl rfl]
  rfl

theorem calm_skipping (position : Position Store) :
    Calm exec WaAutomation.Example.helpers skipping ctx position := by
  intro later _ action here
  obtain rfl | rfl | rfl : action = skipping[0] ∨ action = skipping[1] ∨ action = skipping[2] := by
    simpa [skipping] using List.mem_of_getElem? here
  · have goes : ActionEngine.execute WaAutomation.Example.helpers skipping[0] ctx = _ := jumps rfl
    exact ⟨_, _, _, congrArg (fun program => Program.run exec program later.tape later.state) goes⟩
  · exact ⟨_, _, _, rfl⟩
  · exact ⟨_, _, _, rfl⟩

end Example

theorem straight_run_example :
    ∃ executed tape' state',
      (visits WaAutomation.Example.helpers (ActionEngine.sorted Example.skipping) Example.ctx
          (ActionEngine.maxSteps Example.skipping) 0).run exec Example.tape Example.store =
        (.ok (executed, 3), tape', state') ∧
      1 ∉ executed ∧
      ∃ source ∈ executed, JumpedOver WaAutomation.Example.helpers Example.ctx.vars
        (ActionEngine.sorted Example.skipping) source 1 := by
  have sorted := Example.sorted_skipping
  obtain ⟨executed, tape, state, ran, _, _, _, _, passes⟩ :=
    straight_run exec WaAutomation.Example.helpers Example.skipping Example.ctx
      Example.forward_skipping Example.tape Example.store
        (by rw [sorted]; exact Example.calm_skipping _)
  have same : executed = [0, 2] := by
    have result := congrArg Prod.fst ran
    rw [sorted] at result
    have first : visits WaAutomation.Example.helpers Example.skipping Example.ctx 22 0 =
        visits WaAutomation.Example.helpers Example.skipping Example.ctx 21 2 >>= fun result =>
          .ret (0 :: result.1, result.2) := by
      show (ActionEngine.execute WaAutomation.Example.helpers _ Example.ctx >>= fun next => _) = _
      rw [Example.jumps rfl]
      rfl
    change (Program.run exec (visits WaAutomation.Example.helpers Example.skipping Example.ctx 22 0)
      Example.tape Example.store).1 = _ at result
    rw [first] at result
    change Except.ok ([0, 2], 3) = Except.ok (executed, 3) at result
    exact (congrArg Prod.fst (Except.ok.inj result)).symm
  have unvisited : 1 ∉ executed := by
    rw [same]
    decide
  exact ⟨executed, tape, state, ran, unvisited, (passes 1 (by decide)).mp unvisited⟩

end WaAutomation.StepGuard
