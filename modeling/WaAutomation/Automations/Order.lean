/-
**Automations do not depend on the order their actions are loaded in.**

The relation `actions` is loaded without an `ORDER BY`, so a run may be given its actions in any
order. When no two of them have the same order, `ActionEngine.sorted` brings every permutation of
them into one list, and the jumps, the step guard and the failures of a run are those of that list.

* `course` is the loop of the engine with what it does turn by turn; `course_exchanges` and
  `course_ends` say that it makes the exchanges of the loop and ends as the loop does;
* `sorted_permuted` says that the sorted list is unique;
* `order_independent` is about whole runs in any world.
-/

import Mathlib.Data.List.Nodup
import WaAutomation.Automations.Retries

set_option linter.unusedSectionVars false

namespace WaAutomation.Order

open Library StepGuard Retries

/-! ### The turns of a run -/

/-- An action that was executed, what it exchanged with the world, and how it ended: with the order
to jump to, if any, or with an exception. -/
structure Turn where
  action : AutomationAction
  exchanged : List Exchange
  outcome : Except Err (Option Rat)

section Course

variable {σ : Type} (world : (call : Call) → Input → σ → Except Err (Resp call) × σ)
  (h : Helpers) (sorted : List AutomationAction) (ctx : ActionRunContext)

/-- The turns of the loop. -/
def course : (steps index : Nat) → Program.Tape Input → σ → List Turn
  | 0, _, _, _ => []
  | steps + 1, index, tape, state =>
      match sorted[index]? with
      | none => []
      | some action =>
          let program := ActionEngine.execute h action ctx
          ⟨action, program.exchanges world tape state, (program.run world tape state).1⟩ ::
            match program.run world tape state with
            | (.ok next, tape, state) => course steps (target sorted index next) tape state
            | (.error _, _, _) => []

/-- How a run with these turns ends. -/
def ends (turns : List Turn) : Except Err Unit :=
  match turns.getLast?.map Turn.outcome with
  | some (.error error) => .error error
  | _ => .ok ()

variable {world h sorted ctx}

theorem ends_cons_ok {action : AutomationAction} {exchanged : List Exchange} {next : Option Rat}
    (turns : List Turn) : ends (⟨action, exchanged, .ok next⟩ :: turns) = ends turns := by
  cases turns with
  | nil => rfl
  | cons first rest => rw [ends, ends, List.getLast?_cons_cons]

/-- **The turns make the exchanges of the loop.** -/
theorem course_exchanges (steps : Nat) : ∀ index tape state,
    (course world h sorted ctx steps index tape state).flatMap Turn.exchanged =
      (ActionEngine.loop h sorted ctx steps index).exchanges world tape state := by
  induction steps with
  | zero => exact fun _ _ _ => rfl
  | succ steps ih =>
    intro index tape state
    cases here : sorted[index]? with
    | none => simp only [course, ActionEngine.loop, here]; rfl
    | some action =>
      rw [loop_turn here, Program.exchanges_bind]
      simp only [course, here, List.flatMap_cons]
      congr 1
      obtain ⟨outcome, tape', state'⟩ := (ActionEngine.execute h action ctx).run world tape state
      cases outcome with
      | error error => rfl
      | ok next => exact ih _ _ _

/-- **The loop ends as its last turn does.** -/
theorem course_ends (steps : Nat) : ∀ index tape state,
    ends (course world h sorted ctx steps index tape state) =
      ((ActionEngine.loop h sorted ctx steps index).run world tape state).1 := by
  induction steps with
  | zero => exact fun _ _ _ => rfl
  | succ steps ih =>
    intro index tape state
    cases here : sorted[index]? with
    | none => simp only [course, ActionEngine.loop, here]; rfl
    | some action =>
      rw [loop_turn here, Program.run_bind]
      simp only [course, here]
      generalize (ActionEngine.execute h action ctx).exchanges world tape state = exchanged
      obtain ⟨outcome, tape', state'⟩ := (ActionEngine.execute h action ctx).run world tape state
      cases outcome with
      | error error => rfl
      | ok next =>
        rw [ends_cons_ok]
        exact ih _ _ _

end Course

/-! ### Permutations -/

section Permuted

variable {actions permuted : List AutomationAction}

/-- **The sorted list is unique** when no two actions have the same order. -/
theorem sorted_permuted (distinct : (actions.map AutomationAction.order).Nodup)
    (permutes : permuted.Perm actions) :
    ActionEngine.sorted permuted = ActionEngine.sorted actions := by
  have sorts (given : List AutomationAction) : (ActionEngine.sorted given).Perm given :=
    List.mergeSort_perm given _
  refine List.Perm.eq_of_pairwise (fun first second here there below above => ?_)
    (sorted_ascending permuted) (sorted_ascending actions)
    ((sorts permuted).trans (permutes.trans (sorts actions).symm))
  have firstOf : first ∈ actions := permutes.mem_iff.mp ((sorts permuted).mem_iff.mp here)
  have secondOf : second ∈ actions := (sorts actions).mem_iff.mp there
  exact List.inj_on_of_nodup_map distinct firstOf secondOf (Int.le_antisymm below above)

theorem maxSteps_permuted (permutes : permuted.Perm actions) :
    ActionEngine.maxSteps permuted = ActionEngine.maxSteps actions := by
  unfold ActionEngine.maxSteps
  rw [permutes.length_eq]

/-- Both lists are one program for the engine. -/
theorem run_permuted (h : Helpers) (distinct : (actions.map AutomationAction.order).Nodup)
    (permutes : permuted.Perm actions) (ctx : ActionRunContext) :
    ActionEngine.run h permuted ctx = ActionEngine.run h actions ctx := by
  unfold ActionEngine.run
  rw [sorted_permuted distinct permutes, maxSteps_permuted permutes]

end Permuted

/-- **The order of loading does not matter**, in any world: on a list of actions with distinct
orders and on a permutation of it, the engine executes the same actions one after the other, each
with the same exchanges and the same end, makes the exchanges of these turns, and returns or throws
as the last of them; and what `AutomationProcessor.process` does after its lookups is the same. -/
theorem order_independent {σ : Type}
    (world : (call : Call) → Input → σ → Except Err (Resp call) × σ) (h : Helpers)
    {actions permuted : List AutomationAction}
    (distinct : (actions.map AutomationAction.order).Nodup) (permutes : permuted.Perm actions)
    (ctx : ActionRunContext) (tape : Program.Tape Input) (state : σ) :
    (∃ turns, ∀ given ∈ [actions, permuted],
      course world h (ActionEngine.sorted given) ctx (ActionEngine.maxSteps given) 0 tape state =
          turns ∧
        (ActionEngine.run h given ctx).exchanges world tape state = turns.flatMap Turn.exchanged ∧
        ((ActionEngine.run h given ctx).run world tape state).1 = ends turns) ∧
      (ActionEngine.run h permuted ctx).run world tape state =
        (ActionEngine.run h actions ctx).run world tape state ∧
      ∀ data, proceed h data (some (permuted, ctx)) = proceed h data (some (actions, ctx)) := by
  have same := run_permuted h distinct permutes ctx
  have own : ∀ given turns,
      course world h (ActionEngine.sorted given) ctx (ActionEngine.maxSteps given) 0 tape state =
        turns →
      (ActionEngine.run h given ctx).exchanges world tape state = turns.flatMap Turn.exchanged ∧
        ((ActionEngine.run h given ctx).run world tape state).1 = ends turns := by
    rintro given turns rfl
    exact ⟨(course_exchanges _ _ _ _).symm, (course_ends _ _ _ _).symm⟩
  refine ⟨⟨_, List.forall_mem_cons.mpr ⟨⟨rfl, own _ _ rfl⟩, List.forall_mem_singleton.mpr ?_⟩⟩,
    by rw [same], fun data => by simp only [proceed, same]⟩
  have one : course world h (ActionEngine.sorted permuted) ctx (ActionEngine.maxSteps permuted) 0
      tape state = course world h (ActionEngine.sorted actions) ctx (ActionEngine.maxSteps actions)
        0 tape state := by
    rw [sorted_permuted distinct permutes, maxSteps_permuted permutes]
  exact ⟨one, own _ _ one⟩

theorem order_independent_example :
    (ActionEngine.run WaAutomation.Example.helpers StepGuard.Example.looping.reverse
        StepGuard.Example.ctx).run exec StepGuard.Example.tape StepGuard.Example.store =
      (ActionEngine.run WaAutomation.Example.helpers StepGuard.Example.looping
        StepGuard.Example.ctx).run exec StepGuard.Example.tape StepGuard.Example.store :=
  (order_independent exec WaAutomation.Example.helpers (by decide) (List.reverse_perm _)
    StepGuard.Example.ctx StepGuard.Example.tape StepGuard.Example.store).2.1

end WaAutomation.Order
