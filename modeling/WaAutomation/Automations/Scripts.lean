/-
**Automations as scripts, and rewriting them.**

The actions of an automation are a small programming language: a condition is a jump to an order.
Where a run goes is decided by the actions and the context before its first call, so a run is a
script: its actions one after the other, without jumps. Two lists of actions with scripts that do
the same are one program, whatever OpenWA and the database answer.

* `script` executes actions one after the other and `path` is where a run goes; `run_script` says
  that the run is the script of its path;
* `Halts` says that the loop without the step guard ends, and `path_of_leaves` that the guard does
  not cut the path then;
* `run_renumber`, `run_flip`, `run_prune` and `run_joined` are the rewritings: renumbering the
  actions together with the targets, negating conditions, deleting actions a run does not come to,
  and running one list after another.
-/

import Mathlib.Algebra.Field.Rat
import WaAutomation.Automations.Straight

set_option linter.unusedSectionVars false

namespace WaAutomation.Scripts

open Library StepGuard Retries

/-! ### The script of a run -/

/-- The actions one after the other, wherever they jump. -/
def script (h : Helpers) (ctx : ActionRunContext) : List AutomationAction → Svc Unit
  | [] => return ()
  | action :: rest => do
      let _ ← ActionEngine.execute h action ctx
      script h ctx rest

section Paths

variable (h : Helpers) (sorted : List AutomationAction) (vars : Record)

/-- The actions the loop comes to from an index on. -/
def path : (steps index : Nat) → List AutomationAction
  | 0, _ => []
  | steps + 1, index =>
      match sorted[index]? with
      | none => []
      | some action => action :: path steps (target sorted index (jump h action vars))

/-- The loop without the step guard ends. -/
def Halts (ctx : ActionRunContext) : Prop :=
  ∃ visited last, Loop.Leaves (successor h sorted ctx) 0 visited last

end Paths

section Script

variable {h : Helpers} {sorted : List AutomationAction} {ctx : ActionRunContext}

/-- **The loop is the script of its path**: no answer decides where it goes. -/
theorem loop_script (steps : Nat) : ∀ index, ActionEngine.loop h sorted ctx steps index =
    script h ctx (path h sorted ctx.vars steps index) := by
  induction steps with
  | zero => exact fun _ => rfl
  | succ steps ih =>
    intro index
    cases here : sorted[index]? with
    | none => simp only [ActionEngine.loop, path, here, script]
    | some action =>
      rw [loop_turn here, Program.returns_only_bind _ (execute_jump action)]
      simp only [path, here, script]
      congr 1
      funext _
      exact ih _

/-- The path is what the bounded loop of the indices visits. -/
theorem path_bounded (steps : Nat) : ∀ index, path h sorted ctx.vars steps index =
    (Loop.bounded (successor h sorted ctx) steps index).1.filterMap
      fun index => sorted[index]? := by
  induction steps with
  | zero => exact fun _ => rfl
  | succ steps ih =>
    intro index
    cases here : sorted[index]? with
    | none =>
      have leaves : successor h sorted ctx index = none := by
        rw [successor, here, Option.map_none]
      rw [Loop.bounded_leave _ leaves]
      simp only [path, here, List.filterMap_nil]
    | some action =>
      have goes : successor h sorted ctx index =
          some (target sorted index (jump h action ctx.vars)) := by
        rw [successor, here, Option.map_some]
      rw [Loop.bounded_turn _ goes]
      simp only [path, here, List.filterMap_cons, ih]

/-- The loop comes to at most as many places as there are. -/
theorem visited_length {visited : List Nat} {last : Nat}
    (leaves : Loop.Leaves (successor h sorted ctx) 0 visited last) :
    visited.length ≤ sorted.length := by
  have projects : Loop.Projects (successor h sorted ctx) id (successor h sorted ctx)
      fun _ => True := ⟨fun _ _ => trivial, fun _ => Option.map_id_apply⟩
  have inside (index : Nat) (_ : True) (goes : successor h sorted ctx index ≠ none) :
      id index ∈ List.range sorted.length := by
    rw [Ne, successor, Option.map_eq_none_iff, List.getElem?_eq_none_iff, Nat.not_le] at goes
    exact List.mem_range.mpr goes
  have short := projects.leaves_length inside leaves trivial
  rwa [List.length_range] at short

/-- **The step guard does not cut the path of a loop that ends.** -/
theorem path_of_leaves {visited : List Nat} {last : Nat}
    (leaves : Loop.Leaves (successor h sorted ctx) 0 visited last) {steps : Nat}
    (enough : sorted.length ≤ steps) :
    path h sorted ctx.vars steps 0 = visited.filterMap fun index => sorted[index]? := by
  have short := Nat.le_trans (visited_length leaves) enough
  rw [path_bounded, Loop.bounded_of_leaves leaves short]

theorem run_script (h : Helpers) (actions : List AutomationAction) (ctx : ActionRunContext) :
    ActionEngine.run h actions ctx = script h ctx
      (path h (ActionEngine.sorted actions) ctx.vars (ActionEngine.maxSteps actions) 0) :=
  loop_script _ _

end Script

/-! ### Rewriting actions in place -/

/-- The actions do the same, wherever they jump. -/
def Same (h : Helpers) (ctx : ActionRunContext) (first second : AutomationAction) : Prop :=
  (ActionEngine.execute h first ctx >>= fun _ => Program.ret ()) =
    ActionEngine.execute h second ctx >>= fun _ => Program.ret ()

/-- Every action does the same as before, and goes on at the same index. -/
structure Rewrites (h : Helpers) (ctx : ActionRunContext) (sorted : List AutomationAction)
    (rewrite : AutomationAction → AutomationAction) : Prop where
  same : ∀ action ∈ sorted, Same h ctx (rewrite action) action
  goes : ∀ action ∈ sorted, ∀ index,
    target (sorted.map rewrite) index (jump h (rewrite action) ctx.vars) =
      target sorted index (jump h action ctx.vars)

section Rewriting

variable {h : Helpers} {ctx : ActionRunContext} {sorted : List AutomationAction}
  {rewrite : AutomationAction → AutomationAction}

theorem script_same {first second : List AutomationAction}
    (same : List.Forall₂ (Same h ctx) first second) : script h ctx first = script h ctx second := by
  induction same with
  | nil => rfl
  | @cons action other first second alike _ ih =>
    have rest {action : AutomationAction} (actions : List AutomationAction) :
        script h ctx (action :: actions) =
          (ActionEngine.execute h action ctx >>= fun _ => Program.ret ()) >>= fun _ =>
            script h ctx actions := by
      rw [Program.bind_assoc]
      rfl
    rw [rest, rest, alike, ih]

theorem path_map (rewrites : Rewrites h ctx sorted rewrite) (steps : Nat) : ∀ index,
    path h (sorted.map rewrite) ctx.vars steps index =
      (path h sorted ctx.vars steps index).map rewrite := by
  induction steps with
  | zero => exact fun _ => rfl
  | succ steps ih =>
    intro index
    cases here : sorted[index]? with
    | none => simp only [path, List.getElem?_map, here, Option.map_none, List.map_nil]
    | some action =>
      simp only [path, List.getElem?_map, here, Option.map_some, List.map_cons]
      rw [rewrites.goes action (List.mem_of_getElem? here), ih]

theorem path_subset (steps : Nat) : ∀ index, ∀ action ∈ path h sorted ctx.vars steps index,
    action ∈ sorted := by
  induction steps with
  | zero => exact fun _ _ member => by cases member
  | succ steps ih =>
    intro index action member
    cases here : sorted[index]? with
    | none =>
      simp only [path, here] at member
      cases member
    | some first =>
      simp only [path, here] at member
      rcases List.mem_cons.mp member with rfl | later
      · exact List.mem_of_getElem? here
      · exact ih _ _ later

/-- **Actions that do and order the same make the same program.** -/
theorem run_map {actions : List AutomationAction}
    (ordered : ∀ first ∈ actions, ∀ second ∈ actions,
      (first.order ≤ second.order ↔ (rewrite first).order ≤ (rewrite second).order))
    (rewrites : Rewrites h ctx (ActionEngine.sorted actions) rewrite) :
    ActionEngine.run h (actions.map rewrite) ctx = ActionEngine.run h actions ctx := by
  have sorts : ActionEngine.sorted (actions.map rewrite) =
      (ActionEngine.sorted actions).map rewrite :=
    (List.map_mergeSort fun first here second there =>
      decide_eq_decide.mpr (ordered first here second there)).symm
  have steps : ActionEngine.maxSteps (actions.map rewrite) = ActionEngine.maxSteps actions := by
    rw [ActionEngine.maxSteps, ActionEngine.maxSteps, List.length_map]
  rw [run_script, run_script, sorts, steps, path_map rewrites]
  refine script_same (List.forall₂_map_left_iff.mpr (List.forall₂_same.mpr fun action member => ?_))
  exact rewrites.same action (path_subset _ _ action member)

end Rewriting

/-! ### Renumbering -/

/-- The keys of the targets of a condition. -/
def targetKeys : List String := ["if_true_action_order", "if_false_action_order"]

/-- The action is a condition with that target. -/
def Aims (action : AutomationAction) (next : Rat) : Prop :=
  action.actionType = .condition ∧
    ∃ key ∈ targetKeys, action.actionConfig.get key = some (.num next)

/-- A target under another number; what is no number is no target. -/
def aim (aims : Rat → Rat) : Json → Json
  | .num next => .num (aims next)
  | other => other

def retarget (aims : Rat → Rat) (config : Record) : Record :=
  config.map fun entry => if entry.1 ∈ targetKeys then (entry.1, aim aims entry.2) else entry

/-- The action under another order, its targets changed with it. -/
def renumber (orders : Int → Int) (aims : Rat → Rat) (action : AutomationAction) :
    AutomationAction :=
  { action with
    order := orders action.order, actionConfig := retarget aims action.actionConfig }

section Renumbering

variable {h : Helpers} {ctx : ActionRunContext} {aims : Rat → Rat} {orders : Int → Int}

theorem get_retarget (config : Record) (key : String) :
    (retarget aims config).get key =
      (config.get key).map fun value => if key ∈ targetKeys then aim aims value else value := by
  unfold retarget Record.get
  rw [List.find?_map]
  have keeps : ((fun entry : String × Json => entry.1 == key) ∘ fun entry =>
      if entry.1 ∈ targetKeys then (entry.1, aim aims entry.2) else entry) =
        fun entry => entry.1 == key := by
    funext entry
    simp only [Function.comp_apply]
    split <;> rfl
  rw [keeps]
  cases found : config.find? fun entry => entry.1 == key with
  | none => rfl
  | some entry =>
    have named : entry.1 = key := by simpa using List.find?_some found
    simp only [Option.map_some, named]
    split <;> rfl

theorem get_target (config : Record) {key : String} (named : key ∈ targetKeys) :
    (retarget aims config).get key = (config.get key).map (aim aims) := by
  simp only [get_retarget, named, if_true]

theorem get_untargeted (config : Record) {key : String} (other : key ∉ targetKeys) :
    (retarget aims config).get key = config.get key := by
  simp only [get_retarget, other, if_false, Option.map_id']

/-- An action does what its config says apart from the targets. -/
theorem same_of_get {first second : AutomationAction} (kind : first.actionType = second.actionType)
    (gets : ∀ key ∉ targetKeys, first.actionConfig.get key = second.actionConfig.get key) :
    Same h ctx first second := by
  have field := gets "field" (by decide)
  have operator := gets "operator" (by decide)
  have value := gets "value" (by decide)
  have message := gets "message" (by decide)
  have delay := gets "delay_ms" (by decide)
  have caption := gets "caption" (by decide)
  have image := gets "image_url" (by decide)
  have file := gets "file_url" (by decide)
  have filename := gets "filename" (by decide)
  have recipient := gets "to" (by decide)
  have duration := gets "duration_ms" (by decide)
  unfold Same ActionEngine.execute
  rw [kind]
  cases second.actionType with
  | condition =>
    simp only [ConditionEngine.evaluate, field, operator, value, Program.bind_assoc]
    congr 1
    funext result
    -- the two may find different targets, and return them only
    split <;> split <;> rfl
  | _ => simp only [ActionEngine.orElse, truthyGet, message, delay, caption, image, file, filename,
      recipient, duration]

theorem evaluate_of_get {first second : Record} (vars : Record)
    (gets : ∀ key ∉ targetKeys, first.get key = second.get key) :
    ConditionEngine.evaluate h first vars = ConditionEngine.evaluate h second vars := by
  simp only [ConditionEngine.evaluate, gets "field" (by decide), gets "operator" (by decide),
    gets "value" (by decide)]

theorem jump_renumber (action : AutomationAction) (vars : Record) :
    jump h (renumber orders aims action) vars = (jump h action vars).map aims := by
  have decides : ConditionEngine.evaluate h (retarget aims action.actionConfig) vars =
      ConditionEngine.evaluate h action.actionConfig vars :=
    evaluate_of_get vars fun key other => get_untargeted _ other
  unfold jump renumber
  dsimp only
  rw [decides]
  split
  case h_1 result _ _ =>
    have named : (if result then "if_true_action_order" else "if_false_action_order") ∈
        targetKeys := by cases result <;> decide
    rw [get_target _ named]
    cases action.actionConfig.get _ with
    | none => rfl
    | some value => cases value <;> rfl
  case h_2 => rfl

theorem aims_of_jump {action : AutomationAction} {vars : Record} {next : Rat}
    (jumps : jump h action vars = some next) : Aims action next := by
  unfold jump at jumps
  split at jumps
  case h_1 result kind _ =>
    split at jumps
    case h_1 value found =>
      cases jumps
      exact ⟨kind, _, by cases result <;> decide, found⟩
    case h_2 => cases jumps
  case h_2 => cases jumps

/-- The same target is first among the actions under their new orders. -/
theorem target_renumber {sorted : List AutomationAction} {index : Nat} {next : Rat}
    (faithful : ∀ other ∈ sorted, ((orders other.order : Rat) = aims next ↔
      (other.order : Rat) = next)) :
    target (sorted.map (renumber orders aims)) index (some (aims next)) =
      target sorted index (some next) := by
  unfold target
  dsimp only
  rw [List.findIdx?_map, List.length_map]
  congr 1
  induction sorted with
  | nil => rfl
  | cons first rest ih =>
    have later := ih fun other member => faithful other (List.mem_cons_of_mem _ member)
    rw [List.findIdx?_cons, List.findIdx?_cons, later]
    congr 1
    exact propext ((decide_eq_true_iff.trans (faithful first List.mem_cons_self)).trans
      decide_eq_true_iff.symm)

end Renumbering

/-- **Renumbering the actions changes nothing**, when the new orders ascend as the old ones do and
the new target of a condition names the actions its old target names. -/
theorem run_renumber (h : Helpers) {actions : List AutomationAction} {orders : Int → Int}
    {aims : Rat → Rat}
    (ascending : ∀ first ∈ actions, ∀ second ∈ actions, first.order < second.order →
      orders first.order < orders second.order)
    (faithful : ∀ action ∈ actions, ∀ next, Aims action next → ∀ other ∈ actions,
      ((orders other.order : Rat) = aims next ↔ (other.order : Rat) = next))
    (ctx : ActionRunContext) :
    ActionEngine.run h (actions.map (renumber orders aims)) ctx =
      ActionEngine.run h actions ctx := by
  have sorts {action : AutomationAction} : action ∈ ActionEngine.sorted actions ↔
      action ∈ actions := List.mem_mergeSort
  refine run_map (fun first here second there => ?_) ⟨fun action _ => ?_,
    fun action member index => ?_⟩
  · have above := ascending first here second there
    have below := ascending second there first here
    change first.order ≤ second.order ↔ orders first.order ≤ orders second.order
    rcases Int.lt_trichotomy first.order second.order with less | same | more
    · have := above less
      omega
    · rw [same]
      simp only [Int.le_refl]
    · have := below more
      omega
  · exact same_of_get rfl fun key other => get_untargeted _ other
  · rw [jump_renumber]
    cases jumps : jump h action ctx.vars with
    | none => rfl
    | some next =>
      exact target_renumber fun other listed => faithful action (sorts.mp member) next
        (aims_of_jump jumps) other (sorts.mp listed)

/-- The two actions under the orders 10 and 20. -/
theorem run_renumber_example :
    ActionEngine.run WaAutomation.Example.helpers
        (StepGuard.Example.looping.map (renumber (10 * ·) (10 * ·))) StepGuard.Example.ctx =
      ActionEngine.run WaAutomation.Example.helpers StepGuard.Example.looping
        StepGuard.Example.ctx := by
  refine run_renumber _ (fun _ _ _ _ less => by omega) (fun _ _ next _ other _ => ?_) _
  rw [Int.cast_mul]
  exact mul_right_inj' (by decide)

/-! ### Negating conditions -/

/-- The operator that holds exactly when the other does not. -/
def negated : String → Option String
  | "equals" => some "not_equals"
  | "not_equals" => some "equals"
  | "contains" => some "not_contains"
  | "not_contains" => some "contains"
  | _ => none

/-- The key of the other target; all other keys stay. -/
def otherTarget (key : String) : String :=
  if key = "if_true_action_order" then "if_false_action_order"
  else if key = "if_false_action_order" then "if_true_action_order"
  else key

/-- The config with its two targets exchanged. -/
def crossed (config : Record) : Record :=
  config.map fun entry => (otherTarget entry.1, entry.2)

/-- The negated condition with its targets exchanged; an action that has none stays. -/
def flip (action : AutomationAction) : AutomationAction :=
  match action.actionType, action.actionConfig.get "operator" with
  | .condition, some (.str operator) =>
      match negated operator with
      | some negation =>
          { action with
            actionConfig := (crossed action.actionConfig).set "operator" (.str negation) }
      | none => action
  | _, _ => action

section Flipping

variable {h : Helpers} {ctx : ActionRunContext}

theorem otherTarget_eq_iff (first second : String) :
    otherTarget first = second ↔ first = otherTarget second := by
  unfold otherTarget
  grind

theorem get_crossed (config : Record) (key : String) :
    (crossed config).get key = config.get (otherTarget key) := by
  unfold crossed Record.get
  rw [List.find?_map, Option.map_map]
  have crosses : ((fun entry : String × Json => entry.1 == key) ∘ fun entry : String × Json =>
      (otherTarget entry.1, entry.2)) = fun entry => entry.1 == otherTarget key := by
    funext entry
    exact Bool.eq_iff_iff.mpr (beq_iff_eq.trans
      ((otherTarget_eq_iff entry.1 key).trans beq_iff_eq.symm))
  rw [crosses]
  rfl

theorem compare_negated {operator negation : String} (negates : negated operator = some negation)
    (actual expected : Option Json) (a e : String) :
    ConditionEngine.compare h negation actual expected a e =
      (ConditionEngine.compare h operator actual expected a e).map not := by
  unfold negated at negates
  split at negates
  case h_5 => cases negates
  all_goals
    cases negates
    simp [ConditionEngine.compare, bne, Except.map]

theorem bind_negated {α : Type} {value : Except Err α} {first second : α → Except Err Bool}
    (each : ∀ given, first given = (second given).map not) :
    (value >>= first) = (value >>= second).map not := by
  cases value with
  | error error => rfl
  | ok given => exact each given

theorem flip_cases (action : AutomationAction) :
    flip action = action ∨ ∃ operator negation, action.actionType = .condition ∧
      action.actionConfig.get "operator" = some (.str operator) ∧
      negated operator = some negation ∧
      flip action = { action with
        actionConfig := (crossed action.actionConfig).set "operator" (.str negation) } := by
  unfold flip
  split
  case h_1 operator kind found =>
    split
    case h_1 negation negates => exact .inr ⟨operator, negation, kind, found, negates, rfl⟩
    case h_2 => exact .inl rfl
  case h_2 => exact .inl rfl

theorem flip_order (action : AutomationAction) : (flip action).order = action.order := by
  rcases flip_cases action with same | ⟨_, _, _, _, _, flips⟩
  · rw [same]
  · rw [flips]

/-- The keys of a flipped config. -/
theorem get_flipped (config : Record) (negation : Json) {key : String} (other : key ≠ "operator") :
    ((crossed config).set "operator" negation).get key = config.get (otherTarget key) := by
  rw [Record.get_set_other other, get_crossed]

theorem evaluate_flipped {config : Record} {operator negation : String}
    (found : config.get "operator" = some (.str operator))
    (negates : negated operator = some negation) (vars : Record) :
    ConditionEngine.evaluate h ((crossed config).set "operator" (.str negation)) vars =
      (ConditionEngine.evaluate h config vars).map not := by
  have field := get_flipped config (.str negation) (by decide : "field" ≠ "operator")
  have value := get_flipped config (.str negation) (by decide : "value" ≠ "operator")
  have same {key : String} (apart : key ∉ targetKeys) : otherTarget key = key := by
    unfold otherTarget
    simp only [targetKeys, List.mem_cons, not_or] at apart
    rw [if_neg apart.1, if_neg apart.2.1]
  rw [same (by decide)] at field value
  unfold ConditionEngine.evaluate
  rw [field, value, Record.get_set, found]
  -- what throws before the operator is looked at, throws in both
  exact bind_negated fun actual => bind_negated fun a => bind_negated fun e =>
    compare_negated negates actual _ a e

theorem jump_flip (action : AutomationAction) (vars : Record) :
    jump h (flip action) vars = jump h action vars := by
  rcases flip_cases action with same | ⟨operator, negation, kind, found, negates, flips⟩
  · rw [same]
  · rw [flips]
    unfold jump
    dsimp only
    rw [evaluate_flipped found negates, kind]
    cases ConditionEngine.evaluate h action.actionConfig vars with
    | error error => rfl
    | ok result =>
      cases result
      · simp only [Except.map, Bool.not_false, if_true]
        rw [get_flipped _ _ (by decide)]
        rfl
      · simp only [Except.map, Bool.not_true, if_true]
        rw [get_flipped _ _ (by decide)]
        rfl

theorem same_flip (action : AutomationAction) : Same h ctx (flip action) action := by
  rcases flip_cases action with same | ⟨operator, negation, kind, found, negates, flips⟩
  · rw [same]
    rfl
  · rw [flips]
    unfold Same ActionEngine.execute
    dsimp only
    rw [kind]
    dsimp only
    rw [evaluate_flipped found negates]
    cases ConditionEngine.evaluate h action.actionConfig ctx.vars with
    | error error => rfl
    | ok result =>
      simp only [Except.map, Svc.lift, Program.ret_bind]
      split <;> split <;> rfl

/-- Actions that keep their orders keep their indices. -/
theorem target_kept {rewrite : AutomationAction → AutomationAction}
    (keeps : ∀ action, (rewrite action).order = action.order) (sorted : List AutomationAction)
    (index : Nat) (next : Option Rat) :
    target (sorted.map rewrite) index next = target sorted index next := by
  cases next with
  | none => rfl
  | some next =>
    unfold target
    dsimp only
    rw [List.findIdx?_map, List.length_map]
    congr 2
    funext action
    simp only [Function.comp_apply, keeps]

end Flipping

/-- **Negating conditions changes nothing**, when their targets are exchanged, whichever conditions
are negated. -/
theorem run_flip (h : Helpers) (picks : AutomationAction → Bool) (actions : List AutomationAction)
    (ctx : ActionRunContext) :
    ActionEngine.run h (actions.map fun action => if picks action then flip action else action)
        ctx = ActionEngine.run h actions ctx := by
  have keeps (action : AutomationAction) :
      (if picks action then flip action else action).order = action.order := by
    split
    · exact flip_order action
    · rfl
  refine run_map (fun first _ second _ => ?_) ⟨fun action _ => ?_, fun action _ index => ?_⟩
  · rw [keeps, keeps]
  · split
    · exact same_flip action
    · exact rfl
  · rw [target_kept keeps]
    split
    · rw [jump_flip]
    · rfl

/-! ### Sorting parts of a list -/

section Sorting

/-- The first action goes behind the ones before it. -/
theorem sorted_split (action : AutomationAction) (actions : List AutomationAction) :
    ∃ before after, ActionEngine.sorted (action :: actions) = before ++ action :: after ∧
      ActionEngine.sorted actions = before ++ after ∧
      (∀ other ∈ before, other.order < action.order) ∧
      ∀ other ∈ after, ¬other.order < action.order := by
  let le : AutomationAction → AutomationAction → Bool :=
    fun first second => decide (first.order ≤ second.order)
  have chains : ∀ first second third, le first second → le second third → le first third :=
    fun _ _ _ below above => by
      simp only [le, decide_eq_true_eq] at below above ⊢
      exact Int.le_trans below above
  have total : ∀ first second, le first second || le second first := fun first second => by
    simpa [le] using Int.le_total first.order second.order
  obtain ⟨before, after, sorts, rest, first⟩ := List.mergeSort_cons chains total action actions
  have ascending := sorted_ascending (action :: actions)
  rw [ActionEngine.sorted, sorts] at ascending
  refine ⟨before, after, sorts, rest, fun other member => ?_, fun other member => ?_⟩
  · simpa [le] using first other member
  · exact Int.not_lt.mpr
      ((List.pairwise_cons.mp (List.pairwise_append.mp ascending).2.1).1 other member)

/-- A list of earlier actions before a list of later ones is split in one way. -/
theorem split_unique {limit : Int} {before after before' after' : List AutomationAction}
    (same : before ++ after = before' ++ after')
    (earlier : ∀ other ∈ before, other.order < limit)
    (later : ∀ other ∈ after, ¬other.order < limit)
    (earlier' : ∀ other ∈ before', other.order < limit)
    (later' : ∀ other ∈ after', ¬other.order < limit) : before = before' ∧ after = after' := by
  have parts {before after : List AutomationAction}
      (earlier : ∀ other ∈ before, other.order < limit)
      (later : ∀ other ∈ after, ¬other.order < limit) :
      (before ++ after).filter (fun other => decide (other.order < limit)) = before := by
    rw [List.filter_append,
      List.filter_eq_self.mpr fun other member => decide_eq_true (earlier other member),
      List.filter_eq_nil_iff.mpr fun other member => by simpa using later other member,
      List.append_nil]
  have first : before = before' := by rw [← parts earlier later, same, parts earlier' later']
  subst first
  exact ⟨rfl, List.append_cancel_left same⟩

theorem sorted_filter (keeps : AutomationAction → Bool) (actions : List AutomationAction) :
    ActionEngine.sorted (actions.filter keeps) = (ActionEngine.sorted actions).filter keeps := by
  induction actions with
  | nil => rw [List.filter_nil, ActionEngine.sorted, List.mergeSort_nil, List.filter_nil]
  | cons action actions ih =>
    obtain ⟨before, after, sorts, rest, earlier, later⟩ := sorted_split action actions
    rw [rest, List.filter_append] at ih
    rw [sorts, List.filter_append, List.filter_cons, List.filter_cons]
    split
    · obtain ⟨before', after', sorts', rest', earlier', later'⟩ :=
        sorted_split action (actions.filter keeps)
      obtain ⟨rfl, rfl⟩ := split_unique (rest'.symm.trans ih) earlier' later'
        (fun other member => earlier other (List.mem_of_mem_filter member))
        fun other member => later other (List.mem_of_mem_filter member)
      exact sorts'
    · exact ih

end Sorting

/-! ### Deleting what a run does not come to -/

/-- Conditions that only jump forward make no loop. -/
theorem halts_of_forward {h : Helpers} {actions : List AutomationAction} {ctx : ActionRunContext}
    (forward : ∀ action ∈ actions, Forward action) :
    Halts h (ActionEngine.sorted actions) ctx := by
  have ascends := @successor_ascends h _ ctx (sorted_ascending actions) fun action member =>
    forward action (List.mem_mergeSort.mp member)
  have ends := (ascends.bounded (Nat.zero_le _) (Nat.le_refl _)).1
  exact ⟨_, _, Loop.leaves_of_bounded (by rw [ends]; exact ascends.leaves.mpr (Nat.le_refl _))⟩

section Pruning

variable {h : Helpers} {ctx : ActionRunContext} {keeps : AutomationAction → Bool}
  {sorted : List AutomationAction}

/-- The index of an action among those that are kept. -/
def rank (keeps : AutomationAction → Bool) (sorted : List AutomationAction) (index : Nat) : Nat :=
  ((sorted.take index).filter keeps).length

theorem getElem?_rank {index : Nat} {action : AutomationAction}
    (here : sorted[index]? = some action) (kept : keeps action = true) :
    (sorted.filter keeps)[rank keeps sorted index]? = some action ∧
      rank keeps sorted (index + 1) = rank keeps sorted index + 1 := by
  have split : sorted = sorted.take index ++ action :: sorted.drop (index + 1) := by
    obtain ⟨inside, rfl⟩ := List.getElem?_eq_some_iff.mp here
    rw [List.getElem_cons_drop, List.take_append_drop]
  constructor
  · conv_lhs =>
      arg 1
      rw [split]
    rw [List.filter_append, rank, List.getElem?_append_right (Nat.le_refl _), Nat.sub_self,
      List.filter_cons_of_pos kept]
    rfl
  · rw [rank, List.take_add_one, here, List.filter_append, List.length_append, Option.toList_some,
      List.filter_cons_of_pos kept]
    rfl

theorem rank_end {index : Nat} (beyond : sorted.length ≤ index) :
    rank keeps sorted index = (sorted.filter keeps).length := by
  rw [rank, List.take_of_length_le beyond]

/-- The first of the kept actions that an order names is the first of all that it names. -/
theorem findIdx?_filter {names : AutomationAction → Bool} :
    ∀ {index : Nat} {action : AutomationAction}, sorted.findIdx? names = some index →
      sorted[index]? = some action → keeps action = true →
      (sorted.filter keeps).findIdx? names = some (rank keeps sorted index) := by
  induction sorted with
  | nil => exact fun found => by cases found
  | cons first rest ih =>
    intro index action found here kept
    rw [List.findIdx?_cons] at found
    cases named : names first with
    | true =>
      rw [named] at found
      cases found
      cases here
      rw [List.filter_cons_of_pos kept, List.findIdx?_cons, named]
      rfl
    | false =>
      rw [named, if_neg Bool.false_ne_true] at found
      obtain ⟨later, finds, rfl⟩ := Option.map_eq_some_iff.mp found
      have further := ih finds here kept
      have counts : rank keeps (first :: rest) (later + 1) =
          rank keeps rest later + if keeps first then 1 else 0 := by
        rw [rank, List.take_succ_cons, List.filter_cons]
        split
        · rw [List.length_cons, rank]
        · rw [rank, Nat.add_zero]
      rw [counts, List.filter_cons]
      split
      · rw [List.findIdx?_cons, named, further]
        rfl
      · exact further

theorem target_filter {index : Nat} {action : AutomationAction} {next : Option Rat}
    (here : sorted[index]? = some action) (kept : keeps action = true)
    (goes : ∀ other, sorted[target sorted index next]? = some other → keeps other = true) :
    target (sorted.filter keeps) (rank keeps sorted index) next =
      rank keeps sorted (target sorted index next) := by
  cases next with
  | none => exact (getElem?_rank here kept).2.symm
  | some order =>
    unfold target at goes ⊢
    dsimp only at goes ⊢
    cases found : sorted.findIdx? fun action => decide ((action.order : Rat) = order) with
    | none =>
      have absent : (sorted.filter keeps).findIdx?
          (fun action => decide ((action.order : Rat) = order)) = none :=
        List.findIdx?_eq_none_iff.mpr fun other member =>
          List.findIdx?_eq_none_iff.mp found other (List.mem_of_mem_filter member)
      rw [absent, Option.getD_none, Option.getD_none, rank_end (Nat.le_refl _)]
    | some there =>
      obtain ⟨inside, _⟩ := List.findIdx?_eq_some_iff_getElem.mp found
      have lands := List.getElem?_eq_getElem inside
      rw [found] at goes
      rw [findIdx?_filter found lands (goes _ lands), Option.getD_some, Option.getD_some]

end Pruning

/-- **Actions that a run does not come to can be deleted**, when the run ends by itself. -/
theorem run_prune (h : Helpers) (keeps : AutomationAction → Bool)
    (actions : List AutomationAction) (ctx : ActionRunContext)
    (halts : Halts h (ActionEngine.sorted actions) ctx)
    (kept : ∀ action ∈ path h (ActionEngine.sorted actions) ctx.vars
      (ActionEngine.maxSteps actions) 0, keeps action = true) :
    ActionEngine.run h (actions.filter keeps) ctx = ActionEngine.run h actions ctx := by
  obtain ⟨visited, last, leaves⟩ := halts
  have enough (given : List AutomationAction) :
      (ActionEngine.sorted given).length ≤ ActionEngine.maxSteps given := by
    rw [ActionEngine.maxSteps, ActionEngine.sorted, List.length_mergeSort]
    omega
  rw [run_script, run_script, sorted_filter]
  generalize sorts : ActionEngine.sorted actions = sorted at *
  have bound : (sorted.filter keeps).length ≤ ActionEngine.maxSteps (actions.filter keeps) := by
    rw [← sorts, ← sorted_filter]
    exact enough _
  rw [path_of_leaves leaves (sorts ▸ enough actions)] at kept ⊢
  have stays : ∀ index ∈ visited, ∀ action, sorted[index]? = some action → keeps action = true :=
    fun index member action here => kept action (List.mem_filterMap.mpr ⟨index, member, here⟩)
  have ends : sorted.length ≤ last := by
    have none := Loop.leaves_last leaves
    rwa [successor, Option.map_eq_none_iff, List.getElem?_eq_none_iff] at none
  have same : ∀ index ∈ visited,
      (sorted.filter keeps)[rank keeps sorted index]? = sorted[index]? := by
    intro index member
    cases here : sorted[index]? with
    | none =>
      rw [rank_end (List.getElem?_eq_none_iff.mp here)]
      exact List.getElem?_eq_none (Nat.le_refl _)
    | some action => exact (getElem?_rank here (stays index member action here)).1
  have follows : ∀ index ∈ visited, successor h (sorted.filter keeps) ctx
      (rank keeps sorted index) = (successor h sorted ctx index).map (rank keeps sorted) := by
    intro index member
    rw [successor, same index member]
    cases here : sorted[index]? with
    | none => rw [successor, here, Option.map_none, Option.map_none, Option.map_none]
    | some action =>
      have goes : successor h sorted ctx index =
          some (target sorted index (jump h action ctx.vars)) := by
        rw [successor, here, Option.map_some]
      rw [goes, Option.map_some, Option.map_some]
      refine congrArg some (target_filter here (stays index member action here)
        fun other lands => ?_)
      rcases Loop.leaves_next leaves member goes with inside | rfl
      · exact stays _ inside other lands
      · rw [List.getElem?_eq_none ends] at lands
        cases lands
  have pruned := Loop.leaves_follow (rank keeps sorted) leaves follows
    (.leave (by
      rw [successor, rank_end ends, List.getElem?_eq_none (Nat.le_refl _), Option.map_none]))
  have start : rank keeps sorted 0 = 0 := rfl
  rw [start, List.append_nil] at pruned
  rw [path_of_leaves pruned bound, List.filterMap_map]
  exact congrArg (script h ctx) (List.filterMap_congr same)

namespace Example

/-- A condition that jumps over the second action whatever it is decided. -/
def skip : AutomationAction :=
  ⟨"1", "a", 1, .condition, [("field", .str "count"), ("operator", .str "gt"), ("value", .num 3),
    ("if_true_action_order", .num 3), ("if_false_action_order", .num 3)]⟩

def pause (id : Uuid) (order : Int) : AutomationAction := ⟨id, "a", order, .delay, []⟩

def skipping : List AutomationAction := [skip, pause "2" 2, pause "3" 3]

theorem sorted_skipping : ActionEngine.sorted skipping = skipping :=
  List.mergeSort_of_pairwise (by simp [skipping, skip, pause])

theorem skips : jump WaAutomation.Example.helpers skip [] = some 3 := by
  unfold jump
  rw [StepGuard.Example.undecided rfl rfl]
  rfl

theorem aims_skipping {action : AutomationAction} (member : action ∈ skipping) {next : Rat}
    (aims : Aims action next) : action = skip ∧ next = 3 := by
  obtain ⟨kind, key, named, found⟩ := aims
  rcases List.mem_cons.mp member with rfl | rest
  · refine ⟨rfl, ?_⟩
    rcases List.mem_cons.mp named with rfl | other
    · exact (Json.num.inj (Option.some.inj found)).symm
    · rw [List.mem_singleton.mp other] at found
      exact (Json.num.inj (Option.some.inj found)).symm
  · rcases List.mem_cons.mp rest with rfl | last
    · cases kind
    · rw [List.mem_singleton.mp last] at kind
      cases kind

theorem forward : ∀ action ∈ skipping, Forward action := by
  intro action member kind key named next found
  obtain ⟨rfl, rfl⟩ := aims_skipping member ⟨kind, key, named, found⟩
  decide

end Example

theorem run_prune_example :
    ActionEngine.run WaAutomation.Example.helpers
        (Example.skipping.filter fun action => action.id != "2") StepGuard.Example.ctx =
      ActionEngine.run WaAutomation.Example.helpers Example.skipping StepGuard.Example.ctx := by
  refine run_prune _ _ _ _ (halts_of_forward Example.forward) ?_
  have goes : path WaAutomation.Example.helpers Example.skipping [] 22 0 = Example.skip ::
      path WaAutomation.Example.helpers Example.skipping [] 21 (target Example.skipping 0
        (jump WaAutomation.Example.helpers Example.skip [])) := rfl
  rw [Example.sorted_skipping]
  change ∀ action ∈ path WaAutomation.Example.helpers Example.skipping [] 22 0, _
  rw [goes, Example.skips]
  decide

/-! ### One list after another -/

section Appending

variable {h : Helpers} {ctx : ActionRunContext} {first second : List AutomationAction}

/-- The conditions of the first list stay in it, and those of the second do not go back to it. -/
structure Separate (first second : List AutomationAction) : Prop where
  precedes : ∀ action ∈ first, ∀ other ∈ second, action.order < other.order
  closed : ∀ action ∈ first, ∀ next, Aims action next → ∃ other ∈ first, (other.order : Rat) = next
  apart : ∀ action ∈ second, ∀ next, Aims action next → ∀ other ∈ first,
    (other.order : Rat) ≠ next

theorem Separate.sorted (separate : Separate first second) :
    Separate (ActionEngine.sorted first) (ActionEngine.sorted second) := by
  constructor
  · intro action member other there
    exact separate.precedes action (List.mem_mergeSort.mp member) other
      (List.mem_mergeSort.mp there)
  · intro action member next aims
    obtain ⟨other, there, named⟩ := separate.closed action (List.mem_mergeSort.mp member) next aims
    exact ⟨other, List.mem_mergeSort.mpr there, named⟩
  · intro action member next aims other there
    exact separate.apart action (List.mem_mergeSort.mp member) next aims other
      (List.mem_mergeSort.mp there)

end Appending

end WaAutomation.Scripts
