/-
**A run of an automation over its attempts.**

When a run throws, the queue runs the whole job again from the first action. The path of a run
through its actions depends on the job alone, so all attempts come first to the same effect, the
first message on the path, or the increment of the run counter when there is none. An attempt in
which that effect fails has no effect at all, and within one attempt no effect happens twice when
conditions only jump forward. So all effects happen at most once exactly when the first one does.

* `Lead` is what a part of a run comes to first, `lead` that of an action and `leads` that of the
  loop, computed from the actions and the context;
* `Led` says that an action does what its lead says, and `execute_led` that every action does so;
* `turns` is the trace of the loop by the index of the action, and `tagged` that of an attempt;
* `turns_once` and `turns_leads` are the inductions over the loop;
* `delivered_once_iff` is about all attempts, and `sent_and_counted_twice` is a job whose
  bookkeeping fails after its message was accepted.
-/

import WaAutomation.Automations.RunCount
import WaAutomation.Automations.StepGuard

set_option linter.unusedSectionVars false

namespace WaAutomation.Retries

open Library StepGuard

/-! ### Leads -/

/-- What a part of a run comes to first: it throws, it sends a message of the action at an index, or
it ends; after so many pauses, and no other calls. -/
inductive Lead (α : Type) where
  | fails
  | sends (pauses index : Nat)
  | passes (pauses : Nat) (value : α)

def Lead.later {α : Type} (pauses : Nat) : Lead α → Lead α
  | .fails => .fails
  | .sends more index => .sends (pauses + more) index
  | .passes more value => .passes (pauses + more) value

section Leads

variable (h : Helpers) (vars : Record) (toPhone : Option Json)

/-- A message is sent when its template and its phone do not throw. -/
def sending (index pauses : Nat) (content phone : Except Err String) : Lead (Option Rat) :=
  match content, phone with
  | .ok _, .ok _ => .sends pauses index
  | _, _ => .fails

/-- What an action comes to first. -/
def lead (index : Nat) (action : AutomationAction) : Lead (Option Rat) :=
  let cfg := action.actionConfig
  match action.actionType with
  | .sendText =>
      sending index (if (truthyGet cfg "delay_ms").isSome then 1 else 0)
        (renderJson h (ActionEngine.orElse cfg "message" (.str "")) vars) (phoneOf toPhone)
  | .sendImage =>
      sending index 0 (renderJson h (ActionEngine.orElse cfg "caption" (.str "")) vars)
        (phoneOf toPhone)
  | .sendFile =>
      sending index 0 (renderJson h (ActionEngine.orElse cfg "caption" (.str "")) vars)
        (phoneOf toPhone)
  | .forward =>
      sending index 0 (renderJson h (ActionEngine.orElse cfg "message" (.str "")) vars)
        (phoneOf (firstTruthy (cfg.get "to") toPhone))
  | .delay => .passes 1 none
  | .condition =>
      match ConditionEngine.evaluate h cfg vars with
      | .ok _ => .passes 0 (jump h action vars)
      | .error _ => .fails

/-- What the loop comes to first. -/
def leads (sorted : List AutomationAction) : (steps index : Nat) → Lead Unit
  | 0, _ => .passes 0 ()
  | steps + 1, index =>
      match sorted[index]? with
      | none => .passes 0 ()
      | some action =>
          match lead h vars toPhone index action with
          | .fails => .fails
          | .sends pauses index => .sends pauses index
          | .passes pauses next => (leads sorted steps (target sorted index next)).later pauses

variable {h vars toPhone}

theorem lead_sends {index pauses first : Nat} {action : AutomationAction}
    (sends : lead h vars toPhone index action = .sends pauses first) : first = index := by
  have same {content phone : Except Err String} {pauses' : Nat}
      (sends : sending index pauses' content phone = .sends pauses first) : first = index := by
    unfold sending at sends
    split at sends
    · cases sends
      rfl
    · cases sends
  unfold lead at sends
  dsimp only at sends
  split at sends
  case h_5 => cases sends
  case h_6 => split at sends <;> cases sends
  all_goals exact same sends

end Leads

/-! ### Runs that follow a lead -/

/-- The stores after so many calls. -/
abbrev skip (calls : Nat) (stores : Nat → Store) : Nat → Store :=
  fun index => stores (index + calls)

/-- The tape after so many calls. -/
abbrev Skipped (calls : Nat) (tape : Program.Tape Input) : Program.Tape Input :=
  Program.Tape.advance^[calls] tape

/-- No message is accepted. -/
abbrev Unaccepted (exchanges : List Exchange) : Prop :=
  ∀ exchange ∈ exchanges, accepted exchange = false

/-- A run of an action that does what its lead says. A message is one call, and when it is rejected
the action throws. -/
def Led {α : Type} (program : Svc α) (tape : Program.Tape Input) (stores : Nat → Store) :
    Lead α → Prop
  | .fails =>
      (∃ error, (program.run (Program.found exec) tape stores).1 = .error error) ∧
        Unaccepted (program.exchanges (Program.found exec) tape stores)
  | .sends pauses _ =>
      ∃ before sent rest,
        program.exchanges (Program.found exec) tape stores = before ++ sent :: rest ∧
        Unaccepted before ∧ Unaccepted rest ∧
        accepted sent = (tape.later pauses).openwa.isOk ∧
        (accepted sent = false →
          ∃ error, (program.run (Program.found exec) tape stores).1 = .error error)
  | .passes pauses value =>
      program.run (Program.found exec) tape stores = (.ok value, Skipped pauses tape,
        skip pauses stores) ∧
        Unaccepted (program.exchanges (Program.found exec) tape stores)

/-- The input of a call, counted from an earlier one. -/
theorem later_skipped (calls index : Nat) :
    ∀ tape : Program.Tape Input, (Skipped calls tape).later index = tape.later (calls + index) := by
  induction calls with
  | zero =>
    intro tape
    rw [Nat.zero_add]
    rfl
  | succ calls ih =>
    intro tape
    have next := ih tape.advance
    rw [Nat.succ_add]
    exact next

section Rules

variable {α β : Type} {tape : Program.Tape Input} {stores : Nat → Store}

theorem led_ret (value : α) : Led (.ret value) tape stores (.passes 0 value) :=
  ⟨rfl, fun _ member => by cases member⟩

theorem led_throw (error : Err) : Led (.throw error : Svc α) tape stores .fails :=
  ⟨⟨error, rfl⟩, fun _ member => by cases member⟩

theorem led_sleep {ms : Int} {rest : Svc α} {lead : Lead α}
    (later : Led rest tape.advance (skip 1 stores) lead) :
    Led (Svc.sleep ms >>= fun _ => rest) tape stores (lead.later 1) := by
  have slept (input : Input) (store : Store) : (exec (.sleep ms) input store).1 = .ok () := rfl
  have ran : (Svc.sleep ms >>= fun _ => rest).run (Program.found exec) tape stores =
      rest.run (Program.found exec) tape.advance (skip 1 stores) := by
    simp only [Svc.sleep, Svc.call, Program.run_bind, Program.run_perform, Program.found, slept]
  have exchanges : (Svc.sleep ms >>= fun _ => rest).exchanges (Program.found exec) tape stores =
      ⟨.sleep ms, .ok ()⟩ :: rest.exchanges (Program.found exec) tape.advance (skip 1 stores) := by
    simp only [Svc.sleep, Svc.call, Program.exchanges_bind, Program.exchanges_perform,
      Program.run_perform, Program.found, slept, List.cons_append, List.nil_append]
  have quiet {others : List Exchange} (unaccepted : Unaccepted others) :
      Unaccepted (⟨.sleep ms, .ok ()⟩ :: others) :=
    List.forall_mem_cons.mpr ⟨rfl, unaccepted⟩
  cases lead with
  | fails =>
    obtain ⟨throws, unaccepted⟩ := later
    refine ⟨?_, ?_⟩
    · rw [ran]
      exact throws
    · rw [exchanges]
      exact quiet unaccepted
  | sends pauses index =>
    obtain ⟨before, sent, after, split, first, second, answered, throws⟩ := later
    refine ⟨_ :: before, sent, after, ?_, quiet first, second, ?_, ?_⟩
    · rw [exchanges, split]
      rfl
    · rw [answered, Nat.add_comm]
      rfl
    · rw [ran]
      exact throws
  | passes pauses value =>
    obtain ⟨ends, unaccepted⟩ := later
    refine ⟨?_, ?_⟩
    · rw [ran, ends, Nat.add_comm 1 pauses]
      rfl
    · rw [exchanges]
      exact quiet unaccepted

/-- A message, and then nothing that asks OpenWA. -/
theorem led_send {creds : OpenwaCredentials} {method : OpenwaMethod} {session : SessionRef}
    {rest : OpenwaResponse → Svc α} (index : Nat)
    (quiet : ∀ response, (rest response).Calls fun call => ∀ send, call ≠ .openwa send) :
    Led (OpenwaService.call creds method session none >>= rest) tape stores (.sends 0 index) := by
  obtain ⟨ran, single⟩ := OpenwaService.call_run creds method session none tape stores
  have runs := Program.run_bind (Program.found exec) (OpenwaService.call creds method session none)
    rest tape stores
  have exchanges := Program.exchanges_bind (Program.found exec)
    (OpenwaService.call creds method session none) rest tape stores
  rw [ran] at runs exchanges
  rw [single] at exchanges
  refine ⟨[], _, _, exchanges, fun _ member => (by cases member), ?_, ?_, fun rejected => ?_⟩
  · cases (tape.later 0).openwa with
    | error error => exact fun _ member => by cases member
    | ok response =>
      intro exchange member
      exact unaccepted_of (Program.exchanges_calls (quiet response) exchange member)
  · simp only [exec, Call.storage, perform, Store.openwa]
    cases (tape.later 0).openwa <;> rfl
  · simp only [exec, Call.storage, perform, Store.openwa] at rejected
    rw [runs]
    cases answers : (tape.later 0).openwa with
    | error error => exact ⟨_, rfl⟩
    | ok response =>
      rw [answers] at rejected
      cases rejected

end Rules

/-! ### One action -/

section Actions

variable {h : Helpers} {ctx : ActionRunContext} {tape : Program.Tape Input} {stores : Nat → Store}

theorem log_quiet (type : MessageType) (content : Option Json) (next : Option Rat) :
    (ActionEngine.log h ctx type content >>= fun _ => .ret next : Svc (Option Rat)).Calls
      fun call => ∀ send, call ≠ .openwa send := by
  refine Program.calls_bind (Program.calls_bind ?_ fun _ => trivial) fun _ => trivial
  exact Program.calls_attempt (MessagesService.record_calls fun _ _ => nofun)

/-- A message whose parts are two lifts before the send. -/
theorem led_sending {content phone : Except Err String} {index : Nat}
    {rest : String → String → Svc (Option Rat)}
    (sends : ∀ content phone, Led (rest content phone) tape stores (.sends 0 index)) :
    Led (Svc.lift content >>= fun content => Svc.lift phone >>= rest content) tape stores
      (sending index 0 content phone) := by
  cases content with
  | error error => exact led_throw error
  | ok content =>
    cases phone with
    | error error => exact led_throw error
    | ok phone => exact sends content phone

/-- **Every action does what its lead says**, whatever it is answered. -/
theorem execute_led (index : Nat) (action : AutomationAction) :
    Led (ActionEngine.execute h action ctx) tape stores
      (lead h ctx.vars ctx.toPhone index action) := by
  unfold ActionEngine.execute lead
  cases kind : action.actionType with
  | sendText =>
    dsimp only
    cases truthyGet action.actionConfig "delay_ms" with
    | none =>
      exact led_sending fun _ _ => led_send index fun _ => log_quiet _ _ _
    | some delay =>
      cases renderJson h (ActionEngine.orElse action.actionConfig "message" (.str "")) ctx.vars with
      | error error => exact led_throw error
      | ok message =>
        cases phoneOf ctx.toPhone with
        | error error =>
          have throws : Led (.throw error : Svc (Option Rat)) tape.advance (skip 1 stores) .fails :=
            led_throw error
          exact led_sleep throws
        | ok phone =>
          have sends : Led (OpenwaService.sendText ctx.creds ctx.session phone message none >>=
              fun _ => ActionEngine.log h ctx .text (some (.str message)) >>= fun _ => .ret none)
              tape.advance (skip 1 stores) (.sends 0 index) :=
            led_send index fun _ => log_quiet _ _ _
          exact led_sleep sends
  | sendImage => exact led_sending fun _ _ => led_send index fun _ => log_quiet _ _ _
  | sendFile => exact led_sending fun _ _ => led_send index fun _ => log_quiet _ _ _
  | forward => exact led_sending fun _ _ => led_send index fun _ => trivial
  | delay =>
    have slept : Led (.ret none : Svc (Option Rat)) tape.advance (skip 1 stores) (.passes 0 none) :=
      led_ret none
    exact led_sleep slept
  | condition =>
    have jumps : (ActionEngine.execute h action ctx).Returns (· = jump h action ctx.vars) :=
      execute_jump action
    unfold ActionEngine.execute at jumps
    rw [kind] at jumps
    dsimp only at jumps ⊢
    generalize ConditionEngine.evaluate h action.actionConfig ctx.vars = outcome at jumps ⊢
    cases outcome with
    | error error => exact led_throw error
    | ok result =>
      simp only [Svc.lift, Program.ret_bind] at jumps ⊢
      generalize action.actionConfig.get _ = value at jumps ⊢
      have ends {next : Option Rat} (same : next = jump h action ctx.vars) :
          Led (.ret next : Svc (Option Rat)) tape stores (.passes 0 (jump h action ctx.vars)) := by
        rw [same]
        exact led_ret _
      cases value with
      | none => exact ends jumps
      | some value => cases value <;> exact ends jumps

/-- An action asks OpenWA at most once with success. -/
theorem execute_once (action : AutomationAction) :
    ((ActionEngine.execute h action ctx).exchanges (Program.found exec) tape stores).Pairwise
      fun first second => accepted first = true → accepted second = false := by
  have none {exchanges : List Exchange} (unaccepted : Unaccepted exchanges) :
      exchanges.Pairwise fun first second => accepted first = true → accepted second = false :=
    List.pairwise_of_forall_mem_list fun _ _ second there _ => unaccepted second there
  have led : Led (ActionEngine.execute h action ctx) tape stores
      (lead h ctx.vars ctx.toPhone 0 action) := execute_led 0 action
  cases first : lead h ctx.vars ctx.toPhone 0 action with
  | fails =>
    rw [first] at led
    exact none led.2
  | passes pauses value =>
    rw [first] at led
    exact none led.2
  | sends pauses index =>
    rw [first] at led
    obtain ⟨before, sent, rest, split, quiet, after, _⟩ := led
    rw [split, List.pairwise_append, List.pairwise_cons]
    refine ⟨none quiet, ⟨fun other there _ => after other there, none after⟩, ?_⟩
    intro other there _ _ accepts
    rw [quiet other there] at accepts
    cases accepts

/-- No action counts a run. -/
theorem execute_uncounted (action : AutomationAction) :
    (ActionEngine.execute h action ctx).Calls fun call => RunCount.increments call = false :=
  ActionEngine.execute_calls (fun _ => rfl) (fun _ => rfl) fun _ _ => rfl

end Actions

/-! ### The loop -/

/-- The targets of a condition come after it. -/
def Forward (action : AutomationAction) : Prop :=
  action.actionType = .condition →
    ∀ key ∈ ["if_true_action_order", "if_false_action_order"], ∀ next,
      action.actionConfig.get key = some (.num next) → (action.order : Rat) < next

/-- The run counter is incremented. -/
def counted (exchange : Exchange) : Bool :=
  RunCount.increments exchange.request && exchange.reply.isOk

section Turns

variable (h : Helpers) (sorted : List AutomationAction) (ctx : ActionRunContext)

/-- The trace of the loop: its exchanges, each with the index of the action it is made by. -/
def turns : (steps index : Nat) → Program.Tape Input → (Nat → Store) → List (Nat × Exchange)
  | 0, _, _, _ => []
  | steps + 1, index, tape, stores =>
      match sorted[index]? with
      | none => []
      | some action =>
          let program := ActionEngine.execute h action ctx
          (program.exchanges (Program.found exec) tape stores).map (Prod.mk index) ++
            match program.run (Program.found exec) tape stores with
            | (.ok next, tape, stores) => turns steps (target sorted index next) tape stores
            | (.error _, _, _) => []

variable {h sorted ctx}

/-- One turn of the loop. -/
theorem loop_turn {steps index : Nat} {action : AutomationAction}
    (here : sorted[index]? = some action) :
    ActionEngine.loop h sorted ctx (steps + 1) index = ActionEngine.execute h action ctx >>=
      fun next => ActionEngine.loop h sorted ctx steps (target sorted index next) := by
  simp only [ActionEngine.loop, here]
  congr 1
  funext next
  cases next <;> rfl

theorem turns_exchanges (steps : Nat) : ∀ index tape stores,
    (turns h sorted ctx steps index tape stores).map Prod.snd =
      (ActionEngine.loop h sorted ctx steps index).exchanges (Program.found exec) tape stores := by
  induction steps with
  | zero => exact fun _ _ _ => rfl
  | succ steps ih =>
    intro index tape stores
    cases here : sorted[index]? with
    | none => simp only [turns, ActionEngine.loop, here]; rfl
    | some action =>
      rw [loop_turn here, Program.exchanges_bind]
      simp only [turns, here, List.map_append, List.map_map]
      congr 1
      · exact List.map_id _
      · cases (ActionEngine.execute h action ctx).run (Program.found exec) tape stores with
        | mk result rest =>
          cases result with
          | error error => rfl
          | ok next => exact ih _ _ _

/-- What the turns have of their own, and is kept by putting traces together, the trace has. -/
theorem turns_parts (holds : List (Nat × Exchange) → Prop) (none : holds [])
    (append : ∀ own later, holds own → holds later → holds (own ++ later))
    (own : ∀ index action tape stores, sorted[index]? = some action →
      holds (((ActionEngine.execute h action ctx).exchanges (Program.found exec) tape stores).map
        (Prod.mk index))) (steps : Nat) :
    ∀ index tape stores, holds (turns h sorted ctx steps index tape stores) := by
  induction steps with
  | zero => exact fun _ _ _ => none
  | succ steps ih =>
    intro index tape stores
    cases here : sorted[index]? with
    | none =>
      simp only [turns, here]
      exact none
    | some action =>
      simp only [turns, here]
      refine append _ _ (own index action tape stores here) ?_
      cases (ActionEngine.execute h action ctx).run (Program.found exec) tape stores with
      | mk result rest =>
        cases result with
        | error error => exact none
        | ok next => exact ih _ _ _

/-- What every exchange of an action has, the trace has. -/
theorem turns_forall {holds : Nat × Exchange → Prop}
    (own : ∀ index action tape stores, sorted[index]? = some action → ∀ exchange ∈
      (ActionEngine.execute h action ctx).exchanges (Program.found exec) tape stores,
        holds (index, exchange)) (steps : Nat) (index : Nat) (tape : Program.Tape Input)
    (stores : Nat → Store) :
    ∀ entry ∈ turns h sorted ctx steps index tape stores, holds entry := by
  refine turns_parts (fun entries => ∀ entry ∈ entries, holds entry)
    (fun _ member => (by cases member)) (fun _ _ => ?_) (fun index action tape stores here => ?_)
    steps index tape stores
  · exact fun first later => List.forall_mem_append.mpr ⟨first, later⟩
  · exact List.forall_mem_map.mpr (own index action tape stores here)

theorem turns_uncounted (steps index : Nat) (tape : Program.Tape Input) (stores : Nat → Store) :
    ∀ entry ∈ turns h sorted ctx steps index tape stores, counted entry.2 = false := by
  refine turns_forall (fun index action tape stores _ exchange member => ?_) steps index tape stores
  have calls := Program.exchanges_calls (execute_uncounted action) exchange member
  simp only [counted, calls, Bool.false_and]

/-- A condition that jumps forward jumps to a later order. -/
theorem jump_after {action : AutomationAction} {vars : Record} {next : Rat}
    (forward : Forward action)
    (jumps : jump h action vars = some next) : (action.order : Rat) < next := by
  unfold jump at jumps
  split at jumps
  case h_1 result kind _ =>
    split at jumps
    case h_1 value found =>
      cases jumps
      refine forward kind _ ?_ _ found
      cases result <;> simp
    case h_2 => cases jumps
  case h_2 => cases jumps

/-- **The loop only moves forward.** -/
theorem target_after {index : Nat} {action : AutomationAction} {next : Option Rat}
    (ascending : sorted.Pairwise fun first second => first.order ≤ second.order)
    (here : sorted[index]? = some action)
    (later : ∀ order, next = some order → (action.order : Rat) < order) :
    index < target sorted index next := by
  obtain ⟨inside, rfl⟩ := List.getElem?_eq_some_iff.mp here
  cases next with
  | none => exact Nat.lt_succ_self index
  | some order =>
    unfold target
    dsimp only
    cases found : sorted.findIdx? fun action => decide ((action.order : Rat) = order) with
    | none => exact inside
    | some there =>
      obtain ⟨within, same, _⟩ := List.findIdx?_eq_some_iff_getElem.mp found
      have order_there : (sorted[there].order : Rat) = order := of_decide_eq_true same
      by_contra backward
      have back : there ≤ index := Nat.le_of_not_lt backward
      have below : sorted[there].order ≤ sorted[index].order := by
        rcases Nat.lt_or_eq_of_le back with earlier | rfl
        · exact List.pairwise_iff_getElem.mp ascending there index within inside earlier
        · exact Int.le_refl _
      have above := later order rfl
      rw [← order_there] at above
      exact absurd (Rat.intCast_lt_intCast.mp above) (Int.not_lt.mpr below)

/-- Where the loop goes on after an action. -/
theorem target_execute {index : Nat} {action : AutomationAction} {next : Option Rat}
    {tape tape' : Program.Tape Input} {stores stores' : Nat → Store}
    (ascending : sorted.Pairwise fun first second => first.order ≤ second.order)
    (forward : ∀ action ∈ sorted, Forward action) (here : sorted[index]? = some action)
    (ran : (ActionEngine.execute h action ctx).run (Program.found exec) tape stores =
      (.ok next, tape', stores')) : index < target sorted index next := by
  have jumps := Program.returns_run (execute_jump action) (congrArg Prod.fst ran)
  refine target_after ascending here fun order same => ?_
  rw [jumps] at same
  exact jump_after (forward action (List.mem_of_getElem? here)) same

/-- The trace from an index on is about the actions from there on. -/
theorem turns_from (ascending : sorted.Pairwise fun first second => first.order ≤ second.order)
    (forward : ∀ action ∈ sorted, Forward action) (steps : Nat) : ∀ index tape stores,
    ∀ entry ∈ turns h sorted ctx steps index tape stores, index ≤ entry.1 := by
  induction steps with
  | zero => exact fun _ _ _ _ member => by cases member
  | succ steps ih =>
    intro index tape stores entry member
    cases here : sorted[index]? with
    | none =>
      simp only [turns, here] at member
      cases member
    | some action =>
      simp only [turns, here, List.mem_append, List.mem_map] at member
      obtain ⟨exchange, _, rfl⟩ | later := member
      · exact Nat.le_refl index
      · cases ran : (ActionEngine.execute h action ctx).run (Program.found exec) tape stores with
        | mk result rest =>
          rw [ran] at later
          cases result with
          | error error => cases later
          | ok next =>
            have beyond := target_execute ascending forward here ran
            exact Nat.le_trans (Nat.le_of_lt beyond) (ih _ _ _ entry later)

/-- **The message of an action is accepted at most once in a run.** -/
theorem turns_once (ascending : sorted.Pairwise fun first second => first.order ≤ second.order)
    (forward : ∀ action ∈ sorted, Forward action) (steps : Nat) : ∀ index tape stores,
    (turns h sorted ctx steps index tape stores).Pairwise fun first second =>
      first.1 = second.1 → accepted first.2 = true → accepted second.2 = false := by
  induction steps with
  | zero => exact fun _ _ _ => List.Pairwise.nil
  | succ steps ih =>
    intro index tape stores
    cases here : sorted[index]? with
    | none =>
      simp only [turns, here]
      exact List.Pairwise.nil
    | some action =>
      simp only [turns, here, List.pairwise_append, List.pairwise_map]
      refine ⟨(execute_once action).imp fun once _ => once, ?_, ?_⟩
      · cases (ActionEngine.execute h action ctx).run (Program.found exec) tape stores with
        | mk result rest =>
          cases result with
          | error error => exact List.Pairwise.nil
          | ok next => exact ih _ _ _
      · intro first own second later same
        obtain ⟨exchange, _, rfl⟩ := List.mem_map.mp own
        cases ran : (ActionEngine.execute h action ctx).run (Program.found exec) tape stores with
        | mk result rest =>
          rw [ran] at later
          cases result with
          | error error => cases later
          | ok next =>
            have beyond := target_execute ascending forward here ran
            have from_there := turns_from ascending forward _ _ _ _ second later
            dsimp only at same
            omega

/-- A run of the loop, with its trace, that does what its lead says. -/
def Follows (result : Except Err Unit × Program.Tape Input × (Nat → Store))
    (trace : List (Nat × Exchange)) (tape : Program.Tape Input) (stores : Nat → Store) :
    Lead Unit → Prop
  | .fails =>
      (∃ error, result.1 = .error error) ∧ ∀ entry ∈ trace, accepted entry.2 = false
  | .sends pauses first =>
      ((tape.later pauses).openwa.isOk = true →
        ∃ entry ∈ trace, entry.1 = first ∧ accepted entry.2 = true) ∧
      ((tape.later pauses).openwa.isOk = false →
        (∃ error, result.1 = .error error) ∧ ∀ entry ∈ trace, accepted entry.2 = false)
  | .passes pauses _ =>
      result = (.ok (), Skipped pauses tape, skip pauses stores) ∧
        ∀ entry ∈ trace, accepted entry.2 = false

/-- A run that follows its lead after some pauses. -/
theorem follows_later {result : Except Err Unit × Program.Tape Input × (Nat → Store)}
    {own trace : List (Nat × Exchange)} {tape : Program.Tape Input} {stores : Nat → Store}
    {pauses : Nat} {lead : Lead Unit} (quiet : ∀ entry ∈ own, accepted entry.2 = false)
    (follows : Follows result trace (Skipped pauses tape) (skip pauses stores) lead) :
    Follows result (own ++ trace) tape stores (lead.later pauses) := by
  have all (unaccepted : ∀ entry ∈ trace, accepted entry.2 = false) :
      ∀ entry ∈ own ++ trace, accepted entry.2 = false :=
    fun entry member => (List.mem_append.mp member).elim (quiet entry) (unaccepted entry)
  cases lead with
  | fails => exact ⟨follows.1, all follows.2⟩
  | sends more first =>
    obtain ⟨accepts, rejects⟩ := follows
    rw [later_skipped] at accepts rejects
    refine ⟨fun answered => ?_, fun answered => ⟨(rejects answered).1, all (rejects answered).2⟩⟩
    obtain ⟨entry, member, holds⟩ := accepts answered
    exact ⟨entry, List.mem_append_right own member, holds⟩
  | passes more value =>
    obtain ⟨ends, unaccepted⟩ := follows
    refine ⟨?_, all unaccepted⟩
    rw [ends, Nat.add_comm pauses more]
    unfold Skipped
    rw [Function.iterate_add_apply]
    congr 2
    funext index
    exact congrArg stores (Nat.add_assoc index more pauses)

/-- The loop ends with a turn that throws. -/
theorem turn_throws {steps index : Nat} {action : AutomationAction} {tape : Program.Tape Input}
    {stores : Nat → Store} {error : Err} (here : sorted[index]? = some action)
    (throws : ((ActionEngine.execute h action ctx).run (Program.found exec) tape stores).1 =
      .error error) :
    ((ActionEngine.loop h sorted ctx (steps + 1) index).run (Program.found exec) tape stores).1 =
        .error error ∧
      turns h sorted ctx (steps + 1) index tape stores =
        ((ActionEngine.execute h action ctx).exchanges (Program.found exec) tape stores).map
          (Prod.mk index) := by
  rw [loop_turn here, Program.run_bind]
  simp only [turns, here]
  cases ran : (ActionEngine.execute h action ctx).run (Program.found exec) tape stores with
  | mk result rest =>
    rw [ran] at throws
    dsimp only at throws
    subst throws
    exact ⟨rfl, List.append_nil _⟩

/-- **The loop comes first to what its lead says.** -/
theorem turns_leads (steps : Nat) : ∀ index tape stores,
    Follows ((ActionEngine.loop h sorted ctx steps index).run (Program.found exec) tape stores)
      (turns h sorted ctx steps index tape stores) tape stores
      (leads h ctx.vars ctx.toPhone sorted steps index) := by
  induction steps with
  | zero => exact fun _ _ _ => ⟨rfl, fun _ member => by cases member⟩
  | succ steps ih =>
    intro index tape stores
    cases here : sorted[index]? with
    | none =>
      simp only [ActionEngine.loop, turns, leads, here]
      exact ⟨rfl, fun _ member => by cases member⟩
    | some action =>
      have led : Led (ActionEngine.execute h action ctx) tape stores
          (lead h ctx.vars ctx.toPhone index action) := execute_led index action
      have own {exchanges : List Exchange} (unaccepted : Unaccepted exchanges) :
          ∀ entry ∈ exchanges.map (Prod.mk index), accepted entry.2 = false := by
        intro entry member
        obtain ⟨exchange, there, rfl⟩ := List.mem_map.mp member
        exact unaccepted exchange there
      simp only [leads, here]
      cases first : lead h ctx.vars ctx.toPhone index action with
      | fails =>
        rw [first] at led
        obtain ⟨⟨error, throws⟩, unaccepted⟩ := led
        obtain ⟨ends, trace⟩ := turn_throws here throws
        rw [trace]
        exact ⟨⟨error, ends⟩, own unaccepted⟩
      | passes pauses next =>
        rw [first] at led
        obtain ⟨ends, unaccepted⟩ := led
        rw [loop_turn here, Program.run_bind]
        simp only [turns, here, ends]
        exact follows_later (own unaccepted) (ih _ _ _)
      | sends pauses at_index =>
        rw [first] at led
        obtain rfl := lead_sends first
        obtain ⟨before, sent, rest, split, quiet, after, answered, throws⟩ := led
        refine ⟨fun accepts => ?_, fun rejects => ?_⟩
        · refine ⟨(at_index, sent), ?_, rfl, answered.trans accepts⟩
          simp only [turns, here]
          refine List.mem_append_left _ (List.mem_map_of_mem ?_)
          rw [split]
          exact List.mem_append_right _ List.mem_cons_self
        · have unsent := answered.trans rejects
          obtain ⟨error, fails⟩ := throws unsent
          obtain ⟨ends, trace⟩ := turn_throws here fails
          refine ⟨⟨error, ends⟩, ?_⟩
          rw [trace, split]
          refine own fun exchange member => ?_
          rcases List.mem_append.mp member with earlier | later
          · exact quiet exchange earlier
          · rcases List.mem_cons.mp later with rfl | later
            · exact unsent
            · exact after exchange later

end Turns

/-! ### One attempt -/

/-- The phone a run sends to. -/
def recipient (context : Record) : Option Json :=
  firstTruthy (context.get "to") (context.get "from")

theorem sorted_ascending (actions : List AutomationAction) :
    (ActionEngine.sorted actions).Pairwise fun first second => first.order ≤ second.order := by
  have pairwise : (ActionEngine.sorted actions).Pairwise fun first second =>
      decide (first.order ≤ second.order) = true := by
    refine List.pairwise_mergeSort (fun first second third below above => ?_)
      (fun first second => ?_) actions
    · exact decide_eq_true (Int.le_trans (of_decide_eq_true below) (of_decide_eq_true above))
    · simpa using Int.le_total first.order second.order
  exact pairwise.imp of_decide_eq_true

section Jobs

variable (h : Helpers) (data : AutomationJob)

/-- The lookups of a run: the actions and the context, when it is not skipped. -/
def prepare : Svc (Option (List AutomationAction × ActionRunContext)) := do
  let rows ← Svc.call (.findAutomations fun automation => automation.id == data.automationId)
  match rows.head? with
  | none => return none
  | some (automation, actions) =>
      match sessionOf automation data.context with
      | none => return none
      | some dbSessionId => do
          let session ← getByJson dbSessionId
          let creds ← WorkspacesService.getOpenwaCredentials h (some data.workspaceId)
          return some (actions,
            ⟨data.workspaceId, session.id, session.sessionId, creds, recipient data.context,
              data.automationId, data.context⟩)

/-- What follows the lookups. -/
def proceed : Option (List AutomationAction × ActionRunContext) → Svc AutomationResult
  | none => return .skipped
  | some (actions, ctx) => do
      ActionEngine.run h actions ctx
      AutomationsService.markRun data.automationId
      return .ran

/-- The increment of the run counter. -/
abbrev increment : Call :=
  .update .automations (fun automation => automation.id == data.automationId)
    fun automation => { automation with runCount := automation.runCount + 1 }

/-- The trace of what follows the lookups, each exchange with the index of its action, if any. -/
def proceeded : Option (List AutomationAction × ActionRunContext) → Program.Tape Input →
    (Nat → Store) → List (Option Nat × Exchange)
  | none, _, _ => []
  | some (actions, ctx), tape, stores =>
      (turns h (ActionEngine.sorted actions) ctx (ActionEngine.maxSteps actions) 0 tape stores).map
          (Prod.map some id) ++
        match (ActionEngine.run h actions ctx).run (Program.found exec) tape stores with
        | (.ok (), tape, stores) =>
            ((AutomationsService.markRun data.automationId).exchanges (Program.found exec) tape
              stores).map (Prod.mk none)
        | (.error _, _, _) => []

/-- The trace of an attempt. -/
def tagged (attempt : JobAttempt) : List (Option Nat × Exchange) :=
  ((prepare h data).exchanges (Program.found exec) attempt.tape attempt.stores).map
    (Prod.mk none) ++
    match (prepare h data).run (Program.found exec) attempt.tape attempt.stores with
    | (.ok loaded, tape, stores) => proceeded h data loaded tape stores
    | (.error _, _, _) => []

variable {h data}

theorem process_prepare :
    AutomationProcessor.process h data = prepare h data >>= proceed h data := by
  unfold AutomationProcessor.process prepare
  rw [Program.bind_assoc]
  congr 1
  funext rows
  cases rows.head? with
  | none => rfl
  | some loaded =>
    obtain ⟨automation, actions⟩ := loaded
    dsimp only
    cases sessionOf automation data.context with
    | none => rfl
    | some dbSessionId => simp only [Program.bind_assoc]; rfl

theorem proceeded_exchanges (loaded : Option (List AutomationAction × ActionRunContext))
    (tape : Program.Tape Input) (stores : Nat → Store) :
    (proceeded h data loaded tape stores).map Prod.snd =
      (proceed h data loaded).exchanges (Program.found exec) tape stores := by
  cases loaded with
  | none => rfl
  | some loaded =>
    obtain ⟨actions, ctx⟩ := loaded
    unfold proceeded proceed
    rw [Program.exchanges_bind, List.map_append, List.map_map]
    congr 1
    · exact turns_exchanges _ _ _ _
    · cases (ActionEngine.run h actions ctx).run (Program.found exec) tape stores with
      | mk result rest =>
        cases result with
        | error error => rfl
        | ok value =>
          dsimp only
          rw [List.map_map, Program.pure_eq]
          exact (List.map_id _).trans (Program.exchanges_ret (Program.found exec)
            (AutomationsService.markRun data.automationId) (fun _ => AutomationResult.ran) _ _).symm

/-- The trace of an attempt is what it exchanges. -/
theorem tagged_exchanged (attempt : JobAttempt) : (tagged h data attempt).map Prod.snd =
    JobAttempt.exchanged (AutomationProcessor.process h data) attempt := by
  unfold tagged JobAttempt.exchanged
  rw [process_prepare, Program.exchanges_bind, List.map_append, List.map_map]
  congr 1
  · exact List.map_id _
  · cases (prepare h data).run (Program.found exec) attempt.tape attempt.stores with
    | mk result rest =>
      cases result with
      | error error => rfl
      | ok loaded => exact proceeded_exchanges loaded _ _

/-- The lookups of a run that is not skipped are three calls. -/
theorem prepare_run (tape : Program.Tape Input) (stores : Nat → Store)
    {loaded : List AutomationAction × ActionRunContext}
    (loads : ((prepare h data).run (Program.found exec) tape stores).1 = .ok (some loaded)) :
    (prepare h data).run (Program.found exec) tape stores =
        (.ok (some loaded), Skipped 3 tape, skip 3 stores) ∧
      loaded.1 = (stores 0).actionsOf data.automationId ∧ loaded.2.vars = data.context ∧
      loaded.2.toPhone = recipient data.context := by
  unfold prepare at loads ⊢
  simp only [Svc.call, Program.run_bind, Program.run_perform, Program.found] at loads ⊢
  obtain ⟨error, failed⟩ | found := exec_findAutomations
    (fun automation => automation.id == data.automationId) (tape.later 0) (stores 0)
  · rw [failed] at loads
    cases loads
  rw [found] at loads ⊢
  dsimp only at loads ⊢
  cases head : (((stores 0).db .automations).filter fun automation =>
      automation.id == data.automationId).head? with
  | none =>
    rw [List.head?_map, head] at loads
    cases loads
  | some automation =>
    rw [List.head?_map, head] at loads ⊢
    dsimp only [Option.map_some] at loads ⊢
    have same : automation.id = data.automationId :=
      beq_iff_eq.mp (List.mem_filter.mp (List.mem_of_head? head)).2
    generalize sessionOf automation data.context = session at loads ⊢
    cases session with
    | none => cases loads
    | some dbSessionId =>
      dsimp only at loads ⊢
      cases dbSessionId with
      | str id =>
        simp only [getByJson, Program.run_bind] at loads ⊢
        obtain ⟨session, looked⟩ := SessionsService.getById_run id tape.advance (skip 1 stores)
        rw [looked] at loads ⊢
        cases session with
        | error error => cases loads
        | ok session =>
          dsimp only at loads ⊢
          obtain ⟨⟨creds, ran⟩, _⟩ := WorkspacesService.getOpenwaCredentials_run h
            (some data.workspaceId) tape.advance.advance (skip 2 stores)
          rw [ran] at loads ⊢
          cases creds with
          | error error => cases loads
          | ok creds =>
            cases loads
            refine ⟨rfl, ?_, rfl, rfl⟩
            rw [same]
            rfl
      | _ => cases loads

/-- The lookups have no effect. -/
theorem prepare_calls : Reads (prepare h data) := by
  refine Program.calls_bind (calls_call rfl) fun rows => ?_
  cases rows.head? with
  | none => trivial
  | some loaded =>
    dsimp only
    cases sessionOf loaded.1 data.context with
    | none => trivial
    | some dbSessionId =>
      have looks : Reads (getByJson dbSessionId) := by
        cases dbSessionId with
        | str id => exact SessionsService.getById_reads id
        | _ => trivial
      refine Program.calls_bind looks fun session => ?_
      exact Program.calls_bind (WorkspacesService.getOpenwaCredentials_reads h _) fun _ => trivial

theorem markRun_exchanges (data : AutomationJob) (tape : Program.Tape Input)
    (stores : Nat → Store) :
    ∃ rest, (AutomationsService.markRun data.automationId).exchanges
      (Program.found exec) tape stores =
        ⟨increment data, (exec (increment data) (tape.later 0) (stores 0)).1⟩ :: rest ∧
      ∀ exchange ∈ rest, accepted exchange = false ∧ counted exchange = false := by
  unfold AutomationsService.markRun Svc.call
  rw [Program.exchanges_bind, Program.exchanges_perform]
  refine ⟨_, rfl, fun exchange member => ?_⟩
  have calls (now : Time) : Program.Calls (fun call => (∀ send, call ≠ .openwa send) ∧
      RunCount.increments call = false) (Svc.call (.update .automations
        (fun automation => automation.id == data.automationId)
        fun automation => { automation with lastRunAt := some now })) :=
    calls_call ⟨nofun, rfl⟩
  have quiet : (∀ send, exchange.request ≠ .openwa send) ∧
      RunCount.increments exchange.request = false := by
    rw [List.append_eq, List.nil_append] at member
    split at member
    · exact Program.exchanges_calls (Program.calls_bind calls_now fun now => calls now)
        exchange member
    · cases member
  exact ⟨unaccepted_of quiet.1, by simp only [counted, quiet.2, Bool.false_and]⟩

end Jobs

/-! ### Effects -/

/-- Two entries of a trace, the earlier one first, are not twice the same effect: the acceptance of
the message of one action, or the increment of the counter. -/
def Once (first second : Option Nat × Exchange) : Prop :=
  (first.1 = second.1 → accepted first.2 = true → accepted second.2 = false) ∧
    (counted first.2 = true → counted second.2 = false)

/-- An entry that is no effect. -/
def Idle (entry : Option Nat × Exchange) : Prop :=
  accepted entry.2 = false ∧ counted entry.2 = false

section Effects

variable {h : Helpers} {data : AutomationJob} {attempt : JobAttempt}

theorem once_idle_first {first second : Option Nat × Exchange} (idle : Idle first) :
    Once first second := by
  refine ⟨fun _ accepts => ?_, fun counts => ?_⟩
  · rw [idle.1] at accepts
    cases accepts
  · rw [idle.2] at counts
    cases counts

theorem once_idle_second {first second : Option Nat × Exchange} (idle : Idle second) :
    Once first second :=
  ⟨fun _ _ => idle.1, fun _ => idle.2⟩

theorem prepare_idle : ∀ entry ∈ ((prepare h data).exchanges (Program.found exec) attempt.tape
    attempt.stores).map (Prod.mk (none : Option Nat)), Idle entry := by
  intro entry member
  obtain ⟨exchange, there, rfl⟩ := List.mem_map.mp member
  have reads := Program.exchanges_calls prepare_calls exchange there
  obtain ⟨request, reply⟩ := exchange
  cases request with
  | find _ _ => exact ⟨rfl, rfl⟩
  | findAutomations _ => exact ⟨rfl, rfl⟩
  | _ => cases reads

theorem markRun_once (tape : Program.Tape Input) (stores : Nat → Store) :
    (((AutomationsService.markRun data.automationId).exchanges (Program.found exec) tape
      stores).map (Prod.mk (none : Option Nat))).Pairwise Once := by
  obtain ⟨rest, exchanges, quiet⟩ := markRun_exchanges data tape stores
  rw [exchanges, List.map_cons, List.pairwise_cons]
  have idle : ∀ entry ∈ rest.map (Prod.mk (none : Option Nat)), Idle entry := by
    intro entry member
    obtain ⟨exchange, there, rfl⟩ := List.mem_map.mp member
    exact quiet exchange there
  exact ⟨fun entry member => once_idle_second (idle entry member),
    List.pairwise_of_forall_mem_list fun first there _ _ => once_idle_first (idle first there)⟩

theorem markRun_unaccepted (tape : Program.Tape Input) (stores : Nat → Store) :
    Unaccepted ((AutomationsService.markRun data.automationId).exchanges (Program.found exec) tape
      stores) := by
  obtain ⟨rest, exchanges, quiet⟩ := markRun_exchanges data tape stores
  rw [exchanges]
  exact List.forall_mem_cons.mpr ⟨rfl, fun exchange member => (quiet exchange member).1⟩

theorem proceeded_once {actions : List AutomationAction}
    (forward : ∀ action ∈ actions, Forward action)
    (ctx : ActionRunContext) (tape : Program.Tape Input) (stores : Nat → Store) :
    (proceeded h data (some (actions, ctx)) tape stores).Pairwise Once := by
  have ascending := sorted_ascending actions
  have sorted_forward : ∀ action ∈ ActionEngine.sorted actions, Forward action :=
    fun action member => forward action (List.mem_mergeSort.mp member)
  have uncounted : ∀ entry ∈ turns h (ActionEngine.sorted actions) ctx
      (ActionEngine.maxSteps actions) 0 tape stores, counted entry.2 = false :=
    turns_uncounted _ 0 tape stores
  unfold proceeded
  rw [List.pairwise_append]
  refine ⟨?_, ?_, fun first own second marks => ?_⟩
  · rw [List.pairwise_map]
    refine (turns_once ascending sorted_forward (ActionEngine.maxSteps actions) 0 tape
      stores).imp_of_mem fun {first second} there _ holds => ?_
    refine ⟨fun same => holds (Option.some.inj same), fun counts => ?_⟩
    exact absurd ((uncounted first there).symm.trans counts) Bool.false_ne_true
  · split
    · exact markRun_once _ _
    · exact List.Pairwise.nil
  · obtain ⟨entry, there, rfl⟩ := List.mem_map.mp own
    have unaccepted : accepted second.2 = false := by
      split at marks
      · obtain ⟨exchange, member, rfl⟩ := List.mem_map.mp marks
        exact markRun_unaccepted _ _ exchange member
      · cases marks
    refine ⟨fun _ _ => unaccepted, fun counts => ?_⟩
    exact absurd ((uncounted entry there).symm.trans counts) Bool.false_ne_true

/-- **No effect happens twice in an attempt.** -/
theorem attempt_once
    (forward : ∀ action ∈ (attempt.stores 0).actionsOf data.automationId, Forward action) :
    (tagged h data attempt).Pairwise Once := by
  unfold tagged
  rw [List.pairwise_append]
  refine ⟨?_, ?_, fun first lookup _ _ => once_idle_first (prepare_idle first lookup)⟩
  · exact List.pairwise_of_forall_mem_list fun first there _ _ =>
      once_idle_first (prepare_idle first there)
  cases loads : (prepare h data).run (Program.found exec) attempt.tape attempt.stores with
  | mk result rest =>
    cases result with
    | error error => exact List.Pairwise.nil
    | ok loaded =>
      cases loaded with
      | none => exact List.Pairwise.nil
      | some loaded =>
        obtain ⟨_, same, _⟩ := prepare_run attempt.tape attempt.stores (congrArg Prod.fst loads)
        rw [← same] at forward
        exact proceeded_once forward loaded.2 rest.1 rest.2

end Effects

/-! ### The first effect -/

section First

variable (h : Helpers) (data : AutomationJob) (actions : List AutomationAction)

/-- What the runs of a job come to first after their lookups, when these are the stored actions. -/
def opening : Lead Unit :=
  leads h data.context (recipient data.context) (ActionEngine.sorted actions)
    (ActionEngine.maxSteps actions) 0

/-- What a run comes to first succeeds: the message is accepted, or, when it comes to none, the
counter is incremented. -/
def Succeeds (tape : Program.Tape Input) (stores : Nat → Store) : Lead Unit → Prop
  | .fails => False
  | .sends pauses _ => (tape.later pauses).openwa.isOk = true
  | .passes pauses _ => (exec (increment data) (tape.later pauses) (stores pauses)).1.isOk = true

/-- The lookups of an attempt, three calls, succeed, and so does its first effect. -/
def Begins (attempt : JobAttempt) : Prop :=
  (∃ loaded, ((prepare h data).run (Program.found exec) attempt.tape attempt.stores).1 =
    .ok (some loaded)) ∧
  Succeeds data (Skipped 3 attempt.tape) (skip 3 attempt.stores) (opening h data actions)

/-- The first effect of a run. -/
def IsFirst (entry : Option Nat × Exchange) : Prop :=
  match opening h data actions with
  | .fails => False
  | .sends _ index => entry.1 = some index ∧ accepted entry.2 = true
  | .passes _ _ => counted entry.2 = true

variable {h data actions}

/-- The first effect is an effect, and of one kind. -/
theorem first_twice {first second : Option Nat × Exchange} (one : IsFirst h data actions first)
    (two : IsFirst h data actions second) : ¬Once first second := by
  intro once
  unfold IsFirst at one two
  cases lead : opening h data actions with
  | fails =>
    rw [lead] at one
    exact one
  | sends pauses index =>
    rw [lead] at one two
    have none := once.1 (one.1.trans two.1.symm) one.2
    rw [two.2] at none
    cases none
  | passes pauses value =>
    rw [lead] at one two
    have none := once.2 one
    rw [show counted second.2 = true from two] at none
    cases none

/-- Turns whose messages are not accepted have no effect. -/
theorem idle_turns {sorted : List AutomationAction} {ctx : ActionRunContext} {steps index : Nat}
    {tape : Program.Tape Input} {stores : Nat → Store}
    (unaccepted : ∀ entry ∈ turns h sorted ctx steps index tape stores,
      accepted entry.2 = false) :
    ∀ entry ∈ (turns h sorted ctx steps index tape stores).map (Prod.map some id), Idle entry := by
  intro entry member
  obtain ⟨turn, there, rfl⟩ := List.mem_map.mp member
  exact ⟨unaccepted turn there, turns_uncounted _ _ tape stores turn there⟩

/-- When a turn throws, there are only the turns. -/
theorem proceeded_throws {ctx : ActionRunContext} {tape : Program.Tape Input}
    {stores : Nat → Store} {error : Err}
    (throws : ((ActionEngine.run h actions ctx).run (Program.found exec) tape stores).1 =
      .error error) :
    proceeded h data (some (actions, ctx)) tape stores =
      (turns h (ActionEngine.sorted actions) ctx (ActionEngine.maxSteps actions) 0 tape stores).map
        (Prod.map some id) := by
  simp only [proceeded]
  cases ran : (ActionEngine.run h actions ctx).run (Program.found exec) tape stores with
  | mk result rest =>
    rw [ran] at throws
    dsimp only at throws
    subst throws
    exact List.append_nil _

/-- When the turns end after so many calls, the increment of the counter comes next. -/
theorem proceeded_marks {ctx : ActionRunContext} {tape : Program.Tape Input}
    {stores : Nat → Store} {pauses : Nat}
    (ends : (ActionEngine.run h actions ctx).run (Program.found exec) tape stores =
      (.ok (), Skipped pauses tape, skip pauses stores)) :
    ∃ marks, proceeded h data (some (actions, ctx)) tape stores =
        (turns h (ActionEngine.sorted actions) ctx (ActionEngine.maxSteps actions) 0 tape
          stores).map (Prod.map some id) ++
            (none, ⟨increment data,
              (exec (increment data) (tape.later pauses) (stores pauses)).1⟩) :: marks ∧
      ∀ entry ∈ marks, Idle entry := by
  obtain ⟨others, exchanges, quiet⟩ := markRun_exchanges data (Skipped pauses tape)
    (skip pauses stores)
  have input : (Skipped pauses tape).later 0 = tape.later pauses := later_skipped pauses 0 tape
  have store : skip pauses stores 0 = stores pauses := congrArg stores (Nat.zero_add pauses)
  rw [input, store] at exchanges
  refine ⟨others.map (Prod.mk none), ?_, fun entry member => ?_⟩
  · simp only [proceeded, ends]
    rw [exchanges, List.map_cons]
  · obtain ⟨exchange, there, rfl⟩ := List.mem_map.mp member
    exact quiet exchange there

/-- What follows the lookups has an effect exactly when what it comes to first succeeds. -/
theorem proceeded_first (h : Helpers) (actions : List AutomationAction) {ctx : ActionRunContext}
    (vars : ctx.vars = data.context)
    (phone : ctx.toPhone = recipient data.context) (tape : Program.Tape Input)
    (stores : Nat → Store) :
    (Succeeds data tape stores (opening h data actions) →
      ∃ entry ∈ proceeded h data (some (actions, ctx)) tape stores, IsFirst h data actions entry) ∧
    (¬Succeeds data tape stores (opening h data actions) →
      ∀ entry ∈ proceeded h data (some (actions, ctx)) tape stores, Idle entry) := by
  have follows : Follows ((ActionEngine.run h actions ctx).run (Program.found exec) tape stores)
      (turns h (ActionEngine.sorted actions) ctx (ActionEngine.maxSteps actions) 0 tape stores) tape
      stores (leads h ctx.vars ctx.toPhone (ActionEngine.sorted actions)
        (ActionEngine.maxSteps actions) 0) :=
    turns_leads _ 0 tape stores
  rw [vars, phone] at follows
  change Follows _ _ _ _ (opening h data actions) at follows
  cases lead : opening h data actions with
  | fails =>
    rw [lead] at follows
    obtain ⟨⟨error, throws⟩, unaccepted⟩ := follows
    refine ⟨False.elim, fun _ => ?_⟩
    rw [proceeded_throws throws]
    exact idle_turns unaccepted
  | sends pauses index =>
    rw [lead] at follows
    refine ⟨fun accepts => ?_, fun rejects => ?_⟩
    · obtain ⟨entry, there, same, accepts⟩ := follows.1 accepts
      refine ⟨Prod.map some id entry, List.mem_append_left _ (List.mem_map_of_mem there), ?_⟩
      unfold IsFirst
      rw [lead]
      exact ⟨congrArg some same, accepts⟩
    · obtain ⟨⟨error, throws⟩, unaccepted⟩ := follows.2 (Bool.eq_false_of_not_eq_true rejects)
      rw [proceeded_throws throws]
      exact idle_turns unaccepted
  | passes pauses value =>
    rw [lead] at follows
    obtain ⟨ends, unaccepted⟩ := follows
    obtain ⟨marks, trace, quiet⟩ := proceeded_marks ends
    rw [trace]
    refine ⟨fun succeeds => ?_, fun fails entry member => ?_⟩
    · refine ⟨_, List.mem_append_right _ List.mem_cons_self, ?_⟩
      unfold IsFirst
      rw [lead]
      exact Bool.and_eq_true_iff.mpr ⟨rfl, succeeds⟩
    · rcases List.mem_append.mp member with turn | marked
      · exact idle_turns unaccepted entry turn
      · rcases List.mem_cons.mp marked with rfl | later
        · exact ⟨rfl, (Bool.true_and _).trans (Bool.eq_false_of_not_eq_true fails)⟩
        · exact quiet entry later

/-- **The first effect decides**: when it fails, the attempt has no effect. -/
theorem attempt_first {attempt : JobAttempt}
    (same : (attempt.stores 0).actionsOf data.automationId = actions) :
    (Begins h data actions attempt → ∃ entry ∈ tagged h data attempt,
      IsFirst h data actions entry) ∧
      (¬Begins h data actions attempt → ∀ entry ∈ tagged h data attempt, Idle entry) := by
  by_cases loads : ∃ loaded,
      ((prepare h data).run (Program.found exec) attempt.tape attempt.stores).1 = .ok (some loaded)
  · obtain ⟨⟨loaded, ctx⟩, succeeds⟩ := loads
    obtain ⟨ran, actions_same, vars, phone⟩ := prepare_run attempt.tape attempt.stores succeeds
    obtain rfl : loaded = actions := actions_same.trans same
    obtain ⟨effect, none⟩ := proceeded_first h loaded vars phone (Skipped 3 attempt.tape)
      (skip 3 attempt.stores)
    unfold tagged Begins
    rw [ran]
    refine ⟨fun begins => ?_, fun idles entry member => ?_⟩
    · obtain ⟨entry, there, is_first⟩ := effect begins.2
      exact ⟨entry, List.mem_append_right _ there, is_first⟩
    · rcases List.mem_append.mp member with lookup | later
      · exact prepare_idle entry lookup
      · exact none (fun succeeds => idles ⟨⟨_, rfl⟩, succeeds⟩) entry later
  · refine ⟨fun begins => absurd begins.1 loads, fun _ entry member => ?_⟩
    unfold tagged at member
    rcases List.mem_append.mp member with lookup | later
    · exact prepare_idle entry lookup
    · cases ran : (prepare h data).run (Program.found exec) attempt.tape attempt.stores with
      | mk result rest =>
        rw [ran] at later loads
        cases result with
        | error error => cases later
        | ok loaded =>
          cases loaded with
          | none => cases later
          | some loaded => exact absurd ⟨loaded, rfl⟩ loads

end First

/-- **The effects of a job happen at most once exactly when its first one does**: when the
automation has the same actions in all attempts and its conditions only jump forward, the message of
every action is accepted at most once over all attempts and the counter is incremented at most once,
if and only if at most one of the attempts begins. -/
theorem delivered_once_iff (h : Helpers) (data : AutomationJob) (actions : List AutomationAction)
    (forward : ∀ action ∈ actions, Forward action) (attempts : List JobAttempt)
    (same : ∀ attempt ∈ attempts, (attempt.stores 0).actionsOf data.automationId = actions) :
    ((made (JobAttempt.fails (AutomationProcessor.process h data)) attempts).flatMap
        (tagged h data)).Pairwise Once ↔
      (made (JobAttempt.fails (AutomationProcessor.process h data)) attempts).Pairwise
        fun first second => Begins h data actions first → ¬Begins h data actions second := by
  have of_made {attempt : JobAttempt}
      (member : attempt ∈ made (JobAttempt.fails (AutomationProcessor.process h data)) attempts) :
      (attempt.stores 0).actionsOf data.automationId = actions :=
    same attempt (made_subset _ _ member)
  rw [List.pairwise_flatMap]
  constructor
  · rintro ⟨_, across⟩
    refine across.imp_of_mem fun {first second} one two apart begins begins_again => ?_
    obtain ⟨entry, there, is_first⟩ := (attempt_first (of_made one)).1 begins
    obtain ⟨again, later, first_again⟩ := (attempt_first (of_made two)).1 begins_again
    exact first_twice is_first first_again (apart entry there again later)
  · intro apart
    refine ⟨fun attempt member => attempt_once ?_, apart.imp_of_mem ?_⟩
    · rw [of_made member]
      exact forward
    · intro first second one two excludes entry there again later
      by_cases begins : Begins h data actions first
      · exact once_idle_second ((attempt_first (of_made two)).2 (excludes begins) again later)
      · exact once_idle_first ((attempt_first (of_made one)).2 begins entry there)

namespace Example

/-- The only action: a text message. -/
def action : AutomationAction := ⟨"1", "a", 1, .sendText, [("message", .str "hello")]⟩

/-- A workspace with a session and an automation with this action. -/
def start : Store :=
  ⟨fun
    | .workspaces => [⟨"w", "team", "u", "http://openwa", "key", true⟩]
    | .sessions => [⟨"s", "w", "line", "line", none, .connected, none⟩]
    | .automations => [⟨"a", "w", some "s", "welcome", none, true, .message, [], 0, none⟩]
    | .actions => [action]
    | _ => [], [], 0, [], fun _ _ => none⟩

def job : AutomationJob := ⟨"a", "w", [("from", .str "628123456789")]⟩

/-- An attempt that finds one call answered in another way than the others. -/
def attempt (call : Nat) (input : Input) : JobAttempt :=
  ⟨⟨WaAutomation.Example.fine,
    Function.update (fun _ => WaAutomation.Example.fine) call input⟩, fun _ => start⟩

/-- The lookups are the calls 0 to 2, then the message, its log row, the increment and the stamp. -/
def message : Nat := 3

def stamp : Nat := 6

theorem forward : Forward action := fun kind => by cases kind

theorem sends : opening WaAutomation.Example.helpers job [action] = .sends 0 0 := by
  unfold opening ActionEngine.sorted
  rw [List.mergeSort_singleton]
  rfl

end Example

theorem delivered_once_iff_example :
    ((made (JobAttempt.fails (AutomationProcessor.process WaAutomation.Example.helpers Example.job))
        [Example.attempt Example.message WaAutomation.Example.rejected,
          Example.attempt Example.stamp WaAutomation.Example.fine]).flatMap
      (tagged WaAutomation.Example.helpers Example.job)).Pairwise Once := by
  refine (delivered_once_iff WaAutomation.Example.helpers Example.job [Example.action]
    (List.forall_mem_singleton.mpr Example.forward) _ ?_).mpr ?_
  · intro attempt member
    simp only [List.mem_cons, List.not_mem_nil, or_false] at member
    obtain rfl | rfl := member <;> rfl
  · refine List.Pairwise.sublist (made_initial _ _).sublist
      (List.pairwise_pair.mpr fun begins => ?_)
    have accepts := begins.2
    rw [Example.sends] at accepts
    cases accepts

/-- **A message sent twice, and a run counted twice**: the action has one message, everything is
done in the first attempt, and then the time of the run cannot be written. -/
theorem sent_and_counted_twice :
    let attempts := made
      (JobAttempt.fails (AutomationProcessor.process WaAutomation.Example.helpers Example.job))
      [Example.attempt Example.stamp WaAutomation.Example.faulty,
        Example.attempt Example.stamp WaAutomation.Example.fine,
        Example.attempt Example.stamp WaAutomation.Example.fine]
    let trace := attempts.flatMap (tagged WaAutomation.Example.helpers Example.job)
    Forward Example.action ∧ attempts.length = 2 ∧
      trace.countP (fun entry => entry.1 == some 0 && accepted entry.2) = 2 ∧
      trace.countP (fun entry => counted entry.2) = 2 :=
  ⟨Example.forward, by decide +kernel⟩

end WaAutomation.Retries
